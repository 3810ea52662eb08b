import Denn.Moderation.Job

/-!
# Enqueueing moderation jobs

A detail write coalesces the work of its item: pending jobs for other texts are superseded and the
job for the current text is created, revived or settled, all in the transaction of the write. The
read path admits a queued job for items that have none.
-/

namespace Denn

open Core

def requeueableStatuses : List JobStatus := [.queued, .retry]

def Job.supersede (job : Job) : Job :=
  { job with status := .superseded, leaseToken := none, leaseUntil := none }

/-- Settled by a judgment that is already there. -/
def Job.settle (now : Time) (job : Job) : Job :=
  { job with status := .done, leaseToken := none, leaseUntil := none, completedAt := some now }

def Job.revive (now : Time) (job : Job) : Job :=
  { job with
    status := .queued, availableAt := now, leaseToken := none, leaseUntil := none,
    lastErrorCode := "", completedAt := none }

/-- Supersede the pending jobs of an item for other texts than the current one. -/
def supersedeOthers (item : ItemId) (sourceHash : Option SourceHash)
    (jobs : Table JobIdentity Job) : Table JobIdentity Job :=
  jobs.updateWhere
    (fun key job => key.contentItem = item && sourceHash ≠ some key.sourceDataHash
      && job.status ∈ requeueableStatuses)
    fun _ job => job.supersede

/-- `get_or_create` of the job under an identity, reviving a superseded one. -/
def admitJob (now : Time) (identity : JobIdentity) (jobs : JobTable) : Job × JobTable :=
  match jobs.rows.get? identity with
  | none =>
    let job : Job := { id := jobs.nextId, availableAt := now }
    (job, { rows := jobs.rows.set identity job, nextId := jobs.nextId + 1 })
  | some job =>
    if job.status = .superseded then
      (job.revive now, { jobs with rows := jobs.rows.set identity (job.revive now) })
    else (job, jobs)

/-- The job of the current text, if there is one, and the table after the transaction. -/
def enqueueCurrentModerationJob (settings : ModerationSettings)
    (judgments : Table JudgmentIdentity Judgment) (now : Time) (item : ItemId)
    (detailIsComplete : Bool) (sourceDataHash : Option SourceHash) (jobs : JobTable) :
    Option Job × JobTable :=
  -- an empty hash counts as none
  let sourceDataHash := sourceDataHash.filter (· ≠ "")
  let jobs := { jobs with rows := supersedeOthers item sourceDataHash jobs.rows }
  match sourceDataHash with
  | none => (none, jobs)
  | some hash =>
    if !settings.classificationEnabled || !detailIsComplete
        || settings.moderationModel = "" || settings.questionRevision = "" then
      (none, jobs)
    else
      let identity := settings.identity item hash
      if hasCurrentSuccess judgments identity then
        (none, { jobs with
          rows := jobs.rows.updateWhere
            (fun key job => key = identity && job.status ∈ requeueableStatuses)
            fun _ job => job.settle now })
      else
        let (job, jobs) := admitJob now identity jobs
        (some job, jobs)

/-- An item as a caller of the read path has it, annotated by `with_moderation_summary`. -/
structure AnnotatedItem where
  item : ItemId
  currentModerationSourceHash : Option SourceHash
  moderationHasJudgment : Bool

/-- The identities for which the read path finds neither a job nor a judgment. -/
def missingModerationJobs (settings : ModerationSettings)
    (judgments : Table JudgmentIdentity Judgment) (jobs : Table JobIdentity Job)
    (contentItems : List AnnotatedItem) : List JobIdentity :=
  if !settings.classificationEnabled || settings.moderationModel = ""
      || settings.questionRevision = "" then []
  else
    contentItems.filterMap fun annotated =>
      match annotated.currentModerationSourceHash.filter (· ≠ "") with
      | none => none
      | some hash =>
        let identity := settings.identity annotated.item hash
        if (jobs.get? identity).isSome
            || (annotated.moderationHasJudgment && hasCurrentSuccess judgments identity) then none
        else some identity

/-- `bulk_create(..., ignore_conflicts=True)` of queued jobs. -/
def createMissing (availableAt : Time) (identities : List JobIdentity) (jobs : JobTable) :
    JobTable :=
  identities.foldl
    (fun jobs identity =>
      match jobs.rows.get? identity with
      | some _ => jobs
      | none =>
        { rows := jobs.rows.set identity { id := jobs.nextId, availableAt }
          nextId := jobs.nextId + 1 })
    jobs

/-! ### What the writes do to a row -/

/-- How a row changes when jobs are enqueued: the writes that are not made by workers. -/
inductive EnqueueChange (settings : ModerationSettings)
    (judgments : Table JudgmentIdentity Judgment) (now : Time) (item : ItemId)
    (sourceDataHash : Option SourceHash) (key : JobIdentity) : Option Job → Option Job → Prop
  | keep (row : Option Job) : EnqueueChange settings judgments now item sourceDataHash key row row
  | supersede {job : Job} (hitem : key.contentItem = item)
      (hother : sourceDataHash.filter (· ≠ "") ≠ some key.sourceDataHash)
      (hpending : job.status ∈ requeueableStatuses) :
      EnqueueChange settings judgments now item sourceDataHash key (some job) (some job.supersede)
  | settle {job : Job} {hash : SourceHash} (hhash : sourceDataHash = some hash)
      (hkey : key = settings.identity item hash) (hjudged : hasCurrentSuccess judgments key = true)
      (hpending : job.status ∈ requeueableStatuses) :
      EnqueueChange settings judgments now item sourceDataHash key (some job) (some (job.settle now))
  | create {id : ℕ} {hash : SourceHash} (hhash : sourceDataHash = some hash)
      (hkey : key = settings.identity item hash) :
      EnqueueChange settings judgments now item sourceDataHash key none
        (some { id, availableAt := now })
  | revive {job : Job} {hash : SourceHash} (hhash : sourceDataHash = some hash)
      (hkey : key = settings.identity item hash) (hsuperseded : job.status = .superseded) :
      EnqueueChange settings judgments now item sourceDataHash key (some job) (some (job.revive now))

variable {settings : ModerationSettings} {judgments : Table JudgmentIdentity Judgment} {now : Time}
  {item : ItemId} {sourceDataHash : Option SourceHash}

variable (settings judgments now item sourceDataHash) in
lemma supersedeOthers_change (jobs : Table JobIdentity Job) (key : JobIdentity) :
    EnqueueChange settings judgments now item sourceDataHash key (jobs.get? key)
      ((supersedeOthers item (sourceDataHash.filter (· ≠ "")) jobs).get? key) := by
  rw [supersedeOthers, Table.get?_updateWhere]
  cases jobs.get? key with
  | none => exact .keep none
  | some job =>
    rw [Option.map_some]
    split_ifs with h
    · simp only [Bool.and_eq_true, decide_eq_true_eq] at h
      exact .supersede h.1.1 (by simpa using h.1.2) h.2
    · exact .keep _

/-- The jobs for the current text are not touched by the superseding update. -/
lemma get?_supersedeOthers_current (jobs : Table JobIdentity Job) {key : JobIdentity}
    (h : key.sourceDataHash ≠ "") (hhash : sourceDataHash = some key.sourceDataHash) :
    (supersedeOthers item (sourceDataHash.filter (· ≠ "")) jobs).get? key = jobs.get? key := by
  rw [supersedeOthers, Table.get?_updateWhere, hhash]
  cases jobs.get? key <;> simp [h]

lemma admitJob_get?_ne (now : Time) (jobs : JobTable) {identity key : JobIdentity}
    (h : key ≠ identity) : (admitJob now identity jobs).2.rows.get? key = jobs.rows.get? key := by
  unfold admitJob
  cases jobs.rows.get? identity with
  | none => exact Table.get?_set_ne _ _ h
  | some job =>
    simp only
    split_ifs
    · exact Table.get?_set_ne _ _ h
    · rfl

/-- The row of an admitted job. -/
lemma admitJob_get?_self (now : Time) (jobs : JobTable) (identity : JobIdentity) :
    (admitJob now identity jobs).2.rows.get? identity = some (admitJob now identity jobs).1 := by
  unfold admitJob
  cases hrow : jobs.rows.get? identity with
  | none => exact Table.get?_set_self ..
  | some job =>
    simp only
    split_ifs
    · exact Table.get?_set_self ..
    · exact hrow

/-- Every row is kept or changed in one of the ways above by a detail write. -/
theorem enqueueCurrentModerationJob_change (detailIsComplete : Bool) (jobs : JobTable)
    (key : JobIdentity) :
    EnqueueChange settings judgments now item sourceDataHash key (jobs.rows.get? key)
      ((enqueueCurrentModerationJob settings judgments now item detailIsComplete sourceDataHash
        jobs).2.rows.get? key) := by
  have hother := supersedeOthers_change settings judgments now item sourceDataHash jobs.rows key
  unfold enqueueCurrentModerationJob
  cases hfilter : sourceDataHash.filter (· ≠ "") with
  | none => simpa only [hfilter] using hother
  | some hash =>
    obtain ⟨hhash, hne⟩ := Option.filter_eq_some_iff.mp hfilter
    have hcurrent : (supersedeOthers item (some hash) jobs.rows).get? (settings.identity item hash)
        = jobs.rows.get? (settings.identity item hash) := by
      rw [← hfilter]
      exact get?_supersedeOthers_current jobs.rows (by simpa [ModerationSettings.identity] using hne)
        hhash
    rw [hfilter] at hother
    simp only
    split_ifs with hdisabled hjudged
    · exact hother
    · rw [Table.get?_updateWhere]
      by_cases hkey : key = settings.identity item hash
      · subst hkey
        rw [hcurrent]
        cases jobs.rows.get? (settings.identity item hash) with
        | none => exact .keep none
        | some job =>
          rw [Option.map_some]
          split_ifs with hpending
          · exact .settle hhash rfl hjudged (by simpa using hpending)
          · exact .keep _
      · simpa [hkey] using hother
    · by_cases hkey : key = settings.identity item hash
      · subst hkey
        rw [admitJob_get?_self]
        simp only [admitJob, hcurrent]
        cases jobs.rows.get? (settings.identity item hash) with
        | none => exact .create hhash rfl
        | some job =>
          simp only
          split_ifs with hsuperseded
          · exact .revive hhash rfl hsuperseded
          · exact .keep _
      · rw [admitJob_get?_ne _ _ hkey]
        exact hother

/-- After the write of a complete detail, the current text is judged or has a job that is not
    superseded. -/
theorem enqueueCurrentModerationJob_admits (jobs : JobTable) {hash : SourceHash}
    (henabled : settings.classificationEnabled = true) (hmodel : settings.moderationModel ≠ "")
    (hrevision : settings.questionRevision ≠ "") (hhash : hash ≠ "") :
    hasCurrentSuccess judgments (settings.identity item hash) = true ∨
    ∃ job, (enqueueCurrentModerationJob settings judgments now item true (some hash)
        jobs).2.rows.get? (settings.identity item hash) = some job ∧ job.status ≠ .superseded := by
  have hfilter : (some hash).filter (· ≠ "") = some hash := by simp [hhash]
  unfold enqueueCurrentModerationJob
  simp only [hfilter, henabled, hmodel, hrevision, Bool.not_true, decide_false, Bool.or_self,
    Bool.false_eq_true, if_false]
  split_ifs with hjudged
  · exact .inl hjudged
  · refine .inr ⟨_, admitJob_get?_self .., ?_⟩
    unfold admitJob
    split
    · simp
    · split_ifs with hsuperseded
      · simp [Job.revive]
      · exact hsuperseded

/-- `createMissing` only inserts rows, under the given identities. -/
theorem createMissing_change (availableAt : Time) (identities : List JobIdentity) (jobs : JobTable)
    (key : JobIdentity) :
    (createMissing availableAt identities jobs).rows.get? key = jobs.rows.get? key ∨
    (key ∈ identities ∧ jobs.rows.get? key = none ∧ ∃ id,
      (createMissing availableAt identities jobs).rows.get? key = some { id, availableAt }) := by
  unfold createMissing
  induction identities generalizing jobs with
  | nil => exact .inl rfl
  | cons identity identities ih =>
    rw [List.foldl_cons]
    cases hrow : jobs.rows.get? identity with
    | some job =>
      rcases ih jobs with h | ⟨hmem, hnew⟩
      · exact .inl h
      · exact .inr ⟨List.mem_cons_of_mem identity hmem, hnew⟩
    | none =>
      simp only
      have hset : ∀ id, (jobs.rows.set identity { id, availableAt }).get? key
          = if key = identity then some { id, availableAt } else jobs.rows.get? key :=
        fun id => Table.get?_set ..
      by_cases hkey : key = identity
      · subst hkey
        refine .inr ⟨List.mem_cons_self .., hrow, jobs.nextId, ?_⟩
        rcases ih { rows := jobs.rows.set key { id := jobs.nextId, availableAt },
                    nextId := jobs.nextId + 1 } with h | ⟨-, h, -⟩
        · rw [h, hset, if_pos rfl]
        · simp at h
      · have hsame : (jobs.rows.set identity { id := jobs.nextId, availableAt }).get? key
            = jobs.rows.get? key := by rw [hset, if_neg hkey]
        rcases ih { rows := jobs.rows.set identity { id := jobs.nextId, availableAt },
                    nextId := jobs.nextId + 1 } with h | ⟨hmem, hnone, hnew⟩
        · exact .inl (h.trans hsame)
        · exact .inr ⟨List.mem_cons_of_mem identity hmem, hsame.symm.trans hnone, hnew⟩

end Denn
