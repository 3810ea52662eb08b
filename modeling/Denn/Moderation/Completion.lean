import Denn.Moderation.Changes
import Denn.Moderation.Detail

/-!
# Completion times of moderation jobs

`_finish` records the completion time with each of the four terminal statuses, the settling by a
stored judgment too. The expiry of a lease and the superseding update of a detail write set a
terminal status without it.
-/

namespace Denn

open Core

variable {μ χ : Type} {config : ModerationConfig μ χ} {s s' : ModerationState μ χ}

/-- The statuses with which `_finish` records the time. -/
def terminalStatuses : List JobStatus := [.done, .superseded, .failed, .outcomeUnknown]

/-- The completion time is set exactly on terminal rows. -/
def Job.CompletionColumn (job : Job) : Prop :=
  job.completedAt.isSome = true ↔ job.status ∈ terminalStatuses

lemma completionColumn_of_new (id : ℕ) (availableAt : Time) :
    ({ id, availableAt } : Job).CompletionColumn := by
  simp [Job.CompletionColumn, terminalStatuses]

lemma Job.completionColumn_settle (now : Time) (job : Job) : (job.settle now).CompletionColumn := by
  simp [Job.CompletionColumn, Job.settle, terminalStatuses]

lemma Job.completionColumn_revive (now : Time) (job : Job) : (job.revive now).CompletionColumn := by
  simp [Job.CompletionColumn, Job.revive, terminalStatuses]

lemma Job.completionColumn_finish (now : Time) (status : FinalStatus) (code : String) (job : Job) :
    (job.finish now status.toJobStatus code).CompletionColumn := by
  cases status <;> simp [Job.CompletionColumn, Job.finish, FinalStatus.toJobStatus, terminalStatuses]

lemma Job.completionColumn_scheduleRetry (now : Time) (code : String) (delay : ℕ) (job : Job) :
    (job.scheduleRetry now code delay).CompletionColumn := by
  simp [Job.CompletionColumn, Job.scheduleRetry, terminalStatuses]

lemma not_mem_terminalStatuses_of_pending {status : JobStatus} (h : status ∈ requeueableStatuses) :
    status ∉ terminalStatuses := by
  cases status <;> simp_all [requeueableStatuses, terminalStatuses]

/-- A row without a terminal status has no completion time. -/
lemma Job.CompletionColumn.completedAt_eq_none {job : Job} (h : job.CompletionColumn)
    (hstatus : job.status ∉ terminalStatuses) : job.completedAt = none := by
  rw [Job.CompletionColumn] at h
  by_contra hsome
  exact hstatus (h.mp (Option.isSome_iff_ne_none.mpr hsome))

lemma Job.CompletionColumn.lease {job : Job} (h : job.CompletionColumn)
    (hpending : job.status ∈ requeueableStatuses) (token : Token) (leaseUntil : Time) :
    (job.lease token leaseUntil).CompletionColumn := by
  have hnone := h.completedAt_eq_none (not_mem_terminalStatuses_of_pending hpending)
  simp [Job.CompletionColumn, Job.lease, hnone, terminalStatuses]

/-- A terminal status written over a row that was not completed. -/
lemma Job.CompletionColumn.not_supersede {job : Job} (h : job.CompletionColumn)
    (hpending : job.status ∈ requeueableStatuses) : ¬ job.supersede.CompletionColumn := by
  have hnone := h.completedAt_eq_none (not_mem_terminalStatuses_of_pending hpending)
  simp [Job.CompletionColumn, Job.supersede, hnone, terminalStatuses]

lemma Job.CompletionColumn.not_expire {job : Job} (h : job.CompletionColumn)
    (hleased : job.status = .leased) : ¬ job.expire.CompletionColumn := by
  have hnone := h.completedAt_eq_none (by simp [hleased, terminalStatuses])
  simp [Job.CompletionColumn, Job.expire, hnone, terminalStatuses]

namespace ModerationState

/-- Every row has its completion time exactly if its status is terminal. -/
def CompletionInvariant (s : ModerationState μ χ) : Prop :=
  ∀ key job, s.jobs.rows.get? key = some job → job.CompletionColumn

/-- A lease is over that has not been expired yet. -/
def hasOverdueLease (s : ModerationState μ χ) : Bool :=
  s.jobs.rows.any fun _ job => job.status = .leased && job.leaseUntil.any (· ≤ s.clock)

/-- The item has a pending job for another text than the one with the hash. -/
def hasPendingOther (s : ModerationState μ χ) (item : ItemId) (sourceHash : Option SourceHash) :
    Bool :=
  s.jobs.rows.any fun key job =>
    key.contentItem = item && sourceHash.filter (· ≠ "") ≠ some key.sourceDataHash
      && job.status ∈ requeueableStatuses

/-- The step finds no lease to expire and no pending job to supersede. -/
def keepsCompletionTimes (config : ModerationConfig μ χ) (s : ModerationState μ χ) :
    ModerationAction μ χ → Bool
  | .writeDetail item main children =>
    !s.hasPendingOther item (config.semantics.currentHash main children)
  | .expireLeases => !s.hasOverdueLease
  | .claimJobs _ _ _ _ => !s.hasOverdueLease
  | _ => true

lemma hasOverdueLease_eq_true {key : JobIdentity} {job : Job} {leaseUntil : Time}
    (hrow : s.jobs.rows.get? key = some job) (hleased : job.status = .leased)
    (hlease : job.leaseUntil = some leaseUntil) (hover : leaseUntil ≤ s.clock) :
    s.hasOverdueLease = true := by
  rw [hasOverdueLease, Table.any_eq_true_iff]
  exact ⟨key, job, hrow, by simp [hleased, hlease, hover]⟩

lemma hasPendingOther_eq_true {key : JobIdentity} {job : Job} {item : ItemId}
    {sourceHash : Option SourceHash} (hrow : s.jobs.rows.get? key = some job)
    (hitem : key.contentItem = item)
    (hother : sourceHash.filter (· ≠ "") ≠ some key.sourceDataHash)
    (hpending : job.status ∈ requeueableStatuses) :
    s.hasPendingOther item sourceHash = true := by
  rw [hasPendingOther, Table.any_eq_true_iff]
  refine ⟨key, job, hrow, ?_⟩
  simp only [Bool.and_eq_true, decide_eq_true_eq]
  exact ⟨⟨hitem, hother⟩, hpending⟩

lemma not_keepsCompletionTimes_of_expires {a : ModerationAction μ χ} (ha : a.expires = true)
    (hoverdue : s.hasOverdueLease = true) : s.keepsCompletionTimes config a = false := by
  cases a <;> simp_all [ModerationAction.expires, keepsCompletionTimes]

/-- The writes to one row, but for expiry and superseding, keep the relation. -/
lemma JobChange.completionColumn {a : ModerationAction μ χ} {key : JobIdentity} {job' : Job}
    (h : JobChange config s a key (s.jobs.rows.get? key) (some job'))
    (hok : s.keepsCompletionTimes config a = true)
    (hcolumn : ∀ job, s.jobs.rows.get? key = some job → job.CompletionColumn) :
    job'.CompletionColumn := by
  generalize hrow : s.jobs.rows.get? key = row at h hcolumn
  generalize hrow' : some job' = row' at h
  cases h with
  | keep => exact hcolumn job' hrow'.symm
  | enqueue h =>
    cases h with
    | keep => exact hcolumn job' hrow'.symm
    | supersede hitem hother hpending =>
      simp [keepsCompletionTimes, hasPendingOther_eq_true hrow hitem hother hpending] at hok
    | settle =>
      cases hrow'
      exact Job.completionColumn_settle _ _
    | create =>
      cases hrow'
      exact completionColumn_of_new _ _
    | revive =>
      cases hrow'
      exact Job.completionColumn_revive _ _
  | insert =>
    cases hrow'
    exact completionColumn_of_new _ _
  | expire hexpires hleased hlease hover =>
    rw [not_keepsCompletionTimes_of_expires hexpires
      (hasOverdueLease_eq_true hrow hleased hlease hover)] at hok
    cases hok
  | claim token hpending =>
    cases hrow'
    exact (hcolumn _ rfl).lease hpending _ _
  | finish =>
    cases hrow'
    exact Job.completionColumn_finish _ _ _ _
  | retry =>
    cases hrow'
    exact Job.completionColumn_scheduleRetry _ _ _ _

lemma CompletionInvariant.step {a : ModerationAction μ χ} (h : CompletionInvariant s)
    (hok : s.keepsCompletionTimes config a = true) (hstep : s.step config a = some s') :
    CompletionInvariant s' := by
  intro key job' hrow'
  have hchange := step_jobChange hstep key
  rw [hrow'] at hchange
  exact hchange.completionColumn hok (h key)

/-! ### The steps that break the relation -/

lemma get?_expireLeases_of_overdue {key : JobIdentity} {job : Job}
    (hrow : s.jobs.rows.get? key = some job) (hleased : job.status = .leased)
    (hover : job.leaseUntil.any (· ≤ s.clock) = true) :
    s.expireLeases.jobs.rows.get? key = some job.expire := by
  simp [expireLeases, expireAmbiguousLeases, Table.get?_updateWhere, hrow, hleased, hover]

/-- A row that is expired while jobs are claimed is not claimed with them. -/
lemma get?_claimModerationJobs_of_overdue {worker : WorkerId} {batchSize leaseSeconds : ℕ}
    {locked : List JobIdentity} {key : JobIdentity} {job : Job}
    (hrow : s.jobs.rows.get? key = some job) (hleased : job.status = .leased)
    (hover : job.leaseUntil.any (· ≤ s.clock) = true) :
    (s.claimModerationJobs config worker batchSize leaseSeconds locked).jobs.rows.get? key
      = some job.expire := by
  apply claimModerationJobs_induction config fun t => t.jobs.rows.get? key = some job.expire
  · exact get?_expireLeases_of_overdue hrow hleased hover
  · exact fun _ h => h
  · intro t identity job' _ hrow' hpending h
    have hne : key ≠ identity := by
      rintro rfl
      rw [h] at hrow'
      cases hrow'
      simp [Job.expire, requeueableStatuses] at hpending
    simpa only [grantLease, Table.get?_set_ne _ _ hne] using h

/-- A pending job for another text is superseded by a detail write, whatever comes after. -/
lemma get?_writeDetail_of_pendingOther {key : JobIdentity} {job : Job} {main : μ} {children : χ}
    (hrow : s.jobs.rows.get? key = some job)
    (hother : (config.semantics.currentHash main children).filter (· ≠ "")
      ≠ some key.sourceDataHash)
    (hpending : job.status ∈ requeueableStatuses) :
    (s.writeDetail config key.contentItem main children).jobs.rows.get? key
      = some job.supersede := by
  simp only [writeDetail, enqueueCurrentModerationJob]
  generalize (config.semantics.currentHash main children).filter (· ≠ "") = sourceHash at hother ⊢
  have hsuperseded : (supersedeOthers key.contentItem sourceHash s.jobs.rows).get? key
      = some job.supersede := by
    simp [supersedeOthers, Table.get?_updateWhere, hrow, hother, hpending]
  cases sourceHash with
  | none => exact hsuperseded
  | some hash =>
    have hne : key ≠ config.settings.identity key.contentItem hash := by
      intro heq
      exact hother (congrArg (fun k => some (JobIdentity.sourceDataHash k)) heq).symm
    simp only
    split_ifs
    · exact hsuperseded
    · simp only [Table.get?_updateWhere, hsuperseded, hne, decide_false, Bool.false_and,
        Option.map_some, Bool.false_eq_true, if_false]
    · rw [admitJob_get?_ne _ _ hne]
      exact hsuperseded

/-- From a state with the relation, a step keeps it exactly if it meets the condition. -/
theorem CompletionInvariant.step_iff {a : ModerationAction μ χ} (h : CompletionInvariant s)
    (hstep : s.step config a = some s') :
    CompletionInvariant s' ↔ s.keepsCompletionTimes config a = true := by
  refine ⟨fun h' => ?_, fun hok => h.step hok hstep⟩
  by_contra hok
  have hexpired : s.hasOverdueLease = true →
      ∃ key job, s.jobs.rows.get? key = some job ∧ job.status = .leased ∧
        job.leaseUntil.any (· ≤ s.clock) = true := by
    intro hoverdue
    obtain ⟨key, job, hrow, hjob⟩ := (Table.any_eq_true_iff _ _).mp hoverdue
    simp only [Bool.and_eq_true, decide_eq_true_eq] at hjob
    exact ⟨key, job, hrow, hjob.1, hjob.2⟩
  cases step_cases hstep with
  | tick | readMissing | createMissing | advance | answer => exact hok rfl
  | writeDetail item main children =>
    have hpendingOther : s.hasPendingOther item (config.semantics.currentHash main children)
        = true := by simpa [keepsCompletionTimes] using hok
    obtain ⟨key, job, hrow, hjob⟩ := (Table.any_eq_true_iff _ _).mp hpendingOther
    simp only [Bool.and_eq_true, decide_eq_true_eq, ne_eq] at hjob
    obtain ⟨⟨rfl, hother⟩, hpending⟩ := hjob
    exact (h key job hrow).not_supersede hpending
      (h' key _ (get?_writeDetail_of_pendingOther hrow hother hpending))
  | expireLeases =>
    obtain ⟨key, job, hrow, hleased, hover⟩ := hexpired (by simpa [keepsCompletionTimes] using hok)
    exact (h key job hrow).not_expire hleased
      (h' key _ (get?_expireLeases_of_overdue hrow hleased hover))
  | claimJobs worker batchSize leaseSeconds locked =>
    obtain ⟨key, job, hrow, hleased, hover⟩ := hexpired (by simpa [keepsCompletionTimes] using hok)
    exact (h key job hrow).not_expire hleased
      (h' key _ (get?_claimModerationJobs_of_overdue hrow hleased hover))

end ModerationState

/-- In every run in which no lease is expired and no pending job superseded by a detail write, a job
    has its completion time exactly if it is done, superseded, failed or of unknown outcome. -/
theorem completedAt_iff_terminal
    (h : (moderationSystem config).ReachableUnder
      (fun s a => s.keepsCompletionTimes config a = true) s) (key : JobIdentity) (job : Job)
    (hrow : s.jobs.rows.get? key = some job) :
    job.completedAt.isSome = true ↔
      job.status = .done ∨ job.status = .superseded ∨ job.status = .failed ∨
        job.status = .outcomeUnknown := by
  have hinv : s.CompletionInvariant := by
    refine h.invariant ?_ fun _ _ _ hI hok hstep => hI.step hok hstep
    rintro _ rfl key job hrow
    simp [ModerationState.empty] at hrow
  simpa [Job.CompletionColumn, terminalStatuses] using hinv key job hrow

/-- The text changes during a call, and the worker supersedes its job with a completion time. -/
theorem completedAt_iff_terminal_superseded :
    ∃ s job, (moderationSystem standardConfig).Reachable s ∧
      s.jobs.rows.get? (standardConfig.settings.identity 1 sourceHashOfA) = some job ∧
      job.status = .superseded ∧ job.completedAt.isSome = true := by
  obtain ⟨s, hs, hjob⟩ := exists_standardRun (fun config s a => s.keepsCompletionTimes config a)
    (fun s => (s.jobs.rows.get? (standardConfig.settings.identity 1 sourceHashOfA)).any
      fun job => job.status = .superseded)
    [ .writeDetail 1 (titledMovie "A" none) {}, .claimJobs 1 1 120 [],
      .writeDetail 1 (titledMovie "B" none) {}, .advance 0, .advance 0 ] (by decide +kernel)
  cases hrow : s.jobs.rows.get? (standardConfig.settings.identity 1 sourceHashOfA) with
  | none => simp [hrow] at hjob
  | some job =>
    rw [hrow, Option.any_some, decide_eq_true_eq] at hjob
    refine ⟨s, job, hs.reachable, hrow, hjob, ?_⟩
    exact (completedAt_iff_terminal hs _ job hrow).mpr (.inr (.inl hjob))

/-- A text that changes before its job is claimed, and a lease that is over, leave terminal jobs
    without a completion time. -/
theorem terminal_without_completedAt :
    (∃ s, (moderationSystem standardConfig).Reachable s ∧
      (s.jobs.rows.get? (standardConfig.settings.identity 1 sourceHashOfA)).any (fun job =>
        job.status = .superseded && job.completedAt = none) = true) ∧
    ∃ s, (moderationSystem standardConfig).Reachable s ∧
      (s.jobs.rows.get? (standardConfig.settings.identity 1 sourceHashOfA)).any (fun job =>
        job.status = .outcomeUnknown && job.completedAt = none) = true := by
  constructor
  · obtain ⟨s, hs, hjob⟩ := exists_standardRun (fun _ _ _ => true)
      (fun s => (s.jobs.rows.get? (standardConfig.settings.identity 1 sourceHashOfA)).any
        fun job => job.status = .superseded && job.completedAt = none)
      [ .writeDetail 1 (titledMovie "A" none) {}, .writeDetail 1 (titledMovie "B" none) {} ]
      (by decide +kernel)
    exact ⟨s, hs.reachable, hjob⟩
  · obtain ⟨s, hs, hjob⟩ := exists_standardRun (fun _ _ _ => true)
      (fun s => (s.jobs.rows.get? (standardConfig.settings.identity 1 sourceHashOfA)).any
        fun job => job.status = .outcomeUnknown && job.completedAt = none)
      [ .writeDetail 1 (titledMovie "A" none) {}, .claimJobs 1 1 120 [], .tick 120,
        .expireLeases ] (by decide +kernel)
    exact ⟨s, hs.reachable, hjob⟩

end Denn
