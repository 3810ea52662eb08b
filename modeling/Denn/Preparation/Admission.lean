import Denn.Preparation.Invariant

/-!
# The admission cap

Workers only move jobs among the active statuses or out of them. New jobs are created by the holder
of the cursor lock, who has counted the active jobs under that lock.
-/

namespace Denn.Preparation

open Core

variable {config : PreparationConfig} {s s' : PreparationState}

/-! ### Workers -/

/-- No job is created, and no job becomes active. -/
structure Shrinks (s s' : PreparationState) : Prop where
  count : activeCount s'.jobs.rows ≤ activeCount s.jobs.rows
  contentItem : ∀ id job', s'.jobs.rows.get? id = some job' →
    ∃ job, s.jobs.rows.get? id = some job ∧ job.contentItem = job'.contentItem
  admissions : s'.admissions = s.admissions
  cursorHolder : s'.cursorHolder = s.cursorHolder

lemma Shrinks.of_keepsJobs (h : KeepsJobs s s') : Shrinks s s' where
  count := by rw [h.jobs]
  contentItem id job' hrow := ⟨job', by rwa [h.jobs] at hrow, rfl⟩
  admissions := h.admissions
  cursorHolder := h.cursorHolder

lemma Shrinks.trans {s'' : PreparationState} (h : Shrinks s s') (h' : Shrinks s' s'') :
    Shrinks s s'' where
  count := h'.count.trans h.count
  contentItem id job'' hrow := by
    obtain ⟨job', hrow', heq'⟩ := h'.contentItem id job'' hrow
    obtain ⟨job, hrow, heq⟩ := h.contentItem id job' hrow'
    exact ⟨job, hrow, heq.trans heq'⟩
  admissions := h'.admissions.trans h.admissions
  cursorHolder := h'.cursorHolder.trans h.cursorHolder

/-- An update of leased rows. -/
lemma shrinks_updateWhere {p : JobId → PreparationJob → Bool}
    {f : JobId → PreparationJob → PreparationJob}
    (hp : ∀ id job, p id job = true → job.status = .leased)
    (hf : ∀ id job, (f id job).contentItem = job.contentItem) :
    Shrinks s { s with jobs := { s.jobs with rows := s.jobs.rows.updateWhere p f } } where
  count := Table.count_updateWhere_le _ fun id job hmatch _ => by
    simp [hp id job hmatch, activeStatuses]
  contentItem id job' hrow := by
    rw [Table.get?_updateWhere] at hrow
    obtain ⟨job, hold, rfl⟩ := Option.map_eq_some_iff.mp hrow
    refine ⟨job, hold, ?_⟩
    split_ifs
    · exact (hf id job).symm
    · rfl
  admissions := rfl
  cursorHolder := rfl

lemma isExpired_leased {now : Time} {job : PreparationJob} (h : job.isExpired now = true) :
    job.status = .leased := by
  simp only [PreparationJob.isExpired, Bool.and_eq_true, decide_eq_true_eq] at h
  exact h.1

lemma shrinks_expireLeases : Shrinks s (s.expireLeases config) := by
  refine Shrinks.trans (shrinks_updateWhere (s := s)
      (p := fun _ job => job.isExpired s.clock && config.options.maxAttempts ≤ job.attempts)
      (f := fun _ job => job.expireFailed s.clock) ?_ fun _ _ => rfl)
    (shrinks_updateWhere
      (p := fun _ job => job.isExpired s.clock && job.attempts < config.options.maxAttempts)
      (f := fun _ job => job.expireRetry s.clock) ?_ fun _ _ => rfl)
  all_goals
    intro id job hmatch
    exact isExpired_leased (Bool.and_eq_true_iff.mp hmatch).1

lemma shrinks_grantLease {worker : WorkerId} {leaseUntil : Time} {id : JobId}
    {job : PreparationJob} (hrow : s.jobs.rows.get? id = some job)
    (hready : job.status ∈ readyStatuses) :
    Shrinks s (s.grantLease config worker leaseUntil id job) where
  count := by
    refine Table.count_set_le _ _ _ _ fun _ => ?_
    simp only [readyStatuses, List.mem_cons, List.not_mem_nil, or_false] at hready
    rw [hrow, Option.any_some]
    rcases hready with hready | hready <;> simp [hready, activeStatuses]
  contentItem key job' hget := by
    rcases Table.get?_set_cases hget with ⟨rfl, rfl⟩ | hget
    · exact ⟨job, hrow, rfl⟩
    · exact ⟨job', hget, rfl⟩
  admissions := rfl
  cursorHolder := rfl

lemma shrinks_updateHeld (job : JobId) (token : Token) {f : PreparationJob → PreparationJob}
    (hf : ∀ row, (f row).contentItem = row.contentItem) :
    Shrinks s { s with
      jobs := { s.jobs with rows := updateHeld s.clock job token f s.jobs.rows } } := by
  refine shrinks_updateWhere (fun id row hmatch => ?_) fun _ => hf
  exact (PreparationJob.isHeld_iff.mp (Bool.and_eq_true_iff.mp hmatch).2).1

/-! ### The invariant -/

/-- No item has two jobs. -/
def UniqueItems (rows : Table JobId PreparationJob) : Prop :=
  ∀ id id' job job', rows.get? id = some job → rows.get? id' = some job' →
    job.contentItem = job'.contentItem → id = id'

/-- The transaction that holds the cursor lock has counted, and no item has two jobs. -/
structure AdmissionInvariant (s : PreparationState) : Prop where
  cap : activeCount s.jobs.rows ≤ maxPendingMetadataPreparationJobs
  locked : ∀ id admission, s.admissions.get? id = some admission → admission.phase ≠ .filtered →
    s.cursorHolder = some id
  slots : ∀ id admission slots, s.admissions.get? id = some admission →
    admission.phase = .admitting slots →
    activeCount s.jobs.rows + slots ≤ maxPendingMetadataPreparationJobs
  unique : UniqueItems s.jobs.rows

lemma AdmissionInvariant.empty : AdmissionInvariant .empty where
  cap := Nat.zero_le _
  locked id admission h := by simp [PreparationState.empty] at h
  slots id admission slots h := by simp [PreparationState.empty] at h
  unique id id' job job' h := by simp [PreparationState.empty] at h

lemma AdmissionInvariant.shrink (h : AdmissionInvariant s) (hshrinks : Shrinks s s') :
    AdmissionInvariant s' where
  cap := hshrinks.count.trans h.cap
  locked := by
    rw [hshrinks.admissions, hshrinks.cursorHolder]
    exact h.locked
  slots id admission slots hadmission hphase := by
    rw [hshrinks.admissions] at hadmission
    exact (Nat.add_le_add_right hshrinks.count _).trans (h.slots id admission slots hadmission hphase)
  unique id id' job job' hrow hrow' heq := by
    obtain ⟨old, hold, hsame⟩ := hshrinks.contentItem id job hrow
    obtain ⟨old', hold', hsame'⟩ := hshrinks.contentItem id' job' hrow'
    exact h.unique id id' old old' hold hold' (hsame.trans (heq.trans hsame'.symm))

/-- A transaction ends and gives the cursor lock back. -/
lemma AdmissionInvariant.endAdmission (h : AdmissionInvariant s) (id : ℕ) :
    AdmissionInvariant (s.endAdmission id) where
  cap := h.cap
  locked other admission hget hphase := by
    simp only [PreparationState.endAdmission, Table.get?_delete] at hget ⊢
    split_ifs at hget with hne
    have hholder := h.locked other admission hget hphase
    rw [if_neg]
    · exact hholder
    · rw [hholder, Option.some.injEq]
      exact hne
  slots other admission slots hget hphase :=
    h.slots other admission slots (Table.get?_of_delete hget).2 hphase
  unique := h.unique

/-- One insert adds at most one active job, for an item that had none. -/
lemma activeCount_insertJob_le (now : Time) (table : PreparationTable) (item : ItemId) :
    activeCount (insertJob now table item).rows ≤ activeCount table.rows + 1 := by
  unfold insertJob
  split_ifs
  · exact Nat.le_succ _
  · exact Table.count_set_le_succ ..

lemma activeCount_insertJobs_le (now : Time) (items : List ItemId) (table : PreparationTable) :
    activeCount (items.foldl (insertJob now) table).rows ≤
      activeCount table.rows + items.length := by
  induction items generalizing table with
  | nil => exact le_rfl
  | cons item items ih =>
    rw [List.foldl_cons, List.length_cons]
    have hfirst := activeCount_insertJob_le now table item
    have hrest := ih (insertJob now table item)
    omega

lemma UniqueItems.insertJob {table : PreparationTable} (h : UniqueItems table.rows) (now : Time)
    (item : ItemId) : UniqueItems (Preparation.insertJob now table item).rows := by
  unfold Preparation.insertJob
  split_ifs with hjob
  · exact h
  · have hnone : ∀ id job, table.rows.get? id = some job → job.contentItem ≠ item := by
      intro id job hrow heq
      exact hjob ((Table.any_eq_true_iff ..).mpr ⟨id, job, hrow, decide_eq_true heq⟩)
    intro id id' job job' hrow hrow' heq
    rw [Table.get?_set] at hrow hrow'
    split_ifs at hrow hrow' with hid hid'
    · rw [hid, hid']
    · cases hrow
      exact absurd heq.symm (hnone id' job' hrow')
    · cases hrow'
      exact absurd heq (hnone id job hrow)
    · exact h id id' job job' hrow hrow' heq

lemma UniqueItems.insertJobs {table : PreparationTable} (h : UniqueItems table.rows) (now : Time)
    (items : List ItemId) : UniqueItems (items.foldl (Preparation.insertJob now) table).rows := by
  induction items generalizing table with
  | nil => exact h
  | cons item items ih => exact ih (h.insertJob now item)

/-- The holder of the lock creates the jobs that it has slots for, and commits. -/
lemma AdmissionInvariant.createJobs (h : AdmissionInvariant s) {id : ℕ} {admission : Admission}
    {slots : ℕ} (hadmission : s.admissions.get? id = some admission)
    (hphase : admission.phase = .admitting slots) :
    AdmissionInvariant (s.createJobs id admission slots) := by
  have hheld : ∀ other admission', s.admissions.get? other = some admission' →
      admission'.phase ≠ .filtered → other = id := by
    intro other admission' hget hne
    have hother := h.locked other admission' hget hne
    rw [h.locked id admission hadmission (by rw [hphase]; simp), Option.some.injEq] at hother
    exact hother.symm
  constructor
  · have hcount := activeCount_insertJobs_le s.clock
      ((rotate s.cursor admission.candidates).take slots) s.jobs
    have hlength := List.length_take_le slots (rotate s.cursor admission.candidates)
    have hslots := h.slots id admission slots hadmission hphase
    exact hcount.trans ((Nat.add_le_add_left hlength _).trans hslots)
  · intro other admission' hget hne
    obtain ⟨heq, hget⟩ := Table.get?_of_delete hget
    exact absurd (hheld other admission' hget hne) heq
  · intro other admission' slots' hget hphase'
    obtain ⟨heq, hget⟩ := Table.get?_of_delete hget
    exact absurd (hheld other admission' hget (by rw [hphase']; simp)) heq
  · exact h.unique.insertJobs s.clock _

lemma AdmissionInvariant.enqueue (h : AdmissionInvariant s) (contentItemIds : List ItemId) :
    AdmissionInvariant (s.enqueue config contentItemIds) := by
  unfold PreparationState.enqueue
  split_ifs
  · exact h
  · exact h
  · constructor
    · exact h.cap
    · intro id admission hget hne
      rcases Table.get?_set_cases hget with ⟨-, rfl⟩ | hget
      · exact absurd rfl hne
      · exact h.locked id admission hget hne
    · intro id admission slots hget hphase
      rcases Table.get?_set_cases hget with ⟨-, rfl⟩ | hget
      · cases hphase
      · exact h.slots id admission slots hget hphase
    · exact h.unique

lemma AdmissionInvariant.lockCursor (h : AdmissionInvariant s) {id : ℕ} {admission : Admission}
    (hfree : s.cursorHolder = none) :
    AdmissionInvariant { s with
      cursorHolder := some id
      admissions := s.admissions.set id { admission with phase := .locked } } where
  cap := h.cap
  locked other admission' hget hne := by
    rcases Table.get?_set_cases hget with ⟨rfl, -⟩ | hget
    · rfl
    · have hholder := h.locked other admission' hget hne
      rw [hfree] at hholder
      cases hholder
  slots other admission' slots hget hphase := by
    rcases Table.get?_set_cases hget with ⟨-, rfl⟩ | hget
    · cases hphase
    · exact h.slots other admission' slots hget hphase
  unique := h.unique

lemma AdmissionInvariant.countActive (h : AdmissionInvariant s) {id : ℕ} {admission : Admission}
    (hadmission : s.admissions.get? id = some admission) (hphase : admission.phase = .locked) :
    AdmissionInvariant (s.countActive id admission) := by
  unfold PreparationState.countActive
  simp only
  split_ifs
  · exact h.endAdmission id
  · constructor
    · exact h.cap
    · intro other admission' hget hne
      rcases Table.get?_set_cases hget with ⟨rfl, -⟩ | hget
      · exact h.locked other admission hadmission (by rw [hphase]; simp)
      · exact h.locked other admission' hget hne
    · intro other admission' slots hget hphase'
      rcases Table.get?_set_cases hget with ⟨-, rfl⟩ | hget
      · cases hphase'
        exact (Nat.add_sub_cancel' h.cap).le
      · exact h.slots other admission' slots hget hphase'
    · exact h.unique

/-- The requests that create jobs. -/
def PreparationAction.isAdmission : PreparationAction → Bool
  | .enqueue _ => true
  | .lockCursor _ => true
  | .countActive _ => true
  | .createJobs _ => true
  | .abandon _ => true
  | _ => false

/-- Every other step shrinks. -/
lemma step_shrinks {a : PreparationAction} (ha : a.isAdmission = false)
    (hstep : s.step config a = some s') : Shrinks s s' := by
  cases PreparationState.step_cases hstep with
  | tick seconds => exact .of_keepsJobs ⟨rfl, rfl, rfl⟩
  | writeDetail item => exact .of_keepsJobs ⟨rfl, rfl, rfl⟩
  | claimJobs hclaims =>
    exact claimJobs_induction hclaims (fun _ => shrinks_expireLeases)
      (fun t ht => ht.trans (.of_keepsJobs ⟨rfl, rfl, rfl⟩))
      fun t leaseUntil id job _ hrow hready ht => ht.trans (shrinks_grantLease hrow hready)
  | load _ _ _ => exact .of_keepsJobs ⟨rfl, rfl, rfl⟩
  | reconcile hasHash _ _ => exact .of_keepsJobs (keepsJobs_reconcile ..)
  | guard _ _ => exact .of_keepsJobs (keepsJobs_guard ..)
  | commit stored _ _ => exact .of_keepsJobs (keepsJobs_commit ..)
  | fetchEnds hasPayload _ _ => exact .of_keepsJobs ⟨rfl, rfl, rfl⟩
  | check _ _ => exact .of_keepsJobs ⟨rfl, rfl, rfl⟩
  | @finish token claim _ _ =>
    have hwrite : Shrinks s { s with
        jobs := { s.jobs with
          rows := updateHeld s.clock claim.job token (.finish s.clock .done) s.jobs.rows } } :=
      shrinks_updateHeld claim.job token fun _ => rfl
    exact hwrite.trans (.of_keepsJobs ⟨rfl, rfl, rfl⟩)
  | @retryOrFail token claim attempts _ _ =>
    have hwrite : Shrinks s { s with
        jobs := { s.jobs with
          rows := updateHeld s.clock claim.job token
            (.retryOrFail s.clock config.options attempts) s.jobs.rows } } :=
      shrinks_updateHeld claim.job token fun _ => rfl
    exact hwrite.trans (.of_keepsJobs ⟨rfl, rfl, rfl⟩)
  | enqueue => cases ha
  | lockCursor => cases ha
  | countActive => cases ha
  | createJobs => cases ha
  | abandon => cases ha

lemma AdmissionInvariant.step {a : PreparationAction} (h : AdmissionInvariant s)
    (hstep : s.step config a = some s') : AdmissionInvariant s' := by
  by_cases ha : a.isAdmission = true
  · cases PreparationState.step_cases hstep with
    | enqueue contentItemIds => exact h.enqueue contentItemIds
    | lockCursor _ _ hfree => exact h.lockCursor hfree
    | countActive hadmission hphase => exact h.countActive hadmission hphase
    | createJobs hadmission hphase => exact h.createJobs hadmission hphase
    | abandon id => exact h.endAdmission id
    | _ => cases ha
  · exact h.shrink (step_shrinks (by simpa using ha) hstep)

/-- In no interleaving of requests and workers are there more than a thousand active jobs, or two
    jobs for one item. -/
theorem admission_capped (h : (preparationSystem config).Reachable s) :
    activeCount s.jobs.rows ≤ 1000 ∧
      ∀ id id' job job', s.jobs.rows.get? id = some job → s.jobs.rows.get? id' = some job' →
        job.contentItem = job'.contentItem → id = id' := by
  have hinv : AdmissionInvariant s := by
    refine h.invariant ?_ fun _ _ _ hI hstep => hI.step hstep
    rintro _ rfl
    exact .empty
  exact ⟨hinv.cap, hinv.unique⟩

/-- Two overlapping requests are filtered before either is admitted. -/
theorem admission_capped_overlapping :
    ∃ s, (preparationSystem ⟨true, {}, ⟨id, Function.injective_id⟩⟩).Reachable s ∧
      activeCount s.jobs.rows = 3 ∧ activeCount s.jobs.rows ≤ 1000 := by
  obtain ⟨s, hs, hcount⟩ := TransitionSystem.exists_reachableUnder_of_replay
    (preparationSystem ⟨true, {}, ⟨id, Function.injective_id⟩⟩) (fun _ _ => True)
    (fun s => activeCount s.jobs.rows = 3)
    [ .enqueue [7, 8], .enqueue [8, 9], .lockCursor 1, .countActive 1, .createJobs 1, .lockCursor 0,
      .countActive 0, .createJobs 0 ] (s := .empty) (.initial rfl) (by decide +kernel)
  exact ⟨s, hs.reachable, of_decide_eq_true hcount, (admission_capped hs.reachable).1⟩

end Denn.Preparation
