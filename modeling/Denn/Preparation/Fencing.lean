import Denn.Preparation.Invariant

/-!
# Fencing of preparation workers

What a step can do to a finished job, and that guarded writes, finishes and claims respect the
leases of other workers.
-/

namespace Denn.Preparation

open Core

variable {config : PreparationConfig} {s s' : PreparationState}

/-! ### Finished jobs -/

/-- A step leaves `done` and `failed` rows alone, and makes no row `done`. -/
structure Settles (s s' : PreparationState) : Prop where
  kept : ∀ id row, s.jobs.rows.get? id = some row → row.status ∈ [.done, .failed] →
    s'.jobs.rows.get? id = some row
  done : ∀ id row', s'.jobs.rows.get? id = some row' → row'.status = .done →
    s.jobs.rows.get? id = some row'

lemma Settles.of_jobs_eq (h : s'.jobs = s.jobs) : Settles s s' where
  kept id row hrow _ := by rwa [h]
  done id row' hrow _ := by rwa [h] at hrow

lemma Settles.trans {s'' : PreparationState} (h : Settles s s') (h' : Settles s' s'') :
    Settles s s'' where
  kept id row hrow hstatus := h'.kept id row (h.kept id row hrow hstatus) hstatus
  done id row' hrow hstatus := h.done id row' (h'.done id row' hrow hstatus) hstatus

/-- Writes to leased rows that do not end in `done`. -/
lemma Settles.of_map {f : JobId → PreparationJob → PreparationJob}
    (hrows : ∀ id, s'.jobs.rows.get? id = (s.jobs.rows.get? id).map (f id))
    (hf : ∀ id row, f id row = row ∨ row.status = .leased ∧ (f id row).status ≠ .done) :
    Settles s s' where
  kept id row hrow hstatus := by
    rw [hrows, hrow, Option.map_some]
    rcases hf id row with heq | ⟨hleased, -⟩
    · rw [heq]
    · simp [hleased] at hstatus
  done id row' hrow hstatus := by
    rw [hrows] at hrow
    obtain ⟨row, hold, rfl⟩ := Option.map_eq_some_iff.mp hrow
    rcases hf id row with heq | ⟨-, hdone⟩
    · rwa [heq]
    · exact absurd hstatus hdone

lemma settles_expireLeases : Settles s (s.expireLeases config) := by
  refine .of_map (fun id => get?_expireLeases ..) fun id row => ?_
  by_cases hexpired : row.isExpired s.clock = true
  · have hreleased := Released.expire config.options.maxAttempts hexpired
    refine .inr ⟨hreleased.leased, ?_⟩
    rw [if_pos hexpired]
    split_ifs <;> simp [PreparationJob.expireFailed, PreparationJob.expireRetry]
  · exact .inl (if_neg hexpired)

lemma settles_grantLease {worker : WorkerId} {leaseUntil : Time} {id : JobId}
    {job : PreparationJob} (hrow : s.jobs.rows.get? id = some job)
    (hready : job.status ∈ readyStatuses) :
    Settles s (s.grantLease config worker leaseUntil id job) where
  kept key row hget hstatus := by
    have hne : key ≠ id := by
      rintro rfl
      rw [hrow, Option.some.injEq] at hget
      subst hget
      simp only [readyStatuses, List.mem_cons, List.not_mem_nil, or_false] at hready hstatus
      rcases hready with hready | hready <;> rw [hready] at hstatus <;> simp at hstatus
    exact (Table.get?_set_ne _ _ hne).trans hget
  done key row' hget hstatus := by
    rcases Table.get?_set_cases hget with ⟨-, rfl⟩ | hget
    · cases hstatus
    · exact hget

lemma settles_insertJobs (h : FencingInvariant config s) (items : List ItemId) :
    Settles s { s with jobs := items.foldl (insertJob s.clock) s.jobs } := by
  induction items generalizing s with
  | nil => exact .of_jobs_eq rfl
  | cons item items ih =>
    refine Settles.trans ?_ (ih (h.insertJob item))
    unfold insertJob
    split_ifs
    · exact .of_jobs_eq rfl
    · constructor
      · intro key row hget _
        exact (Table.get?_set_ne _ _ (h.id_lt key row hget).ne).trans hget
      · intro key row' hget hstatus
        rcases Table.get?_set_cases hget with ⟨-, rfl⟩ | hget
        · cases hstatus
        · exact hget

/-- The holder of an unexpired lease finishes a job whose item has detail. -/
structure FinishedByHolder (s : PreparationState) (a : PreparationAction) (id : JobId)
    (row' : PreparationJob) : Prop where
  holder : ∃ token claim row leaseUntil, a = .finish token ∧ s.claims.get? token = some claim ∧
    claim.job = id ∧ s.jobs.rows.get? id = some row ∧ row.status = .leased ∧
    row.leaseToken = some token ∧ row.leaseUntil = some leaseUntil ∧ s.clock < leaseUntil ∧
    row'.contentItem = row.contentItem
  detail : row'.contentItem ∈ s.details

/-- Every step but a finish settles; a finish keeps what is settled, and its own row it ends only
    as the holder. -/
lemma step_settles {a : PreparationAction} (h : FencingInvariant config s)
    (hstep : s.step config a = some s') :
    Settles s s' ∨ ∃ token claim, a = .finish token ∧ s.claims.get? token = some claim ∧
      claim.phase = .finishing ∧ s' = s.finish token claim := by
  cases PreparationState.step_cases hstep with
  | tick seconds => exact .inl (.of_jobs_eq rfl)
  | writeDetail item => exact .inl (.of_jobs_eq rfl)
  | claimJobs hclaims =>
    refine .inl (claimJobs_induction hclaims (fun _ => settles_expireLeases)
      (fun t ht => ht.trans (.of_jobs_eq rfl)) fun t leaseUntil id job _ hrow hready ht => ?_)
    exact ht.trans (settles_grantLease hrow hready)
  | load _ _ _ => exact .inl (.of_jobs_eq rfl)
  | reconcile hasHash _ _ => exact .inl (.of_jobs_eq (keepsJobs_reconcile ..).jobs)
  | guard _ _ => exact .inl (.of_jobs_eq (keepsJobs_guard ..).jobs)
  | commit stored _ _ => exact .inl (.of_jobs_eq (keepsJobs_commit ..).jobs)
  | fetchEnds hasPayload _ _ => exact .inl (.of_jobs_eq rfl)
  | check _ _ => exact .inl (.of_jobs_eq rfl)
  | finish hclaim hphase => exact .inr ⟨_, _, rfl, hclaim, hphase, rfl⟩
  | retryOrFail _ _ =>
    refine .inl (.of_map (fun id => get?_updateHeld ..) fun id row => ?_)
    split_ifs with hheld
    · refine .inr ⟨(PreparationJob.isHeld_iff.mp hheld.2).1, ?_⟩
      simp only [PreparationJob.retryOrFail]
      split_ifs <;> simp
    · exact .inl rfl
  | enqueue contentItemIds =>
    refine .inl (.of_jobs_eq ?_)
    unfold PreparationState.enqueue
    split_ifs <;> rfl
  | lockCursor _ _ _ => exact .inl (.of_jobs_eq rfl)
  | countActive _ _ =>
    refine .inl (.of_jobs_eq ?_)
    unfold PreparationState.countActive
    simp only
    split_ifs <;> rfl
  | createJobs _ _ => exact .inl ((settles_insertJobs h _).trans (.of_jobs_eq rfl))
  | abandon id => exact .inl (.of_jobs_eq rfl)

lemma get?_finish (token : Token) (claim : PreparationClaim) (id : JobId) :
    (s.finish token claim).jobs.rows.get? id = (s.jobs.rows.get? id).map fun row =>
      if id = claim.job ∧ row.isHeld s.clock token = true then row.finish s.clock .done
      else row :=
  get?_updateHeld ..

/-- Preparation is fenced: while a guarded detail write is under way its job carries the writer's
    token and is claimed by nobody else; a guarded write commits from there only; a job becomes
    `done` by the holder of an unexpired lease and with its item's detail persisted; `done` and
    `failed` jobs stay as they are; and no job is claimed more than `maxAttempts` times. -/
theorem preparation_fenced (h : (preparationSystem config).Reachable s) :
    (∀ token claim, s.claims.get? token = some claim → claim.phase.holdsRow = true →
      GuardHeld s token claim.job) ∧
    (∀ token stored s', s.step config (.commit token stored) = some s' →
      ∃ claim, s.claims.get? token = some claim ∧ claim.phase.holdsRow = true) ∧
    (∀ a s' id row', s.step config a = some s' → s'.jobs.rows.get? id = some row' →
      row'.status = .done → s.jobs.rows.get? id = some row' ∨ FinishedByHolder s a id row') ∧
    (∀ a s' id row, s.step config a = some s' → s.jobs.rows.get? id = some row →
      row.status ∈ [.done, .failed] → s'.jobs.rows.get? id = some row) ∧
    (∀ id, claimCount id s.log ≤ config.options.maxAttempts) := by
  have hinv := reachable_fencingInvariant h
  refine ⟨hinv.guarded, ?_, ?_, ?_, ?_⟩
  · intro token stored s' hstep
    cases PreparationState.step_cases hstep with
    | @commit _ claim attempts _ hclaim hphase => exact ⟨claim, hclaim, by rw [hphase]; rfl⟩
  · intro a s' id row' hstep hrow' hdone
    rcases step_settles hinv hstep with hsettles | ⟨token, claim, rfl, hclaim, hphase, rfl⟩
    · exact .inl (hsettles.done id row' hrow' hdone)
    · rw [get?_finish] at hrow'
      obtain ⟨row, hrow, rfl⟩ := Option.map_eq_some_iff.mp hrow'
      by_cases hheld : id = claim.job ∧ row.isHeld s.clock token = true
      · obtain ⟨rfl, hheld⟩ := hheld
        obtain ⟨hleased, htoken, leaseUntil, hlease, hlt⟩ := PreparationJob.isHeld_iff.mp hheld
        rw [if_pos ⟨rfl, hheld⟩]
        exact .inr ⟨⟨token, claim, row, leaseUntil, rfl, hclaim, rfl, hrow, hleased, htoken, hlease,
          hlt, rfl⟩, hinv.detailed token claim row hclaim hphase hrow⟩
      · rw [if_neg hheld]
        exact .inl hrow
  · intro a s' id row hstep hrow hsettled
    rcases step_settles hinv hstep with hsettles | ⟨token, claim, rfl, hclaim, hphase, rfl⟩
    · exact hsettles.kept id row hrow hsettled
    · rw [get?_finish, hrow, Option.map_some, if_neg]
      rintro ⟨-, hheld⟩
      rw [(PreparationJob.isHeld_iff.mp hheld).1] at hsettled
      simp at hsettled
  · intro id
    rw [← hinv.attempts_eq id]
    cases hrow : s.jobs.rows.get? id with
    | none => exact Nat.zero_le _
    | some job => exact hinv.attempts_le id job hrow

/-- Classification enabled, and the worker options as they are when nothing is configured. -/
def standardConfig : PreparationConfig where
  classificationEnabled := true
  options := {}
  tokens := ⟨id, Function.injective_id⟩

/-- A worker is in the middle of its first guarded write. -/
theorem preparation_fenced_first_write :
    ∃ s, (preparationSystem standardConfig).Reachable s ∧ GuardHeld s 0 0 ∧
      claimCount 0 s.log ≤ 5 := by
  obtain ⟨s, hs, hclaim⟩ := TransitionSystem.exists_reachableUnder_of_replay
    (preparationSystem standardConfig) (fun _ _ => True)
    (fun s => s.claims.get? 0 = some ⟨1, 0, .guarded 1⟩)
    [ .enqueue [7], .lockCursor 0, .countActive 0, .createJobs 0, .claimJobs 1 10 300 [], .load 0,
      .guard 0 ] (s := .empty) (.initial rfl) (by decide +kernel)
  rw [decide_eq_true_eq] at hclaim
  have hfenced := preparation_fenced hs.reachable
  exact ⟨s, hs.reachable, hfenced.1 0 _ hclaim rfl, hfenced.2.2.2.2 0⟩

end Denn.Preparation
