import Denn.Moderation.Changes

/-!
# Claims under way

A claim that has not ended holds the lease of its job, or the lease has expired; so a job has at
most one claim under way, and nobody else writes its row.
-/

namespace Denn

open Core

variable {μ χ : Type} {config : ModerationConfig μ χ} {s s' : ModerationState μ χ}

def ClaimPhase.isLive : ClaimPhase μ → Bool
  | .ended _ => false
  | _ => true

/-- A claim of this row is under way: the row is leased under its token, or its lease expired. -/
def Job.claimedBy (token : Token) (job : Job) : Prop :=
  (job.status = .leased ∧ job.leaseToken = some token) ∨ job.status = .outcomeUnknown

lemma Job.heldBy_iff {token : Token} {job : Job} :
    job.heldBy token = true ↔ job.status = .leased ∧ job.leaseToken = some token := by
  simp [Job.heldBy]

namespace ModerationState

/-- What holds of the claims under way in every reachable state. -/
structure LiveInvariant (s : ModerationState μ χ) : Prop where
  row : ∀ token claim, s.claims.get? token = some claim → claim.phase.isLive = true →
    ∃ job, s.jobs.rows.get? claim.job = some job ∧ job.claimedBy token
  alone : ∀ token token' claim claim', s.claims.get? token = some claim →
    s.claims.get? token' = some claim' → claim.phase.isLive = true → claim'.phase.isLive = true →
    claim.job = claim'.job → token = token'

lemma LiveInvariant.empty : LiveInvariant (.empty μ χ) where
  row token claim h := by simp [ModerationState.empty] at h
  alone token token' claim claim' h := by simp [ModerationState.empty] at h

/-- A claim that moves is under way. -/
lemma PhaseMove.isLive {token : Token} {claim : Claim μ} {phase : ClaimPhase μ}
    (h : PhaseMove config s token claim phase) : claim.phase.isLive = true := by
  cases h with
  | fenced hphase | current hphase | notCurrent hphase | judged hphase | unjudged hphase
  | outdated hphase | fresh hphase | recheck hphase | retryFenced hphase | exhausted hphase
  | retryDue hphase =>
    rw [hphase]
    rfl

/-- Rows that are claimed stay so, and the claims are the same. -/
lemma LiveInvariant.of_rows (h : LiveInvariant s) (hclaims : s'.claims = s.claims)
    (hrows : ∀ key job token, s.jobs.rows.get? key = some job → job.claimedBy token →
      ∃ job', s'.jobs.rows.get? key = some job' ∧ job'.claimedBy token) : LiveInvariant s' where
  row token claim hget hlive := by
    rw [hclaims] at hget
    obtain ⟨job, hrow, hclaimed⟩ := h.row token claim hget hlive
    exact hrows _ job token hrow hclaimed
  alone token token' claim claim' hget hget' := by
    rw [hclaims] at hget hget'
    exact h.alone token token' claim claim' hget hget'

/-- The program counter of a claim under way moves. -/
lemma LiveInvariant.of_phase (h : LiveInvariant s) {token : Token} {claim : Claim μ}
    {phase : ClaimPhase μ} (hclaim : s.claims.get? token = some claim)
    (hlive : claim.phase.isLive = true)
    (hclaims : s'.claims = s.claims.set token { claim with phase }) (hjobs : s'.jobs = s.jobs) :
    LiveInvariant s' := by
  -- every claim under way afterwards was so before, with the same job
  have hold : ∀ token' claim', s'.claims.get? token' = some claim' →
      claim'.phase.isLive = true → ∃ old, s.claims.get? token' = some old ∧
        old.phase.isLive = true ∧ old.job = claim'.job := by
    intro token' claim' hget hlive'
    rcases Table.get?_set_cases (hclaims ▸ hget) with ⟨rfl, rfl⟩ | hget
    · exact ⟨claim, hclaim, hlive, rfl⟩
    · exact ⟨claim', hget, hlive', rfl⟩
  constructor
  · intro token' claim' hget hlive'
    obtain ⟨old, hget, hlive', hjob⟩ := hold token' claim' hget hlive'
    rw [hjobs, ← hjob]
    exact h.row token' old hget hlive'
  · intro token₁ token₂ claim₁ claim₂ hget₁ hget₂ hlive₁ hlive₂ hjob
    obtain ⟨old₁, hget₁, hlive₁, hjob₁⟩ := hold token₁ claim₁ hget₁ hlive₁
    obtain ⟨old₂, hget₂, hlive₂, hjob₂⟩ := hold token₂ claim₂ hget₂ hlive₂
    exact h.alone token₁ token₂ old₁ old₂ hget₁ hget₂ hlive₁ hlive₂
      (hjob₁.trans (hjob.trans hjob₂.symm))

/-- A claim ends with a write to its row; no other claim of that row is under way. -/
lemma LiveInvariant.endWith (h : LiveInvariant s) {token : Token} {claim : Claim μ}
    (hclaim : s.claims.get? token = some claim) (hlive : claim.phase.isLive = true)
    (f : Job → Job) (result : ClaimResult) :
    LiveInvariant (s.endWith token claim f result) := by
  have hold : ∀ token' claim',
      (s.endWith token claim f result).claims.get? token' = some claim' →
      claim'.phase.isLive = true → token' ≠ token ∧ s.claims.get? token' = some claim' := by
    intro token' claim' hget hlive'
    simp only [ModerationState.endWith, setPhase, Table.get?_set] at hget
    split_ifs at hget with htoken
    · cases hget
      cases hlive'
    · exact ⟨htoken, hget⟩
  constructor
  · intro token' claim' hget hlive'
    obtain ⟨hne, hget⟩ := hold token' claim' hget hlive'
    rcases get?_endWith token claim f result claim'.job with hsame | ⟨hjob, -⟩
    · rw [hsame]
      exact h.row token' claim' hget hlive'
    · exact absurd (h.alone token' token claim' claim hget hclaim hlive' hlive hjob) hne
  · intro token₁ token₂ claim₁ claim₂ hget₁ hget₂ hlive₁ hlive₂ hjob
    exact h.alone token₁ token₂ claim₁ claim₂ (hold token₁ claim₁ hget₁ hlive₁).2
      (hold token₂ claim₂ hget₂ hlive₂).2 hlive₁ hlive₂ hjob

/-- No claim of a job that is ready is under way. -/
lemma LiveInvariant.not_live_of_pending (h : LiveInvariant s) {key : JobIdentity} {job : Job}
    (hrow : s.jobs.rows.get? key = some job) (hpending : job.status ∈ requeueableStatuses)
    {token : Token} {claim : Claim μ} (hclaim : s.claims.get? token = some claim)
    (hjob : claim.job = key) : claim.phase.isLive = false := by
  by_contra hlive
  obtain ⟨job', hrow', hclaimed⟩ := h.row token claim hclaim (by simpa using hlive)
  rw [hjob, hrow] at hrow'
  cases hrow'
  rcases hclaimed with ⟨hleased, -⟩ | hunknown
  · simp [hleased, requeueableStatuses] at hpending
  · simp [hunknown, requeueableStatuses] at hpending

lemma LiveInvariant.grantLease (h : LiveInvariant s) {worker : WorkerId} {leaseUntil : Time}
    {identity : JobIdentity} {job : Job} (hrow : s.jobs.rows.get? identity = some job)
    (hpending : job.status ∈ requeueableStatuses) :
    LiveInvariant (s.grantLease config worker leaseUntil identity job) := by
  constructor
  · intro token claim hget hlive
    simp only [ModerationState.grantLease, Table.get?_set] at hget ⊢
    split_ifs at hget with htoken
    · cases hget
      rw [if_pos rfl]
      exact ⟨_, rfl, .inl ⟨rfl, by rw [htoken]; rfl⟩⟩
    · split_ifs with hjob
      · simp [h.not_live_of_pending hrow hpending hget hjob] at hlive
      · exact h.row token claim hget hlive
  · intro token₁ token₂ claim₁ claim₂ hget₁ hget₂ hlive₁ hlive₂ hjob
    rcases Table.get?_set_cases hget₁ with ⟨rfl, rfl⟩ | hget₁ <;>
      rcases Table.get?_set_cases hget₂ with ⟨rfl, rfl⟩ | hget₂
    · rfl
    · simp [h.not_live_of_pending hrow hpending hget₂ hjob.symm] at hlive₂
    · simp [h.not_live_of_pending hrow hpending hget₁ hjob] at hlive₁
    · exact h.alone token₁ token₂ claim₁ claim₂ hget₁ hget₂ hlive₁ hlive₂ hjob

/-- The writes of others leave a claimed row claimed. -/
lemma JobChange.claimedBy {a : ModerationAction μ χ} {key : JobIdentity} {job : Job}
    {row' : Option Job} {token : Token} (h : JobChange config s a key (some job) row')
    (ha : ∀ token, a ≠ .advance token) (hclaimed : job.claimedBy token) :
    ∃ job', row' = some job' ∧ job'.claimedBy token := by
  have hpending : job.status ∉ requeueableStatuses := by
    rcases hclaimed with ⟨hleased, -⟩ | hunknown
    · simp [hleased, requeueableStatuses]
    · simp [hunknown, requeueableStatuses]
  cases h with
  | keep => exact ⟨job, rfl, hclaimed⟩
  | enqueue h =>
    cases h with
    | keep => exact ⟨job, rfl, hclaimed⟩
    | supersede _ _ hready => exact absurd hready hpending
    | settle _ _ _ hready => exact absurd hready hpending
    | revive _ _ hsuperseded =>
      rcases hclaimed with ⟨hleased, -⟩ | hunknown
      · simp [hleased] at hsuperseded
      · simp [hunknown] at hsuperseded
  | expire => exact ⟨_, rfl, .inr rfl⟩
  | claim _ hready => exact absurd hready hpending
  | finish => exact absurd rfl (ha _)
  | retry => exact absurd rfl (ha _)

lemma LiveInvariant.of_jobChange (h : LiveInvariant s) {a : ModerationAction μ χ}
    (ha : ∀ token, a ≠ .advance token) (hclaims : s'.claims = s.claims)
    (hchange : ∀ key, JobChange config s a key (s.jobs.rows.get? key) (s'.jobs.rows.get? key)) :
    LiveInvariant s' := by
  refine h.of_rows hclaims fun key job token hrow hclaimed => ?_
  have hkey := hchange key
  rw [hrow] at hkey
  exact hkey.claimedBy ha hclaimed

lemma classify_claims {token : Token} {claim : Claim μ} {attempts : ℕ} {main : Option μ} :
    ∃ phase, (s.classify config token claim attempts main).claims
      = s.claims.set token { claim with phase } := by
  unfold classify
  simp only
  split <;> exact ⟨_, rfl⟩

lemma endCall_claims {token : Token} {claim : Claim μ} {attempts : ℕ} {sourceHash : SourceHash}
    {answer : RemoteAnswer} :
    ∃ phase, (s.endCall config token claim attempts sourceHash answer).claims
      = s.claims.set token { claim with phase } := by
  unfold endCall
  split <;> exact ⟨_, rfl⟩

lemma LiveInvariant.step {a : ModerationAction μ χ} (h : LiveInvariant s)
    (hstep : s.step config a = some s') : LiveInvariant s' := by
  have hchange := step_jobChange hstep
  cases step_cases hstep with
  | tick | writeDetail | readMissing | createMissing | expireLeases =>
    exact h.of_jobChange (by simp) rfl hchange
  | claimJobs worker batchSize leaseSeconds locked =>
    apply claimModerationJobs_induction config LiveInvariant
    · have hexpire : s.step config .expireLeases = some s.expireLeases := rfl
      exact h.of_jobChange (by simp) rfl (step_jobChange hexpire)
    · exact fun t ht => ⟨ht.row, ht.alone⟩
    · exact fun t identity job _ hrow hpending ht => ht.grantLease hrow hpending
  | advance hclaim hclaimed =>
    cases hclaimed with
    | move hmove => exact h.of_phase hclaim hmove.isLive rfl rfl
    | classify hphase =>
      obtain ⟨phase, hclaims⟩ := classify_claims
      exact h.of_phase hclaim (by rw [hphase]; rfl) hclaims classify_jobs
    | retry hphase result => exact h.endWith hclaim (by rw [hphase]; rfl) _ result
    | finish hphase result => exact h.endWith hclaim (by rw [hphase]; rfl) _ result
  | answer answer hclaim hphase =>
    obtain ⟨phase, hclaims⟩ := endCall_claims
    exact h.of_phase hclaim (by rw [hphase]; rfl) hclaims endCall_jobs

theorem reachable_liveInvariant (h : (moderationSystem config).Reachable s) : LiveInvariant s := by
  refine h.invariant ?_ fun _ _ _ hI hstep => hI.step hstep
  rintro _ rfl
  exact .empty

end ModerationState

end Denn
