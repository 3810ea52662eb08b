import Denn.Moderation.Detail
import Denn.Moderation.Live

/-!
# Ambiguous calls

A call that ended without telling whether the provider has done the work is never to be repeated.
The only record of it is the status that the worker writes afterwards. The worker looks at the
currency of the job before it looks at the outcome: an ambiguous outcome for a text that has
changed during the call becomes `superseded`, and a superseded job is revived when the text
returns.
-/

namespace Denn

open Core

variable {μ χ : Type} {config : ModerationConfig μ χ} {s s' : ModerationState μ χ}

/-- No call follows an ambiguous end of a call for the same job. The log has its newest event
    first. -/
def NeverResent (log : List ModerationEvent) : Prop :=
  log.Pairwise fun later earlier =>
    ∀ job, later = .called job → earlier ≠ .endedAmbiguously job

instance (later earlier : ModerationEvent) :
    Decidable (∀ job, later = .called job → earlier ≠ .endedAmbiguously job) :=
  match later with
  | .called job => decidable_of_iff (earlier ≠ .endedAmbiguously job) (by simp)
  | .claimed _ _ _ => .isTrue (by simp)
  | .endedAmbiguously _ => .isTrue (by simp)

instance (log : List ModerationEvent) : Decidable (NeverResent log) :=
  inferInstanceAs (Decidable (log.Pairwise _))

lemma NeverResent.append {events log : List ModerationEvent} (h : NeverResent log)
    (hevents : ∀ event ∈ events, ∀ job, event ≠ .called job) : NeverResent (events ++ log) := by
  refine List.pairwise_append.mpr ⟨?_, h, ?_⟩
  · exact List.pairwise_of_forall_mem_list fun later hlater _ _ job heq =>
      absurd heq (hevents later hlater job)
  · exact fun later hlater _ _ job heq => absurd heq (hevents later hlater job)

lemma NeverResent.called {log : List ModerationEvent} (h : NeverResent log) {job : JobIdentity}
    (hnot : .endedAmbiguously job ∉ log) : NeverResent (.called job :: log) := by
  refine List.pairwise_cons.mpr ⟨fun earlier hearlier job' heq hended => ?_, h⟩
  cases heq
  exact hnot (hended ▸ hearlier)

/-- The claim cannot reach the classifier any more. -/
def ClaimPhase.isPastCall : ClaimPhase μ → Bool
  | .claimed => false
  | .checkingSuccess _ => false
  | .checkingHash _ => false
  | .classifying _ _ => false
  | _ => true

/-- The claim is about to leave its row in a status from which it is not claimed again, if the
    recheck after the call goes well. -/
def ClaimPhase.isSettling : ClaimPhase μ → Bool
  | .calling _ _ => true
  | .rechecking _ _ => true
  | .finishing status _ _ _ => status ≠ .superseded
  | _ => false

/-- Statuses that no enqueue and no claim touches. -/
def settledStatuses : List JobStatus := [.leased, .done, .failed, .outcomeUnknown]

namespace ModerationState

/-- A worker that still holds its lease after a call that ended ambiguously finds the job current,
    and an outcome that it does not retry. -/
def ambiguousCallIsCurrent (config : ModerationConfig μ χ) (s : ModerationState μ χ) :
    ModerationAction μ χ → Bool
  | .advance token =>
    match s.claims.get? token with
    | some claim =>
      match claim.phase with
      | .rechecking _ outcome =>
        .endedAmbiguously claim.job ∉ s.log || (heldRow claim.job token s.jobs.rows).isNone
          || (jobIsCurrent config.settings (s.currentHash claim.job.contentItem) claim.job
            && !outcome.isRetried)
      | _ => true
    | none => true
  | _ => true

/-- What holds of the jobs with an ambiguous call. -/
structure AmbiguityInvariant (s : ModerationState μ χ) : Prop where
  settled : ∀ key, .endedAmbiguously key ∈ s.log →
    ∃ job, s.jobs.rows.get? key = some job ∧ job.status ∈ settledStatuses
  past : ∀ token claim, .endedAmbiguously claim.job ∈ s.log →
    s.claims.get? token = some claim → claim.phase.isPastCall = true
  settling : ∀ token claim job, .endedAmbiguously claim.job ∈ s.log →
    s.claims.get? token = some claim → claim.phase.isLive = true →
    s.jobs.rows.get? claim.job = some job → job.heldBy token = true →
    claim.phase.isSettling = true
  never_resent : NeverResent s.log

lemma AmbiguityInvariant.empty : AmbiguityInvariant (.empty μ χ) where
  settled key h := by simp [ModerationState.empty] at h
  past token claim h := by simp [ModerationState.empty] at h
  settling token claim job h := by simp [ModerationState.empty] at h
  never_resent := .nil

lemma isPastCall_of_not_live {phase : ClaimPhase μ} (h : phase.isLive = false) :
    phase.isPastCall = true := by
  cases phase <;> first | rfl | cases h

/-- A row that a claim under way is on is settled. -/
lemma settled_of_claimedBy {job : Job} {token : Token} (h : job.claimedBy token) :
    job.status ∈ settledStatuses := by
  rcases h with ⟨hleased, -⟩ | hunknown
  · simp [hleased, settledStatuses]
  · simp [hunknown, settledStatuses]

/-- The program counter of a claim under way moves, and its call may end ambiguously. -/
lemma AmbiguityInvariant.of_phase (h : AmbiguityInvariant s) (hl : LiveInvariant s)
    {token : Token} {claim : Claim μ} {phase : ClaimPhase μ} {events : List ModerationEvent}
    (hclaim : s.claims.get? token = some claim) (hlive : claim.phase.isLive = true)
    (hclaims : s'.claims = s.claims.set token { claim with phase }) (hjobs : s'.jobs = s.jobs)
    (hlog : s'.log = events ++ s.log)
    (hevents : ∀ key, .endedAmbiguously key ∈ events → key = claim.job)
    (hpast : .endedAmbiguously claim.job ∈ s'.log → phase.isPastCall = true)
    (hsettling : ∀ job, .endedAmbiguously claim.job ∈ s'.log → phase.isLive = true →
      s.jobs.rows.get? claim.job = some job → job.heldBy token = true → phase.isSettling = true)
    (hresent : NeverResent s'.log) : AmbiguityInvariant s' := by
  have hcases : ∀ key, .endedAmbiguously key ∈ s'.log →
      key = claim.job ∨ .endedAmbiguously key ∈ s.log := by
    intro key hended
    rw [hlog] at hended
    rcases List.mem_append.mp hended with hnew | hold
    · exact .inl (hevents key hnew)
    · exact .inr hold
  constructor
  · intro key hended
    rw [hjobs]
    rcases hcases key hended with rfl | hold
    · obtain ⟨job, hrow, hclaimed⟩ := hl.row token claim hclaim hlive
      exact ⟨job, hrow, settled_of_claimedBy hclaimed⟩
    · exact h.settled key hold
  · intro token' claim' hended hget
    rw [hclaims, Table.get?_set] at hget
    split_ifs at hget with htoken
    · cases hget
      exact hpast hended
    · rcases hcases _ hended with hjob | hold
      · apply isPastCall_of_not_live
        by_contra hlive'
        rw [Bool.not_eq_false] at hlive'
        exact htoken (hl.alone token' token claim' claim hget hclaim hlive' hlive hjob)
      · exact h.past token' claim' hold hget
  · intro token' claim' job hended hget hlive' hrow hheld
    rw [hclaims, Table.get?_set] at hget
    rw [hjobs] at hrow
    split_ifs at hget with htoken
    · cases hget
      rw [htoken] at hheld
      exact hsettling job hended hlive' hrow hheld
    · rcases hcases _ hended with hjob | hold
      · exact absurd (hl.alone token' token claim' claim hget hclaim hlive' hlive hjob) htoken
      · exact h.settling token' claim' job hold hget hlive' hrow hheld
  · exact hresent

/-- A claim ends with a write to its row. -/
lemma AmbiguityInvariant.endWith (h : AmbiguityInvariant s) (hl : LiveInvariant s) {token : Token}
    {claim : Claim μ} {f : Job → Job} (hclaim : s.claims.get? token = some claim)
    (hlive : claim.phase.isLive = true)
    (hf : ∀ job, claim.phase.isSettling = true → (f job).status ∈ settledStatuses)
    (result : ClaimResult) : AmbiguityInvariant (s.endWith token claim f result) := by
  constructor
  · intro key hended
    obtain ⟨job, hrow, hsettled⟩ := h.settled key hended
    rcases get?_endWith token claim f result key with hsame | ⟨rfl, job', hrow', hheld, hnew⟩
    · exact ⟨job, hsame.trans hrow, hsettled⟩
    · exact ⟨f job', hnew, hf job' (h.settling token claim job' hended hclaim hlive hrow' hheld)⟩
  · intro token' claim' hended hget
    rcases Table.get?_set_cases hget with ⟨-, rfl⟩ | hget
    · rfl
    · exact h.past token' claim' hended hget
  · intro token' claim' job hended hget hlive' hrow hheld
    simp only [ModerationState.endWith, setPhase, Table.get?_set] at hget
    split_ifs at hget with htoken
    · cases hget
      cases hlive'
    · rcases get?_endWith token claim f result claim'.job with hsame | ⟨hjob, -⟩
      · rw [hsame] at hrow
        exact h.settling token' claim' job hended hget hlive' hrow hheld
      · exact absurd (hl.alone token' token claim' claim hget hclaim hlive' hlive hjob) htoken
  · exact h.never_resent

lemma AmbiguityInvariant.grantLease (h : AmbiguityInvariant s) {worker : WorkerId}
    {leaseUntil : Time} {identity : JobIdentity} {job : Job}
    (hrow : s.jobs.rows.get? identity = some job) (hpending : job.status ∈ requeueableStatuses) :
    AmbiguityInvariant (s.grantLease config worker leaseUntil identity job) := by
  have hmem : ∀ key, .endedAmbiguously key ∈ (s.grantLease config worker leaseUntil identity job).log
      → .endedAmbiguously key ∈ s.log := by
    intro key hended
    rcases List.mem_cons.mp hended with heq | hold
    · cases heq
    · exact hold
  -- a job that is ready has had no ambiguous call
  have hne : ∀ key, .endedAmbiguously key ∈ s.log → key ≠ identity := by
    rintro key hended rfl
    obtain ⟨job', hrow', hsettled⟩ := h.settled key hended
    rw [hrow] at hrow'
    cases hrow'
    cases hstatus : job.status <;>
      simp [hstatus, requeueableStatuses, settledStatuses] at hpending hsettled
  constructor
  · intro key hended
    simp only [ModerationState.grantLease, Table.get?_set, if_neg (hne key (hmem key hended))]
    exact h.settled key (hmem key hended)
  · intro token claim hended hget
    rcases Table.get?_set_cases hget with ⟨-, rfl⟩ | hget
    · exact absurd rfl (hne _ (hmem _ hended))
    · exact h.past token claim (hmem _ hended) hget
  · intro token claim job' hended hget hlive hrow' hheld
    have hkey := hne _ (hmem _ hended)
    simp only [ModerationState.grantLease, Table.get?_set, if_neg hkey] at hget hrow'
    split_ifs at hget
    · cases hget
      exact absurd rfl hkey
    · exact h.settling token claim job' (hmem _ hended) hget hlive hrow' hheld
  · have hgrant : ∀ event ∈ [ModerationEvent.claimed identity (config.tokens.uuid4 s.draws) worker],
        ∀ job, event ≠ .called job := by simp
    exact h.never_resent.append hgrant

/-! ### Steps -/

/-- The writes of others leave a settled row settled, and lease it to nobody. -/
lemma JobChange.settled {a : ModerationAction μ χ} {key : JobIdentity} {job : Job}
    {row' : Option Job} (h : JobChange config s a key (some job) row')
    (ha : ∀ token, a ≠ .advance token) (hsettled : job.status ∈ settledStatuses) :
    ∃ job', row' = some job' ∧ job'.status ∈ settledStatuses ∧
      ∀ token, job'.heldBy token = true → job' = job := by
  have hpending : job.status ∉ requeueableStatuses := by
    cases hstatus : job.status <;> simp [hstatus, requeueableStatuses, settledStatuses] at hsettled ⊢
  cases h with
  | keep => exact ⟨job, rfl, hsettled, fun _ _ => rfl⟩
  | enqueue h =>
    cases h with
    | keep => exact ⟨job, rfl, hsettled, fun _ _ => rfl⟩
    | supersede _ _ hready => exact absurd hready hpending
    | settle _ _ _ hready => exact absurd hready hpending
    | revive _ _ hsuperseded => simp [hsuperseded, settledStatuses] at hsettled
  | expire =>
    exact ⟨_, rfl, by simp [Job.expire, settledStatuses],
      fun token hheld => by simp [Job.heldBy, Job.expire] at hheld⟩
  | claim _ hready => exact absurd hready hpending
  | finish => exact absurd rfl (ha _)
  | retry => exact absurd rfl (ha _)

lemma AmbiguityInvariant.of_jobChange (h : AmbiguityInvariant s) {a : ModerationAction μ χ}
    (ha : ∀ token, a ≠ .advance token) (hclaims : s'.claims = s.claims) (hlog : s'.log = s.log)
    (hchange : ∀ key, JobChange config s a key (s.jobs.rows.get? key) (s'.jobs.rows.get? key)) :
    AmbiguityInvariant s' := by
  have hrow : ∀ key, .endedAmbiguously key ∈ s.log → ∃ job job',
      s.jobs.rows.get? key = some job ∧ s'.jobs.rows.get? key = some job' ∧
      job'.status ∈ settledStatuses ∧ ∀ token, job'.heldBy token = true → job' = job := by
    intro key hended
    obtain ⟨job, hold, hsettled⟩ := h.settled key hended
    have hkey := hchange key
    rw [hold] at hkey
    obtain ⟨job', hnew, hsettled', hheld⟩ := hkey.settled ha hsettled
    exact ⟨job, job', hold, hnew, hsettled', hheld⟩
  constructor
  · intro key hended
    rw [hlog] at hended
    obtain ⟨-, job', -, hnew, hsettled, -⟩ := hrow key hended
    exact ⟨job', hnew, hsettled⟩
  · intro token claim hended hget
    rw [hlog] at hended
    rw [hclaims] at hget
    exact h.past token claim hended hget
  · intro token claim job' hended hget hlive hnew hheld
    rw [hlog] at hended
    rw [hclaims] at hget
    obtain ⟨job, job'', hold, hnew', -, hsame⟩ := hrow _ hended
    rw [hnew] at hnew'
    cases hnew'
    have heq := hsame token hheld
    rw [heq] at hheld
    exact h.settling token claim job hended hget hlive hold hheld
  · rw [hlog]
    exact h.never_resent

lemma mem_leasesEnding {clock : Time} {event : ModerationEvent}
    (h : event ∈ s.leasesEnding clock) : ∃ token claim attempts sourceHash,
      s.claims.get? token = some claim ∧ claim.phase = .calling attempts sourceHash ∧
      event = .endedAmbiguously claim.job := by
  obtain ⟨⟨token, claim⟩, hmem, hrow⟩ := List.mem_filterMap.mp h
  rw [Table.mem_rows_iff] at hmem
  simp only at hrow
  split at hrow
  · next attempts sourceHash hphase =>
    split_ifs at hrow
    exact ⟨token, claim, attempts, sourceHash, hmem, hphase, (Option.some.inj hrow).symm⟩
  · cases hrow

/-- Time passes, and leases end during calls. -/
lemma AmbiguityInvariant.tick (h : AmbiguityInvariant s) (hl : LiveInvariant s) (seconds : ℕ) :
    AmbiguityInvariant
      { s with
        clock := s.clock + seconds, log := s.leasesEnding (s.clock + seconds) ++ s.log } := by
  have hcases : ∀ key, .endedAmbiguously key ∈ s.leasesEnding (s.clock + seconds) ++ s.log →
      .endedAmbiguously key ∈ s.log ∨ ∃ token claim attempts sourceHash,
        s.claims.get? token = some claim ∧ claim.phase = .calling attempts sourceHash ∧
        key = claim.job := by
    intro key hended
    rcases List.mem_append.mp hended with hnew | hold
    · obtain ⟨token, claim, attempts, sourceHash, hget, hphase, heq⟩ := mem_leasesEnding hnew
      cases heq
      exact .inr ⟨token, claim, attempts, sourceHash, hget, hphase, rfl⟩
    · exact .inl hold
  -- a claim under way of a job in a call is the claim of the call
  have hcalling : ∀ token claim, .endedAmbiguously claim.job ∉ s.log →
      .endedAmbiguously claim.job ∈ s.leasesEnding (s.clock + seconds) ++ s.log →
      s.claims.get? token = some claim → claim.phase.isLive = true →
      ∃ attempts sourceHash, claim.phase = .calling attempts sourceHash := by
    intro token claim hnot hended hget hlive
    rcases hcases _ hended with hold | ⟨token', claim', attempts, sourceHash, hget', hphase, hjob⟩
    · exact absurd hold hnot
    · have hsame := hl.alone token token' claim claim' hget hget' hlive (by rw [hphase]; rfl) hjob
      rw [hsame, hget'] at hget
      cases hget
      exact ⟨attempts, sourceHash, hphase⟩
  constructor
  · intro key hended
    rcases hcases key hended with hold | ⟨token, claim, attempts, sourceHash, hget, hphase, rfl⟩
    · exact h.settled key hold
    · obtain ⟨job, hrow, hclaimed⟩ := hl.row token claim hget (by rw [hphase]; rfl)
      exact ⟨job, hrow, settled_of_claimedBy hclaimed⟩
  · intro token claim hended hget
    by_cases hold : .endedAmbiguously claim.job ∈ s.log
    · exact h.past token claim hold hget
    · cases hlive : claim.phase.isLive with
      | false => exact isPastCall_of_not_live hlive
      | true =>
        obtain ⟨attempts, sourceHash, hphase⟩ := hcalling token claim hold hended hget hlive
        rw [hphase]
        rfl
  · intro token claim job hended hget hlive hrow hheld
    by_cases hold : .endedAmbiguously claim.job ∈ s.log
    · exact h.settling token claim job hold hget hlive hrow hheld
    · obtain ⟨attempts, sourceHash, hphase⟩ := hcalling token claim hold hended hget hlive
      rw [hphase]
      rfl
  · refine h.never_resent.append fun event hevent job heq => ?_
    obtain ⟨_, _, _, _, _, _, hended⟩ := mem_leasesEnding hevent
    rw [heq] at hended
    cases hended

/-- A current job whose outcome is not retried is settled. -/
lemma afterCurrentCall_isSettling {job : JobIdentity} {attempts : ℕ} {outcome : ClassifierOutcome}
    (h : outcome.isRetried = false) :
    (afterCurrentCall config.worker job attempts outcome : ClaimPhase μ).isSettling = true := by
  cases outcome with
  | judgment key row =>
    simp only [afterCurrentCall]
    split_ifs <;> rfl
  | skipped code =>
    have hcode : code ≠ "moderation_disabled" := by
      simpa [ClassifierOutcome.isRetried] using h
    simp only [afterCurrentCall, if_neg hcode]
    rfl
  | unavailable code =>
    have hcode : code ∉ retryableFailures := by
      simpa [ClassifierOutcome.isRetried] using h
    simp only [afterCurrentCall, if_neg hcode]
    rfl

lemma afterCall_isPastCall {currentHash : Option SourceHash} {job : JobIdentity} {attempts : ℕ}
    {outcome : ClassifierOutcome} :
    (afterCall config.settings config.worker currentHash job attempts outcome
      : ClaimPhase μ).isPastCall = true := by
  unfold afterCall
  split_ifs
  · unfold afterCurrentCall
    split
    · split_ifs <;> rfl
    · split_ifs <;> rfl
    · split_ifs <;> rfl
  · rfl

/-- A claim whose call ended ambiguously moves on to settle its job. -/
lemma PhaseMove.isSettling {token : Token} {claim : Claim μ} {phase : ClaimPhase μ}
    (hmove : PhaseMove config s token claim phase) (h : AmbiguityInvariant s)
    (hok : s.ambiguousCallIsCurrent config (.advance token) = true)
    (hclaim : s.claims.get? token = some claim)
    (hended : .endedAmbiguously claim.job ∈ s.log) :
    phase.isPastCall = true ∧ ∀ job, s.jobs.rows.get? claim.job = some job →
      job.heldBy token = true → phase.isLive = true → phase.isSettling = true := by
  have hpast := h.past token claim hended hclaim
  cases hmove with
  | fenced hphase | current hphase | notCurrent hphase | judged hphase | unjudged hphase
  | outdated hphase | fresh hphase =>
    rw [hphase] at hpast
    cases hpast
  | recheck hphase =>
    refine ⟨afterCall_isPastCall, fun job hrow hheld _ => ?_⟩
    simp only [ambiguousCallIsCurrent, hclaim, hphase, hended, heldRow_eq_some hrow hheld,
      not_true_eq_false, decide_false, Option.isNone_some, Bool.false_or, Bool.and_eq_true,
      Bool.not_eq_true'] at hok
    rw [afterCall, if_pos hok.1]
    exact afterCurrentCall_isSettling hok.2
  | retryFenced hphase => exact ⟨rfl, fun _ _ _ hlive => by cases hlive⟩
  | exhausted hphase => exact ⟨rfl, fun _ _ _ _ => rfl⟩
  | retryDue hphase =>
    refine ⟨rfl, fun job hrow hheld _ => ?_⟩
    have hsettling := h.settling token claim job hended hclaim (by rw [hphase]; rfl) hrow hheld
    rw [hphase] at hsettling
    cases hsettling

/-- The classifier is called for a job without an ambiguous call. -/
lemma AmbiguityInvariant.classify (h : AmbiguityInvariant s) (hl : LiveInvariant s)
    {token : Token} {claim : Claim μ} {attempts : ℕ} {main : Option μ}
    (hclaim : s.claims.get? token = some claim)
    (hphase : claim.phase = .classifying attempts main) :
    AmbiguityInvariant (s.classify config token claim attempts main) := by
  have hlive : claim.phase.isLive = true := by rw [hphase]; rfl
  have hnot : .endedAmbiguously claim.job ∉ s.log := by
    intro hended
    have hpast := h.past token claim hended hclaim
    rw [hphase] at hpast
    cases hpast
  have hcalled : NeverResent (.called claim.job :: s.log) := h.never_resent.called hnot
  have hevents : ∀ key, .endedAmbiguously key ∈ [ModerationEvent.called claim.job] →
      key = claim.job := by simp
  unfold ModerationState.classify
  simp only
  split
  · exact h.of_phase hl hclaim hlive rfl rfl (show _ = [_] ++ s.log from rfl) hevents
      (fun _ => rfl) (fun _ _ _ _ _ => rfl) hcalled
  · refine h.of_phase hl hclaim hlive rfl rfl (show _ = [_, _] ++ s.log from rfl) (by simp)
      (fun _ => rfl) (fun _ _ _ _ _ => rfl) ?_
    exact hcalled.append (show ∀ event ∈ [ModerationEvent.endedAmbiguously claim.job], _ by simp)
  · exact h.of_phase hl hclaim hlive rfl rfl (show _ = [_] ++ s.log from rfl) hevents
      (fun _ => rfl) (fun _ _ _ _ _ => rfl) hcalled

lemma AmbiguityInvariant.endCall (h : AmbiguityInvariant s) (hl : LiveInvariant s)
    {token : Token} {claim : Claim μ} {attempts : ℕ} {sourceHash : SourceHash}
    {answer : RemoteAnswer} (hclaim : s.claims.get? token = some claim)
    (hphase : claim.phase = .calling attempts sourceHash) :
    AmbiguityInvariant (s.endCall config token claim attempts sourceHash answer) := by
  have hlive : claim.phase.isLive = true := by rw [hphase]; rfl
  have hended : NeverResent (.endedAmbiguously claim.job :: s.log) :=
    h.never_resent.append (show ∀ event ∈ [ModerationEvent.endedAmbiguously claim.job], _ by simp)
  unfold ModerationState.endCall
  split
  · exact h.of_phase hl hclaim hlive rfl rfl (show _ = [_] ++ s.log from rfl) (by simp)
      (fun _ => rfl) (fun _ _ _ _ _ => rfl) hended
  · next outcome judgments _ =>
    cases hambiguous : outcome.isAmbiguous with
    | true =>
      exact h.of_phase hl hclaim hlive rfl rfl (show _ = [_] ++ s.log from rfl) (by simp)
        (fun _ => rfl) (fun _ _ _ _ _ => rfl) hended
    | false =>
      exact h.of_phase hl hclaim hlive rfl rfl (show _ = [] ++ s.log from rfl) (by simp)
        (fun _ => rfl) (fun _ _ _ _ _ => rfl) h.never_resent

lemma AmbiguityInvariant.step {a : ModerationAction μ χ} (h : AmbiguityInvariant s)
    (hl : LiveInvariant s) (hok : s.ambiguousCallIsCurrent config a = true)
    (hstep : s.step config a = some s') : AmbiguityInvariant s' := by
  have hchange := step_jobChange hstep
  cases step_cases hstep with
  | tick seconds => exact h.tick hl seconds
  | writeDetail | readMissing | createMissing | expireLeases =>
    exact h.of_jobChange (by simp) rfl rfl hchange
  | claimJobs worker batchSize leaseSeconds locked =>
    apply claimModerationJobs_induction config AmbiguityInvariant
    · have hexpire : s.step config .expireLeases = some s.expireLeases := rfl
      exact h.of_jobChange (by simp) rfl rfl (step_jobChange hexpire)
    · exact fun t ht => ⟨ht.settled, ht.past, ht.settling, ht.never_resent⟩
    · exact fun t identity job _ hrow hpending ht => ht.grantLease hrow hpending
  | advance hclaim hclaimed =>
    cases hclaimed with
    | move hmove =>
      refine h.of_phase hl hclaim hmove.isLive rfl rfl (List.nil_append _).symm (by simp)
        (fun hended => (hmove.isSettling h hok hclaim hended).1)
        (fun job hended hlive hrow hheld =>
          (hmove.isSettling h hok hclaim hended).2 job hrow hheld hlive) h.never_resent
    | classify hphase => exact h.classify hl hclaim hphase
    | retry hphase result =>
      refine h.endWith hl hclaim (by rw [hphase]; rfl) (fun job hsettling => ?_) result
      rw [hphase] at hsettling
      cases hsettling
    | finish hphase result =>
      refine h.endWith hl hclaim (by rw [hphase]; rfl) (fun job hsettling => ?_) result
      rw [hphase] at hsettling
      rename_i status _ _ _
      cases status <;> simp_all [ClaimPhase.isSettling, Job.finish, FinalStatus.toJobStatus,
        settledStatuses]
  | answer answer hclaim hphase => exact h.endCall hl hclaim hphase

end ModerationState

/-- In every run in which a worker that holds its lease after an ambiguous call finds the job
    current and an outcome that it does not retry, no call follows an ambiguous one for its job. -/
theorem neverResent_of_ambiguousCallIsCurrent
    (h : (moderationSystem config).ReachableUnder
      (fun s a => s.ambiguousCallIsCurrent config a = true) s) : NeverResent s.log := by
  have hinv : s.AmbiguityInvariant := by
    refine h.invariant_of (fun _ => ModerationState.reachable_liveInvariant) ?_
      fun _ _ _ hl hI hok hstep => hI.step hl hok hstep
    rintro _ rfl
    exact .empty
  exact hinv.never_resent

/-- The text changes only after the recheck of a call that timed out: the job stays settled when
    the text returns. -/
theorem neverResent_of_ambiguousCallIsCurrent_timeout :
    ∃ s, (moderationSystem standardConfig).Reachable s ∧
      .endedAmbiguously (standardConfig.settings.identity 1 sourceHashOfA) ∈ s.log ∧
      s.currentHash 1 = some sourceHashOfA ∧ NeverResent s.log := by
  obtain ⟨s, hs, hended⟩ := exists_standardRun (fun config s a => s.ambiguousCallIsCurrent config a)
    (fun s => .endedAmbiguously (standardConfig.settings.identity 1 sourceHashOfA) ∈ s.log
      && s.currentHash 1 = some sourceHashOfA)
    [ .writeDetail 1 (titledMovie "A" none) {}, .claimJobs 1 1 120 [],
      .advance 0, .advance 0, .advance 0, .advance 0, .answer 0 (.unavailable "typesafe_timeout"),
      .advance 0, .advance 0, .writeDetail 1 (titledMovie "B" none) {},
      .writeDetail 1 (titledMovie "A" none) {}, .claimJobs 2 1 120 [] ] (by decide +kernel)
  simp only [Bool.and_eq_true, decide_eq_true_eq] at hended
  exact ⟨s, hs.reachable, hended.1, hended.2, neverResent_of_ambiguousCallIsCurrent hs⟩

/-- The text changes during a call that times out, and returns: the job of the call is superseded,
    revived and called for again. -/
theorem ambiguous_call_is_resent :
    ¬ ∀ s, (moderationSystem standardConfig).Reachable s → NeverResent s.log := by
  intro hclaim
  obtain ⟨s, hs, hresent⟩ := exists_standardRun (fun _ _ _ => true)
    (fun s => ¬ NeverResent s.log)
    [ .writeDetail 1 (titledMovie "A" none) {}, .claimJobs 1 1 120 [],
      .advance 0, .advance 0, .advance 0, .advance 0, .writeDetail 1 (titledMovie "B" none) {},
      .answer 0 (.unavailable "typesafe_timeout"), .advance 0, .advance 0,
      .writeDetail 1 (titledMovie "A" none) {}, .claimJobs 2 1 120 [],
      .advance 1, .advance 1, .advance 1, .advance 1 ] (by decide +kernel)
  simp only [decide_eq_true_eq] at hresent
  exact hresent (hclaim s hs.reachable)

end Denn
