import Denn.Moderation.Ambiguity
import Denn.Moderation.Fencing

/-!
# The bound on attempts

A claim counts an attempt on its row and calls the classifier at most once. The limit is read by
the retry path only: neither the claiming of jobs nor the revival of a superseded job looks at the
attempts of the row.
-/

namespace Denn

open Core

variable {μ χ : Type} {config : ModerationConfig μ χ} {s s' : ModerationState μ χ}

/-- How often the classifier has been called for a job. -/
def callCount (job : JobIdentity) (log : List ModerationEvent) : ℕ :=
  log.count (.called job)

lemma callCount_append {events log : List ModerationEvent} {job : JobIdentity}
    (h : ∀ event ∈ events, ∃ key, event = .endedAmbiguously key) :
    callCount job (events ++ log) = callCount job log := by
  have hnot : ModerationEvent.called job ∉ events := by
    intro hmem
    obtain ⟨key, heq⟩ := h _ hmem
    cases heq
  rw [callCount, List.count_append, List.count_eq_zero_of_not_mem hnot, Nat.zero_add, callCount]

lemma callCount_called (job key : JobIdentity) (log : List ModerationEvent) :
    callCount job (.called key :: log) = callCount job log + if key = job then 1 else 0 := by
  simp [callCount, List.count_cons]

lemma claimCount_le_append (job : JobIdentity) (events log : List ModerationEvent) :
    claimCount job log ≤ claimCount job (events ++ log) := by
  rw [claimCount, claimCount, List.countP_append]
  exact Nat.le_add_left ..

namespace ModerationState

/-- A job is called for at most once a claim; a claim that has not called yet has its call left. -/
structure CallInvariant (s : ModerationState μ χ) : Prop where
  calls_le : ∀ key, callCount key s.log ≤ claimCount key s.log
  calls_lt : ∀ token claim, s.claims.get? token = some claim → claim.phase.isPastCall = false →
    callCount claim.job s.log < claimCount claim.job s.log

lemma CallInvariant.empty : CallInvariant (.empty μ χ) where
  calls_le key := by simp [ModerationState.empty, callCount]
  calls_lt token claim h := by simp [ModerationState.empty] at h

/-- No call between two states, and no claim that goes back before its call. -/
structure Uncalled (s s' : ModerationState μ χ) : Prop where
  claims : ∀ token claim', s'.claims.get? token = some claim' → claim'.phase.isPastCall = false →
    ∃ claim, s.claims.get? token = some claim ∧ claim.phase.isPastCall = false ∧
      claim.job = claim'.job
  calls : ∀ key, callCount key s'.log = callCount key s.log
  claimed : ∀ key, claimCount key s.log ≤ claimCount key s'.log

lemma CallInvariant.of_uncalled (h : CallInvariant s) (hu : Uncalled s s') : CallInvariant s' where
  calls_le key := by
    rw [hu.calls]
    exact (h.calls_le key).trans (hu.claimed key)
  calls_lt token claim' hclaim' hphase := by
    obtain ⟨claim, hclaim, hbefore, hjob⟩ := hu.claims token claim' hclaim' hphase
    rw [hu.calls, ← hjob]
    exact (h.calls_lt token claim hclaim hbefore).trans_le (hu.claimed _)

lemma Uncalled.of_log {events : List ModerationEvent} (hclaims : s'.claims = s.claims)
    (hlog : s'.log = events ++ s.log)
    (hevents : ∀ event ∈ events, ∃ key, event = .endedAmbiguously key) : Uncalled s s' where
  claims token claim' hget hphase := ⟨claim', hclaims ▸ hget, hphase, rfl⟩
  calls key := by rw [hlog, callCount_append hevents]
  claimed key := by
    rw [hlog]
    exact claimCount_le_append ..

lemma Uncalled.of_setPhase {token : Token} {claim : Claim μ} {phase : ClaimPhase μ}
    {events : List ModerationEvent} (hclaim : s.claims.get? token = some claim)
    (hphase : phase.isPastCall = false → claim.phase.isPastCall = false)
    (hclaims : s'.claims = s.claims.set token { claim with phase })
    (hlog : s'.log = events ++ s.log)
    (hevents : ∀ event ∈ events, ∃ key, event = .endedAmbiguously key) : Uncalled s s' where
  claims token' claim' hget hbefore := by
    rcases Table.get?_set_cases (hclaims ▸ hget) with ⟨rfl, rfl⟩ | hget
    · exact ⟨claim, hclaim, hphase hbefore, rfl⟩
    · exact ⟨claim', hget, hbefore, rfl⟩
  calls key := by rw [hlog, callCount_append hevents]
  claimed key := by
    rw [hlog]
    exact claimCount_le_append ..

/-- A claim that is past its call stays so. -/
lemma PhaseMove.isPastCall {token : Token} {claim : Claim μ} {phase : ClaimPhase μ}
    (h : PhaseMove config s token claim phase) (hphase : phase.isPastCall = false) :
    claim.phase.isPastCall = false := by
  cases h with
  | current hbefore | unjudged hbefore | fresh hbefore =>
    rw [hbefore]
    rfl
  | recheck => simp [afterCall_isPastCall] at hphase
  | fenced | notCurrent | judged | outdated | retryFenced | exhausted | retryDue => cases hphase

lemma uncalled_endCall {token : Token} {claim : Claim μ} {attempts : ℕ} {sourceHash : SourceHash}
    {answer : RemoteAnswer} (hclaim : s.claims.get? token = some claim) :
    Uncalled s (s.endCall config token claim attempts sourceHash answer) := by
  have hended : ∀ event ∈ [ModerationEvent.endedAmbiguously claim.job],
      ∃ key, event = .endedAmbiguously key := by simp
  unfold endCall
  split
  · exact .of_setPhase hclaim (fun h => by cases h) rfl rfl hended
  · next outcome judgments _ =>
    cases hambiguous : outcome.isAmbiguous with
    | true => exact .of_setPhase hclaim (fun h => by cases h) rfl rfl hended
    | false =>
      exact .of_setPhase hclaim (fun h => by cases h) rfl (show _ = [] ++ s.log from rfl) (by simp)

lemma leasesEnding_endedAmbiguously (clock : Time) :
    ∀ event ∈ s.leasesEnding clock, ∃ key, event = .endedAmbiguously key := by
  intro event hevent
  obtain ⟨_, claim, _, _, _, _, heq⟩ := mem_leasesEnding hevent
  exact ⟨claim.job, heq⟩

/-- What the call of the classifier does to the log and to the claim. -/
lemma classify_call (token : Token) (claim : Claim μ) (attempts : ℕ) (main : Option μ) :
    ∃ phase events, phase.isPastCall = true ∧ (∀ code delay, phase ≠ .writingRetry code delay) ∧
      (∀ event ∈ events, ∃ key, event = ModerationEvent.endedAmbiguously key) ∧
      (s.classify config token claim attempts main).claims
        = s.claims.set token { claim with phase } ∧
      (s.classify config token claim attempts main).log = events ++ .called claim.job :: s.log := by
  unfold classify
  simp only
  split
  · exact ⟨_, [], rfl, by simp, by simp, rfl, rfl⟩
  · exact ⟨_, [.endedAmbiguously claim.job], rfl, by simp [ClaimPhase.finish], by simp, rfl, rfl⟩
  · exact ⟨_, [], rfl, by simp, by simp, rfl, rfl⟩

/-- The call takes what its claim has left; no other claim of the job is under way. -/
lemma CallInvariant.classify (h : CallInvariant s) (hl : LiveInvariant s) {token : Token}
    {claim : Claim μ} {attempts : ℕ} {main : Option μ} (hclaim : s.claims.get? token = some claim)
    (hphase : claim.phase = .classifying attempts main) :
    CallInvariant (s.classify config token claim attempts main) := by
  obtain ⟨phase, events, hpast, -, hevents, hclaims, hlog⟩ :=
    @classify_call μ χ config s token claim attempts main
  have hcalls : ∀ key, callCount key (s.classify config token claim attempts main).log
      = callCount key s.log + if claim.job = key then 1 else 0 := by
    intro key
    rw [hlog, callCount_append hevents, callCount_called]
  have hclaimed : ∀ key, claimCount key s.log
      ≤ claimCount key (s.classify config token claim attempts main).log := by
    intro key
    rw [hlog, List.append_cons]
    exact claimCount_le_append ..
  have hleft := h.calls_lt token claim hclaim (by rw [hphase]; rfl)
  constructor
  · intro key
    rw [hcalls]
    split_ifs with hjob
    · subst hjob
      exact (Nat.succ_le_of_lt hleft).trans (hclaimed _)
    · exact (h.calls_le key).trans (hclaimed key)
  · intro token' claim' hget hbefore
    rw [hclaims, Table.get?_set] at hget
    split_ifs at hget with htoken
    · cases hget
      simp [hpast] at hbefore
    · have hne : claim.job ≠ claim'.job := by
        intro hjob
        have hlive : claim'.phase.isLive = true := by
          by_contra hended
          simp [isPastCall_of_not_live (by simpa using hended)] at hbefore
        exact htoken (hl.alone token' token claim' claim hget hclaim hlive (by rw [hphase]; rfl)
          hjob.symm)
      rw [hcalls, if_neg hne]
      exact (h.calls_lt token' claim' hget hbefore).trans_le (hclaimed _)

/-- A granted lease is one more claim, whichever claim is looked at. -/
lemma CallInvariant.grantLease (h : CallInvariant s) {worker : WorkerId} {leaseUntil : Time}
    {identity : JobIdentity} {job : Job} :
    CallInvariant (s.grantLease config worker leaseUntil identity job) := by
  have hcalls : ∀ key, callCount key (s.grantLease config worker leaseUntil identity job).log
      = callCount key s.log := by
    intro key
    simp [ModerationState.grantLease, callCount]
  have hclaimed : ∀ key, claimCount key s.log
      ≤ claimCount key (s.grantLease config worker leaseUntil identity job).log :=
    fun key => claimCount_le_append key [_] s.log
  constructor
  · intro key
    rw [hcalls]
    exact (h.calls_le key).trans (hclaimed key)
  · intro token claim hget hbefore
    rw [hcalls]
    rcases Table.get?_set_cases hget with ⟨rfl, rfl⟩ | hget
    · refine Nat.lt_of_le_of_lt (h.calls_le identity) ?_
      simp [ModerationState.grantLease, claimCount, ModerationEvent.isClaimOf]
    · exact (h.calls_lt token claim hget hbefore).trans_le (hclaimed _)

lemma CallInvariant.step {a : ModerationAction μ χ} (h : CallInvariant s) (hl : LiveInvariant s)
    (hstep : s.step config a = some s') : CallInvariant s' := by
  cases step_cases hstep with
  | tick seconds => exact h.of_uncalled (.of_log rfl rfl (leasesEnding_endedAmbiguously _))
  | writeDetail | readMissing | createMissing | expireLeases =>
    exact h.of_uncalled (.of_log rfl (List.nil_append _).symm (by simp))
  | claimJobs worker batchSize leaseSeconds locked =>
    apply claimModerationJobs_induction config CallInvariant
    · exact h.of_uncalled (.of_log rfl (List.nil_append _).symm (by simp))
    · exact fun t ht => ⟨ht.calls_le, ht.calls_lt⟩
    · exact fun t identity job _ _ _ ht => ht.grantLease
  | advance hclaim hclaimed =>
    cases hclaimed with
    | move hmove =>
      exact h.of_uncalled
        (.of_setPhase hclaim hmove.isPastCall rfl (List.nil_append _).symm (by simp))
    | classify hphase => exact h.classify hl hclaim hphase
    | retry | finish =>
      exact h.of_uncalled
        (.of_setPhase hclaim (fun h => by cases h) rfl (List.nil_append _).symm (by simp))
  | answer answer hclaim _ => exact h.of_uncalled (uncalled_endCall hclaim)

theorem reachable_callInvariant (h : (moderationSystem config).Reachable s) : CallInvariant s := by
  refine h.invariant_of (fun _ => reachable_liveInvariant) ?_
    fun _ _ _ hl hI hstep => hI.step hl hstep
  rintro _ rfl
  exact .empty

/-! ### The attempts of a row -/

/-- The jobs that the step claims have attempts left. -/
def claimsHaveAttemptsLeft (config : ModerationConfig μ χ) (s : ModerationState μ χ) :
    ModerationAction μ χ → Bool
  | .claimJobs _ batchSize _ locked =>
    ((readyJobs s.clock locked s.jobs.rows).take batchSize).all fun key =>
      (s.jobs.rows.get? key).all fun job => job.attempts < config.worker.maxAttempts
  | _ => true

/-- The superseded job that the step may revive has attempts left. -/
def revivalsHaveAttemptsLeft (config : ModerationConfig μ χ) (s : ModerationState μ χ) :
    ModerationAction μ χ → Bool
  | .writeDetail item main children =>
    (config.semantics.currentHash main children).all fun hash =>
      (s.jobs.rows.get? (config.settings.identity item hash)).all fun job =>
        job.status ≠ .superseded || job.attempts < config.worker.maxAttempts
  | _ => true

/-- No row has more than the attempts of the limit. -/
def AttemptsBounded (config : ModerationConfig μ χ) (s : ModerationState μ χ) : Prop :=
  ∀ key job, s.jobs.rows.get? key = some job → job.attempts ≤ config.worker.maxAttempts

/-- Only claiming a job raises the attempts of its row. -/
lemma JobChange.attempts_le {a : ModerationAction μ χ} {key : JobIdentity} {row : Option Job}
    {job' : Job} (h : JobChange config s a key row (some job'))
    (ha : ∀ worker batchSize leaseSeconds locked,
      a ≠ .claimJobs worker batchSize leaseSeconds locked)
    (hbound : ∀ job, row = some job → job.attempts ≤ config.worker.maxAttempts) :
    job'.attempts ≤ config.worker.maxAttempts := by
  have hattempts : job'.attempts = row.elim 0 Job.attempts := (h.rowKept ha).attempts
  cases row with
  | none => simp [hattempts]
  | some job =>
    rw [hattempts]
    exact hbound job rfl

/-- The leases that expire are no pending jobs: the same jobs are ready afterwards. -/
lemma readyJobs_expireLeases (locked : List JobIdentity) :
    readyJobs s.clock locked s.expireLeases.jobs.rows = readyJobs s.clock locked s.jobs.rows := by
  unfold readyJobs expireLeases expireAmbiguousLeases
  simp only
  rw [Table.filter_rows_updateWhere]
  intro key job hover
  simp only [Bool.and_eq_true, decide_eq_true_eq] at hover
  simp [hover.1, Job.expire, requeueableStatuses]

lemma pending_of_mem_readyJobs {now : Time} {locked : List JobIdentity}
    {jobs : Table JobIdentity Job} {key : JobIdentity} (h : key ∈ readyJobs now locked jobs) :
    ∃ job, jobs.get? key = some job ∧ job.status ∈ requeueableStatuses := by
  obtain ⟨⟨key, job⟩, hmem, rfl⟩ := List.mem_map.mp h
  rw [List.mem_insertionSort, List.mem_filter, Table.mem_rows_iff] at hmem
  simp only [Bool.and_eq_true, decide_eq_true_eq] at hmem
  exact ⟨job, hmem.1, hmem.2.1.1⟩

lemma AttemptsBounded.claimModerationJobs (h : AttemptsBounded config s) {worker : WorkerId}
    {batchSize leaseSeconds : ℕ} {locked : List JobIdentity}
    (hok : s.claimsHaveAttemptsLeft config (.claimJobs worker batchSize leaseSeconds locked)
      = true) :
    AttemptsBounded config (s.claimModerationJobs config worker batchSize leaseSeconds locked) := by
  have hexpire : s.step config .expireLeases = some s.expireLeases := rfl
  -- a row that is still pending during the loop is the one from before the step
  suffices hloop : ∀ key job, (s.claimModerationJobs config worker batchSize leaseSeconds
      locked).jobs.rows.get? key = some job → job.attempts ≤ config.worker.maxAttempts ∧
      (job.status ∈ requeueableStatuses → s.jobs.rows.get? key = some job) from
    fun key job hrow => (hloop key job hrow).1
  apply claimModerationJobs_induction_mem config fun t => ∀ key job,
    t.jobs.rows.get? key = some job → job.attempts ≤ config.worker.maxAttempts ∧
      (job.status ∈ requeueableStatuses → s.jobs.rows.get? key = some job)
  · intro key job hrow
    have hchange := step_jobChange hexpire key
    rw [hrow] at hchange
    refine ⟨hchange.attempts_le (by simp) (h key), fun hpending => ?_⟩
    rcases get?_expireLeases (s := s) key with hsame | ⟨old, _, _, _, _, _, hexpired⟩
    · exact hsame.symm.trans hrow
    · rw [hexpired] at hrow
      cases hrow
      simp [Job.expire, requeueableStatuses] at hpending
  · exact fun _ ht => ht
  · intro t identity job _ hmem hrow hpending ht key job' hrow'
    simp only [ModerationState.grantLease, Table.get?_set] at hrow'
    split_ifs at hrow' with hkey
    · rw [← Option.some.inj hrow']
      refine ⟨?_, fun hleased => by simp [Job.lease, requeueableStatuses] at hleased⟩
      rw [readyJobs_expireLeases] at hmem
      have hleft := List.all_eq_true.mp hok identity hmem
      rw [(ht identity job hrow).2 hpending, Option.all_some, decide_eq_true_eq] at hleft
      exact hleft
    · exact ht key job' hrow'

lemma AttemptsBounded.step {a : ModerationAction μ χ} (h : AttemptsBounded config s)
    (hok : s.claimsHaveAttemptsLeft config a = true) (hstep : s.step config a = some s') :
    AttemptsBounded config s' := by
  by_cases ha : ∃ worker batchSize leaseSeconds locked,
      a = .claimJobs worker batchSize leaseSeconds locked
  · obtain ⟨worker, batchSize, leaseSeconds, locked, rfl⟩ := ha
    simp only [ModerationState.step] at hstep
    split_ifs at hstep
    rw [← Option.some.inj hstep]
    exact h.claimModerationJobs hok
  · intro key job' hrow'
    have hchange := step_jobChange hstep key
    rw [hrow'] at hchange
    exact hchange.attempts_le
      (fun worker batchSize leaseSeconds locked heq =>
        ha ⟨worker, batchSize, leaseSeconds, locked, heq⟩) (h key)

/-! ### Where the attempts of a pending job come from -/

/-- Pending jobs have attempts left, and so have the rows that are about to be pending again. -/
structure AttemptsLeft (config : ModerationConfig μ χ) (s : ModerationState μ χ) : Prop where
  pending : ∀ key job, s.jobs.rows.get? key = some job → job.status ∈ requeueableStatuses →
    job.attempts < config.worker.maxAttempts
  retrying : ∀ token claim code delay job, s.claims.get? token = some claim →
    claim.phase = .writingRetry code delay → s.jobs.rows.get? claim.job = some job →
    job.heldBy token = true → job.attempts < config.worker.maxAttempts

lemma AttemptsLeft.empty : AttemptsLeft config (.empty μ χ) where
  pending key job h := by simp [ModerationState.empty] at h
  retrying token claim code delay job h := by simp [ModerationState.empty] at h

/-- A row becomes pending by its creation, by a revival or by a retry. -/
lemma JobChange.attempts_lt {a : ModerationAction μ χ} {key : JobIdentity} {job' : Job}
    (h : JobChange config s a key (s.jobs.rows.get? key) (some job')) (hI : AttemptsLeft config s)
    (hmax : 1 ≤ config.worker.maxAttempts)
    (hok : s.revivalsHaveAttemptsLeft config a = true)
    (hpending : job'.status ∈ requeueableStatuses) :
    job'.attempts < config.worker.maxAttempts := by
  generalize hrow : s.jobs.rows.get? key = row at h
  generalize hrow' : some job' = row' at h
  cases h with
  | keep => exact hI.pending key job' (hrow.trans hrow'.symm) hpending
  | enqueue h =>
    cases h with
    | keep => exact hI.pending key job' (hrow.trans hrow'.symm) hpending
    | supersede =>
      cases hrow'
      simp [Job.supersede, requeueableStatuses] at hpending
    | settle =>
      cases hrow'
      simp [Job.settle, requeueableStatuses] at hpending
    | create =>
      cases hrow'
      exact hmax
    | @revive job _ hhash hkey hsuperseded =>
      cases hrow'
      subst hkey
      have hleft : job.attempts < config.worker.maxAttempts := by
        simpa [revivalsHaveAttemptsLeft, hhash, hrow, hsuperseded] using hok
      exact hleft
  | insert =>
    cases hrow'
    exact hmax
  | expire =>
    cases hrow'
    simp [Job.expire, requeueableStatuses] at hpending
  | claim =>
    cases hrow'
    simp [Job.lease, requeueableStatuses] at hpending
  | @finish _ _ status _ _ _ _ hclaim hphase hheld =>
    cases hrow'
    cases status <;> simp [Job.finish, FinalStatus.toJobStatus, requeueableStatuses] at hpending
  | retry hclaim hphase hheld =>
    cases hrow'
    have hleft := hI.retrying _ _ _ _ _ hclaim hphase hrow hheld
    exact hleft

/-- A row is held under a token only by claiming it, or because it was so before. -/
lemma JobChange.of_heldBy {a : ModerationAction μ χ} {key : JobIdentity} {row : Option Job}
    {job' : Job} {token : Token} (h : JobChange config s a key row (some job'))
    (ha : ∀ worker batchSize leaseSeconds locked,
      a ≠ .claimJobs worker batchSize leaseSeconds locked)
    (hheld : job'.heldBy token = true) : row = some job' := by
  rw [Job.heldBy_iff] at hheld
  cases h with
  | keep => rfl
  | enqueue h =>
    cases h with
    | keep => rfl
    | supersede => cases hheld.1
    | settle => cases hheld.1
    | create => cases hheld.1
    | revive => cases hheld.1
  | insert => cases hheld.1
  | expire => cases hheld.1
  | claim => exact absurd rfl (ha _ _ _ _)
  | finish => exact absurd hheld.1 (FinalStatus.toJobStatus_ne_leased _)
  | retry => cases hheld.1

lemma AttemptsLeft.of_jobChange (h : AttemptsLeft config s) {a : ModerationAction μ χ}
    (hmax : 1 ≤ config.worker.maxAttempts) (hok : s.revivalsHaveAttemptsLeft config a = true)
    (ha : ∀ worker batchSize leaseSeconds locked,
      a ≠ .claimJobs worker batchSize leaseSeconds locked)
    (hchange : ∀ key, JobChange config s a key (s.jobs.rows.get? key) (s'.jobs.rows.get? key))
    (hclaims : ∀ token claim' code delay, s'.claims.get? token = some claim' →
      claim'.phase = .writingRetry code delay →
      s.claims.get? token = some claim' ∨
        ∀ job, s.jobs.rows.get? claim'.job = some job → job.heldBy token = true →
          job.attempts < config.worker.maxAttempts) : AttemptsLeft config s' := by
  constructor
  · intro key job' hrow' hpending
    have hkey := hchange key
    rw [hrow'] at hkey
    exact hkey.attempts_lt h hmax hok hpending
  · intro token claim' code delay job' hget hphase hrow' hheld
    have hkey := hchange claim'.job
    rw [hrow'] at hkey
    have hrow := hkey.of_heldBy ha hheld
    rcases hclaims token claim' code delay hget hphase with hold | hleft
    · exact h.retrying token claim' code delay job' hold hphase hrow hheld
    · exact hleft job' hrow hheld

lemma AttemptsLeft.grantLease (h : AttemptsLeft config s) {worker : WorkerId} {leaseUntil : Time}
    {identity : JobIdentity} {job : Job} :
    AttemptsLeft config (s.grantLease config worker leaseUntil identity job) := by
  constructor
  · intro key job' hrow hpending
    rcases Table.get?_set_cases hrow with ⟨-, rfl⟩ | hrow
    · simp [Job.lease, requeueableStatuses] at hpending
    · exact h.pending key job' hrow hpending
  · intro token claim code delay job' hget hphase hrow hheld
    simp only [ModerationState.grantLease, Table.get?_set] at hget hrow
    split_ifs at hget with htoken
    · cases hget
      cases hphase
    · split_ifs at hrow
      · -- the row is held under the new token now
        rw [← Option.some.inj hrow, Job.heldBy_iff] at hheld
        exact absurd (Option.some.inj hheld.2).symm htoken
      · exact h.retrying token claim code delay job' hget hphase hrow hheld

lemma afterCall_ne_writingRetry {currentHash : Option SourceHash} {job : JobIdentity}
    {attempts : ℕ} {outcome : ClassifierOutcome} (code : String) (delay : ℕ) :
    (afterCall config.settings config.worker currentHash job attempts outcome : ClaimPhase μ)
      ≠ .writingRetry code delay := by
  unfold afterCall afterCurrentCall
  split_ifs
  · split
    all_goals
      split_ifs <;> simp [ClaimPhase.finish]
  · simp [ClaimPhase.finish]

lemma endCall_ne_writingRetry {token : Token} {claim : Claim μ} {attempts : ℕ}
    {sourceHash : SourceHash} {answer : RemoteAnswer} :
    ∃ phase, (∀ code delay, phase ≠ .writingRetry code delay) ∧
      (s.endCall config token claim attempts sourceHash answer).claims
        = s.claims.set token { claim with phase } := by
  unfold endCall
  split
  · exact ⟨_, by simp [ClaimPhase.finish], rfl⟩
  · exact ⟨_, by simp, rfl⟩

/-- A claim writes a retry only after it has found attempts left. -/
lemma PhaseMove.attempts_lt {token : Token} {claim : Claim μ} {phase : ClaimPhase μ}
    (h : PhaseMove config s token claim phase) {code : String} {delay : ℕ}
    (hphase : phase = .writingRetry code delay) {job : Job}
    (hrow : s.jobs.rows.get? claim.job = some job) (hheld : job.heldBy token = true) :
    job.attempts < config.worker.maxAttempts := by
  cases h with
  | retryDue _ hrow' hattempts =>
    rw [heldRow_eq_some hrow hheld] at hrow'
    cases hrow'
    exact hattempts
  | recheck => exact absurd hphase (afterCall_ne_writingRetry code delay)
  | fenced | current | notCurrent | judged | unjudged | outdated | fresh | retryFenced
  | exhausted => cases hphase

lemma AttemptsLeft.step {a : ModerationAction μ χ} (h : AttemptsLeft config s)
    (hmax : 1 ≤ config.worker.maxAttempts) (hok : s.revivalsHaveAttemptsLeft config a = true)
    (hstep : s.step config a = some s') : AttemptsLeft config s' := by
  have hchange := step_jobChange hstep
  cases step_cases hstep with
  | tick | writeDetail | readMissing | createMissing | expireLeases =>
    exact h.of_jobChange hmax hok (by simp) hchange fun _ _ _ _ hget _ => .inl hget
  | claimJobs worker batchSize leaseSeconds locked =>
    apply claimModerationJobs_induction config (AttemptsLeft config)
    · have hexpire : s.step config .expireLeases = some s.expireLeases := rfl
      exact h.of_jobChange hmax (by rfl) (by simp) (step_jobChange hexpire)
        fun _ _ _ _ hget _ => .inl hget
    · exact fun t ht => ⟨ht.pending, ht.retrying⟩
    · exact fun t _ _ _ _ _ ht => ht.grantLease
  | @advance token claim _ hclaim hclaimed =>
    apply h.of_jobChange hmax hok (by simp) hchange
    intro token' claim' code delay hget hphase
    cases hclaimed with
    | move hmove =>
      rcases Table.get?_set_cases hget with ⟨rfl, rfl⟩ | hget
      · exact .inr fun job hrow hheld => hmove.attempts_lt hphase hrow hheld
      · exact .inl hget
    | classify =>
      obtain ⟨phase, _, -, hne, -, hclaims, -⟩ := classify_call token claim _ _
      rcases Table.get?_set_cases (hclaims ▸ hget) with ⟨rfl, rfl⟩ | hget
      · exact absurd hphase (hne code delay)
      · exact .inl hget
    | retry | finish =>
      rcases Table.get?_set_cases hget with ⟨rfl, rfl⟩ | hget
      · cases hphase
      · exact .inl hget
  | answer answer hclaim _ =>
    apply h.of_jobChange hmax hok (by simp) hchange
    intro token' claim' code delay hget hphase
    obtain ⟨phase, hne, hclaims⟩ := endCall_ne_writingRetry
    rcases Table.get?_set_cases (hclaims ▸ hget) with ⟨rfl, rfl⟩ | hget
    · exact absurd hphase (hne code delay)
    · exact .inl hget

end ModerationState

/-- In every run in which only jobs with attempts left are claimed, the classifier is called at most
    `max_attempts` times for a job. -/
theorem callCount_le_maxAttempts
    (h : (moderationSystem config).ReachableUnder
      (fun s a => s.claimsHaveAttemptsLeft config a = true) s) (job : JobIdentity) :
    callCount job s.log ≤ config.worker.maxAttempts := by
  have hbounded : s.AttemptsBounded config := by
    refine h.invariant ?_ fun _ _ _ hI hok hstep => hI.step hok hstep
    rintro _ rfl key job hrow
    simp [ModerationState.empty] at hrow
  calc callCount job s.log
      ≤ claimCount job s.log := (ModerationState.reachable_callInvariant h.reachable).calls_le job
    _ = (s.jobs.rows.get? job).elim 0 Job.attempts :=
      ((ModerationState.reachable_fencingInvariant h.reachable).attempts job).symm
    _ ≤ config.worker.maxAttempts := by
      cases hrow : s.jobs.rows.get? job with
      | none => exact Nat.zero_le _
      | some row => exact hbounded job row hrow

/-- The retry path looks at the attempts: a claim of a job without attempts left comes from the
    revival of one. -/
theorem claimsHaveAttemptsLeft_of_revivals (hmax : 1 ≤ config.worker.maxAttempts)
    (h : (moderationSystem config).ReachableUnder
      (fun s a => s.revivalsHaveAttemptsLeft config a = true) s) :
    (moderationSystem config).ReachableUnder
      (fun s a => s.claimsHaveAttemptsLeft config a = true) s := by
  have hleft : ∀ s, (moderationSystem config).ReachableUnder
      (fun s a => s.revivalsHaveAttemptsLeft config a = true) s → s.AttemptsLeft config := by
    intro s hs
    refine hs.invariant ?_ fun _ _ _ hI hok hstep => hI.step hmax hok hstep
    rintro _ rfl
    exact .empty
  induction h with
  | initial h => exact .initial h
  | @step s s' a hs _ hstep ih =>
    refine .step ih ?_ hstep
    cases a with
    | claimJobs worker batchSize leaseSeconds locked =>
      apply List.all_eq_true.mpr
      intro key hmem
      obtain ⟨job, hrow, hpending⟩ :=
        ModerationState.pending_of_mem_readyJobs (List.mem_of_mem_take hmem)
      rw [hrow, Option.all_some, decide_eq_true_eq]
      exact (hleft s hs).pending key job hrow hpending
    | tick | writeDetail | readMissing | createMissing | expireLeases | advance | answer => rfl

/-- A text that is rate limited changes and returns: its job is claimed and called for twice. -/
theorem callCount_le_maxAttempts_revived :
    ∃ s, (moderationSystem standardConfig).Reachable s ∧
      callCount (standardConfig.settings.identity 1 sourceHashOfA) s.log = 2 ∧
      callCount (standardConfig.settings.identity 1 sourceHashOfA) s.log
        ≤ standardConfig.worker.maxAttempts := by
  obtain ⟨s, hs, hcalls⟩ := exists_standardRun
    (fun config s a => s.claimsHaveAttemptsLeft config a)
    (fun s => callCount (standardConfig.settings.identity 1 sourceHashOfA) s.log = 2)
    [ .writeDetail 1 (titledMovie "A" none) {}, .claimJobs 1 1 120 [],
      .advance 0, .advance 0, .advance 0, .advance 0, .writeDetail 1 (titledMovie "B" none) {},
      .answer 0 (.unavailable "typesafe_rate_limited"), .advance 0, .advance 0,
      .writeDetail 1 (titledMovie "A" none) {}, .claimJobs 2 1 120 [],
      .advance 1, .advance 1, .advance 1, .advance 1 ] (by decide +kernel)
  rw [decide_eq_true_eq] at hcalls
  exact ⟨s, hs.reachable, hcalls, callCount_le_maxAttempts hs _⟩

/-- One call for text A that is superseded by text B while it is under way. -/
def supersededCall (token : Token) : List (ModerationAction LoadedDetail ChildRows) :=
  [ .writeDetail 1 (titledMovie "A" none) {}, .claimJobs 1 1 120 [],
    .advance token, .advance token, .advance token, .advance token,
    .writeDetail 1 (titledMovie "B" none) {}, .answer token (.unavailable "typesafe_rate_limited"),
    .advance token, .advance token ]

/-- A text that changes and returns during each call is called for as often as that happens. -/
theorem calls_exceed_maxAttempts :
    ¬ ∀ s, (moderationSystem standardConfig).Reachable s →
      ∀ job, callCount job s.log ≤ standardConfig.worker.maxAttempts := by
  intro hclaim
  obtain ⟨s, hs, hcalls⟩ := exists_standardRun (fun _ _ _ => true)
    (fun s => callCount (standardConfig.settings.identity 1 sourceHashOfA) s.log = 6)
    ([0, 1, 2, 3, 4, 5].flatMap supersededCall) (by decide +kernel)
  rw [decide_eq_true_eq] at hcalls
  have hle := hclaim s hs.reachable (standardConfig.settings.identity 1 sourceHashOfA)
  rw [hcalls] at hle
  exact absurd hle (by decide)

end Denn
