import Denn.Moderation.System

/-!
# What a step changes

Each step of the moderation system is inverted once: the transactions by `Step`, the statements of a
claim by `ClaimStep` and `PhaseMove`, the writes to a job row by `JobChange`. The invariants are
derived from these.
-/

namespace Denn

open Core

variable {μ χ : Type} {config : ModerationConfig μ χ} {s s' : ModerationState μ χ}

namespace ModerationState

/-! ### Statements of a claim -/

/-- The statements of a claim that write nothing but its own program counter. -/
inductive PhaseMove (config : ModerationConfig μ χ) (s : ModerationState μ χ) (token : Token)
    (claim : Claim μ) : ClaimPhase μ → Prop
  | fenced (hphase : claim.phase = .claimed)
      (hheld : heldRow claim.job token s.jobs.rows = none) :
      PhaseMove config s token claim (.ended .fenced)
  | current {row : Job} (hphase : claim.phase = .claimed)
      (hheld : heldRow claim.job token s.jobs.rows = some row)
      (hcurrent : jobIsCurrent config.settings (s.currentHash claim.job.contentItem) claim.job
        = true) :
      PhaseMove config s token claim (.checkingSuccess row.attempts)
  | notCurrent (hphase : claim.phase = .claimed)
      (hcurrent : jobIsCurrent config.settings (s.currentHash claim.job.contentItem) claim.job
        = false) :
      PhaseMove config s token claim (.finish .superseded "" .superseded)
  | judged {attempts : ℕ} (hphase : claim.phase = .checkingSuccess attempts)
      (hjudged : hasCurrentSuccess s.judgments.rows claim.job = true) :
      PhaseMove config s token claim (.finish .done "" .reused)
  | unjudged {attempts : ℕ} (hphase : claim.phase = .checkingSuccess attempts) :
      PhaseMove config s token claim (.checkingHash attempts)
  | outdated {attempts : ℕ} (hphase : claim.phase = .checkingHash attempts) :
      PhaseMove config s token claim (.finish .superseded "source_hash_outdated" .superseded)
  | fresh {attempts : ℕ} (hphase : claim.phase = .checkingHash attempts) :
      PhaseMove config s token claim
        (.classifying attempts ((s.items.get? claim.job.contentItem).map (·.main)))
  | recheck {attempts : ℕ} {outcome : ClassifierOutcome}
      (hphase : claim.phase = .rechecking attempts outcome) :
      PhaseMove config s token claim (afterCall config.settings config.worker
        (s.currentHash claim.job.contentItem) claim.job attempts outcome)
  | retryFenced {code : String} {delay : ℕ} (hphase : claim.phase = .schedulingRetry code delay)
      (hheld : heldRow claim.job token s.jobs.rows = none) :
      PhaseMove config s token claim (.ended .fenced)
  | exhausted {code : String} {delay : ℕ} {row : Job}
      (hphase : claim.phase = .schedulingRetry code delay)
      (hheld : heldRow claim.job token s.jobs.rows = some row)
      (hattempts : config.worker.maxAttempts ≤ row.attempts) :
      PhaseMove config s token claim (.finishing .failed code .failed .failed)
  | retryDue {code : String} {delay : ℕ} {row : Job}
      (hphase : claim.phase = .schedulingRetry code delay)
      (hheld : heldRow claim.job token s.jobs.rows = some row)
      (hattempts : row.attempts < config.worker.maxAttempts) :
      PhaseMove config s token claim (.writingRetry code delay)

/-- An update of the claim's row, with the claim ended. -/
def endWith (s : ModerationState μ χ) (token : Token) (claim : Claim μ) (f : Job → Job)
    (result : ClaimResult) : ModerationState μ χ :=
  { s with
    jobs := { s.jobs with rows := updateHeld claim.job token f s.jobs.rows }
  }.setPhase token claim (.ended result)

/-- One statement of a claim. -/
inductive ClaimStep (config : ModerationConfig μ χ) (s : ModerationState μ χ) (token : Token)
    (claim : Claim μ) : ModerationState μ χ → Prop
  | move {phase : ClaimPhase μ} (h : PhaseMove config s token claim phase) :
      ClaimStep config s token claim (s.setPhase token claim phase)
  | classify {attempts : ℕ} {main : Option μ} (hphase : claim.phase = .classifying attempts main) :
      ClaimStep config s token claim (s.classify config token claim attempts main)
  | retry {code : String} {delay : ℕ} (hphase : claim.phase = .writingRetry code delay)
      (result : ClaimResult) :
      ClaimStep config s token claim
        (s.endWith token claim (Job.scheduleRetry s.clock code delay) result)
  | finish {status : FinalStatus} {code : String} {result otherwise : ClaimResult}
      (hphase : claim.phase = .finishing status code result otherwise) (ended : ClaimResult) :
      ClaimStep config s token claim (s.endWith token claim (Job.finish s.clock status.toJobStatus code) ended)

theorem advance_cases {token : Token} {claim : Claim μ}
    (h : s.advance config token claim = some s') : ClaimStep config s token claim s' := by
  unfold advance at h
  cases hphase : claim.phase with
  | claimed =>
    simp only [hphase] at h
    cases hheld : heldRow claim.job token s.jobs.rows with
    | none =>
      simp only [hheld, Option.some.injEq] at h
      exact h ▸ .move (.fenced hphase hheld)
    | some row =>
      simp only [hheld] at h
      split_ifs at h with hcurrent
      · rw [← Option.some.inj h]
        exact .move (.current hphase hheld hcurrent)
      · rw [← Option.some.inj h]
        exact .move (.notCurrent hphase (by simpa using hcurrent))
  | checkingSuccess attempts =>
    simp only [hphase] at h
    split_ifs at h with hjudged
    · rw [← Option.some.inj h]
      exact .move (.judged hphase hjudged)
    · rw [← Option.some.inj h]
      exact .move (.unjudged hphase)
  | checkingHash attempts =>
    simp only [hphase] at h
    split_ifs at h
    · rw [← Option.some.inj h]
      exact .move (.outdated hphase)
    · rw [← Option.some.inj h]
      exact .move (.fresh hphase)
  | classifying attempts main =>
    simp only [hphase, Option.some.injEq] at h
    exact h ▸ .classify hphase
  | calling attempts sourceHash => simp [hphase] at h
  | rechecking attempts outcome =>
    simp only [hphase, Option.some.injEq] at h
    exact h ▸ .move (.recheck hphase)
  | schedulingRetry code delay =>
    simp only [hphase] at h
    cases hheld : heldRow claim.job token s.jobs.rows with
    | none =>
      simp only [hheld, Option.some.injEq] at h
      exact h ▸ .move (.retryFenced hphase hheld)
    | some row =>
      simp only [hheld] at h
      split_ifs at h with hattempts
      · rw [← Option.some.inj h]
        exact .move (.exhausted hphase hheld hattempts)
      · rw [← Option.some.inj h]
        exact .move (.retryDue hphase hheld (not_le.mp hattempts))
  | writingRetry code delay =>
    simp only [hphase, Option.some.injEq] at h
    exact h ▸ .retry hphase _
  | finishing status code result otherwise =>
    simp only [hphase, Option.some.injEq] at h
    exact h ▸ .finish hphase _
  | ended result => simp [hphase] at h

/-! ### Transactions -/

/-- One transaction, with what it reads of the claims and the admissions. -/
inductive Step (config : ModerationConfig μ χ) (s : ModerationState μ χ) :
    ModerationAction μ χ → ModerationState μ χ → Prop
  | tick (seconds : ℕ) : Step config s (.tick seconds)
      { s with clock := s.clock + seconds, log := s.leasesEnding (s.clock + seconds) ++ s.log }
  | writeDetail (item : ItemId) (main : μ) (children : χ) :
      Step config s (.writeDetail item main children) (s.writeDetail config item main children)
  | readMissing (contentItems : List AnnotatedItem) : Step config s (.readMissing contentItems)
      { s with
        admissions := s.admissions ++ [(s.clock, missingModerationJobs config.settings
          s.judgments.rows s.jobs.rows contentItems)] }
  | createMissing {admission : ℕ} {new : Time × List JobIdentity}
      (hnew : s.admissions[admission]? = some new) : Step config s (.createMissing admission)
      { s with
        admissions := s.admissions.eraseIdx admission
        jobs := Denn.createMissing new.1 new.2 s.jobs }
  | expireLeases : Step config s .expireLeases s.expireLeases
  | claimJobs (worker : WorkerId) (batchSize leaseSeconds : ℕ) (locked : List JobIdentity) :
      Step config s (.claimJobs worker batchSize leaseSeconds locked)
        (s.claimModerationJobs config worker batchSize leaseSeconds locked)
  | advance {token : Token} {claim : Claim μ} {s' : ModerationState μ χ}
      (hclaim : s.claims.get? token = some claim) (hstep : ClaimStep config s token claim s') :
      Step config s (.advance token) s'
  | answer {token : Token} {claim : Claim μ} {attempts : ℕ} {sourceHash : SourceHash}
      (answer : RemoteAnswer) (hclaim : s.claims.get? token = some claim)
      (hphase : claim.phase = .calling attempts sourceHash) :
      Step config s (.answer token answer) (s.endCall config token claim attempts sourceHash answer)

theorem step_cases {a : ModerationAction μ χ} (h : s.step config a = some s') :
    Step config s a s' := by
  cases a with
  | tick seconds =>
    cases h
    exact .tick seconds
  | writeDetail item main children =>
    cases h
    exact .writeDetail item main children
  | readMissing contentItems =>
    cases h
    exact .readMissing contentItems
  | createMissing admission =>
    obtain ⟨new, hnew, rfl⟩ := Option.map_eq_some_iff.mp h
    exact .createMissing hnew
  | expireLeases =>
    cases h
    exact .expireLeases
  | claimJobs worker batchSize leaseSeconds locked =>
    simp only [step] at h
    split_ifs at h
    rw [← Option.some.inj h]
    exact .claimJobs worker batchSize leaseSeconds locked
  | advance token =>
    obtain ⟨claim, hclaim, hadvance⟩ := Option.bind_eq_some_iff.mp h
    exact .advance hclaim (advance_cases hadvance)
  | answer token answer =>
    obtain ⟨claim, hclaim, h⟩ := Option.bind_eq_some_iff.mp h
    split at h
    · next hphase =>
      rw [← Option.some.inj h]
      exact .answer answer hclaim hphase
    · cases h

/-! ### Claiming -/

lemma claimJob_cases (config : ModerationConfig μ χ) (s : ModerationState μ χ) (worker : WorkerId)
    (leaseUntil : Time) (identity : JobIdentity) :
    s.claimJob config worker leaseUntil identity = { s with draws := s.draws + 1 } ∨
    ∃ job, s.jobs.rows.get? identity = some job ∧ job.status ∈ requeueableStatuses ∧
      s.claimJob config worker leaseUntil identity
        = s.grantLease config worker leaseUntil identity job := by
  unfold claimJob
  cases hrow : s.jobs.rows.get? identity with
  | none => exact .inl rfl
  | some job =>
    simp only
    split_ifs with hpending
    · exact .inr ⟨job, rfl, hpending, rfl⟩
    · exact .inl rfl

/-- What the expiry of leases and every turn of the claim loop keep, a claimed batch keeps. -/
theorem claimModerationJobs_induction_mem (config : ModerationConfig μ χ)
    (I : ModerationState μ χ → Prop) {worker : WorkerId} {batchSize leaseSeconds : ℕ}
    {locked : List JobIdentity} (hexpire : I s.expireLeases)
    (hdraw : ∀ t, I t → I { t with draws := t.draws + 1 })
    (hlease : ∀ t identity job, t.clock = s.clock →
      identity ∈ (readyJobs s.clock locked s.expireLeases.jobs.rows).take batchSize →
      t.jobs.rows.get? identity = some job → job.status ∈ requeueableStatuses → I t →
      I (t.grantLease config worker (s.clock + leaseSeconds) identity job)) :
    I (s.claimModerationJobs config worker batchSize leaseSeconds locked) := by
  have hloop : ∀ (identities : List JobIdentity) (t : ModerationState μ χ),
      identities ⊆ (readyJobs s.clock locked s.expireLeases.jobs.rows).take batchSize →
      t.clock = s.clock → I t → I (identities.foldl
        (fun t identity => t.claimJob config worker (t.clock + leaseSeconds) identity) t) := by
    intro identities
    induction identities with
    | nil => exact fun _ _ _ hI => hI
    | cons identity identities ih =>
      intro t hbatch hclock hI
      obtain ⟨hmem, hbatch⟩ := List.cons_subset.mp hbatch
      rw [List.foldl_cons]
      rcases claimJob_cases config t worker (t.clock + leaseSeconds) identity
        with h | ⟨job, hrow, hpending, h⟩
      · rw [h]
        exact ih _ hbatch hclock (hdraw t hI)
      · rw [h, hclock]
        exact ih _ hbatch hclock (hlease t identity job hclock hmem hrow hpending hI)
  exact hloop _ _ (List.Subset.refl _) rfl hexpire

/-- The induction for what does not depend on which jobs are claimed. -/
theorem claimModerationJobs_induction (config : ModerationConfig μ χ)
    (I : ModerationState μ χ → Prop) {worker : WorkerId} {batchSize leaseSeconds : ℕ}
    {locked : List JobIdentity} (hexpire : I s.expireLeases)
    (hdraw : ∀ t, I t → I { t with draws := t.draws + 1 })
    (hlease : ∀ t identity job, t.clock = s.clock → t.jobs.rows.get? identity = some job →
      job.status ∈ requeueableStatuses → I t →
      I (t.grantLease config worker (s.clock + leaseSeconds) identity job)) :
    I (s.claimModerationJobs config worker batchSize leaseSeconds locked) :=
  claimModerationJobs_induction_mem config I hexpire hdraw
    fun t identity job hclock _ => hlease t identity job hclock

/-! ### Job rows -/

/-- The writes that a step makes to a job row. -/
inductive JobChange (config : ModerationConfig μ χ) (s : ModerationState μ χ) :
    ModerationAction μ χ → JobIdentity → Option Job → Option Job → Prop
  | keep (a : ModerationAction μ χ) (key : JobIdentity) (row : Option Job) :
      JobChange config s a key row row
  | enqueue {item : ItemId} {main : μ} {children : χ} {key : JobIdentity} {row row' : Option Job}
      (h : EnqueueChange config.settings s.judgments.rows s.clock item
        (config.semantics.currentHash main children) key row row') :
      JobChange config s (.writeDetail item main children) key row row'
  | insert {admission : ℕ} {key : JobIdentity} {new : Time × List JobIdentity} (id : ℕ)
      (availableAt : Time) (hnew : s.admissions[admission]? = some new) (hkey : key ∈ new.2) :
      JobChange config s (.createMissing admission) key none (some { id, availableAt })
  | expire {a : ModerationAction μ χ} {key : JobIdentity} {job : Job} {leaseUntil : Time}
      (hexpires : a.expires = true) (hleased : job.status = .leased)
      (hlease : job.leaseUntil = some leaseUntil) (hover : leaseUntil ≤ s.clock) :
      JobChange config s a key (some job) (some job.expire)
  | claim {worker : WorkerId} {batchSize leaseSeconds : ℕ} {locked : List JobIdentity}
      {key : JobIdentity} {job : Job} (token : Token)
      (hpending : job.status ∈ requeueableStatuses) :
      JobChange config s (.claimJobs worker batchSize leaseSeconds locked) key (some job)
        (some (job.lease token (s.clock + leaseSeconds)))
  | finish {token : Token} {claim : Claim μ} {status : FinalStatus} {code : String}
      {result otherwise : ClaimResult} {job : Job} (hclaim : s.claims.get? token = some claim)
      (hphase : claim.phase = .finishing status code result otherwise)
      (hheld : job.heldBy token = true) :
      JobChange config s (.advance token) claim.job (some job)
        (some (job.finish s.clock status.toJobStatus code))
  | retry {token : Token} {claim : Claim μ} {code : String} {delay : ℕ} {job : Job}
      (hclaim : s.claims.get? token = some claim) (hphase : claim.phase = .writingRetry code delay)
      (hheld : job.heldBy token = true) :
      JobChange config s (.advance token) claim.job (some job)
        (some (job.scheduleRetry s.clock code delay))

lemma get?_expireLeases (key : JobIdentity) :
    s.expireLeases.jobs.rows.get? key = s.jobs.rows.get? key ∨
    ∃ job leaseUntil, s.jobs.rows.get? key = some job ∧ job.status = .leased ∧
      job.leaseUntil = some leaseUntil ∧ leaseUntil ≤ s.clock ∧
      s.expireLeases.jobs.rows.get? key = some job.expire := by
  simp only [expireLeases, expireAmbiguousLeases, Table.get?_updateWhere]
  cases s.jobs.rows.get? key with
  | none => exact .inl rfl
  | some job =>
    rw [Option.map_some]
    split_ifs with h
    · simp only [Bool.and_eq_true, decide_eq_true_eq] at h
      cases hlease : job.leaseUntil with
      | none => simp [hlease] at h
      | some leaseUntil =>
        exact .inr ⟨job, leaseUntil, rfl, h.1, hlease, by simpa [hlease] using h.2, rfl⟩
    · exact .inl rfl

lemma get?_updateHeld (identity key : JobIdentity) (token : Token) (f : Job → Job)
    (jobs : Table JobIdentity Job) :
    (updateHeld identity token f jobs).get? key = jobs.get? key ∨
    (key = identity ∧ ∃ job, jobs.get? key = some job ∧ job.heldBy token = true ∧
      (updateHeld identity token f jobs).get? key = some (f job)) := by
  rw [updateHeld, Table.get?_updateWhere]
  cases jobs.get? key with
  | none => exact .inl rfl
  | some job =>
    rw [Option.map_some]
    split_ifs with h
    · simp only [Bool.and_eq_true, decide_eq_true_eq] at h
      exact .inr ⟨h.1, job, rfl, h.2, rfl⟩
    · exact .inl rfl

lemma get?_endWith (token : Token) (claim : Claim μ) (f : Job → Job) (result : ClaimResult)
    (key : JobIdentity) :
    (s.endWith token claim f result).jobs.rows.get? key = s.jobs.rows.get? key ∨
    (key = claim.job ∧ ∃ job, s.jobs.rows.get? key = some job ∧ job.heldBy token = true ∧
      (s.endWith token claim f result).jobs.rows.get? key = some (f job)) :=
  get?_updateHeld claim.job key token f s.jobs.rows

lemma classify_jobs {token : Token} {claim : Claim μ} {attempts : ℕ} {main : Option μ} :
    (s.classify config token claim attempts main).jobs = s.jobs := by
  unfold classify
  simp only
  split <;> rfl

lemma endCall_jobs {token : Token} {claim : Claim μ} {attempts : ℕ} {sourceHash : SourceHash}
    {answer : RemoteAnswer} :
    (s.endCall config token claim attempts sourceHash answer).jobs = s.jobs := by
  unfold endCall
  split <;> rfl

lemma claimModerationJobs_change {worker : WorkerId} {batchSize leaseSeconds : ℕ}
    {locked : List JobIdentity} (key : JobIdentity) :
    JobChange config s (.claimJobs worker batchSize leaseSeconds locked) key
      (s.jobs.rows.get? key)
      ((s.claimModerationJobs config worker batchSize leaseSeconds locked).jobs.rows.get? key) := by
  apply claimModerationJobs_induction config fun t => JobChange config s
    (.claimJobs worker batchSize leaseSeconds locked) key (s.jobs.rows.get? key)
    (t.jobs.rows.get? key)
  · rcases get?_expireLeases (s := s) key with h | ⟨job, leaseUntil, hrow, hleased, hlease, hover, h⟩
    · rw [h]
      exact .keep _ _ _
    · rw [h, hrow]
      exact .expire rfl hleased hlease hover
  · exact fun _ h => h
  · intro t identity job _ hrow hpending h
    simp only [grantLease, Table.get?_set]
    split_ifs with hkey
    · -- a row that has changed before in this batch is not ready any more
      subst hkey
      rw [hrow] at h
      generalize s.jobs.rows.get? key = row at h ⊢
      cases h with
      | keep => exact .claim _ hpending
      | expire => simp [Job.expire, requeueableStatuses] at hpending
      | claim => simp [Job.lease, requeueableStatuses] at hpending
    · exact h

/-- Every step changes a job row in one of these ways. -/
theorem step_jobChange {a : ModerationAction μ χ} (h : s.step config a = some s')
    (key : JobIdentity) :
    JobChange config s a key (s.jobs.rows.get? key) (s'.jobs.rows.get? key) := by
  cases step_cases h with
  | tick seconds => exact .keep _ _ _
  | writeDetail item main children =>
    exact .enqueue (enqueueCurrentModerationJob_change _ _ key)
  | readMissing contentItems => exact .keep _ _ _
  | @createMissing admission new hnew =>
    rcases createMissing_change new.1 new.2 s.jobs key with hsame | ⟨hmem, hnone, id, hrow⟩
    · simp only [hsame]
      exact .keep _ _ _
    · simp only [hnone, hrow]
      exact .insert id _ hnew hmem
  | expireLeases =>
    rcases get?_expireLeases (s := s) key with h | ⟨job, leaseUntil, hrow, hleased, hlease, hover, h⟩
    · rw [h]
      exact .keep _ _ _
    · rw [h, hrow]
      exact .expire rfl hleased hlease hover
  | claimJobs worker batchSize leaseSeconds locked => exact claimModerationJobs_change key
  | @advance token claim _ hclaim hclaimed =>
    cases hclaimed with
    | move => exact .keep _ _ _
    | classify =>
      rw [classify_jobs]
      exact .keep _ _ _
    | retry hphase result =>
      rcases get?_endWith token claim _ result key with hsame | ⟨rfl, job, hrow, hheld, hnew⟩
      · rw [hsame]
        exact .keep _ _ _
      · rw [hrow, hnew]
        exact .retry hclaim hphase hheld
    | finish hphase result =>
      rcases get?_endWith token claim _ result key with hsame | ⟨rfl, job, hrow, hheld, hnew⟩
      · rw [hsame]
        exact .keep _ _ _
      · rw [hrow, hnew]
        exact .finish hclaim hphase hheld
  | answer answer hclaim hphase =>
    rw [endCall_jobs]
    exact .keep _ _ _

/-! ### Claims and log -/

lemma isClaimOf_of_grantedToken {event : ModerationEvent} (h : event.grantedToken = none)
    (job : JobIdentity) : event.isClaimOf job = false := by
  cases event with
  | claimed => cases h
  | called => rfl
  | endedAmbiguously => rfl

/-- No lease is granted between two states: claims keep their job, worker and lease, and the log
    grows by other events. -/
structure Ungranting (s s' : ModerationState μ χ) : Prop where
  claims : ∀ token claim', s'.claims.get? token = some claim' →
    ∃ claim, s.claims.get? token = some claim ∧ claim'.job = claim.job ∧
      claim'.worker = claim.worker ∧ claim'.leaseUntil = claim.leaseUntil
  log : ∃ events, s'.log = events ++ s.log ∧ ∀ event ∈ events, event.grantedToken = none
  draws : s'.draws = s.draws

lemma Ungranting.of_eq {events : List ModerationEvent} (hclaims : s'.claims = s.claims)
    (hlog : s'.log = events ++ s.log) (hevents : ∀ event ∈ events, event.grantedToken = none)
    (hdraws : s'.draws = s.draws) : Ungranting s s' where
  claims _ claim' h := ⟨claim', hclaims ▸ h, rfl, rfl, rfl⟩
  log := ⟨events, hlog, hevents⟩
  draws := hdraws

lemma Ungranting.of_setPhase {token : Token} {claim : Claim μ} {phase : ClaimPhase μ}
    {events : List ModerationEvent} (hclaim : s.claims.get? token = some claim)
    (hclaims : s'.claims = s.claims.set token { claim with phase })
    (hlog : s'.log = events ++ s.log) (hevents : ∀ event ∈ events, event.grantedToken = none)
    (hdraws : s'.draws = s.draws) : Ungranting s s' where
  claims token' claim' h := by
    rcases Table.get?_set_cases (hclaims ▸ h) with ⟨rfl, rfl⟩ | h
    · exact ⟨claim, hclaim, rfl, rfl, rfl⟩
    · exact ⟨claim', h, rfl, rfl, rfl⟩
  log := ⟨events, hlog, hevents⟩
  draws := hdraws

lemma Ungranting.setPhase {token : Token} {claim : Claim μ} (phase : ClaimPhase μ)
    (hclaim : s.claims.get? token = some claim) : Ungranting s (s.setPhase token claim phase) :=
  .of_setPhase hclaim rfl (List.nil_append _).symm (by simp) rfl

lemma Ungranting.classify {token : Token} {claim : Claim μ} {attempts : ℕ} {main : Option μ}
    (hclaim : s.claims.get? token = some claim) :
    Ungranting s (s.classify config token claim attempts main) := by
  have hcalled : ∀ event ∈ [ModerationEvent.called claim.job], event.grantedToken = none := by
    simp [ModerationEvent.grantedToken]
  have hraised : ∀ event ∈ [ModerationEvent.endedAmbiguously claim.job, .called claim.job],
      event.grantedToken = none := by
    simp [ModerationEvent.grantedToken]
  unfold ModerationState.classify
  simp only
  split
  · exact .of_setPhase hclaim rfl rfl hcalled rfl
  · exact .of_setPhase hclaim rfl rfl hraised rfl
  · exact .of_setPhase hclaim rfl rfl hcalled rfl

lemma Ungranting.endCall {token : Token} {claim : Claim μ} {attempts : ℕ}
    {sourceHash : SourceHash} {answer : RemoteAnswer} (hclaim : s.claims.get? token = some claim) :
    Ungranting s (s.endCall config token claim attempts sourceHash answer) := by
  have hended : ∀ event ∈ [ModerationEvent.endedAmbiguously claim.job],
      event.grantedToken = none := by
    simp [ModerationEvent.grantedToken]
  unfold ModerationState.endCall
  split
  · exact .of_setPhase hclaim rfl rfl hended rfl
  · next outcome judgments _ =>
    cases hambiguous : outcome.isAmbiguous with
    | true => exact .of_setPhase hclaim rfl rfl hended rfl
    | false =>
      exact .of_setPhase hclaim rfl (show _ = [] ++ s.log from rfl) (by simp) rfl

lemma leasesEnding_grantedToken (clock : Time) :
    ∀ event ∈ s.leasesEnding clock, event.grantedToken = none := by
  intro event hevent
  obtain ⟨row, -, hrow⟩ := List.mem_filterMap.mp hevent
  split at hrow
  · split_ifs at hrow
    cases hrow
    rfl
  · cases hrow

/-- Only the claiming of jobs grants leases. -/
theorem step_ungranting {a : ModerationAction μ χ} (h : s.step config a = some s')
    (ha : ∀ worker batchSize leaseSeconds locked,
      a ≠ .claimJobs worker batchSize leaseSeconds locked) : Ungranting s s' := by
  cases step_cases h with
  | tick seconds => exact .of_eq rfl rfl (leasesEnding_grantedToken _) rfl
  | writeDetail item main children => exact .of_eq rfl (List.nil_append _).symm (by simp) rfl
  | readMissing contentItems => exact .of_eq rfl (List.nil_append _).symm (by simp) rfl
  | createMissing _ => exact .of_eq rfl (List.nil_append _).symm (by simp) rfl
  | expireLeases => exact .of_eq rfl (List.nil_append _).symm (by simp) rfl
  | claimJobs worker batchSize leaseSeconds locked => exact absurd rfl (ha _ _ _ _)
  | advance hclaim hclaimed =>
    cases hclaimed with
    | move => exact .setPhase _ hclaim
    | classify => exact .classify hclaim
    | retry => exact .of_setPhase hclaim rfl (List.nil_append _).symm (by simp) rfl
    | finish => exact .of_setPhase hclaim rfl (List.nil_append _).symm (by simp) rfl
  | answer answer hclaim _ => exact .endCall hclaim

/-! ### Details and time -/

/-- The same time, items and persisted versions. -/
structure SameDetails (s s' : ModerationState μ χ) : Prop where
  clock : s'.clock = s.clock
  items : s'.items = s.items
  versions : s'.versions = s.versions

lemma classify_sameDetails (token : Token) (claim : Claim μ) (attempts : ℕ) (main : Option μ) :
    SameDetails s (s.classify config token claim attempts main) := by
  unfold classify
  simp only
  split <;> exact ⟨rfl, rfl, rfl⟩

lemma endCall_sameDetails (token : Token) (claim : Claim μ) (attempts : ℕ) (hash : SourceHash)
    (answer : RemoteAnswer) :
    SameDetails s (s.endCall config token claim attempts hash answer) := by
  unfold endCall
  split <;> exact ⟨rfl, rfl, rfl⟩

/-- Details are changed by detail writes only, and time by its passing. -/
theorem step_sameDetails {a : ModerationAction μ χ} (h : s.step config a = some s')
    (htick : ∀ seconds, a ≠ .tick seconds)
    (hwrite : ∀ item main children, a ≠ .writeDetail item main children) : SameDetails s s' := by
  cases step_cases h with
  | tick seconds => exact absurd rfl (htick _)
  | writeDetail item main children => exact absurd rfl (hwrite _ _ _)
  | readMissing | createMissing | expireLeases => exact ⟨rfl, rfl, rfl⟩
  | claimJobs worker batchSize leaseSeconds locked =>
    apply claimModerationJobs_induction config (SameDetails s)
    · exact ⟨rfl, rfl, rfl⟩
    · exact fun t ht => ⟨ht.clock, ht.items, ht.versions⟩
    · exact fun t _ _ _ _ _ ht => ⟨ht.clock, ht.items, ht.versions⟩
  | advance _ hclaimed =>
    cases hclaimed with
    | move | retry | finish => exact ⟨rfl, rfl, rfl⟩
    | classify => exact classify_sameDetails ..
  | answer => exact endCall_sameDetails ..

lemma clock_le_of_step {a : ModerationAction μ χ} (h : s.step config a = some s') :
    s.clock ≤ s'.clock := by
  by_cases htick : ∃ seconds, a = .tick seconds
  · obtain ⟨seconds, rfl⟩ := htick
    cases h
    exact Nat.le_add_right ..
  · by_cases hwrite : ∃ item main children, a = .writeDetail item main children
    · obtain ⟨item, main, children, rfl⟩ := hwrite
      cases h
      exact le_rfl
    · refine (step_sameDetails h ?_ ?_).clock.ge
      · exact fun seconds heq => htick ⟨seconds, heq⟩
      · exact fun item main children heq => hwrite ⟨item, main, children, heq⟩

/-- The hash of an item is changed by a detail write of that item only. -/
lemma currentHash_of_step {a : ModerationAction μ χ} (h : s.step config a = some s')
    {item : ItemId} (hwrite : ∀ main children, a ≠ .writeDetail item main children) :
    s'.currentHash item = s.currentHash item := by
  unfold currentHash
  by_cases htick : ∃ seconds, a = .tick seconds
  · obtain ⟨seconds, rfl⟩ := htick
    cases h
    rfl
  · by_cases hother : ∃ item' main children, a = .writeDetail item' main children
    · obtain ⟨item', main, children, rfl⟩ := hother
      have hne : item ≠ item' := by
        rintro rfl
        exact hwrite main children rfl
      cases h
      simp only [writeDetail, Table.get?_set_ne _ _ hne]
    · rw [(step_sameDetails h ?_ ?_).items]
      · exact fun seconds heq => htick ⟨seconds, heq⟩
      · exact fun item' main children heq => hother ⟨item', main, children, heq⟩

lemma versions_subset_of_step {a : ModerationAction μ χ} (h : s.step config a = some s') :
    s.versions ⊆ s'.versions := by
  by_cases htick : ∃ seconds, a = .tick seconds
  · obtain ⟨seconds, rfl⟩ := htick
    cases h
    exact List.Subset.refl _
  · by_cases hwrite : ∃ item main children, a = .writeDetail item main children
    · obtain ⟨item, main, children, rfl⟩ := hwrite
      cases h
      exact List.subset_cons_self ..
    · rw [(step_sameDetails h ?_ ?_).versions]
      · exact List.Subset.refl _
      · exact fun seconds heq => htick ⟨seconds, heq⟩
      · exact fun item main children heq => hwrite ⟨item, main, children, heq⟩

/-- The materialized hash is the one of the persisted rows, and these are the latest version. -/
structure DetailInvariant (config : ModerationConfig μ χ) (s : ModerationState μ χ) : Prop where
  hash : ∀ item row, s.items.get? item = some row →
    row.currentModerationSourceHash = config.semantics.currentHash row.main row.children
  version : ∀ item row, s.items.get? item = some row → (item, row.main, row.children) ∈ s.versions

lemma DetailInvariant.step {a : ModerationAction μ χ} (h : DetailInvariant config s)
    (hstep : s.step config a = some s') : DetailInvariant config s' := by
  by_cases hwrite : ∃ item main children, a = .writeDetail item main children
  · obtain ⟨item, main, children, rfl⟩ := hwrite
    cases hstep
    constructor
    · intro item' row hrow
      rcases Table.get?_set_cases hrow with ⟨-, rfl⟩ | hrow
      · rfl
      · exact h.hash item' row hrow
    · intro item' row hrow
      rcases Table.get?_set_cases hrow with ⟨rfl, rfl⟩ | hrow
      · exact List.mem_cons_self ..
      · exact List.mem_cons_of_mem _ (h.version item' row hrow)
  · have hitems : s'.items = s.items := by
      by_cases htick : ∃ seconds, a = .tick seconds
      · obtain ⟨seconds, rfl⟩ := htick
        cases hstep
        rfl
      · refine (step_sameDetails hstep ?_ ?_).items
        · exact fun seconds heq => htick ⟨seconds, heq⟩
        · exact fun item main children heq => hwrite ⟨item, main, children, heq⟩
    constructor
    · intro item row hrow
      exact h.hash item row (hitems ▸ hrow)
    · intro item row hrow
      exact versions_subset_of_step hstep (h.version item row (hitems ▸ hrow))

theorem reachable_detailInvariant (h : (moderationSystem config).Reachable s) :
    DetailInvariant config s := by
  refine h.invariant ?_ fun _ _ _ hI hstep => hI.step hstep
  rintro _ rfl
  constructor <;> simp [ModerationState.empty]

lemma DetailInvariant.currentHash_eq_some (h : DetailInvariant config s) {item : ItemId}
    {hash : SourceHash} (hcurrent : s.currentHash item = some hash) :
    ∃ row, s.items.get? item = some row ∧
      config.semantics.currentHash row.main row.children = some hash := by
  obtain ⟨row, hrow, hhash⟩ := Option.bind_eq_some_iff.mp hcurrent
  exact ⟨row, hrow, (h.hash item row hrow).symm.trans hhash⟩

end ModerationState

end Denn
