import Denn.Preparation.System

/-!
# The invariant of preparation jobs

While a guarded write is under way the job row carries its token. A write that ends a lease names
the token of the lease, or finds the lease over and waits for the lock of the row; a new lease has
a fresh token and goes to a job with attempts left.
-/

namespace Denn.Preparation

open Core

/-! ### Row writes -/

lemma get?_expireLeases (now : Time) (maxAttempts : ℕ) (rows : Table JobId PreparationJob)
    (id : JobId) :
    (expireLeases now maxAttempts rows).get? id = (rows.get? id).map fun job =>
      if job.isExpired now then
        if maxAttempts ≤ job.attempts then job.expireFailed now else job.expireRetry now
      else job := by
  rw [expireLeases, Table.get?_updateWhere, Table.get?_updateWhere, Option.map_map]
  congr 1
  funext job
  simp only [Function.comp_apply]
  by_cases hexpired : job.isExpired now = true
  · by_cases hattempts : maxAttempts ≤ job.attempts
    · have hfailed : (job.expireFailed now).isExpired now = false := rfl
      simp [hexpired, hattempts, hfailed]
    · simp [hexpired, hattempts, Nat.lt_of_not_le hattempts]
  · simp [hexpired]

lemma get?_updateHeld (now : Time) (job : JobId) (token : Token)
    (f : PreparationJob → PreparationJob) (rows : Table JobId PreparationJob) (id : JobId) :
    (updateHeld now job token f rows).get? id = (rows.get? id).map fun row =>
      if id = job ∧ row.isHeld now token = true then f row else row := by
  rw [updateHeld, Table.get?_updateWhere]
  congr 1
  funext row
  simp only [Bool.and_eq_true, decide_eq_true_eq]

lemma PreparationJob.isHeld_iff {now : Time} {token : Token} {job : PreparationJob} :
    job.isHeld now token = true ↔ job.status = .leased ∧ job.leaseToken = some token ∧
      ∃ leaseUntil, job.leaseUntil = some leaseUntil ∧ now < leaseUntil := by
  simp only [isHeld, Bool.and_eq_true, decide_eq_true_eq, Option.any_eq_true, and_assoc]

/-- What the writes that end a lease leave of a row. -/
structure Released (maxAttempts : ℕ) (job job' : PreparationJob) : Prop where
  leased : job.status = .leased
  contentItem : job'.contentItem = job.contentItem
  attempts : job'.attempts = job.attempts
  token : job'.leaseToken = none
  status : job'.status ∈ [.done, .failed, .retry]
  retry : job'.status = .retry → job.attempts < maxAttempts

lemma Released.expire (maxAttempts : ℕ) {now : Time} {job : PreparationJob}
    (h : job.isExpired now = true) :
    Released maxAttempts job
      (if maxAttempts ≤ job.attempts then job.expireFailed now else job.expireRetry now) := by
  have hleased : job.status = .leased := by
    simp only [PreparationJob.isExpired, Bool.and_eq_true, decide_eq_true_eq] at h
    exact h.1
  split_ifs with hattempts
  · exact ⟨hleased, rfl, rfl, rfl, by simp [PreparationJob.expireFailed],
      fun hretry => by cases hretry⟩
  · exact ⟨hleased, rfl, rfl, rfl, by simp [PreparationJob.expireRetry],
      fun _ => Nat.lt_of_not_le hattempts⟩

lemma Released.finish {maxAttempts : ℕ} (now : Time) {job : PreparationJob}
    (hleased : job.status = .leased) : Released maxAttempts job (job.finish now .done) :=
  ⟨hleased, rfl, rfl, rfl, by simp [PreparationJob.finish, FinalStatus.toJobStatus],
    fun hretry => by cases hretry⟩

lemma Released.retryOrFail (options : RetryOptions) (now : Time) {job : PreparationJob}
    (hleased : job.status = .leased) :
    Released options.maxAttempts job (job.retryOrFail now options job.attempts) := by
  refine ⟨hleased, rfl, rfl, rfl, ?_, ?_⟩
  · simp only [PreparationJob.retryOrFail]
    split_ifs <;> simp
  · simp only [PreparationJob.retryOrFail]
    split_ifs with hattempts
    · exact fun hretry => by cases hretry
    · exact fun _ => Nat.lt_of_not_le hattempts

/-! ### Frames -/

/-- The jobs, the admissions and the cursor lock are as they were. -/
structure KeepsJobs (s s' : PreparationState) : Prop where
  jobs : s'.jobs = s.jobs
  admissions : s'.admissions = s.admissions
  cursorHolder : s'.cursorHolder = s.cursorHolder

section Frames

variable {config : PreparationConfig} {s : PreparationState}

lemma keepsJobs_reconcile (token : Token) (claim : PreparationClaim) (attempts : ℕ)
    (hasHash : Bool) : KeepsJobs s (s.reconcile config token claim attempts hasHash) := by
  unfold PreparationState.reconcile
  simp only
  split_ifs <;> exact ⟨rfl, rfl, rfl⟩

lemma keepsJobs_guard (token : Token) (claim : PreparationClaim) (attempts : ℕ) :
    KeepsJobs s (s.guard token claim attempts) := by
  unfold PreparationState.guard
  split_ifs <;> exact ⟨rfl, rfl, rfl⟩

lemma keepsJobs_commit (token : Token) (claim : PreparationClaim) (attempts : ℕ) (stored : Bool) :
    KeepsJobs s (s.commit token claim attempts stored) := by
  unfold PreparationState.commit
  simp only
  split_ifs <;> exact ⟨rfl, rfl, rfl⟩

end Frames

/-! ### The invariant -/

/-- How often a job has been claimed. -/
def claimCount (job : JobId) (log : List PreparationEvent) : ℕ := log.countP (·.isClaimOf job)

/-- A guarded write of the token is under way: the row carries the token, and no claim of the job
    has been made since the guard has checked it. -/
structure GuardHeld (s : PreparationState) (token : Token) (job : JobId) : Prop where
  row : ∃ row, s.jobs.rows.get? job = some row ∧ row.status = .leased ∧
    row.leaseToken = some token
  unclaimed : ∃ since before, s.log = since ++ .guarded job token :: before ∧
    ∀ event ∈ since, event.isClaimOf job = false

/-- What holds of jobs and claims in every reachable state. -/
structure FencingInvariant (config : PreparationConfig) (s : PreparationState) : Prop where
  id_lt : ∀ id job, s.jobs.rows.get? id = some job → id < s.jobs.nextId
  row_drawn : ∀ id job token, s.jobs.rows.get? id = some job → job.leaseToken = some token →
    ∃ n < s.draws, config.tokens.uuid4 n = token
  claim_drawn : ∀ token claim, s.claims.get? token = some claim →
    ∃ n < s.draws, config.tokens.uuid4 n = token
  claim_row : ∀ token claim, s.claims.get? token = some claim →
    (s.jobs.rows.get? claim.job).isSome = true
  loaded : ∀ token claim attempts job, s.claims.get? token = some claim →
    claim.phase.attempts = some attempts → s.jobs.rows.get? claim.job = some job →
    job.leaseToken = some token → job.attempts = attempts
  detailed : ∀ token claim job, s.claims.get? token = some claim → claim.phase = .finishing →
    s.jobs.rows.get? claim.job = some job → job.contentItem ∈ s.details
  guarded : ∀ token claim, s.claims.get? token = some claim → claim.phase.holdsRow = true →
    GuardHeld s token claim.job
  queued : ∀ id job, s.jobs.rows.get? id = some job → job.status = .queued → job.attempts = 0
  retry : ∀ id job, s.jobs.rows.get? id = some job → job.status = .retry →
    job.attempts < config.options.maxAttempts
  attempts_le : ∀ id job, s.jobs.rows.get? id = some job →
    job.attempts ≤ config.options.maxAttempts
  attempts_eq : ∀ id, (s.jobs.rows.get? id).elim 0 PreparationJob.attempts = claimCount id s.log

variable {config : PreparationConfig} {s s' : PreparationState}

lemma FencingInvariant.empty : FencingInvariant config .empty where
  id_lt id job h := by simp [PreparationState.empty] at h
  row_drawn id job token h := by simp [PreparationState.empty] at h
  claim_drawn token claim h := by simp [PreparationState.empty] at h
  claim_row token claim h := by simp [PreparationState.empty] at h
  loaded token claim attempts job h := by simp [PreparationState.empty] at h
  detailed token claim job h := by simp [PreparationState.empty] at h
  guarded token claim h := by simp [PreparationState.empty] at h
  queued id job h := by simp [PreparationState.empty] at h
  retry id job h := by simp [PreparationState.empty] at h
  attempts_le id job h := by simp [PreparationState.empty] at h
  attempts_eq id := by simp [PreparationState.empty, claimCount]

/-- Details and events other than claims may be added, and the other columns do not matter. -/
lemma FencingInvariant.grow (h : FencingInvariant config s) (events : List PreparationEvent)
    (hjobs : s'.jobs = s.jobs) (hclaims : s'.claims = s.claims) (hdraws : s'.draws = s.draws)
    (hdetails : ∀ item ∈ s.details, item ∈ s'.details) (hlog : s'.log = events ++ s.log)
    (hevents : ∀ event ∈ events, ∀ job, event.isClaimOf job = false) :
    FencingInvariant config s' where
  id_lt := by rw [hjobs]; exact h.id_lt
  row_drawn := by rw [hjobs, hdraws]; exact h.row_drawn
  claim_drawn := by rw [hclaims, hdraws]; exact h.claim_drawn
  claim_row := by rw [hclaims, hjobs]; exact h.claim_row
  loaded := by rw [hclaims, hjobs]; exact h.loaded
  detailed token claim job hclaim hphase hrow := by
    rw [hclaims] at hclaim
    rw [hjobs] at hrow
    exact hdetails _ (h.detailed token claim job hclaim hphase hrow)
  guarded token claim hclaim hphase := by
    rw [hclaims] at hclaim
    obtain ⟨hrow, since, before, hsplit, hsince⟩ := h.guarded token claim hclaim hphase
    refine ⟨by rwa [hjobs], events ++ since, before, ?_, ?_⟩
    · rw [hlog, hsplit, List.append_assoc]
    · intro event hevent
      rcases List.mem_append.mp hevent with hevent | hevent
      · exact hevents event hevent claim.job
      · exact hsince event hevent
  queued := by rw [hjobs]; exact h.queued
  retry := by rw [hjobs]; exact h.retry
  attempts_le := by rw [hjobs]; exact h.attempts_le
  attempts_eq id := by
    have hnone : events.countP (·.isClaimOf id) = 0 :=
      List.countP_eq_zero.mpr fun event hevent => by simp [hevents event hevent id]
    rw [hjobs, h.attempts_eq id, claimCount, claimCount, hlog, List.countP_append, hnone,
      Nat.zero_add]

/-- A worker moves to its next phase. -/
lemma FencingInvariant.setPhase (h : FencingInvariant config s) {token : Token}
    {claim : PreparationClaim} (hclaim : s.claims.get? token = some claim) {phase : ClaimPhase}
    (hloaded : ∀ attempts job, phase.attempts = some attempts →
      s.jobs.rows.get? claim.job = some job → job.leaseToken = some token →
      job.attempts = attempts)
    (hdetailed : ∀ job, phase = .finishing → s.jobs.rows.get? claim.job = some job →
      job.contentItem ∈ s.details)
    (hguarded : phase.holdsRow = true → GuardHeld s token claim.job) :
    FencingInvariant config (s.setPhase token claim phase) := by
  have hcases : ∀ token' claim', (s.setPhase token claim phase).claims.get? token' = some claim' →
      (token' = token ∧ claim' = { claim with phase }) ∨ s.claims.get? token' = some claim' :=
    fun _ _ => Table.get?_set_cases
  constructor
  · exact h.id_lt
  · exact h.row_drawn
  · intro token' claim' hget
    rcases hcases token' claim' hget with ⟨rfl, rfl⟩ | hget
    · exact h.claim_drawn token' claim hclaim
    · exact h.claim_drawn token' claim' hget
  · intro token' claim' hget
    rcases hcases token' claim' hget with ⟨rfl, rfl⟩ | hget
    · exact h.claim_row token' claim hclaim
    · exact h.claim_row token' claim' hget
  · intro token' claim' attempts job hget hphase hrow htoken
    rcases hcases token' claim' hget with ⟨rfl, rfl⟩ | hget
    · exact hloaded attempts job hphase hrow htoken
    · exact h.loaded token' claim' attempts job hget hphase hrow htoken
  · intro token' claim' job hget hphase hrow
    rcases hcases token' claim' hget with ⟨rfl, rfl⟩ | hget
    · exact hdetailed job hphase hrow
    · exact h.detailed token' claim' job hget hphase hrow
  · intro token' claim' hget hphase
    rcases hcases token' claim' hget with ⟨rfl, rfl⟩ | hget
    · exact ⟨(hguarded hphase).row, (hguarded hphase).unclaimed⟩
    · have hheld := h.guarded token' claim' hget hphase
      exact ⟨hheld.row, hheld.unclaimed⟩
  · exact h.queued
  · exact h.retry
  · exact h.attempts_le
  · exact h.attempts_eq

/-- Leases of rows that no guarded write holds end. -/
lemma FencingInvariant.release (h : FencingInvariant config s) (rows : Table JobId PreparationJob)
    (hrows : ∀ id, rows.get? id = s.jobs.rows.get? id ∨
      ∃ job job', s.jobs.rows.get? id = some job ∧ rows.get? id = some job' ∧
        Released config.options.maxAttempts job job' ∧ s.isLocked id = false) :
    FencingInvariant config { s with jobs := { s.jobs with rows } } := by
  have hold : ∀ id job', rows.get? id = some job' → s.jobs.rows.get? id = some job' ∨
      ∃ job, s.jobs.rows.get? id = some job ∧
        Released config.options.maxAttempts job job' ∧ s.isLocked id = false := by
    intro id job' hrow
    rcases hrows id with hsame | ⟨job, job'', hold, hnew, hreleased, hfree⟩
    · exact .inl (hsame ▸ hrow)
    · rw [hnew, Option.some.injEq] at hrow
      subst hrow
      exact .inr ⟨job, hold, hreleased, hfree⟩
  constructor
  · intro id job' hrow
    rcases hold id job' hrow with hsame | ⟨job, hjob, -, -⟩
    · exact h.id_lt id job' hsame
    · exact h.id_lt id job hjob
  · intro id job' token hrow htoken
    rcases hold id job' hrow with hsame | ⟨job, hjob, hreleased, -⟩
    · exact h.row_drawn id job' token hsame htoken
    · rw [hreleased.token] at htoken
      cases htoken
  · exact h.claim_drawn
  · intro token claim hclaim
    have hsome := h.claim_row token claim hclaim
    rcases hrows claim.job with hsame | ⟨job, job', -, hnew, -, -⟩
    · exact hsame ▸ hsome
    · exact Option.isSome_iff_exists.mpr ⟨job', hnew⟩
  · intro token claim attempts job' hclaim hphase hrow htoken
    rcases hold claim.job job' hrow with hsame | ⟨job, hjob, hreleased, -⟩
    · exact h.loaded token claim attempts job' hclaim hphase hsame htoken
    · rw [hreleased.token] at htoken
      cases htoken
  · intro token claim job' hclaim hphase hrow
    rcases hold claim.job job' hrow with hsame | ⟨job, hjob, hreleased, -⟩
    · exact h.detailed token claim job' hclaim hphase hsame
    · rw [hreleased.contentItem]
      exact h.detailed token claim job hclaim hphase hjob
  · intro token claim hclaim hphase
    obtain ⟨⟨row, hrow, hleased, htoken⟩, hunclaimed⟩ := h.guarded token claim hclaim hphase
    refine ⟨?_, hunclaimed⟩
    rcases hrows claim.job with hsame | ⟨job, job', hjob, hnew, hreleased, hfree⟩
    · exact ⟨row, hsame.trans hrow, hleased, htoken⟩
    · have hlocked : s.isLocked claim.job = true :=
        (Table.any_eq_true_iff ..).mpr ⟨token, claim, hclaim, by simp [hphase]⟩
      rw [hfree] at hlocked
      cases hlocked
  · intro id job' hrow hstatus
    rcases hold id job' hrow with hsame | ⟨job, -, hreleased, -⟩
    · exact h.queued id job' hsame hstatus
    · have hmem := hreleased.status
      rw [hstatus] at hmem
      simp at hmem
  · intro id job' hrow hstatus
    rcases hold id job' hrow with hsame | ⟨job, -, hreleased, -⟩
    · exact h.retry id job' hsame hstatus
    · rw [hreleased.attempts]
      exact hreleased.retry hstatus
  · intro id job' hrow
    rcases hold id job' hrow with hsame | ⟨job, hjob, hreleased, -⟩
    · exact h.attempts_le id job' hsame
    · rw [hreleased.attempts]
      exact h.attempts_le id job hjob
  · intro id
    rw [← h.attempts_eq id]
    rcases hrows id with hsame | ⟨job, job', hjob, hnew, hreleased, -⟩
    · rw [hsame]
    · rw [hnew, hjob]
      exact hreleased.attempts

lemma FencingInvariant.draw (h : FencingInvariant config s) :
    FencingInvariant config { s with draws := s.draws + 1 } where
  id_lt := h.id_lt
  row_drawn id job token hrow htoken := by
    obtain ⟨n, hn, heq⟩ := h.row_drawn id job token hrow htoken
    exact ⟨n, hn.trans (Nat.lt_succ_self _), heq⟩
  claim_drawn token claim hclaim := by
    obtain ⟨n, hn, heq⟩ := h.claim_drawn token claim hclaim
    exact ⟨n, hn.trans (Nat.lt_succ_self _), heq⟩
  claim_row := h.claim_row
  loaded := h.loaded
  detailed := h.detailed
  guarded token claim hclaim hphase :=
    ⟨(h.guarded token claim hclaim hphase).row, (h.guarded token claim hclaim hphase).unclaimed⟩
  queued := h.queued
  retry := h.retry
  attempts_le := h.attempts_le
  attempts_eq := h.attempts_eq

/-- The next token is on no claim. -/
lemma FencingInvariant.fresh_claim (h : FencingInvariant config s) :
    s.claims.get? (config.tokens.uuid4 s.draws) = none := by
  by_contra hsome
  obtain ⟨claim, hclaim⟩ := Option.ne_none_iff_exists'.mp hsome
  obtain ⟨n, hn, heq⟩ := h.claim_drawn _ claim hclaim
  exact hn.ne (config.tokens.distinct heq)

/-- A ready job has attempts left. -/
lemma FencingInvariant.attempts_lt_of_ready (h : FencingInvariant config s)
    (hmax : 1 ≤ config.options.maxAttempts) {id : JobId} {job : PreparationJob}
    (hrow : s.jobs.rows.get? id = some job) (hready : job.status ∈ readyStatuses) :
    job.attempts < config.options.maxAttempts := by
  simp only [readyStatuses, List.mem_cons, List.not_mem_nil, or_false] at hready
  rcases hready with hqueued | hretry
  · rw [h.queued id job hrow hqueued]
    exact hmax
  · exact h.retry id job hrow hretry

lemma FencingInvariant.grantLease (h : FencingInvariant config s)
    (hmax : 1 ≤ config.options.maxAttempts) (worker : WorkerId) (leaseUntil : Time) {id : JobId}
    {job : PreparationJob} (hrow : s.jobs.rows.get? id = some job)
    (hready : job.status ∈ readyStatuses) :
    FencingInvariant config (s.grantLease config worker leaseUntil id job) := by
  have hjobs : ∀ key, (s.grantLease config worker leaseUntil id job).jobs.rows.get? key =
      if key = id then some (job.lease (config.tokens.uuid4 s.draws) leaseUntil)
      else s.jobs.rows.get? key := fun key => Table.get?_set ..
  have hclaims : ∀ token claim,
      (s.grantLease config worker leaseUntil id job).claims.get? token = some claim →
      (token = config.tokens.uuid4 s.draws ∧ claim = ⟨worker, id, .claimed⟩) ∨
        s.claims.get? token = some claim := fun _ _ => Table.get?_set_cases
  constructor
  · intro key job' hget
    rcases Table.get?_set_cases hget with ⟨rfl, rfl⟩ | hget
    · exact h.id_lt key job hrow
    · exact h.id_lt key job' hget
  · intro key job' token hget htoken
    rcases Table.get?_set_cases hget with ⟨-, rfl⟩ | hget
    · cases htoken
      exact ⟨s.draws, Nat.lt_succ_self _, rfl⟩
    · obtain ⟨n, hn, heq⟩ := h.row_drawn key job' token hget htoken
      exact ⟨n, hn.trans (Nat.lt_succ_self _), heq⟩
  · intro token claim hget
    rcases hclaims token claim hget with ⟨rfl, rfl⟩ | hget
    · exact ⟨s.draws, Nat.lt_succ_self _, rfl⟩
    · obtain ⟨n, hn, heq⟩ := h.claim_drawn token claim hget
      exact ⟨n, hn.trans (Nat.lt_succ_self _), heq⟩
  · intro token claim hget
    rw [hjobs]
    split_ifs with hkey
    · rfl
    · rcases hclaims token claim hget with ⟨rfl, rfl⟩ | hget
      · exact absurd rfl hkey
      · exact h.claim_row token claim hget
  · intro token claim attempts job' hget hphase hrow' htoken
    rcases hclaims token claim hget with ⟨rfl, rfl⟩ | hget
    · cases hphase
    · rcases Table.get?_set_cases hrow' with ⟨-, rfl⟩ | hrow'
      · -- the row now carries the fresh token, which no older claim has
        cases htoken
        rw [h.fresh_claim] at hget
        cases hget
      · exact h.loaded token claim attempts job' hget hphase hrow' htoken
  · intro token claim job' hget hphase hrow'
    rcases hclaims token claim hget with ⟨rfl, rfl⟩ | hget
    · cases hphase
    · rcases Table.get?_set_cases hrow' with ⟨hkey, rfl⟩ | hrow'
      · exact h.detailed token claim job hget hphase (hkey ▸ hrow)
      · exact h.detailed token claim job' hget hphase hrow'
  · intro token claim hget hphase
    rcases hclaims token claim hget with ⟨rfl, rfl⟩ | hget
    · cases hphase
    · obtain ⟨⟨row, hguard, hleased, htoken⟩, since, before, hsplit, hsince⟩ :=
        h.guarded token claim hget hphase
      have hne : claim.job ≠ id := by
        rintro rfl
        rw [hrow, Option.some.injEq] at hguard
        subst hguard
        rw [hleased] at hready
        simp [readyStatuses] at hready
      refine ⟨⟨row, by rw [hjobs, if_neg hne, hguard], hleased, htoken⟩,
        .claimed id (config.tokens.uuid4 s.draws) worker :: since, before, ?_, ?_⟩
      · simp only [PreparationState.grantLease, hsplit, List.cons_append]
      · intro event hevent
        rcases List.mem_cons.mp hevent with rfl | hevent
        · simpa [PreparationEvent.isClaimOf] using hne.symm
        · exact hsince event hevent
  · intro key job' hget hstatus
    rcases Table.get?_set_cases hget with ⟨-, rfl⟩ | hget
    · cases hstatus
    · exact h.queued key job' hget hstatus
  · intro key job' hget hstatus
    rcases Table.get?_set_cases hget with ⟨-, rfl⟩ | hget
    · cases hstatus
    · exact h.retry key job' hget hstatus
  · intro key job' hget
    rcases Table.get?_set_cases hget with ⟨-, rfl⟩ | hget
    · exact h.attempts_lt_of_ready hmax hrow hready
    · exact h.attempts_le key job' hget
  · intro key
    have hcount : claimCount key (s.grantLease config worker leaseUntil id job).log =
        claimCount key s.log + if id = key then 1 else 0 := by
      simp only [PreparationState.grantLease, claimCount, List.countP_cons,
        PreparationEvent.isClaimOf, decide_eq_true_eq]
    rw [hcount, ← h.attempts_eq key, hjobs]
    by_cases hkey : key = id
    · subst hkey
      rw [if_pos rfl, if_pos rfl, hrow]
      rfl
    · rw [if_neg hkey, if_neg (Ne.symm hkey)]
      rfl

lemma FencingInvariant.insertJob (h : FencingInvariant config s) (item : ItemId) :
    FencingInvariant config { s with jobs := Preparation.insertJob s.clock s.jobs item } := by
  unfold Preparation.insertJob
  split_ifs
  · exact h
  · have hfresh : s.jobs.rows.get? s.jobs.nextId = none := by
      by_contra hsome
      obtain ⟨job, hjob⟩ := Option.ne_none_iff_exists'.mp hsome
      exact (h.id_lt _ job hjob).ne rfl
    have hclaimed : ∀ token claim, s.claims.get? token = some claim →
        claim.job ≠ s.jobs.nextId := by
      intro token claim hclaim heq
      have hsome := h.claim_row token claim hclaim
      rw [heq, hfresh] at hsome
      cases hsome
    have hold : ∀ token claim, s.claims.get? token = some claim → (s.jobs.rows.set s.jobs.nextId
        { contentItem := item, availableAt := s.clock }).get? claim.job =
          s.jobs.rows.get? claim.job :=
      fun token claim hclaim => Table.get?_set_ne _ _ (hclaimed token claim hclaim)
    constructor
    · intro key job' hget
      rcases Table.get?_set_cases hget with ⟨rfl, -⟩ | hget
      · exact Nat.lt_succ_self _
      · exact (h.id_lt key job' hget).trans (Nat.lt_succ_self _)
    · intro key job' token hget htoken
      rcases Table.get?_set_cases hget with ⟨-, rfl⟩ | hget
      · cases htoken
      · exact h.row_drawn key job' token hget htoken
    · exact h.claim_drawn
    · intro token claim hclaim
      rw [hold token claim hclaim]
      exact h.claim_row token claim hclaim
    · intro token claim attempts job' hclaim hphase hget htoken
      rw [hold token claim hclaim] at hget
      exact h.loaded token claim attempts job' hclaim hphase hget htoken
    · intro token claim job' hclaim hphase hget
      rw [hold token claim hclaim] at hget
      exact h.detailed token claim job' hclaim hphase hget
    · intro token claim hclaim hphase
      obtain ⟨⟨row, hrow, hleased, htoken⟩, hunclaimed⟩ := h.guarded token claim hclaim hphase
      exact ⟨⟨row, (hold token claim hclaim).trans hrow, hleased, htoken⟩, hunclaimed⟩
    · intro key job' hget hstatus
      rcases Table.get?_set_cases hget with ⟨-, rfl⟩ | hget
      · rfl
      · exact h.queued key job' hget hstatus
    · intro key job' hget hstatus
      rcases Table.get?_set_cases hget with ⟨-, rfl⟩ | hget
      · cases hstatus
      · exact h.retry key job' hget hstatus
    · intro key job' hget
      rcases Table.get?_set_cases hget with ⟨-, rfl⟩ | hget
      · exact Nat.zero_le _
      · exact h.attempts_le key job' hget
    · intro key
      rw [← h.attempts_eq key, Table.get?_set]
      split_ifs with hkey
      · rw [hkey, hfresh]
        rfl
      · rfl

/-! ### Steps -/

/-- One turn of the claim loop draws a token, and may lease the job. -/
lemma claimJob_cases (config : PreparationConfig) (t : PreparationState) (worker : WorkerId)
    (leaseUntil : Time) (id : JobId) :
    t.claimJob config worker leaseUntil id = { t with draws := t.draws + 1 } ∨
      ∃ job, t.jobs.rows.get? id = some job ∧ job.status ∈ readyStatuses ∧
        t.claimJob config worker leaseUntil id = t.grantLease config worker leaseUntil id job := by
  unfold PreparationState.claimJob
  cases hrow : t.jobs.rows.get? id with
  | none => exact .inl rfl
  | some job =>
    by_cases hready : job.status ∈ readyStatuses
    · exact .inr ⟨job, rfl, hready, if_pos hready⟩
    · exact .inl (if_neg hready)

/-- What the expiry of leases and every turn of the claim loop keep, a claim keeps. -/
theorem claimJobs_induction {I : PreparationState → Prop} {worker : WorkerId}
    {batchSize leaseSeconds : ℕ} {locked : List JobId}
    (hclaim : s.claimJobs config worker batchSize leaseSeconds locked = some s')
    (hexpire : (∀ id job, s.jobs.rows.get? id = some job → job.isExpired s.clock = true →
      s.isLocked id = false) → I (s.expireLeases config))
    (hdraw : ∀ t, I t → I { t with draws := t.draws + 1 })
    (hlease : ∀ t leaseUntil id job, 1 ≤ config.options.maxAttempts →
      t.jobs.rows.get? id = some job → job.status ∈ readyStatuses → I t →
      I (t.grantLease config worker leaseUntil id job)) : I s' := by
  unfold PreparationState.claimJobs at hclaim
  split_ifs at hclaim with hoptions hwait
  simp only [not_or, not_lt] at hoptions
  have hfree : ∀ id job, s.jobs.rows.get? id = some job → job.isExpired s.clock = true →
      s.isLocked id = false := by
    intro id job hrow hexpired
    by_contra hlocked
    refine hwait ((Table.any_eq_true_iff ..).mpr ⟨id, job, hrow, ?_⟩)
    rw [hexpired, Bool.true_and]
    simpa using hlocked
  have hloop : ∀ (ids : List JobId) (t : PreparationState), I t → I (ids.foldl
      (fun t id => t.claimJob config worker (t.clock + leaseSeconds) id) t) := by
    intro ids
    induction ids with
    | nil => exact fun _ hI => hI
    | cons id ids ih =>
      intro t hI
      rw [List.foldl_cons]
      refine ih _ ?_
      rcases claimJob_cases config t worker (t.clock + leaseSeconds) id
        with h | ⟨job, hrow, hready, h⟩
      · rw [h]
        exact hdraw t hI
      · rw [h]
        exact hlease t _ id job hoptions.2.2.2 hrow hready hI
  cases hclaim
  exact hloop _ _ (hexpire hfree)

lemma FencingInvariant.expireLeases (h : FencingInvariant config s)
    (hfree : ∀ id job, s.jobs.rows.get? id = some job → job.isExpired s.clock = true →
      s.isLocked id = false) : FencingInvariant config (s.expireLeases config) := by
  refine h.release _ fun id => ?_
  rw [get?_expireLeases]
  cases hrow : s.jobs.rows.get? id with
  | none => exact .inl rfl
  | some job =>
    rw [Option.map_some]
    by_cases hexpired : job.isExpired s.clock = true
    · rw [if_pos hexpired]
      exact .inr ⟨job, _, rfl, rfl, .expire _ hexpired, hfree id job hrow hexpired⟩
    · rw [if_neg hexpired]
      exact .inl rfl

/-- A row that a claim holds is not locked by the guarded write of another. -/
lemma FencingInvariant.not_isLocked (h : FencingInvariant config s) {token : Token}
    {claim : PreparationClaim} (hclaim : s.claims.get? token = some claim)
    (hphase : claim.phase.holdsRow = false) {job : PreparationJob}
    (hrow : s.jobs.rows.get? claim.job = some job) (htoken : job.leaseToken = some token) :
    s.isLocked claim.job = false := by
  by_contra hlocked
  obtain ⟨token', claim', hclaim', hlocks⟩ :=
    (Table.any_eq_true_iff ..).mp (by simpa using hlocked : s.isLocked claim.job = true)
  simp only [Bool.and_eq_true, decide_eq_true_eq] at hlocks
  obtain ⟨row, hrow', -, htoken'⟩ := (h.guarded token' claim' hclaim' hlocks.2).row
  rw [hlocks.1, hrow, Option.some.injEq] at hrow'
  subst hrow'
  rw [htoken, Option.some.injEq] at htoken'
  subst htoken'
  rw [hclaim, Option.some.injEq] at hclaim'
  subst hclaim'
  rw [hphase] at hlocks
  cases hlocks.2

/-- The last write of a claim, with the row it holds or without. -/
lemma FencingInvariant.updateHeld (h : FencingInvariant config s) {token : Token}
    {claim : PreparationClaim} (hclaim : s.claims.get? token = some claim)
    (hphase : claim.phase.holdsRow = false) {f : PreparationJob → PreparationJob}
    (hf : ∀ job, s.jobs.rows.get? claim.job = some job → job.leaseToken = some token →
      job.status = .leased → Released config.options.maxAttempts job (f job))
    (outcome : ClaimOutcome) :
    FencingInvariant config ({ s with
      jobs := { s.jobs with rows := Preparation.updateHeld s.clock claim.job token f s.jobs.rows }
      }.setPhase token claim (.ended outcome)) := by
  have hrelease := h.release (Preparation.updateHeld s.clock claim.job token f s.jobs.rows)
    fun id => by
      rw [get?_updateHeld]
      cases hrow : s.jobs.rows.get? id with
      | none => exact .inl rfl
      | some job =>
        rw [Option.map_some]
        by_cases hheld : id = claim.job ∧ job.isHeld s.clock token = true
        · obtain ⟨rfl, hheld⟩ := hheld
          obtain ⟨hleased, htoken, -⟩ := PreparationJob.isHeld_iff.mp hheld
          rw [if_pos ⟨rfl, hheld⟩]
          exact .inr ⟨job, f job, rfl, rfl, hf job hrow htoken hleased,
            h.not_isLocked hclaim hphase hrow htoken⟩
        · rw [if_neg hheld]
          exact .inl rfl
  exact hrelease.setPhase hclaim (fun _ _ hnone => by cases hnone)
    (fun _ hnone => by cases hnone) (fun hnone => by cases hnone)

lemma FencingInvariant.insertJobs (h : FencingInvariant config s) (items : List ItemId) :
    FencingInvariant config
      { s with jobs := items.foldl (Preparation.insertJob s.clock) s.jobs } := by
  induction items generalizing s with
  | nil => exact h
  | cons item items ih => exact ih (h.insertJob item)

/-- Requests for admission move no claim. -/
lemma FencingInvariant.endAdmission (h : FencingInvariant config s) (id : ℕ) :
    FencingInvariant config (s.endAdmission id) :=
  h.grow [] rfl rfl rfl (fun _ hitem => hitem) rfl (by simp)

/-- The job of a claim, when its lease is held. -/
lemma exists_of_isHeld {now : Time} {job : JobId} {token : Token}
    {rows : Table JobId PreparationJob} (h : isHeld now job token rows = true) :
    ∃ row, rows.get? job = some row ∧ row.isHeld now token = true :=
  (Option.any_eq_true ..).mp h

/-- A phase that takes no row may carry on what the claim has loaded. -/
lemma FencingInvariant.carryPhase (h : FencingInvariant config s) {token : Token}
    {claim : PreparationClaim} (hclaim : s.claims.get? token = some claim) {phase : ClaimPhase}
    (hattempts : ∀ n, phase.attempts = some n → claim.phase.attempts = some n)
    (hfinishing : phase ≠ .finishing) (hholds : phase.holdsRow = false) :
    FencingInvariant config (s.setPhase token claim phase) := by
  refine h.setPhase hclaim (fun n job hn => ?_) (fun _ hphase => absurd hphase hfinishing) ?_
  · exact h.loaded token claim n job hclaim (hattempts n hn)
  · rw [hholds]
    exact fun hnone => by cases hnone

/-- A claim goes on to its finish when the item has detail. -/
lemma FencingInvariant.finishingPhase (h : FencingInvariant config s) {token : Token}
    {claim : PreparationClaim} (hclaim : s.claims.get? token = some claim)
    (hdetail : (s.jobs.rows.get? claim.job).any
      (fun job => decide (job.contentItem ∈ s.details)) = true) :
    FencingInvariant config (s.setPhase token claim .finishing) := by
  refine h.setPhase hclaim (fun _ _ hnone => by cases hnone) (fun job _ hrow => ?_)
    (fun hnone => by cases hnone)
  rw [hrow, Option.any_some] at hdetail
  exact of_decide_eq_true hdetail

lemma FencingInvariant.load (h : FencingInvariant config s) {token : Token}
    {claim : PreparationClaim} {job : PreparationJob}
    (hclaim : s.claims.get? token = some claim)
    (hrow : s.jobs.rows.get? claim.job = some job) {phase : ClaimPhase}
    (hphase : phase = .reconciling job.attempts ∨ phase = .fetching job.attempts) :
    FencingInvariant config (s.setPhase token claim phase) := by
  refine h.setPhase hclaim ?_ ?_ ?_
  · intro attempts job' hattempts hrow' _
    rw [hrow, Option.some.injEq] at hrow'
    subst hrow'
    rcases hphase with rfl | rfl <;> exact Option.some.inj hattempts
  · intro _ hfinishing
    rcases hphase with rfl | rfl <;> cases hfinishing
  · intro hholds
    rcases hphase with rfl | rfl <;> cases hholds

lemma FencingInvariant.reconcile (h : FencingInvariant config s) {token : Token}
    {claim : PreparationClaim} {attempts : ℕ} (hclaim : s.claims.get? token = some claim)
    (hphase : claim.phase = .reconciling attempts) (hasHash : Bool) :
    FencingInvariant config (s.reconcile config token claim attempts hasHash) := by
  unfold PreparationState.reconcile
  simp only
  split_ifs with _ hdetail
  · rw [Bool.and_eq_true] at hdetail
    exact h.finishingPhase hclaim hdetail.1
  · exact h.carryPhase hclaim (fun n hn => by rw [hphase]; exact hn) (by simp) rfl
  · exact h.carryPhase hclaim (fun n hn => by cases hn) (by simp) rfl

lemma FencingInvariant.guard (h : FencingInvariant config s) {token : Token}
    {claim : PreparationClaim} {attempts : ℕ} (hclaim : s.claims.get? token = some claim)
    (hphase : claim.phase = .fetching attempts) :
    FencingInvariant config (s.guard token claim attempts) := by
  unfold PreparationState.guard
  split_ifs with hheld
  · obtain ⟨row, hrow, hheld⟩ := exists_of_isHeld hheld
    obtain ⟨hleased, htoken, -⟩ := PreparationJob.isHeld_iff.mp hheld
    have hgrown : FencingInvariant config { s with log := .guarded claim.job token :: s.log } :=
      h.grow [.guarded claim.job token] rfl rfl rfl (fun _ hitem => hitem) rfl
        (by simp [PreparationEvent.isClaimOf])
    refine hgrown.setPhase hclaim (fun n job hn => ?_) (fun _ hnone => by cases hnone)
      (fun _ => ⟨⟨row, hrow, hleased, htoken⟩, [], s.log, rfl, by simp⟩)
    exact h.loaded token claim n job hclaim (by rw [hphase]; exact hn)
  · exact h

lemma FencingInvariant.commit (h : FencingInvariant config s) {token : Token}
    {claim : PreparationClaim} {attempts : ℕ} (hclaim : s.claims.get? token = some claim)
    (hphase : claim.phase = .guarded attempts) (stored : Bool) :
    FencingInvariant config (s.commit token claim attempts stored) := by
  have hattempts : ∀ n, (ClaimPhase.fetching attempts).attempts = some n →
      claim.phase.attempts = some n := fun n hn => by rw [hphase]; exact hn
  unfold PreparationState.commit
  simp only
  split_ifs
  · have hgrown : FencingInvariant config
        { s with
          details := ((s.jobs.rows.get? claim.job).map (·.contentItem)).toList ++ s.details
          log := .persisted claim.job token :: s.log } :=
      h.grow [.persisted claim.job token] rfl rfl rfl
        (fun _ => List.mem_append_right _) rfl (by simp [PreparationEvent.isClaimOf])
    exact hgrown.carryPhase hclaim hattempts (by simp) rfl
  · exact h.carryPhase hclaim hattempts (by simp) rfl

lemma FencingInvariant.check (h : FencingInvariant config s) {token : Token}
    {claim : PreparationClaim} {attempts : ℕ} {hasPayload : Bool}
    (hclaim : s.claims.get? token = some claim)
    (hphase : claim.phase = .fetched attempts hasPayload) :
    FencingInvariant config (s.check token claim attempts hasPayload) := by
  unfold PreparationState.check
  simp only
  split_ifs with hdetail
  · rw [Bool.and_eq_true] at hdetail
    exact h.finishingPhase hclaim hdetail.2
  · exact h.carryPhase hclaim (fun n hn => by rw [hphase]; exact hn) (by simp) rfl

lemma FencingInvariant.finish (h : FencingInvariant config s) {token : Token}
    {claim : PreparationClaim} (hclaim : s.claims.get? token = some claim)
    (hphase : claim.phase = .finishing) : FencingInvariant config (s.finish token claim) :=
  h.updateHeld hclaim (by rw [hphase]; rfl) (fun job _ _ hleased => .finish s.clock hleased) _

lemma FencingInvariant.retryOrFail (h : FencingInvariant config s) {token : Token}
    {claim : PreparationClaim} {attempts : ℕ} (hclaim : s.claims.get? token = some claim)
    (hphase : claim.phase = .retrying attempts) :
    FencingInvariant config (s.retryOrFail config token claim attempts) := by
  refine h.updateHeld hclaim (by rw [hphase]; rfl) (fun job hrow htoken hleased => ?_) _
  rw [← h.loaded token claim attempts job hclaim (by rw [hphase]; rfl) hrow htoken]
  exact .retryOrFail config.options s.clock hleased

lemma FencingInvariant.step {a : PreparationAction} (h : FencingInvariant config s)
    (hstep : s.step config a = some s') : FencingInvariant config s' := by
  cases PreparationState.step_cases hstep with
  | tick seconds => exact h.grow [] rfl rfl rfl (fun _ hitem => hitem) rfl (by simp)
  | writeDetail item =>
    exact h.grow [] rfl rfl rfl (fun _ => List.mem_cons_of_mem _) rfl (by simp)
  | claimJobs hclaims =>
    exact claimJobs_induction hclaims h.expireLeases (fun _ ht => ht.draw)
      fun t leaseUntil id job hmax hrow hready ht => ht.grantLease hmax _ leaseUntil hrow hready
  | load hclaim _ hrow => exact h.load hclaim hrow (by split_ifs <;> simp)
  | reconcile hasHash hclaim hphase => exact h.reconcile hclaim hphase hasHash
  | guard hclaim hphase => exact h.guard hclaim hphase
  | commit stored hclaim hphase => exact h.commit hclaim hphase stored
  | fetchEnds hasPayload hclaim hphase =>
    exact h.carryPhase hclaim (fun n hn => by rw [hphase]; exact hn) (by simp) rfl
  | check hclaim hphase => exact h.check hclaim hphase
  | finish hclaim hphase => exact h.finish hclaim hphase
  | retryOrFail hclaim hphase => exact h.retryOrFail hclaim hphase
  | enqueue contentItemIds =>
    unfold PreparationState.enqueue
    split_ifs
    · exact h
    · exact h
    · exact h.grow [] rfl rfl rfl (fun _ hitem => hitem) rfl (by simp)
  | lockCursor _ _ _ => exact h.grow [] rfl rfl rfl (fun _ hitem => hitem) rfl (by simp)
  | @countActive id admission _ _ =>
    unfold PreparationState.countActive
    simp only
    split_ifs
    · exact h.endAdmission id
    · exact h.grow [] rfl rfl rfl (fun _ hitem => hitem) rfl (by simp)
  | @createJobs id admission slots _ _ =>
    have hinserted := h.insertJobs ((rotate s.cursor admission.candidates).take slots)
    exact hinserted.grow [] rfl rfl rfl (fun _ hitem => hitem) rfl (by simp)
  | abandon id => exact h.endAdmission id

theorem reachable_fencingInvariant (h : (preparationSystem config).Reachable s) :
    FencingInvariant config s := by
  refine h.invariant ?_ fun _ _ _ hI hstep => hI.step hstep
  rintro _ rfl
  exact .empty

end Denn.Preparation
