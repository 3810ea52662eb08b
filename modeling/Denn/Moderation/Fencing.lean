import Denn.Moderation.Changes
import Denn.Moderation.Detail

/-!
# Lease fencing

A lease is a token and an end on a `leased` row. Tokens are granted once, so a write that is
conditioned on the token of a claim hits the row only as long as that very claim holds it.
-/

namespace Denn

open Core

variable {μ χ : Type} {config : ModerationConfig μ χ} {s s' : ModerationState μ χ}

/-- The claim whose process makes the step. -/
def ModerationAction.actor : ModerationAction μ χ → Option Token
  | .advance token => some token
  | .answer token _ => some token
  | _ => none

/-- The tokens that have been granted, newest first. -/
def grantedTokens (log : List ModerationEvent) : List Token :=
  log.filterMap ModerationEvent.grantedToken

/-- How often a job has been claimed. -/
def claimCount (job : JobIdentity) (log : List ModerationEvent) : ℕ :=
  log.countP (·.isClaimOf job)

/-- The lease columns are set exactly on `leased` rows. -/
structure Job.LeaseColumns (job : Job) : Prop where
  token : job.leaseToken.isSome = true ↔ job.status = .leased
  lease_end : job.leaseUntil.isSome = true ↔ job.status = .leased

/-- A row without lease columns that is not `leased`. -/
lemma Job.LeaseColumns.of_unleased {job : Job} (hstatus : job.status ≠ .leased)
    (htoken : job.leaseToken = none) (hend : job.leaseUntil = none) : job.LeaseColumns where
  token := by simp [htoken, hstatus]
  lease_end := by simp [hend, hstatus]

lemma Job.LeaseColumns.lease (job : Job) (token : Token) (leaseUntil : Time) :
    (job.lease token leaseUntil).LeaseColumns where
  token := by simp [Job.lease]
  lease_end := by simp [Job.lease]

lemma FinalStatus.toJobStatus_ne_leased (status : FinalStatus) :
    status.toJobStatus ≠ .leased := by
  cases status <;> simp [FinalStatus.toJobStatus]

namespace ModerationState

/-- What the writes that grant no lease keep of a row: its count of attempts, its lease columns,
    and that it has no token that it did not have. -/
structure RowKept (row row' : Option Job) : Prop where
  attempts : row'.elim 0 Job.attempts = row.elim 0 Job.attempts
  columns : (∀ job, row = some job → job.LeaseColumns) →
    ∀ job', row' = some job' → job'.LeaseColumns
  token : ∀ job' token, row' = some job' → job'.leaseToken = some token →
    ∃ job, row = some job ∧ job.leaseToken = some token

lemma RowKept.rfl (row : Option Job) : RowKept row row where
  attempts := by rfl
  columns h := h
  token job' token hrow htoken := ⟨job', hrow, htoken⟩

/-- A write that leaves no lease. -/
lemma RowKept.of_unleased {row : Option Job} {job' : Job}
    (hattempts : job'.attempts = row.elim 0 Job.attempts) (hstatus : job'.status ≠ .leased)
    (htoken : job'.leaseToken = none) (hend : job'.leaseUntil = none) :
    RowKept row (some job') where
  attempts := hattempts
  columns _ job h := by
    cases h
    exact .of_unleased hstatus htoken hend
  token job token h hsome := by
    cases h
    simp [htoken] at hsome

lemma EnqueueChange.rowKept {settings : ModerationSettings}
    {judgments : Table JudgmentIdentity Judgment} {now : Time} {item : ItemId}
    {hash : Option SourceHash} {key : JobIdentity} {row row' : Option Job}
    (h : EnqueueChange settings judgments now item hash key row row') : RowKept row row' := by
  cases h with
  | keep => exact .rfl _
  | supersede => exact .of_unleased rfl (by simp [Job.supersede]) rfl rfl
  | settle => exact .of_unleased rfl (by simp [Job.settle]) rfl rfl
  | create => exact .of_unleased rfl (by simp) rfl rfl
  | revive => exact .of_unleased rfl (by simp [Job.revive]) rfl rfl

lemma JobChange.rowKept {a : ModerationAction μ χ} {key : JobIdentity} {row row' : Option Job}
    (h : JobChange config s a key row row')
    (ha : ∀ worker batchSize leaseSeconds locked,
      a ≠ .claimJobs worker batchSize leaseSeconds locked) : RowKept row row' := by
  cases h with
  | keep => exact .rfl _
  | enqueue h => exact EnqueueChange.rowKept h
  | insert => exact .of_unleased rfl (by simp) rfl rfl
  | expire => exact .of_unleased rfl (by simp [Job.expire]) rfl rfl
  | claim => exact absurd rfl (ha _ _ _ _)
  | finish =>
    exact .of_unleased rfl (FinalStatus.toJobStatus_ne_leased _) rfl rfl
  | retry => exact .of_unleased rfl (by simp [Job.scheduleRetry]) rfl rfl

/-! ### The invariant -/

/-- What holds of leases and grants in every reachable state. -/
structure FencingInvariant (config : ModerationConfig μ χ) (s : ModerationState μ χ) : Prop where
  columns : ∀ key job, s.jobs.rows.get? key = some job → job.LeaseColumns
  row_granted : ∀ key job token, s.jobs.rows.get? key = some job → job.leaseToken = some token →
    ∃ worker, ModerationEvent.claimed key token worker ∈ s.log
  claim_granted : ∀ token claim, s.claims.get? token = some claim →
    ModerationEvent.claimed claim.job token claim.worker ∈ s.log
  drawn : ∀ token, token ∈ grantedTokens s.log → ∃ n < s.draws, config.tokens.uuid4 n = token
  once : (grantedTokens s.log).Nodup
  attempts : ∀ key, (s.jobs.rows.get? key).elim 0 Job.attempts = claimCount key s.log

lemma FencingInvariant.empty : FencingInvariant config (.empty μ χ) where
  columns key job h := by simp [ModerationState.empty] at h
  row_granted key job token h := by simp [ModerationState.empty] at h
  claim_granted token claim h := by simp [ModerationState.empty] at h
  drawn token h := by simp [ModerationState.empty, grantedTokens] at h
  once := by simp [ModerationState.empty, grantedTokens]
  attempts key := by simp [ModerationState.empty, claimCount]

lemma FencingInvariant.of_ungranting (h : FencingInvariant config s) (hu : Ungranting s s')
    (hrows : ∀ key, RowKept (s.jobs.rows.get? key) (s'.jobs.rows.get? key)) :
    FencingInvariant config s' := by
  obtain ⟨events, hlog, hevents⟩ := hu.log
  have hgranted : grantedTokens s'.log = grantedTokens s.log := by
    have hnone : events.filterMap ModerationEvent.grantedToken = [] := by
      rw [List.filterMap_eq_nil_iff]
      exact hevents
    rw [hlog, grantedTokens, List.filterMap_append, hnone, List.nil_append]
    rfl
  have hmem : ∀ event ∈ s.log, event ∈ s'.log := by
    intro event hevent
    rw [hlog]
    exact List.mem_append_right _ hevent
  constructor
  · exact fun key => (hrows key).columns (h.columns key)
  · intro key job' token hrow htoken
    obtain ⟨job, hold, htoken⟩ := (hrows key).token job' token hrow htoken
    obtain ⟨worker, hclaimed⟩ := h.row_granted key job token hold htoken
    exact ⟨worker, hmem _ hclaimed⟩
  · intro token claim' hclaim'
    obtain ⟨claim, hclaim, hjob, hworker, -⟩ := hu.claims token claim' hclaim'
    rw [hjob, hworker]
    exact hmem _ (h.claim_granted token claim hclaim)
  · rw [hgranted, hu.draws]
    exact h.drawn
  · rw [hgranted]
    exact h.once
  · intro key
    have hcount : events.countP (·.isClaimOf key) = 0 := by
      rw [List.countP_eq_zero]
      intro event hevent
      simp [isClaimOf_of_grantedToken (hevents event hevent) key]
    rw [(hrows key).attempts, h.attempts key, claimCount, claimCount, hlog, List.countP_append,
      hcount, Nat.zero_add]

/-- The next token has not been granted before. -/
lemma FencingInvariant.fresh (h : FencingInvariant config s) :
    config.tokens.uuid4 s.draws ∉ grantedTokens s.log := by
  intro hmem
  obtain ⟨n, hn, heq⟩ := h.drawn _ hmem
  exact hn.ne (config.tokens.distinct heq)

lemma FencingInvariant.draw (h : FencingInvariant config s) :
    FencingInvariant config { s with draws := s.draws + 1 } where
  columns := h.columns
  row_granted := h.row_granted
  claim_granted := h.claim_granted
  drawn token htoken := by
    obtain ⟨n, hn, heq⟩ := h.drawn token htoken
    exact ⟨n, hn.trans (Nat.lt_succ_self _), heq⟩
  once := h.once
  attempts := h.attempts

lemma FencingInvariant.grantLease (h : FencingInvariant config s) {worker : WorkerId}
    {leaseUntil : Time} {identity : JobIdentity} {job : Job}
    (hrow : s.jobs.rows.get? identity = some job) :
    FencingInvariant config (s.grantLease config worker leaseUntil identity job) := by
  constructor
  · intro key job' hget
    rcases Table.get?_set_cases hget with ⟨-, rfl⟩ | hget
    · exact .lease _ _ _
    · exact h.columns key job' hget
  · intro key job' token hget htoken
    rcases Table.get?_set_cases hget with ⟨rfl, rfl⟩ | hget
    · cases htoken
      exact ⟨worker, List.mem_cons_self ..⟩
    · obtain ⟨worker', hclaimed⟩ := h.row_granted key job' token hget htoken
      exact ⟨worker', List.mem_cons_of_mem _ hclaimed⟩
  · intro token claim hget
    rcases Table.get?_set_cases hget with ⟨rfl, rfl⟩ | hget
    · exact List.mem_cons_self ..
    · exact List.mem_cons_of_mem _ (h.claim_granted token claim hget)
  · intro token htoken
    rcases List.mem_cons.mp htoken with rfl | hold
    · exact ⟨s.draws, Nat.lt_succ_self _, rfl⟩
    · obtain ⟨n, hn, heq⟩ := h.drawn token hold
      exact ⟨n, hn.trans (Nat.lt_succ_self _), heq⟩
  · exact List.nodup_cons.mpr ⟨h.fresh, h.once⟩
  · intro key
    have hcount : claimCount key (s.grantLease config worker leaseUntil identity job).log
        = claimCount key s.log + if identity = key then 1 else 0 := by
      simp only [ModerationState.grantLease, claimCount, List.countP_cons,
        ModerationEvent.isClaimOf, decide_eq_true_eq]
    rw [hcount, ← h.attempts key]
    simp only [ModerationState.grantLease, Table.get?_set]
    by_cases hkey : key = identity
    · subst hkey
      rw [if_pos rfl, if_pos rfl, hrow]
      rfl
    · rw [if_neg hkey, if_neg (Ne.symm hkey)]
      rfl

lemma FencingInvariant.step {a : ModerationAction μ χ} (h : FencingInvariant config s)
    (hstep : s.step config a = some s') : FencingInvariant config s' := by
  by_cases ha : ∃ worker batchSize leaseSeconds locked,
      a = .claimJobs worker batchSize leaseSeconds locked
  · obtain ⟨worker, batchSize, leaseSeconds, locked, rfl⟩ := ha
    simp only [ModerationState.step] at hstep
    split_ifs at hstep
    rw [← Option.some.inj hstep]
    apply claimModerationJobs_induction config (FencingInvariant config)
    · have hexpire : s.step config .expireLeases = some s.expireLeases := rfl
      exact h.of_ungranting (step_ungranting hexpire (by simp))
        fun key => (step_jobChange hexpire key).rowKept (by simp)
    · exact fun t ht => ht.draw
    · exact fun t identity job _ hrow _ ht => ht.grantLease hrow
  · have hne : ∀ worker batchSize leaseSeconds locked,
        a ≠ .claimJobs worker batchSize leaseSeconds locked :=
      fun worker batchSize leaseSeconds locked heq => ha ⟨worker, batchSize, leaseSeconds, locked, heq⟩
    exact h.of_ungranting (step_ungranting hstep hne)
      fun key => (step_jobChange hstep key).rowKept hne

theorem reachable_fencingInvariant (h : (moderationSystem config).Reachable s) :
    FencingInvariant config s := by
  refine h.invariant ?_ fun _ _ _ hI hstep => hI.step hstep
  rintro _ rfl
  exact .empty

/-! ### Writers -/

/-- The writes by which a `leased` row stops being so: the finish or retry write of the claim that
    holds its token, and the expiry of its lease. -/
inductive LeaseEnds (s : ModerationState μ χ) (a : ModerationAction μ χ) (key : JobIdentity)
    (job : Job) : Job → Prop
  | finish {token : Token} {claim : Claim μ} {status : FinalStatus} {code : String}
      {result otherwise : ClaimResult} (ha : a = .advance token)
      (hclaim : s.claims.get? token = some claim) (hjob : claim.job = key)
      (hphase : claim.phase = .finishing status code result otherwise)
      (htoken : job.leaseToken = some token) :
      LeaseEnds s a key job (job.finish s.clock status.toJobStatus code)
  | retry {token : Token} {claim : Claim μ} {code : String} {delay : ℕ} (ha : a = .advance token)
      (hclaim : s.claims.get? token = some claim) (hjob : claim.job = key)
      (hphase : claim.phase = .writingRetry code delay) (htoken : job.leaseToken = some token) :
      LeaseEnds s a key job (job.scheduleRetry s.clock code delay)
  | expire {leaseUntil : Time} (ha : a.expires = true) (hlease : job.leaseUntil = some leaseUntil)
      (hover : leaseUntil ≤ s.clock) : LeaseEnds s a key job job.expire

lemma JobChange.leased {a : ModerationAction μ χ} {key : JobIdentity} {job : Job}
    {row' : Option Job} (h : JobChange config s a key (some job) row')
    (hleased : job.status = .leased) :
    ∃ job', row' = some job' ∧ (job' = job ∨ LeaseEnds s a key job job') := by
  cases h with
  | keep => exact ⟨job, rfl, .inl rfl⟩
  | enqueue h =>
    cases h with
    | keep => exact ⟨job, rfl, .inl rfl⟩
    | supersede _ _ hpending => simp [hleased, requeueableStatuses] at hpending
    | settle _ _ _ hpending => simp [hleased, requeueableStatuses] at hpending
    | revive _ _ hsuperseded => simp [hleased] at hsuperseded
  | expire hexpires _ hlease hover => exact ⟨_, rfl, .inr (.expire hexpires hlease hover)⟩
  | claim _ hpending => simp [hleased, requeueableStatuses] at hpending
  | finish hclaim hphase hheld =>
    simp only [Job.heldBy, Bool.and_eq_true, decide_eq_true_eq] at hheld
    exact ⟨_, rfl, .inr (.finish rfl hclaim rfl hphase hheld.2)⟩
  | retry hclaim hphase hheld =>
    simp only [Job.heldBy, Bool.and_eq_true, decide_eq_true_eq] at hheld
    exact ⟨_, rfl, .inr (.retry rfl hclaim rfl hphase hheld.2)⟩

/-- The steps of a claim change no row that is not leased under its token. -/
lemma JobChange.fenced {a : ModerationAction μ χ} {key : JobIdentity} {row row' : Option Job}
    {token : Token} (h : JobChange config s a key row row') (ha : a.actor = some token)
    (htoken : ∀ job, row = some job → job.leaseToken ≠ some token) : row' = row := by
  cases h with
  | keep => rfl
  | enqueue => cases ha
  | insert => cases ha
  | expire hexpires => cases a <;> simp_all [ModerationAction.actor, ModerationAction.expires]
  | claim => cases ha
  | finish _ _ hheld =>
    cases ha
    simp only [Job.heldBy, Bool.and_eq_true, decide_eq_true_eq] at hheld
    exact absurd hheld.2 (htoken _ rfl)
  | retry _ _ hheld =>
    cases ha
    simp only [Job.heldBy, Bool.and_eq_true, decide_eq_true_eq] at hheld
    exact absurd hheld.2 (htoken _ rfl)

end ModerationState

/-- Two grants of one token are the same grant. -/
lemma claimed_unique {log : List ModerationEvent} (h : (grantedTokens log).Nodup) {token : Token}
    {key key' : JobIdentity} {worker worker' : WorkerId}
    (hclaimed : ModerationEvent.claimed key token worker ∈ log)
    (hclaimed' : ModerationEvent.claimed key' token worker' ∈ log) :
    key = key' ∧ worker = worker' := by
  by_contra hne
  have hdifferent : ModerationEvent.claimed key token worker ≠ .claimed key' token worker' := by
    intro heq
    cases heq
    exact hne ⟨rfl, rfl⟩
  have hsymm : Std.Symm fun event event' : ModerationEvent =>
      ∀ b, event.grantedToken = some b → ∀ b', event'.grantedToken = some b' → b ≠ b' :=
    ⟨fun _ _ hab y hy x hx => (hab x hx y hy).symm⟩
  exact (List.pairwise_filterMap.mp h).forall hclaimed hclaimed' hdifferent token rfl token rfl rfl

/-- Lease fencing: the lease columns mark the leased rows, a token is granted once and to one
    worker, a lease ends by its holder's write or by expiry, a claim writes to no row that does not
    carry its token, and the attempts of a job are its claims. -/
theorem lease_fencing (h : (moderationSystem config).Reachable s) :
    (∀ key job, s.jobs.rows.get? key = some job →
      (job.leaseToken.isSome = true ↔ job.status = .leased) ∧
      (job.leaseUntil.isSome = true ↔ job.status = .leased) ∧
      job.attempts = claimCount key s.log) ∧
    (grantedTokens s.log).Nodup ∧
    (∀ key key' token worker worker', ModerationEvent.claimed key token worker ∈ s.log →
      ModerationEvent.claimed key' token worker' ∈ s.log → key = key' ∧ worker = worker') ∧
    (∀ token claim, s.claims.get? token = some claim →
      ModerationEvent.claimed claim.job token claim.worker ∈ s.log) ∧
    (∀ a s' key job, s.step config a = some s' → s.jobs.rows.get? key = some job →
      (job.status = .leased → ∃ job', s'.jobs.rows.get? key = some job' ∧
        (job' = job ∨ ModerationState.LeaseEnds s a key job job')) ∧
      (∀ token, a.actor = some token → job.leaseToken ≠ some token →
        s'.jobs.rows.get? key = some job)) := by
  have hinv := ModerationState.reachable_fencingInvariant h
  refine ⟨fun key job hrow => ?_, hinv.once, ?_, hinv.claim_granted, ?_⟩
  · have hcolumns := hinv.columns key job hrow
    have hattempts := hinv.attempts key
    rw [hrow] at hattempts
    exact ⟨hcolumns.token, hcolumns.lease_end, hattempts⟩
  · intro key key' token worker worker' hclaimed hclaimed'
    exact claimed_unique hinv.once hclaimed hclaimed'
  · intro a s' key job hstep hrow
    have hchange := ModerationState.step_jobChange hstep key
    rw [hrow] at hchange
    refine ⟨fun hleased => hchange.leased hleased, fun token ha htoken => ?_⟩
    refine hchange.fenced ha fun job' hjob' => ?_
    cases hjob'
    exact htoken

/-- A job is claimed, retried, superseded, revived and claimed again. -/
theorem lease_fencing_claimed_twice :
    ∃ s, (moderationSystem standardConfig).Reachable s ∧
      grantedTokens s.log = [1, 0] ∧
      ((s.jobs.rows.get? (standardConfig.settings.identity 1 sourceHashOfA)).any fun job =>
        job.status = .leased && job.leaseToken = some 1) = true ∧
      claimCount (standardConfig.settings.identity 1 sourceHashOfA) s.log = 2 ∧
      ∀ key job, s.jobs.rows.get? key = some job → job.attempts = claimCount key s.log := by
  obtain ⟨s, hs, hlog⟩ := exists_standardRun (fun _ _ _ => true)
    (fun s => grantedTokens s.log = [1, 0]
      && (s.jobs.rows.get? (standardConfig.settings.identity 1 sourceHashOfA)).any
        (fun job => job.status = .leased && job.leaseToken = some 1)
      && claimCount (standardConfig.settings.identity 1 sourceHashOfA) s.log = 2)
    [ .writeDetail 1 (titledMovie "A" none) {}, .claimJobs 1 1 120 [],
      .advance 0, .advance 0, .advance 0, .advance 0, .answer 0 (.unavailable "typesafe_rate_limited"),
      .advance 0, .advance 0, .advance 0, .writeDetail 1 (titledMovie "B" none) {},
      .writeDetail 1 (titledMovie "A" none) {}, .claimJobs 2 2 120 [] ] (by decide +kernel)
  simp only [Bool.and_eq_true, decide_eq_true_eq] at hlog
  obtain ⟨⟨htokens, hleased⟩, hcount⟩ := hlog
  exact ⟨s, hs.reachable, htokens, hleased, hcount,
    fun key job hrow => ((lease_fencing hs.reachable).1 key job hrow).2.2⟩

end Denn
