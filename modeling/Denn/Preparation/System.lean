import Denn.Core.Transition
import Denn.Preparation.Job

/-!
# The preparation system

Any number of preparation workers and of admitting requests on one job table. A step is one
transaction or one statement outside transactions, made under one reading of the clock; a guarded
detail write and an admission hold a row lock over several steps. The log is kept for the
statements only: no step reads it.
-/

namespace Denn.Preparation

open Core

/-- What became of a claim. -/
inductive ClaimOutcome where
  | done
  | retry
  | failed
  | fenced
  deriving DecidableEq, Repr

/-- Where a worker stands with one claimed job. The attempts are those it has loaded. -/
inductive ClaimPhase where
  | claimed
  | reconciling (attempts : ℕ)
  | fetching (attempts : ℕ)
  | guarded (attempts : ℕ)
  | fetched (attempts : ℕ) (hasPayload : Bool)
  | finishing
  | retrying (attempts : ℕ)
  | ended (outcome : ClaimOutcome)
  deriving DecidableEq, Repr

/-- The phase holds the lock of the job row. -/
def ClaimPhase.holdsRow : ClaimPhase → Bool
  | .guarded _ => true
  | _ => false

/-- The attempts that the worker has loaded. -/
def ClaimPhase.attempts : ClaimPhase → Option ℕ
  | .claimed => none
  | .reconciling attempts => some attempts
  | .fetching attempts => some attempts
  | .guarded attempts => some attempts
  | .fetched attempts _ => some attempts
  | .finishing => none
  | .retrying attempts => some attempts
  | .ended _ => none

/-- A claimed job of a worker; its token is the key it is stored under. -/
structure PreparationClaim where
  worker : WorkerId
  job : JobId
  phase : ClaimPhase
  deriving DecidableEq, Repr

/-- Where a call of `enqueue_metadata_preparation` stands. -/
inductive AdmissionPhase where
  | filtered
  | locked
  | admitting (slots : ℕ)
  deriving DecidableEq, Repr

structure Admission where
  candidates : List ItemId
  phase : AdmissionPhase
  deriving DecidableEq, Repr

inductive PreparationEvent where
  | claimed (job : JobId) (token : Token) (worker : WorkerId)
  | guarded (job : JobId) (token : Token)
  | persisted (job : JobId) (token : Token)
  deriving DecidableEq, Repr

/-- The event is a claim of the job. -/
def PreparationEvent.isClaimOf (job : JobId) : PreparationEvent → Bool
  | .claimed job' _ _ => job' = job
  | _ => false

/-- The tables, the items with normalized detail, the claims and admissions under way, the holder
    of the cursor lock, and the events, newest first. -/
structure PreparationState where
  clock : Time
  jobs : PreparationTable
  details : List ItemId
  claims : Table Token PreparationClaim
  draws : ℕ
  cursor : Option ItemId
  cursorHolder : Option ℕ
  admissions : Table ℕ Admission
  nextAdmission : ℕ
  log : List PreparationEvent

def PreparationState.empty : PreparationState where
  clock := 0
  jobs := ⟨.empty, 0⟩
  details := []
  claims := .empty
  draws := 0
  cursor := none
  cursorHolder := none
  admissions := .empty
  nextAdmission := 0
  log := []

/-- What is fixed during a run. -/
structure PreparationConfig where
  classificationEnabled : Bool
  options : RetryOptions
  tokens : TokenSource

/-- What happens. What a fetch returns, whether a mapper stores its payload, and whether the
    moderation hash of a detail can be built is chosen with the step. -/
inductive PreparationAction where
  | tick (seconds : ℕ)
  | writeDetail (item : ItemId)
  | claimJobs (worker : WorkerId) (batchSize leaseSeconds : ℕ) (locked : List JobId)
  | load (token : Token)
  | reconcile (token : Token) (hasHash : Bool)
  | guard (token : Token)
  | commit (token : Token) (stored : Bool)
  | fetchEnds (token : Token) (hasPayload : Bool)
  | check (token : Token)
  | finish (token : Token)
  | retryOrFail (token : Token)
  | enqueue (contentItemIds : List ItemId)
  | lockCursor (admission : ℕ)
  | countActive (admission : ℕ)
  | createJobs (admission : ℕ)
  | abandon (admission : ℕ)

namespace PreparationState

variable (config : PreparationConfig) (s : PreparationState)

def setPhase (token : Token) (claim : PreparationClaim) (phase : ClaimPhase) :
    PreparationState :=
  { s with claims := s.claims.set token { claim with phase } }

/-- A guarded write under way holds the row. -/
def isLocked (job : JobId) : Bool :=
  s.claims.any fun _ claim => claim.job = job && claim.phase.holdsRow

/-! ### Workers -/

def expireLeases : PreparationState :=
  { s with
    jobs := { s.jobs with
      rows := Preparation.expireLeases s.clock config.options.maxAttempts s.jobs.rows } }

/-- A job is leased under a fresh token and handed to a worker. -/
def grantLease (worker : WorkerId) (leaseUntil : Time) (id : JobId) (job : PreparationJob) :
    PreparationState :=
  let token := config.tokens.uuid4 s.draws
  { s with
    jobs := { s.jobs with rows := s.jobs.rows.set id (job.lease token leaseUntil) }
    draws := s.draws + 1
    claims := s.claims.set token ⟨worker, id, .claimed⟩
    log := .claimed id token worker :: s.log }

/-- One turn of the claim loop. -/
def claimJob (worker : WorkerId) (leaseUntil : Time) (id : JobId) : PreparationState :=
  match s.jobs.rows.get? id with
  | none => { s with draws := s.draws + 1 }
  | some job =>
    if job.status ∈ readyStatuses then s.grantLease config worker leaseUntil id job
    else { s with draws := s.draws + 1 }

/-- `claim_metadata_preparation_jobs`. Its updates wait for the lock of a row that they match. -/
def claimJobs (worker : WorkerId) (batchSize leaseSeconds : ℕ) (locked : List JobId) :
    Option PreparationState :=
  if batchSize < 1 ∨ maxBatchSize < batchSize ∨ leaseSeconds < minLeaseSeconds
      ∨ config.options.maxAttempts < 1 then none
  else if s.jobs.rows.any fun id job => job.isExpired s.clock && s.isLocked id then none
  else
    let s := s.expireLeases config
    some (((readyJobs s.clock locked s.jobs.rows).take batchSize).foldl
      (fun s id => s.claimJob config worker (s.clock + leaseSeconds) id) s)

/-- The job of a claim is loaded with its item. -/
def load (token : Token) (claim : PreparationClaim) : Option PreparationState :=
  (s.jobs.rows.get? claim.job).map fun job =>
    s.setPhase token claim
      (if job.contentItem ∈ s.details then .reconciling job.attempts else .fetching job.attempts)

/-- The transaction of `_reconcile_existing_detail`, and the branch on its result. -/
def reconcile (token : Token) (claim : PreparationClaim) (attempts : ℕ) (hasHash : Bool) :
    PreparationState :=
  if isHeld s.clock claim.job token s.jobs.rows then
    let hasDetail := (s.jobs.rows.get? claim.job).any fun job => job.contentItem ∈ s.details
    if hasDetail && (hasHash || !config.classificationEnabled) then
      s.setPhase token claim .finishing
    else s.setPhase token claim (.retrying attempts)
  else s.setPhase token claim (.ended .fenced)

/-- `_active_lease` before a detail write: the row is locked and checked. -/
def guard (token : Token) (claim : PreparationClaim) (attempts : ℕ) : PreparationState :=
  if isHeld s.clock claim.job token s.jobs.rows then
    { s with log := .guarded claim.job token :: s.log }.setPhase token claim (.guarded attempts)
  else s

/-- A guarded write commits, with the detail unless its mapper raised. -/
def commit (token : Token) (claim : PreparationClaim) (attempts : ℕ) (stored : Bool) :
    PreparationState :=
  let item := (s.jobs.rows.get? claim.job).map (·.contentItem)
  if stored then
    { s with
      details := item.toList ++ s.details
      log := .persisted claim.job token :: s.log }.setPhase token claim (.fetching attempts)
  else s.setPhase token claim (.fetching attempts)

/-- The item is read again after the fetch. -/
def check (token : Token) (claim : PreparationClaim) (attempts : ℕ) (hasPayload : Bool) :
    PreparationState :=
  let hasDetail := (s.jobs.rows.get? claim.job).any fun job => job.contentItem ∈ s.details
  s.setPhase token claim (if hasPayload && hasDetail then .finishing else .retrying attempts)

/-- The statement of `_finish`. -/
def finish (token : Token) (claim : PreparationClaim) : PreparationState :=
  { s with
    jobs := { s.jobs with
      rows := updateHeld s.clock claim.job token (.finish s.clock .done) s.jobs.rows }
  }.setPhase token claim
    (.ended (if isHeld s.clock claim.job token s.jobs.rows then .done else .fenced))

/-- The statement of `_retry_or_fail`. -/
def retryOrFail (token : Token) (claim : PreparationClaim) (attempts : ℕ) : PreparationState :=
  { s with
    jobs := { s.jobs with
      rows := updateHeld s.clock claim.job token (.retryOrFail s.clock config.options attempts)
        s.jobs.rows }
  }.setPhase token claim
    (.ended (if isHeld s.clock claim.job token s.jobs.rows then
      if config.options.maxAttempts ≤ attempts then .failed else .retry
      else .fenced))

/-! ### Admitting requests -/

/-- What `enqueue_metadata_preparation` reads before it takes the cursor lock. -/
def enqueue (contentItemIds : List ItemId) : PreparationState :=
  if !config.classificationEnabled || contentItemIds.isEmpty then s
  else if (candidates contentItemIds s.jobs.rows).isEmpty then s
  else
    { s with
      admissions := s.admissions.set s.nextAdmission
        ⟨candidates contentItemIds s.jobs.rows, .filtered⟩
      nextAdmission := s.nextAdmission + 1 }

/-- The transaction of an admission ends, with or without its writes. -/
def endAdmission (id : ℕ) : PreparationState :=
  { s with
    admissions := s.admissions.delete id
    cursorHolder := if s.cursorHolder = some id then none else s.cursorHolder }

/-- The active jobs are counted under the cursor lock. -/
def countActive (id : ℕ) (admission : Admission) : PreparationState :=
  let slots := maxPendingMetadataPreparationJobs - activeCount s.jobs.rows
  if slots = 0 then s.endAdmission id
  else { s with admissions := s.admissions.set id { admission with phase := .admitting slots } }

/-- The admitted jobs are created, the cursor moves, and the transaction commits. -/
def createJobs (id : ℕ) (admission : Admission) (slots : ℕ) : PreparationState :=
  let admitted := (rotate s.cursor admission.candidates).take slots
  { s with
    jobs := admitted.foldl (insertJob s.clock) s.jobs
    cursor := admitted.getLast?.or s.cursor }.endAdmission id

def step : PreparationAction → Option PreparationState
  | .tick seconds => some { s with clock := s.clock + seconds }
  | .writeDetail item => some { s with details := item :: s.details }
  | .claimJobs worker batchSize leaseSeconds locked =>
    s.claimJobs config worker batchSize leaseSeconds locked
  | .load token => (s.claims.get? token).bind fun claim =>
    match claim.phase with
    | .claimed => s.load token claim
    | _ => none
  | .reconcile token hasHash => (s.claims.get? token).bind fun claim =>
    match claim.phase with
    | .reconciling attempts => some (s.reconcile config token claim attempts hasHash)
    | _ => none
  | .guard token => (s.claims.get? token).bind fun claim =>
    match claim.phase with
    | .fetching attempts => some (s.guard token claim attempts)
    | _ => none
  | .commit token stored => (s.claims.get? token).bind fun claim =>
    match claim.phase with
    | .guarded attempts => some (s.commit token claim attempts stored)
    | _ => none
  | .fetchEnds token hasPayload => (s.claims.get? token).bind fun claim =>
    match claim.phase with
    | .fetching attempts => some (s.setPhase token claim (.fetched attempts hasPayload))
    | _ => none
  | .check token => (s.claims.get? token).bind fun claim =>
    match claim.phase with
    | .fetched attempts hasPayload => some (s.check token claim attempts hasPayload)
    | _ => none
  | .finish token => (s.claims.get? token).bind fun claim =>
    match claim.phase with
    | .finishing => some (s.finish token claim)
    | _ => none
  | .retryOrFail token => (s.claims.get? token).bind fun claim =>
    match claim.phase with
    | .retrying attempts => some (s.retryOrFail config token claim attempts)
    | _ => none
  | .enqueue contentItemIds => some (s.enqueue config contentItemIds)
  | .lockCursor id => (s.admissions.get? id).bind fun admission =>
    if admission.phase = .filtered ∧ s.cursorHolder = none then
      some { s with
        cursorHolder := some id
        admissions := s.admissions.set id { admission with phase := .locked } }
    else none
  | .countActive id => (s.admissions.get? id).bind fun admission =>
    if admission.phase = .locked then some (s.countActive id admission) else none
  | .createJobs id => (s.admissions.get? id).bind fun admission =>
    match admission.phase with
    | .admitting slots => some (s.createJobs id admission slots)
    | _ => none
  | .abandon id => some (s.endAdmission id)

/-- The rules of `step`: where the claim or the admission stands, and what the step leaves. -/
inductive Step : PreparationAction → PreparationState → Prop
  | tick (seconds : ℕ) : Step (.tick seconds) { s with clock := s.clock + seconds }
  | writeDetail (item : ItemId) : Step (.writeDetail item) { s with details := item :: s.details }
  | claimJobs {worker : WorkerId} {batchSize leaseSeconds : ℕ} {locked : List JobId}
      {s' : PreparationState}
      (hclaims : s.claimJobs config worker batchSize leaseSeconds locked = some s') :
      Step (.claimJobs worker batchSize leaseSeconds locked) s'
  | load {token : Token} {claim : PreparationClaim} {job : PreparationJob}
      (hclaim : s.claims.get? token = some claim) (hphase : claim.phase = .claimed)
      (hrow : s.jobs.rows.get? claim.job = some job) :
      Step (.load token) (s.setPhase token claim
        (if job.contentItem ∈ s.details then .reconciling job.attempts
          else .fetching job.attempts))
  | reconcile {token : Token} {claim : PreparationClaim} {attempts : ℕ} (hasHash : Bool)
      (hclaim : s.claims.get? token = some claim) (hphase : claim.phase = .reconciling attempts) :
      Step (.reconcile token hasHash) (s.reconcile config token claim attempts hasHash)
  | guard {token : Token} {claim : PreparationClaim} {attempts : ℕ}
      (hclaim : s.claims.get? token = some claim) (hphase : claim.phase = .fetching attempts) :
      Step (.guard token) (s.guard token claim attempts)
  | commit {token : Token} {claim : PreparationClaim} {attempts : ℕ} (stored : Bool)
      (hclaim : s.claims.get? token = some claim) (hphase : claim.phase = .guarded attempts) :
      Step (.commit token stored) (s.commit token claim attempts stored)
  | fetchEnds {token : Token} {claim : PreparationClaim} {attempts : ℕ} (hasPayload : Bool)
      (hclaim : s.claims.get? token = some claim) (hphase : claim.phase = .fetching attempts) :
      Step (.fetchEnds token hasPayload) (s.setPhase token claim (.fetched attempts hasPayload))
  | check {token : Token} {claim : PreparationClaim} {attempts : ℕ} {hasPayload : Bool}
      (hclaim : s.claims.get? token = some claim)
      (hphase : claim.phase = .fetched attempts hasPayload) :
      Step (.check token) (s.check token claim attempts hasPayload)
  | finish {token : Token} {claim : PreparationClaim}
      (hclaim : s.claims.get? token = some claim) (hphase : claim.phase = .finishing) :
      Step (.finish token) (s.finish token claim)
  | retryOrFail {token : Token} {claim : PreparationClaim} {attempts : ℕ}
      (hclaim : s.claims.get? token = some claim) (hphase : claim.phase = .retrying attempts) :
      Step (.retryOrFail token) (s.retryOrFail config token claim attempts)
  | enqueue (contentItemIds : List ItemId) :
      Step (.enqueue contentItemIds) (s.enqueue config contentItemIds)
  | lockCursor {id : ℕ} {admission : Admission} (hadmission : s.admissions.get? id = some admission)
      (hphase : admission.phase = .filtered) (hfree : s.cursorHolder = none) :
      Step (.lockCursor id) { s with
        cursorHolder := some id
        admissions := s.admissions.set id { admission with phase := .locked } }
  | countActive {id : ℕ} {admission : Admission}
      (hadmission : s.admissions.get? id = some admission) (hphase : admission.phase = .locked) :
      Step (.countActive id) (s.countActive id admission)
  | createJobs {id : ℕ} {admission : Admission} {slots : ℕ}
      (hadmission : s.admissions.get? id = some admission)
      (hphase : admission.phase = .admitting slots) :
      Step (.createJobs id) (s.createJobs id admission slots)
  | abandon (id : ℕ) : Step (.abandon id) (s.endAdmission id)

variable {config s}

/-- Every step is one of the rules. -/
lemma step_cases {a : PreparationAction} {s' : PreparationState}
    (hstep : s.step config a = some s') : s.Step config a s' := by
  cases a with
  | tick seconds =>
    cases hstep
    exact .tick seconds
  | writeDetail item =>
    cases hstep
    exact .writeDetail item
  | claimJobs worker batchSize leaseSeconds locked => exact .claimJobs hstep
  | load token =>
    obtain ⟨claim, hclaim, hstep⟩ := Option.bind_eq_some_iff.mp hstep
    split at hstep
    · obtain ⟨job, hrow, rfl⟩ := Option.map_eq_some_iff.mp hstep
      exact .load hclaim ‹_› hrow
    · cases hstep
  | reconcile token hasHash =>
    obtain ⟨claim, hclaim, hstep⟩ := Option.bind_eq_some_iff.mp hstep
    split at hstep <;> cases hstep
    exact .reconcile hasHash hclaim ‹_›
  | guard token =>
    obtain ⟨claim, hclaim, hstep⟩ := Option.bind_eq_some_iff.mp hstep
    split at hstep <;> cases hstep
    exact .guard hclaim ‹_›
  | commit token stored =>
    obtain ⟨claim, hclaim, hstep⟩ := Option.bind_eq_some_iff.mp hstep
    split at hstep <;> cases hstep
    exact .commit stored hclaim ‹_›
  | fetchEnds token hasPayload =>
    obtain ⟨claim, hclaim, hstep⟩ := Option.bind_eq_some_iff.mp hstep
    split at hstep <;> cases hstep
    exact .fetchEnds hasPayload hclaim ‹_›
  | check token =>
    obtain ⟨claim, hclaim, hstep⟩ := Option.bind_eq_some_iff.mp hstep
    split at hstep <;> cases hstep
    exact .check hclaim ‹_›
  | finish token =>
    obtain ⟨claim, hclaim, hstep⟩ := Option.bind_eq_some_iff.mp hstep
    split at hstep <;> cases hstep
    exact .finish hclaim ‹_›
  | retryOrFail token =>
    obtain ⟨claim, hclaim, hstep⟩ := Option.bind_eq_some_iff.mp hstep
    split at hstep <;> cases hstep
    exact .retryOrFail hclaim ‹_›
  | enqueue contentItemIds =>
    cases hstep
    exact .enqueue contentItemIds
  | lockCursor id =>
    obtain ⟨admission, hadmission, hstep⟩ := Option.bind_eq_some_iff.mp hstep
    split_ifs at hstep with hfree
    cases hstep
    exact .lockCursor hadmission hfree.1 hfree.2
  | countActive id =>
    obtain ⟨admission, hadmission, hstep⟩ := Option.bind_eq_some_iff.mp hstep
    split_ifs at hstep with hphase
    cases hstep
    exact .countActive hadmission hphase
  | createJobs id =>
    obtain ⟨admission, hadmission, hstep⟩ := Option.bind_eq_some_iff.mp hstep
    split at hstep <;> cases hstep
    exact .createJobs hadmission ‹_›
  | abandon id =>
    cases hstep
    exact .abandon id

end PreparationState

def preparationSystem (config : PreparationConfig) :
    TransitionSystem PreparationState PreparationAction where
  initial s := s = .empty
  step s a := s.step config a

end Denn.Preparation
