import Denn.Core.Transition
import Denn.Moderation.Worker

/-!
# The moderation system

Detail writes, the read path and any number of workers on the same tables. A step is one database
transaction, one statement of a worker outside transactions, the end of a remote call, or the
passing of time. The log and the persisted versions are kept for the statements only: no step
reads them.
-/

namespace Denn

open Core

/-- A content item with normalized detail and its materialized hash. -/
structure ModeratedItem (μ χ : Type) where
  main : μ
  children : χ
  currentModerationSourceHash : Option SourceHash

inductive ModerationEvent where
  | claimed (job : JobIdentity) (token : Token) (worker : WorkerId)
  | called (job : JobIdentity)
  | endedAmbiguously (job : JobIdentity)
  deriving DecidableEq, Repr

/-- The token that a claim grants. -/
def ModerationEvent.grantedToken : ModerationEvent → Option Token
  | .claimed _ token _ => some token
  | _ => none

/-- The event is a claim of the job. -/
def ModerationEvent.isClaimOf (job : JobIdentity) : ModerationEvent → Bool
  | .claimed job' _ _ => job' = job
  | _ => false

/-- The tables, the claims under way by token, what the read path is about to insert, and the
    history: persisted details and events, newest first. -/
structure ModerationState (μ χ : Type) where
  clock : Time
  items : Table ItemId (ModeratedItem μ χ)
  jobs : JobTable
  judgments : JudgmentTable
  admissions : List (Time × List JobIdentity)
  claims : Table Token (Claim μ)
  draws : ℕ
  versions : List (ItemId × μ × χ)
  log : List ModerationEvent

def ModerationState.empty (μ χ : Type) : ModerationState μ χ where
  clock := 0
  items := .empty
  jobs := ⟨.empty, 0⟩
  judgments := ⟨.empty, 0⟩
  admissions := []
  claims := .empty
  draws := 0
  versions := []
  log := []

/-- What is fixed during a run. -/
structure ModerationConfig (μ χ : Type) where
  semantics : DetailSemantics μ χ
  settings : ModerationSettings
  worker : WorkerConfig
  thresholds : PolicyThresholds
  tokens : TokenSource

/-- Classification enabled, and everything else as it is when nothing is configured. -/
def ModerationConfig.standard {μ χ : Type} (semantics : DetailSemantics μ χ) :
    ModerationConfig μ χ where
  semantics := semantics
  settings := ⟨true, "jev-latest", "q4"⟩
  worker := {}
  thresholds := {}
  tokens := ⟨id, Function.injective_id⟩

inductive ModerationAction (μ χ : Type) where
  | tick (seconds : ℕ)
  | writeDetail (item : ItemId) (main : μ) (children : χ)
  | readMissing (contentItems : List AnnotatedItem)
  | createMissing (admission : ℕ)
  | expireLeases
  | claimJobs (worker : WorkerId) (batchSize leaseSeconds : ℕ) (locked : List JobIdentity)
  | advance (token : Token)
  | answer (token : Token) (answer : RemoteAnswer)

/-- The transactions that expire leases. -/
def ModerationAction.expires {μ χ : Type} : ModerationAction μ χ → Bool
  | .expireLeases => true
  | .claimJobs _ _ _ _ => true
  | _ => false

namespace ModerationState

variable {μ χ : Type} (config : ModerationConfig μ χ) (s : ModerationState μ χ)

/-- The materialized hash of an item. -/
def currentHash (item : ItemId) : Option SourceHash :=
  (s.items.get? item).bind (·.currentModerationSourceHash)

def setPhase (token : Token) (claim : Claim μ) (phase : ClaimPhase μ) : ModerationState μ χ :=
  { s with claims := s.claims.set token { claim with phase } }

/-- `upsert_detail_with_moderation_hash` for one item. -/
def writeDetail (item : ItemId) (main : μ) (children : χ) : ModerationState μ χ :=
  let sourceHash := config.semantics.currentHash main children
  { s with
    items := s.items.set item ⟨main, children, sourceHash⟩
    versions := (item, main, children) :: s.versions
    jobs := (enqueueCurrentModerationJob config.settings s.judgments.rows s.clock item
      (config.semantics.detailIsComplete main children) sourceHash s.jobs).2 }

/-- `expire_ambiguous_leases`. -/
def expireLeases : ModerationState μ χ :=
  { s with jobs := { s.jobs with rows := expireAmbiguousLeases s.clock s.jobs.rows } }

/-- A job is leased under a fresh token and handed to a worker. -/
def grantLease (worker : WorkerId) (leaseUntil : Time) (identity : JobIdentity) (job : Job) :
    ModerationState μ χ :=
  let token := config.tokens.uuid4 s.draws
  { s with
    jobs := { s.jobs with rows := s.jobs.rows.set identity (job.lease token leaseUntil) }
    draws := s.draws + 1
    claims := s.claims.set token ⟨worker, identity, leaseUntil, .claimed⟩
    log := .claimed identity token worker :: s.log }

/-- One turn of the claim loop: a token is drawn, and a job that is still ready is leased. -/
def claimJob (worker : WorkerId) (leaseUntil : Time) (identity : JobIdentity) :
    ModerationState μ χ :=
  match s.jobs.rows.get? identity with
  | none => { s with draws := s.draws + 1 }
  | some job =>
    if job.status ∈ requeueableStatuses then s.grantLease config worker leaseUntil identity job
    else { s with draws := s.draws + 1 }

/-- `claim_moderation_jobs`: expire what is over, then lease a batch of ready jobs. -/
def claimModerationJobs (worker : WorkerId) (batchSize leaseSeconds : ℕ)
    (locked : List JobIdentity) : ModerationState μ χ :=
  let s := s.expireLeases
  ((readyJobs s.clock locked s.jobs.rows).take batchSize).foldl
    (fun s identity => s.claimJob config worker (s.clock + leaseSeconds) identity) s

/-- The classifier is called for a claim that has passed the checks before the call. It reads the
    child rows again, under the main row that the claim keeps. -/
def classify (token : Token) (claim : Claim μ) (attempts : ℕ) (main : Option μ) :
    ModerationState μ χ :=
  let detail := main.bind fun main =>
    (s.items.get? claim.job.contentItem).map fun item => (main, item.children)
  let s := { s with log := .called claim.job :: s.log }
  match beginClassification config.semantics config.settings s.clock claim.job.contentItem detail
      claim.job.requestedModel s.judgments with
  | .called sourceHash => s.setPhase token claim (.calling attempts sourceHash)
  | .raised =>
    { s with log := .endedAmbiguously claim.job :: s.log }.setPhase token claim
      (.finish .outcomeUnknown "worker_exception_outcome_unknown" .outcomeUnknown)
  | .returned outcome judgments =>
    { s with judgments }.setPhase token claim (.rechecking attempts outcome)

/-- The remote call of a claim ends. -/
def endCall (token : Token) (claim : Claim μ) (attempts : ℕ) (sourceHash : SourceHash)
    (answer : RemoteAnswer) : ModerationState μ χ :=
  match endClassification config.settings config.thresholds s.clock claim.job.contentItem
      sourceHash claim.job.requestedModel answer s.judgments with
  | none =>
    { s with log := .endedAmbiguously claim.job :: s.log }.setPhase token claim
      (.finish .outcomeUnknown "worker_exception_outcome_unknown" .outcomeUnknown)
  | some (outcome, judgments) =>
    { s with
      judgments
      log := if outcome.isAmbiguous then .endedAmbiguously claim.job :: s.log else s.log
    }.setPhase token claim (.rechecking attempts outcome)

/-- The next statement of a claim outside its remote call. -/
def advance (token : Token) (claim : Claim μ) : Option (ModerationState μ χ) :=
  match claim.phase with
  | .claimed =>
    match heldRow claim.job token s.jobs.rows with
    | none => some (s.setPhase token claim (.ended .fenced))
    | some row =>
      if jobIsCurrent config.settings (s.currentHash claim.job.contentItem) claim.job then
        some (s.setPhase token claim (.checkingSuccess row.attempts))
      else some (s.setPhase token claim (.finish .superseded "" .superseded))
  | .checkingSuccess attempts =>
    if hasCurrentSuccess s.judgments.rows claim.job then
      some (s.setPhase token claim (.finish .done "" .reused))
    else some (s.setPhase token claim (.checkingHash attempts))
  | .checkingHash attempts =>
    let item := s.items.get? claim.job.contentItem
    let freshHash := item.bind fun item => config.semantics.currentHash item.main item.children
    if sourceHashIsOutdated freshHash claim.job then
      some (s.setPhase token claim (.finish .superseded "source_hash_outdated" .superseded))
    else some (s.setPhase token claim (.classifying attempts (item.map (·.main))))
  | .classifying attempts main => some (s.classify config token claim attempts main)
  | .calling _ _ => none
  | .rechecking attempts outcome =>
    some (s.setPhase token claim
      (afterCall config.settings config.worker (s.currentHash claim.job.contentItem) claim.job
        attempts outcome))
  | .schedulingRetry code delay =>
    match heldRow claim.job token s.jobs.rows with
    | none => some (s.setPhase token claim (.ended .fenced))
    | some row =>
      if config.worker.maxAttempts ≤ row.attempts then
        some (s.setPhase token claim (.finishing .failed code .failed .failed))
      else some (s.setPhase token claim (.writingRetry code delay))
  | .writingRetry code delay =>
    let result := if (heldRow claim.job token s.jobs.rows).isSome then .retry else .fenced
    some ({ s with
      jobs := { s.jobs with
        rows := updateHeld claim.job token (Job.scheduleRetry s.clock code delay) s.jobs.rows }
      }.setPhase token claim (.ended result))
  | .finishing status code result otherwise =>
    let result := if (heldRow claim.job token s.jobs.rows).isSome then result else otherwise
    some ({ s with
      jobs := { s.jobs with
        rows := updateHeld claim.job token (Job.finish s.clock status.toJobStatus code) s.jobs.rows }
      }.setPhase token claim (.ended result))
  | .ended _ => none

/-- The events of leases that end during a call while time passes. -/
def leasesEnding (clock : Time) : List ModerationEvent :=
  s.claims.rows.filterMap fun row =>
    match row.2.phase with
    | .calling _ _ =>
      if s.clock < row.2.leaseUntil ∧ row.2.leaseUntil ≤ clock then
        some (.endedAmbiguously row.2.job)
      else none
    | _ => none

def step : ModerationAction μ χ → Option (ModerationState μ χ)
  | .tick seconds =>
    some { s with clock := s.clock + seconds, log := s.leasesEnding (s.clock + seconds) ++ s.log }
  | .writeDetail item main children => some (s.writeDetail config item main children)
  | .readMissing contentItems =>
    some { s with
      admissions := s.admissions ++ [(s.clock, missingModerationJobs config.settings
        s.judgments.rows s.jobs.rows contentItems)] }
  | .createMissing admission =>
    s.admissions[admission]?.map fun new =>
      { s with
        admissions := s.admissions.eraseIdx admission
        jobs := Denn.createMissing new.1 new.2 s.jobs }
  | .expireLeases => some s.expireLeases
  | .claimJobs worker batchSize leaseSeconds locked =>
    if batchSize < 1 ∨ leaseSeconds < 1 then none
    else some (s.claimModerationJobs config worker batchSize leaseSeconds locked)
  | .advance token => (s.claims.get? token).bind fun claim => s.advance config token claim
  | .answer token answer =>
    (s.claims.get? token).bind fun claim =>
      match claim.phase with
      | .calling attempts sourceHash =>
        some (s.endCall config token claim attempts sourceHash answer)
      | _ => none

end ModerationState

def moderationSystem {μ χ : Type} (config : ModerationConfig μ χ) :
    TransitionSystem (ModerationState μ χ) (ModerationAction μ χ) where
  initial s := s = .empty μ χ
  step s a := s.step config a

end Denn
