import Denn.Moderation.Enqueue
import Denn.Moderation.Service
import Mathlib.Data.List.Sort
import Mathlib.Data.Prod.Lex

/-!
# The moderation worker

A worker claims ready jobs under fresh lease tokens and processes each claim in a sequence of
database statements around the classifier call. No lock is held between the statements, so each of
them is a step of its own: a claim is a program counter, with what the process has read so far.
Every write of the process is fenced by its token.
-/

namespace Denn

open Core

def retryableFailures : List String := ["typesafe_config", "typesafe_rate_limited"]

/-- The arguments of a batch that a claim is processed with. -/
structure WorkerConfig where
  maxAttempts : ℕ := 5
  baseBackoffSeconds : ℕ := 5
  maxBackoffSeconds : ℕ := 900

/-- What `process_claim` returns. -/
inductive ClaimResult where
  | fenced
  | superseded
  | reused
  | outcomeUnknown
  | failed
  | retry
  | done
  deriving DecidableEq, Repr

/-- Where the processing of a claim is. `attempts` is what it read from the job row, `main` the main
    detail row that it loaded when it compared the hashes and keeps from then on. -/
inductive ClaimPhase (μ : Type) where
  | claimed
  | checkingSuccess (attempts : ℕ)
  | checkingHash (attempts : ℕ)
  | classifying (attempts : ℕ) (main : Option μ)
  | calling (attempts : ℕ) (sourceHash : SourceHash)
  | rechecking (attempts : ℕ) (outcome : ClassifierOutcome)
  | schedulingRetry (code : String) (delay : ℕ)
  | writingRetry (code : String) (delay : ℕ)
  | finishing (status : FinalStatus) (code : String) (result otherwise : ClaimResult)
  | ended (result : ClaimResult)

/-- The processing of one claim. `leaseUntil` is the end of the lease it was granted. -/
structure Claim (μ : Type) where
  worker : WorkerId
  job : JobIdentity
  leaseUntil : Time
  phase : ClaimPhase μ

/-- Only bounded domain codes are persisted. -/
def safeErrorCode (value : String) : String :=
  String.ofList ((value.toList.take 64).filter fun c => c.isAlphanum || c = '_' || c = '-')

def retryDelaySeconds (config : WorkerConfig) (attempt : ℕ) : ℕ :=
  min config.maxBackoffSeconds (config.baseBackoffSeconds * 2 ^ min 30 (attempt - 1))

/-! ### Writes of the worker -/

/-- The row that a claim leaves. -/
def Job.lease (token : Token) (leaseUntil : Time) (job : Job) : Job :=
  { job with
    status := .leased, leaseToken := some token, leaseUntil := some leaseUntil,
    attempts := job.attempts + 1 }

/-- The row that the expiry of its lease leaves. -/
def Job.expire (job : Job) : Job :=
  { job with
    status := .outcomeUnknown, leaseToken := none, leaseUntil := none,
    lastErrorCode := "lease_expired_outcome_unknown" }

def Job.finish (now : Time) (status : JobStatus) (errorCode : String) (job : Job) : Job :=
  { job with
    status, leaseToken := none, leaseUntil := none, lastErrorCode := safeErrorCode errorCode,
    completedAt :=
      if status ∈ [.done, .superseded, .failed, .outcomeUnknown] then some now else none }

def Job.scheduleRetry (now : Time) (errorCode : String) (delaySeconds : ℕ) (job : Job) : Job :=
  { job with
    status := .retry, availableAt := now + max 1 delaySeconds, leaseToken := none,
    leaseUntil := none, lastErrorCode := safeErrorCode errorCode, completedAt := none }

/-- The row is leased under the token: the condition of every write of a claim. -/
def Job.heldBy (token : Token) (job : Job) : Bool :=
  job.status = .leased && job.leaseToken = some token

/-- An update of one row on the condition that it is leased under the token. -/
def updateHeld (identity : JobIdentity) (token : Token) (f : Job → Job)
    (jobs : Table JobIdentity Job) : Table JobIdentity Job :=
  jobs.updateWhere (fun key job => key = identity && job.heldBy token) fun _ job => f job

/-- The row of a claim as long as it is leased under the token. -/
def heldRow (identity : JobIdentity) (token : Token) (jobs : Table JobIdentity Job) : Option Job :=
  (jobs.get? identity).filter (·.heldBy token)

lemma heldRow_eq_some {identity : JobIdentity} {token : Token} {jobs : Table JobIdentity Job}
    {job : Job} (hrow : jobs.get? identity = some job) (hheld : job.heldBy token = true) :
    heldRow identity token jobs = some job := by
  simp [heldRow, hrow, Option.filter_some, hheld]

/-- `expire_ambiguous_leases`: a lease that is over cannot tell whether the request was sent. -/
def expireAmbiguousLeases (now : Time) (jobs : Table JobIdentity Job) : Table JobIdentity Job :=
  jobs.updateWhere (fun _ job => job.status = .leased && job.leaseUntil.any (· ≤ now))
    fun _ job => job.expire

/-- The jobs that can be claimed, in the order in which they are, without those that another
    transaction has locked. -/
def readyJobs (now : Time) (locked : List JobIdentity) (jobs : Table JobIdentity Job) :
    List JobIdentity :=
  let ready := jobs.rows.filter fun row =>
    row.2.status ∈ requeueableStatuses && row.2.availableAt ≤ now && row.1 ∉ locked
  (ready.insertionSort fun a b =>
    toLex (a.2.availableAt, a.2.id) ≤ toLex (b.2.availableAt, b.2.id)).map Prod.fst

/-- The source of lease tokens: `uuid4` does not repeat. -/
structure TokenSource where
  uuid4 : ℕ → Token
  distinct : Function.Injective uuid4

/-! ### Processing a claim -/

/-- The item's hash as last read is the hash of the job. -/
def jobIsCurrent (settings : ModerationSettings) (currentHash : Option SourceHash)
    (job : JobIdentity) : Bool :=
  currentHash = some job.sourceDataHash && job.questionRevision = settings.questionRevision

/-- The state builder now yields another hash for the item. -/
def sourceHashIsOutdated (freshHash : Option SourceHash) (job : JobIdentity) : Bool :=
  freshHash.any (· ≠ job.sourceDataHash)

def ClaimPhase.finish {μ : Type} (status : FinalStatus) (code : String) (result : ClaimResult) :
    ClaimPhase μ :=
  .finishing status code result .fenced

/-- What `process_claim` does with the outcome of a call for a job that is still current. -/
def afterCurrentCall {μ : Type} (config : WorkerConfig) (job : JobIdentity) (attempts : ℕ)
    (outcome : ClassifierOutcome) : ClaimPhase μ :=
  match outcome with
  | .skipped code =>
    if code = "moderation_disabled" then
      .schedulingRetry code (min config.maxBackoffSeconds (max 1 config.baseBackoffSeconds))
    else .finish .failed code .failed
  | .unavailable code =>
    if code ∈ retryableFailures then .schedulingRetry code (retryDelaySeconds config attempts)
    else .finish .outcomeUnknown (safeErrorCode code) .outcomeUnknown
  | .judgment key row =>
    if row.status = .complete ∧ key.sourceDataHash = job.sourceDataHash
        ∧ key.contentItem = job.contentItem then
      .finish .done "" .done
    else .finish .outcomeUnknown "invalid_classifier_result" .outcomeUnknown

/-- `process_claim` from the source refresh after the call on. -/
def afterCall {μ : Type} (settings : ModerationSettings) (config : WorkerConfig)
    (currentHash : Option SourceHash) (job : JobIdentity) (attempts : ℕ)
    (outcome : ClassifierOutcome) : ClaimPhase μ :=
  if jobIsCurrent settings currentHash job then afterCurrentCall config job attempts outcome
  else .finish .superseded "" .superseded

/-- The call ended without telling whether the provider has done the work. -/
def ClassifierOutcome.isAmbiguous : ClassifierOutcome → Bool
  | .unavailable code => code ∉ retryableFailures
  | _ => false

/-- Outcomes for which the worker schedules another call. -/
def ClassifierOutcome.isRetried : ClassifierOutcome → Bool
  | .unavailable code => code ∈ retryableFailures
  | .skipped code => code = "moderation_disabled"
  | .judgment _ _ => false

end Denn
