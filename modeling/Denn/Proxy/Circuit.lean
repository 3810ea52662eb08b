import Denn.Core.Transition
import Denn.Proxy.ProviderToken

/-!
# The circuit of a client

Every client of a provider counts the requests that failed one after the other. At the threshold its
circuit opens, and the requests that begin until the cooldown is over are rejected. The requests of a
client overlap: the check at the beginning of a request, each of its calls and the accounting at its
end are steps of their own. Times are numbers of nanoseconds.
-/

namespace Denn.Proxy

open Denn.Core

def circuitThreshold : ℕ := 3

def circuitCooldown : ℤ := 30 * second

/-! ### Errors -/

inductive ContextError where
  | canceled
  | deadlineExceeded
  deriving DecidableEq

/-- The errors that others wrap. -/
inductive Sentinel where
  | timeout
  | connection
  | notJSON
  | rateLimit
  | providerAuth
  | serverError
  | upstreamExhausted
  | circuitOpen
  | context (err : ContextError)
  /-- An error of the transport, of the marshalling or of a malformed request. -/
  | other
  deriving DecidableEq

/-- An error as the errors that `errors.Is` finds in it. -/
abbrev RequestError := List Sentinel

/-- `classifyContextErr`. -/
def classifyContextErr (err : ContextError) : RequestError := [.timeout, .context err]

/-- The failures that count. -/
def RequestError.transientFailure (err : RequestError) : Bool :=
  .timeout ∈ err || .connection ∈ err || .serverError ∈ err || .rateLimit ∈ err
    || .upstreamExhausted ∈ err

/-- The caller itself has ended its request. -/
def RequestError.isCanceled (err : RequestError) : Bool := .context .canceled ∈ err

/-- The upstream was late, not reached, answered 429 or 5xx, and the caller did not end the request. -/
def RequestError.isUpstreamFailure (err : RequestError) : Bool :=
  (.timeout ∈ err || .connection ∈ err || .rateLimit ∈ err || .serverError ∈ err)
    && !err.isCanceled

/-! ### The circuit -/

structure Circuit where
  failures : ℕ := 0
  openUntil : Option ℤ := none
  deriving DecidableEq

namespace Circuit

def isOpen (circuit : Circuit) (now : ℤ) : Bool := circuit.openUntil.any (now ≤ ·)

/-- The deadline has passed, and no request has begun since. -/
def hasLapsed (circuit : Circuit) (now : ℤ) : Bool := circuit.openUntil.any (· < now)

/-- The circuit after the check of `circuitError`. -/
def check (circuit : Circuit) (now : ℤ) : Circuit :=
  match circuit.openUntil with
  | none => circuit
  | some openUntil => if openUntil < now then {} else circuit

def circuitError (circuit : Circuit) (now : ℤ) : Option RequestError :=
  match circuit.openUntil with
  | none => none
  | some openUntil => if openUntil < now then none else some [.circuitOpen]

def recordTransientFailure (circuit : Circuit) (now : ℤ) : Circuit where
  failures := circuit.failures + 1
  openUntil :=
    if circuitThreshold ≤ circuit.failures + 1 then some (now + circuitCooldown)
    else circuit.openUntil

/-- The deferred accounting of a request that has ended with the error, or without one. -/
def account (circuit : Circuit) (now : ℤ) : Option RequestError → Circuit
  | none => {}
  | some err => if err.transientFailure then circuit.recordTransientFailure now else circuit

end Circuit

/-! ### Requests -/

inductive RequestPhase where
  | running
  | returned (err : Option RequestError)
  | recorded
  deriving DecidableEq

/-- `beganOpen` is kept for the statements only: the circuit was open when the request began. -/
structure ClientRequest where
  beganOpen : Bool
  contextErr : Option ContextError := none
  attempts : ℕ := 0
  phase : RequestPhase := .running
  deriving DecidableEq

/-- How a call of the transport ends. -/
inductive CallOutcome where
  | doFails
  /-- The body cannot be read, possibly because the context is over. -/
  | readFails (byContext : Bool)
  | response (statusCode : ℕ) (isJSON : Bool)

namespace ClientRequest

def returning (request : ClientRequest) (err : Option RequestError) : ClientRequest :=
  { request with phase := .returned err }

/-- The next attempt, or the error of the exhausted retries. Every attempt sets both the class and the
    error anew, so that those of the last one are wrapped. -/
def retry (request : ClientRequest) (maxRetries : ℕ) (classified : Sentinel) (err : RequestError) :
    ClientRequest :=
  if request.attempts ≤ maxRetries then request
  else request.returning (some (.upstreamExhausted :: classified :: err))

/-- What the request makes of a call. -/
def conclude (request : ClientRequest) (maxRetries : ℕ) (outcome : CallOutcome) : ClientRequest :=
  match outcome with
  | .doFails =>
    match request.contextErr with
    | some err => request.returning (some (classifyContextErr err))
    | none => request.retry maxRetries .connection [.other]
  | .readFails byContext =>
    match request.contextErr, byContext with
    | some err, true => request.retry maxRetries .connection [.connection, .context err]
    | _, _ => request.retry maxRetries .connection [.connection, .other]
  | .response statusCode isJSON =>
    if statusCode = 429 then request.retry maxRetries .rateLimit []
    else if 500 ≤ statusCode && statusCode < 600 then request.retry maxRetries .serverError []
    else if isJSON then request.returning none
    else request.returning (some [.notJSON])

/-- An attempt that calls the transport. -/
def attempt (request : ClientRequest) (maxRetries : ℕ) (outcome : CallOutcome) : ClientRequest :=
  { request with attempts := request.attempts + 1 }.conclude maxRetries outcome

end ClientRequest

/-! ### The client -/

/-- `upstreamFailures` and `lastFailureAt` are kept for the statements only: how many requests the
    upstream has failed since the last success or the last closing, and when a failure was last
    counted. -/
structure ClientState (ι : Type) where
  now : ℤ := 0
  circuit : Circuit := {}
  requests : ι → Option ClientRequest := fun _ => none
  upstreamFailures : ℕ := 0
  lastFailureAt : Option ℤ := none

inductive ClientEvent (ι : Type) where
  | tick (duration : ℕ)
  | begin (request : ι)
  /-- The caller cancels, or a deadline passes. -/
  | contextEnds (request : ι) (err : ContextError)
  /-- The body cannot be marshalled, or the request cannot be created. -/
  | malformed (request : ι)
  | attempt (request : ι) (outcome : CallOutcome)
  /-- The context ends a backoff. -/
  | interrupt (request : ι)
  | record (request : ι)

/-- The request that takes the step. -/
def ClientEvent.request {ι : Type} : ClientEvent ι → Option ι
  | .tick _ => none
  | .begin r | .contextEnds r _ | .malformed r | .attempt r _ | .interrupt r | .record r => some r

namespace ClientState

variable {ι : Type} [DecidableEq ι]

def isOpen (s : ClientState ι) : Bool := s.circuit.isOpen s.now

def setRequest (s : ClientState ι) (r : ι) (request : ClientRequest) : ClientState ι :=
  { s with requests := Function.update s.requests r (some request) }

/-- A request that the circuit lets through, or else an error. -/
def beginRequest (s : ClientState ι) : ClientRequest where
  beganOpen := s.isOpen
  phase :=
    match s.circuit.circuitError s.now with
    | none => .running
    | some err => .returned (some err)

/-- The clock goes on, and may close the circuit. -/
def tick (s : ClientState ι) (duration : ℕ) : ClientState ι :=
  let now := s.now + duration
  { s with
    now
    upstreamFailures := if s.isOpen && !s.circuit.isOpen now then 0 else s.upstreamFailures }

def countUpstreamFailure (s : ClientState ι) : Option RequestError → ℕ
  | none => 0
  | some err => if err.isUpstreamFailure then s.upstreamFailures + 1 else s.upstreamFailures

/-- The accounting of a request that has returned. -/
def record (s : ClientState ι) (r : ι) (request : ClientRequest) (err : Option RequestError) :
    ClientState ι :=
  { s.setRequest r { request with phase := .recorded } with
    circuit := s.circuit.account s.now err
    upstreamFailures := s.countUpstreamFailure err
    lastFailureAt := if err.any (·.transientFailure) then some s.now else s.lastFailureAt }

/-- The request while it runs. -/
def running (s : ClientState ι) (r : ι) : Option ClientRequest :=
  (s.requests r).filter (·.phase = .running)

def step (maxRetries : ℕ) (s : ClientState ι) : ClientEvent ι → Option (ClientState ι)
  | .tick duration => some (s.tick duration)
  | .begin r =>
    if s.requests r = none then
      some { s.setRequest r s.beginRequest with circuit := s.circuit.check s.now }
    else none
  | .contextEnds r err =>
    (s.running r).map fun request =>
      s.setRequest r { request with contextErr := some (request.contextErr.getD err) }
  | .malformed r => (s.running r).map fun request => s.setRequest r (request.returning (some [.other]))
  | .attempt r outcome =>
    (s.running r).map fun request => s.setRequest r (request.attempt maxRetries outcome)
  | .interrupt r =>
    match s.running r with
    | some request =>
      if request.attempts = 0 then none
      else request.contextErr.map fun err =>
        s.setRequest r (request.returning (some (classifyContextErr err)))
    | none => none
  | .record r =>
    match s.requests r with
    | some request =>
      match request.phase with
      | .returned err => some (s.record r request err)
      | _ => none
    | none => none

end ClientState

/-- A client starts with a closed circuit and without requests. -/
def clientSystem (ι : Type) [DecidableEq ι] (maxRetries : ℕ) :
    TransitionSystem (ClientState ι) (ClientEvent ι) where
  initial s := s = {}
  step s event := s.step maxRetries event

end Denn.Proxy
