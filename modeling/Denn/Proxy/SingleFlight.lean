import Denn.Core.Table
import Denn.Core.Transition
import Mathlib.Logic.Function.Basic

/-!
# Single flights

`singleflight` of the homepage and of the browse handler. The first caller of a key registers a call
and starts its computation, and the callers that find it registered wait for it; each of them leaves
when its own context ends. The registration, the computation, the signal that it is done and the
removal from the map are steps of their own. A call is named by the caller that has made it.
-/

namespace Denn.Proxy

open Denn.Core

variable {ι ρ ε : Type}

/-- What `singleflight` returns; no payload is `nil`. -/
structure Answer (ρ ε : Type) where
  payload : Option ρ
  err : Option ε
  deriving DecidableEq

/-! ### Calls and callers -/

inductive CallPhase where
  /-- In the map, and not yet running. -/
  | registered
  | running
  /-- `fn` has returned. -/
  | finished
  /-- `done` is closed. -/
  | closed
  | removed
  deriving DecidableEq

/-- The times are kept for the statements only: when the call was registered, when its computation
    finished, and when it was removed from the map. -/
structure FlightCall (ρ ε : Type) where
  key : String
  phase : CallPhase := .registered
  answer : Option (Answer ρ ε) := none
  registeredAt : ℕ
  finishedAt : Option ℕ := none
  removedAt : Option ℕ := none

/-- The call is in the map at the time. -/
def FlightCall.registeredDuring (call : FlightCall ρ ε) (time : ℕ) : Prop :=
  call.registeredAt ≤ time ∧ ∀ removedAt, call.removedAt = some removedAt → time < removedAt

inductive CallerPhase (ι ρ ε : Type) where
  /-- The caller has registered a call, and has not started it. -/
  | registered
  | waiting (call : ι)
  | returned (answer : Answer ρ ε)

/-- `arrivedAt` is kept for the statements only. -/
structure FlightCaller (ι ρ ε : Type) where
  key : String
  contextErr : Option ε := none
  phase : CallerPhase ι ρ ε
  arrivedAt : ℕ

/-- What the caller has got. -/
def FlightCaller.answer (caller : FlightCaller ι ρ ε) : Option (Answer ρ ε) :=
  match caller.phase with
  | .returned answer => some answer
  | _ => none

/-! ### The handler -/

/-- The clock counts the steps. -/
structure FlightState (ι ρ ε : Type) where
  clock : ℕ := 0
  flights : Table String ι := .empty
  calls : ι → Option (FlightCall ρ ε) := fun _ => none
  callers : ι → Option (FlightCaller ι ρ ε) := fun _ => none

inductive FlightEvent (ι ρ ε : Type) where
  /-- A caller joins the call that it finds under the key, or registers one. -/
  | enter (caller : ι) (key : String)
  /-- The goroutine of a registered call starts. -/
  | spawn (caller : ι)
  /-- The caller's context ends. -/
  | contextEnds (caller : ι) (err : ε)
  /-- The caller gets the answer of the call that it waits for. -/
  | receive (caller : ι)
  /-- The caller leaves with the error of its context. -/
  | leave (caller : ι)
  | finish (call : ι) (answer : Answer ρ ε)
  | closeDone (call : ι)
  /-- `delete(h.flights, key)`. -/
  | remove (call : ι)

/-- A step of a goroutine after its computation. -/
def FlightEvent.isCleanup : FlightEvent ι ρ ε → Bool
  | .closeDone _ | .remove _ => true
  | _ => false

namespace FlightState

variable [DecidableEq ι]

def setCall (s : FlightState ι ρ ε) (c : ι) (call : FlightCall ρ ε) : FlightState ι ρ ε :=
  { s with clock := s.clock + 1, calls := Function.update s.calls c (some call) }

def setCaller (s : FlightState ι ρ ε) (c : ι) (caller : FlightCaller ι ρ ε) : FlightState ι ρ ε :=
  { s with clock := s.clock + 1, callers := Function.update s.callers c (some caller) }

/-- The critical section at the beginning. -/
def enter (s : FlightState ι ρ ε) (c : ι) (key : String) : FlightState ι ρ ε :=
  match s.flights.get? key with
  | some existing => s.setCaller c { key, phase := .waiting existing, arrivedAt := s.clock }
  | none =>
    { s.setCaller c { key, phase := .registered, arrivedAt := s.clock } with
      flights := s.flights.set key c
      calls := Function.update s.calls c (some { key, registeredAt := s.clock }) }

def call? (s : FlightState ι ρ ε) (c : ι) (phase : CallPhase) : Option (FlightCall ρ ε) :=
  (s.calls c).filter (·.phase = phase)

def step (s : FlightState ι ρ ε) : FlightEvent ι ρ ε → Option (FlightState ι ρ ε)
  | .enter c key => if (s.callers c).isSome then none else some (s.enter c key)
  | .spawn c =>
    match s.callers c with
    | some caller =>
      match caller.phase with
      | .registered => (s.call? c .registered).map fun call =>
        { s.setCall c { call with phase := .running } with
          callers := Function.update s.callers c (some { caller with phase := .waiting c }) }
      | _ => none
    | none => none
  | .contextEnds c err => (s.callers c).map fun caller =>
    s.setCaller c { caller with contextErr := some (caller.contextErr.getD err) }
  | .receive c =>
    match s.callers c with
    | some caller =>
      match caller.phase with
      | .waiting f =>
        match s.calls f with
        | some call =>
          if call.phase = .closed ∨ call.phase = .removed then
            call.answer.map fun answer => s.setCaller c { caller with phase := .returned answer }
          else none
        | none => none
      | _ => none
    | none => none
  | .leave c =>
    match s.callers c with
    | some caller =>
      match caller.phase with
      | .waiting _ => caller.contextErr.map fun err =>
        s.setCaller c { caller with phase := .returned ⟨none, some err⟩ }
      | _ => none
    | none => none
  | .finish c answer => (s.call? c .running).map fun call =>
    s.setCall c
      { call with phase := .finished, answer := some answer, finishedAt := some s.clock }
  | .closeDone c => (s.call? c .finished).map fun call => s.setCall c { call with phase := .closed }
  | .remove c => (s.call? c .closed).map fun call =>
    { s.setCall c { call with phase := .removed, removedAt := some s.clock } with
      flights := s.flights.delete call.key }

end FlightState

/-- A handler starts without flights. -/
def flightSystem (ι ρ ε : Type) [DecidableEq ι] :
    TransitionSystem (FlightState ι ρ ε) (FlightEvent ι ρ ε) where
  initial s := s = {}
  step s event := s.step event

end Denn.Proxy
