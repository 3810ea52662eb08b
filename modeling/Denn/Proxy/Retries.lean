import Denn.Core.GoInt
import Denn.Proxy.CacheKey
import Denn.Proxy.Circuit

/-!
# The retries of a request

A request to a provider calls the transport until an answer is final, the context ends, or the retries
are exhausted. It waits before every retry, as long as the answer before asked for or else for a random
time below a backoff that doubles. Times are numbers of nanoseconds.
-/

namespace Denn.Proxy

open Denn.Core

/-! ### Waits -/

/-- The difference of two times, which saturates. -/
def timeUntil (time now : ℤ) : ℤ := max (-maxInt - 1) (min (time - now) maxInt)

/-- A duration that is not above the cap. -/
def capped (duration maxBackoff : ℤ) : ℤ :=
  if 0 < maxBackoff ∧ maxBackoff < duration then maxBackoff else duration

/-- The seconds of a header that holds a number of them. -/
def retrySeconds (value : String) : Option ℤ :=
  (atoi? (CacheKey.trimSpace value)).filter (0 ≤ ·)

/-- `parseRetryAfter`. The parser of dates is the one of the library. -/
def parseRetryAfter (parseTime : String → Option ℤ) (now : ℤ) (value : String) (maxBackoff : ℤ) : ℤ :=
  if value = "" then 0
  else
    match retrySeconds value with
    | some secs => capped (wrap (secs * second)) maxBackoff
    | none =>
      match parseTime value with
      | some time =>
        if timeUntil time now ≤ 0 then 0 else capped (timeUntil time now) maxBackoff
      | none => 0

structure RetryConfig where
  maxRetries : ℤ
  initialBackoff : ℤ
  maxBackoff : ℤ

/-! ### Calls -/

/-- Why the body of a response could not be read. -/
inductive ReadFailure where
  | clientTimeout
  | context (err : ContextError)
  | other
  deriving DecidableEq

inductive TransportOutcome where
  | response (statusCode : ℕ) (retryAfter : String) (isJSON : Bool)
  /-- `Do` fails while the context holds, because a timeout of the transport is over or otherwise. -/
  | doFails (timeout : Bool)
  | readFails (cause : ReadFailure)
  /-- The context ends, in the wait before the call if there is one, or in the call. -/
  | contextEnds (err : ContextError) (inWait : Bool)
  deriving DecidableEq

/-- What an attempt meets: the draw for its wait, the end of its call, and the time of that. -/
structure Attempt where
  draw : ℕ
  outcome : TransportOutcome
  now : ℤ

/-- The variable `err` of the loop. -/
inductive CallError where
  | url (timeout : Bool)
  | read (cause : ReadFailure)
  deriving DecidableEq

def CallError.wrapped : CallError → RequestError
  | .url _ => [.other]
  | .read (.context err) => [.connection, .context err]
  | .read _ => [.connection, .other]

/-- `errors.As` finds a `url.Error` that is a timeout. -/
def CallError.isURLTimeout : CallError → Bool
  | .url timeout => timeout
  | .read _ => false

/-- The variables of the loop. -/
structure RetryState where
  err : Option CallError := none
  lastClassified : Option Sentinel := none
  lastRetryAfter : ℤ := 0
  nextBackoff : ℤ
  deriving DecidableEq

namespace RetryState

/-- The error after the loop. -/
def exhausted (state : RetryState) : RequestError :=
  match state.lastClassified, state.err with
  | some classified, some err => .upstreamExhausted :: classified :: err.wrapped
  | some classified, none => [.upstreamExhausted, classified]
  | none, some err =>
    if err.isURLTimeout then .timeout :: err.wrapped
    else .upstreamExhausted :: .connection :: err.wrapped
  | none, none => [.upstreamExhausted, .connection]

/-- The wait that is due after the attempts so far. -/
def wait (state : RetryState) (draw : ℕ) : ℤ :=
  if state.lastRetryAfter ≤ 0 ∧ 0 < state.nextBackoff then draw % state.nextBackoff
  else state.lastRetryAfter

/-- The timer that is set before an attempt, if one is. -/
def timer (state : RetryState) (attempt draw : ℕ) : Option ℤ :=
  if attempt ≠ 0 ∧ 0 < state.wait draw then some (state.wait draw) else none

/-- The state when the wait is over. -/
def waited (state : RetryState) (maxBackoff : ℤ) : RetryState :=
  { state with
    lastRetryAfter := 0
    nextBackoff :=
      if 0 < state.nextBackoff then min (wrap (state.nextBackoff * 2)) maxBackoff
      else state.nextBackoff }

/-- The state at the call of an attempt. -/
def atCall (state : RetryState) (attempt : ℕ) (maxBackoff : ℤ) : RetryState :=
  if attempt = 0 then state else state.waited maxBackoff

/-- What the loop makes of a call: the result of the request, or the state of the next turn. -/
def call (state : RetryState) (hint : String → ℤ) :
    TransportOutcome → Except RequestError ℕ ⊕ RetryState
  | .contextEnds err _ => .inl (.error (classifyContextErr err))
  | .doFails timeout =>
    .inr { state with err := some (.url timeout), lastClassified := some .connection }
  | .readFails cause =>
    .inr { state with err := some (.read cause), lastClassified := some .connection }
  | .response statusCode retryAfter isJSON =>
    if statusCode = 429 then
      .inr { state with
        err := none, lastClassified := some .rateLimit, lastRetryAfter := hint retryAfter }
    else if 500 ≤ statusCode && statusCode < 600 then
      .inr { state with
        err := none, lastClassified := some .serverError, lastRetryAfter := hint retryAfter }
    else if isJSON then .inl (.ok statusCode)
    else .inl (.error [.notJSON])

end RetryState

/-- A request: its calls of the transport, its waits and its result. -/
structure RequestRun where
  calls : List TransportOutcome
  waits : List ℤ
  result : Except RequestError ℕ
  deriving DecidableEq

/-- What a request begins with: the circuit of its client at a time, whether the body can be marshalled,
    and whether the method and the address make a request. -/
structure RequestStart where
  circuit : Circuit
  now : ℤ
  marshals : Bool
  wellFormed : Bool

/-- The context ends before the call. -/
def TransportOutcome.waitError : TransportOutcome → Option ContextError
  | .contextEnds err true => some err
  | _ => none

section

variable (parseTime : String → Option ℤ) (config : RetryConfig) (wellFormed : Bool)
  (attempts : ℕ → Attempt)

/-- The loop from an attempt on, with the number of attempts that are left. -/
def requestLoop : ℕ → ℕ → RetryState → RequestRun
  | 0, _, state => ⟨[], [], .error state.exhausted⟩
  | remaining + 1, attempt, state =>
    let meets := attempts attempt
    let timer := state.timer attempt meets.draw
    match timer.bind fun _ => meets.outcome.waitError with
    | some err => ⟨[], timer.toList, .error (classifyContextErr err)⟩
    | none =>
      if wellFormed then
        match (state.atCall attempt config.maxBackoff).call
            (parseRetryAfter parseTime meets.now · config.maxBackoff) meets.outcome with
        | .inl result => ⟨[meets.outcome], timer.toList, result⟩
        | .inr next =>
          let run := requestLoop remaining (attempt + 1) next
          ⟨meets.outcome :: run.calls, timer.toList ++ run.waits, run.result⟩
      else ⟨[], timer.toList, .error [.other]⟩

end

/-- `Request`. The counter of the attempts does not get to the largest integer. -/
def request (parseTime : String → Option ℤ) (config : RetryConfig) (start : RequestStart)
    (attempts : ℕ → Attempt) : RequestRun :=
  match start.circuit.circuitError start.now with
  | some err => ⟨[], [], .error err⟩
  | none =>
    if start.marshals then
      requestLoop parseTime config start.wellFormed attempts (config.maxRetries + 1).toNat 0
        { nextBackoff := config.initialBackoff }
    else ⟨[], [], .error [.other]⟩

/-! ### The classes of outcomes -/

namespace TransportOutcome

/-- The request goes on, if it has attempts left. -/
def isRetried : TransportOutcome → Bool
  | .response statusCode _ _ => statusCode = 429 || (500 ≤ statusCode && statusCode < 600)
  | .doFails _ | .readFails _ => true
  | .contextEnds _ _ => false

/-- A response that is neither 429 nor 5xx. -/
def isFinal : TransportOutcome → Bool
  | .response statusCode _ _ => !(statusCode = 429 || (500 ≤ statusCode && statusCode < 600))
  | _ => false

/-- The attempt fails because it takes too long. -/
def timesOut : TransportOutcome → Bool
  | .doFails timeout => timeout
  | .readFails .clientTimeout | .readFails (.context .deadlineExceeded) => true
  | _ => false

/-- The class of the error that a failed attempt stands for. -/
def failureClass (outcome : TransportOutcome) : Sentinel :=
  match outcome with
  | .response statusCode _ _ => if statusCode = 429 then .rateLimit else .serverError
  | _ => if outcome.timesOut then .timeout else .connection

end TransportOutcome

/-- The request gets to its first call. -/
def RequestStart.LetsThrough (start : RequestStart) : Prop :=
  start.circuit.circuitError start.now = none ∧ start.marshals ∧ start.wellFormed

/-- Every attempt that the retries allow is one to retry. -/
def GivesUp (config : RetryConfig) (start : RequestStart) (attempts : ℕ → Attempt) : Prop :=
  start.LetsThrough ∧ ∀ k : ℕ, (k : ℤ) ≤ config.maxRetries → (attempts k).outcome.isRetried

/-- What a request is to do: it calls the transport as often as the retries allow, the call with the
    first final response is the last, and the error after the last attempt tells its class. -/
structure Classified (config : RetryConfig) (start : RequestStart) (attempts : ℕ → Attempt)
    (run : RequestRun) : Prop where
  calls_le : (run.calls.length : ℤ) ≤ config.maxRetries + 1
  calls_eq : run.calls = (List.range run.calls.length).map fun k => (attempts k).outcome
  final : start.LetsThrough → ∀ k : ℕ, (k : ℤ) ≤ config.maxRetries →
    (∀ j < k, (attempts j).outcome.isRetried) → (attempts k).outcome.isFinal →
    run.calls.length = k + 1
  exhausted : GivesUp config start attempts → ∃ err, run.result = .error err ∧
    .upstreamExhausted ∈ err ∧ (attempts config.maxRetries.toNat).outcome.failureClass ∈ err

variable {parseTime : String → Option ℤ} {config : RetryConfig} {start : RequestStart}
  {attempts : ℕ → Attempt} {wellFormed : Bool} {remaining attempt : ℕ} {state : RetryState}

namespace RetryState

/-- The variables hold what the last attempt was. -/
structure Last (outcome : TransportOutcome) (state : RetryState) : Prop where
  err : state.err = match outcome with
    | .doFails timeout => some (.url timeout)
    | .readFails cause => some (.read cause)
    | _ => none
  lastClassified : state.lastClassified = match outcome with
    | .response statusCode _ _ => some (if statusCode = 429 then .rateLimit else .serverError)
    | _ => some .connection

lemma call_of_isRetried {outcome : TransportOutcome} (hint : String → ℤ)
    (hretried : outcome.isRetried) : ∃ next, state.call hint outcome = .inr next ∧ Last outcome next := by
  cases outcome with
  | response statusCode retryAfter isJSON =>
    simp only [TransportOutcome.isRetried, Bool.or_eq_true, decide_eq_true_eq] at hretried
    by_cases hlimit : statusCode = 429
    · rw [call, if_pos hlimit]
      exact ⟨_, rfl, rfl, by simp [hlimit]⟩
    · rw [call, if_neg hlimit, if_pos (hretried.resolve_left hlimit)]
      exact ⟨_, rfl, rfl, by simp [hlimit]⟩
  | doFails timeout => exact ⟨_, rfl, rfl, rfl⟩
  | readFails cause => exact ⟨_, rfl, rfl, rfl⟩
  | contextEnds err inWait => exact absurd hretried Bool.false_ne_true

lemma call_of_not_isRetried {outcome : TransportOutcome} (hint : String → ℤ)
    (hretried : ¬ outcome.isRetried) : ∃ result, state.call hint outcome = .inl result := by
  cases outcome with
  | response statusCode retryAfter isJSON =>
    simp only [TransportOutcome.isRetried, Bool.or_eq_true, decide_eq_true_eq, not_or] at hretried
    rw [call, if_neg hretried.1, if_neg hretried.2]
    split_ifs
    · exact ⟨_, rfl⟩
    · exact ⟨_, rfl⟩
  | doFails timeout => exact absurd rfl hretried
  | readFails cause => exact absurd rfl hretried
  | contextEnds err inWait => exact ⟨_, rfl⟩

/-- The error after the loop has the class of the last attempt unless that one timed out. -/
lemma failureClass_mem_exhausted {outcome : TransportOutcome} (hlast : Last outcome state)
    (hretried : outcome.isRetried) :
    .upstreamExhausted ∈ state.exhausted ∧
      (outcome.failureClass ∈ state.exhausted ↔ ¬ outcome.timesOut) := by
  rw [exhausted, hlast.err, hlast.lastClassified]
  cases outcome with
  | response statusCode retryAfter isJSON =>
    simp [TransportOutcome.failureClass, TransportOutcome.timesOut]
  | doFails timeout =>
    cases timeout <;> simp [TransportOutcome.failureClass, TransportOutcome.timesOut,
      CallError.wrapped]
  | readFails cause =>
    cases cause with
    | clientTimeout =>
      simp [TransportOutcome.failureClass, TransportOutcome.timesOut, CallError.wrapped]
    | context err =>
      cases err <;> simp [TransportOutcome.failureClass, TransportOutcome.timesOut,
        CallError.wrapped]
    | other => simp [TransportOutcome.failureClass, TransportOutcome.timesOut, CallError.wrapped]
  | contextEnds err inWait => exact absurd hretried Bool.false_ne_true

end RetryState

/-! ### The loop -/

/-- An attempt that is to be retried is followed by the rest of the loop. -/
lemma requestLoop_of_isRetried (parseTime : String → Option ℤ) (config : RetryConfig)
    (remaining : ℕ) (state : RetryState) (hretried : (attempts attempt).outcome.isRetried) :
    ∃ next, RetryState.Last (attempts attempt).outcome next ∧
      requestLoop parseTime config true attempts (remaining + 1) attempt state =
        ⟨(attempts attempt).outcome ::
            (requestLoop parseTime config true attempts remaining (attempt + 1) next).calls,
          (state.timer attempt (attempts attempt).draw).toList ++
            (requestLoop parseTime config true attempts remaining (attempt + 1) next).waits,
          (requestLoop parseTime config true attempts remaining (attempt + 1) next).result⟩ := by
  obtain ⟨next, hcall, hlast⟩ :=
    (state.atCall attempt config.maxBackoff).call_of_isRetried
      (parseRetryAfter parseTime (attempts attempt).now · config.maxBackoff) hretried
  have hwait : (attempts attempt).outcome.waitError = none := by
    cases houtcome : (attempts attempt).outcome with
    | contextEnds err inWait =>
      rw [houtcome] at hretried
      exact absurd hretried Bool.false_ne_true
    | _ => rfl
  refine ⟨next, hlast, ?_⟩
  rw [requestLoop]
  simp only [hwait, hcall, Option.bind_fun_none, if_true]

/-- Any other attempt is the last, and calls the transport if its wait is not ended. -/
lemma requestLoop_of_not_isRetried (hretried : ¬ (attempts attempt).outcome.isRetried) :
    (requestLoop parseTime config true attempts (remaining + 1) attempt state).calls =
      if (state.timer attempt (attempts attempt).draw).isSome ∧
        (attempts attempt).outcome.waitError.isSome then [] else [(attempts attempt).outcome] := by
  obtain ⟨result, hcall⟩ :=
    (state.atCall attempt config.maxBackoff).call_of_not_isRetried
      (parseRetryAfter parseTime (attempts attempt).now · config.maxBackoff) hretried
  rw [requestLoop]
  cases htimer : state.timer attempt (attempts attempt).draw with
  | none => simp [hcall]
  | some wait =>
    cases herror : (attempts attempt).outcome.waitError with
    | none => simp [hcall]
    | some err => simp

/-- A request that cannot be created calls nothing. -/
lemma calls_requestLoop_false (remaining attempt : ℕ) (state : RetryState) :
    (requestLoop parseTime config false attempts remaining attempt state).calls = [] := by
  cases remaining with
  | zero => rfl
  | succ remaining =>
    rw [requestLoop]
    simp only [Bool.false_eq_true, if_false]
    split <;> rfl

/-- The calls are the outcomes in their order, at most as many as attempts are left. -/
lemma calls_requestLoop (parseTime : String → Option ℤ) (config : RetryConfig)
    (attempts : ℕ → Attempt) (remaining attempt : ℕ) (state : RetryState) :
    ∃ n ≤ remaining,
      (requestLoop parseTime config true attempts remaining attempt state).calls =
        (List.range' attempt n).map fun k => (attempts k).outcome := by
  induction remaining generalizing attempt state with
  | zero => exact ⟨0, le_rfl, rfl⟩
  | succ remaining ih =>
    by_cases hretried : (attempts attempt).outcome.isRetried
    · obtain ⟨next, -, hloop⟩ :=
        requestLoop_of_isRetried parseTime config remaining state hretried
      obtain ⟨n, hn, hcalls⟩ := ih (attempt + 1) next
      refine ⟨n + 1, Nat.succ_le_succ hn, ?_⟩
      rw [hloop, hcalls, List.range'_succ, List.map_cons]
    · rw [requestLoop_of_not_isRetried hretried]
      split_ifs
      · exact ⟨0, Nat.zero_le _, rfl⟩
      · exact ⟨1, Nat.succ_le_succ (Nat.zero_le _), rfl⟩

/-- The call with the first final response is the last. -/
lemma length_calls_of_isFinal (parseTime : String → Option ℤ) (config : RetryConfig) {k : ℕ}
    (hk : k < remaining) (hretried : ∀ j < k, (attempts (attempt + j)).outcome.isRetried)
    (hfinal : (attempts (attempt + k)).outcome.isFinal) (state : RetryState) :
    (requestLoop parseTime config true attempts remaining attempt state).calls.length = k + 1 := by
  induction k generalizing remaining attempt state with
  | zero =>
    obtain ⟨remaining, rfl⟩ := Nat.exists_eq_succ_of_ne_zero (Nat.ne_of_gt hk)
    rw [Nat.add_zero] at hfinal
    have houtcome : ¬ (attempts attempt).outcome.isRetried ∧
        (attempts attempt).outcome.waitError = none := by
      cases houtcome : (attempts attempt).outcome with
      | response statusCode retryAfter isJSON =>
        rw [houtcome, TransportOutcome.isFinal, Bool.not_eq_true'] at hfinal
        rw [TransportOutcome.isRetried, hfinal]
        exact ⟨Bool.false_ne_true, rfl⟩
      | _ =>
        rw [houtcome] at hfinal
        exact absurd hfinal Bool.false_ne_true
    rw [requestLoop_of_not_isRetried houtcome.1, houtcome.2, if_neg (by simp)]
    rfl
  | succ k ih =>
    obtain ⟨remaining, rfl⟩ := Nat.exists_eq_succ_of_ne_zero (Nat.ne_of_gt (Nat.zero_lt_of_lt hk))
    have hfirst : (attempts attempt).outcome.isRetried := hretried 0 (Nat.succ_pos k)
    obtain ⟨next, -, hloop⟩ := requestLoop_of_isRetried parseTime config remaining state hfirst
    have hnext : ∀ j < k, (attempts (attempt + 1 + j)).outcome.isRetried := by
      intro j hj
      have := hretried (j + 1) (Nat.succ_lt_succ hj)
      rwa [Nat.add_comm j 1, ← Nat.add_assoc] at this
    have hfinal' : (attempts (attempt + 1 + k)).outcome.isFinal := by
      rwa [Nat.add_assoc, Nat.add_comm 1 k]
    rw [hloop, List.length_cons, ih (Nat.lt_of_succ_lt_succ hk) hnext hfinal' next]

/-- When all attempts are retried, the error is the one after the last of them. -/
lemma result_of_forall_isRetried (parseTime : String → Option ℤ) (config : RetryConfig)
    (hretried : ∀ j ≤ remaining, (attempts (attempt + j)).outcome.isRetried) (state : RetryState) :
    ∃ last, RetryState.Last (attempts (attempt + remaining)).outcome last ∧
      (requestLoop parseTime config true attempts (remaining + 1) attempt state).result =
        .error last.exhausted := by
  induction remaining generalizing attempt state with
  | zero =>
    have hfirst : (attempts attempt).outcome.isRetried := hretried 0 le_rfl
    obtain ⟨next, hlast, hloop⟩ := requestLoop_of_isRetried parseTime config 0 state hfirst
    refine ⟨next, hlast, ?_⟩
    rw [hloop]
    rfl
  | succ remaining ih =>
    have hfirst : (attempts attempt).outcome.isRetried := hretried 0 (Nat.zero_le _)
    obtain ⟨next, -, hloop⟩ :=
      requestLoop_of_isRetried parseTime config (remaining + 1) state hfirst
    have hnext : ∀ j ≤ remaining, (attempts (attempt + 1 + j)).outcome.isRetried := by
      intro j hj
      have := hretried (j + 1) (Nat.succ_le_succ hj)
      rwa [Nat.add_comm j 1, ← Nat.add_assoc] at this
    obtain ⟨last, hlast, hresult⟩ := ih hnext next
    rw [Nat.add_assoc, Nat.add_comm 1 remaining] at hlast
    refine ⟨last, hlast, ?_⟩
    rw [hloop]
    exact hresult

/-! ### The request -/

lemma request_of_letsThrough (parseTime : String → Option ℤ) (config : RetryConfig)
    (attempts : ℕ → Attempt) (hstart : start.LetsThrough) :
    request parseTime config start attempts =
      requestLoop parseTime config true attempts (config.maxRetries + 1).toNat 0
        { nextBackoff := config.initialBackoff } := by
  obtain ⟨hcircuit, hmarshals, hformed⟩ := hstart
  rw [request, hcircuit, if_pos hmarshals, hformed]

lemma calls_request_of_not_letsThrough (parseTime : String → Option ℤ) (config : RetryConfig)
    (attempts : ℕ → Attempt) (hstart : ¬ start.LetsThrough) :
    (request parseTime config start attempts).calls = [] := by
  rw [request]
  split
  · rfl
  · rename_i hcircuit
    split_ifs with hmarshals
    · have hformed : start.wellFormed = false :=
        Bool.eq_false_iff.mpr fun hformed => hstart ⟨hcircuit, hmarshals, hformed⟩
      rw [hformed, calls_requestLoop_false]
    · rfl

/-- A request that gives up returns the error after its last attempt. -/
lemma result_of_givesUp (parseTime : String → Option ℤ) (hretries : 0 ≤ config.maxRetries)
    (hgivesUp : GivesUp config start attempts) :
    ∃ last, RetryState.Last (attempts config.maxRetries.toNat).outcome last ∧
      (request parseTime config start attempts).result = .error last.exhausted := by
  have hremaining : (config.maxRetries + 1).toNat = config.maxRetries.toNat + 1 := by omega
  have hretried : ∀ j ≤ config.maxRetries.toNat, (attempts (0 + j)).outcome.isRetried := by
    intro j hj
    rw [Nat.zero_add]
    exact hgivesUp.2 j (by omega)
  have hresult := result_of_forall_isRetried parseTime config hretried
    { nextBackoff := config.initialBackoff }
  rw [Nat.zero_add] at hresult
  rw [request_of_letsThrough parseTime config attempts hgivesUp.1, hremaining]
  exact hresult

/-- A request does what it is to do exactly if it does not give up after an attempt that timed out: the
    class of such an attempt is `ErrConnection`. -/
theorem request_classified_iff (hretries : 0 ≤ config.maxRetries) :
    Classified config start attempts (request parseTime config start attempts) ↔
      ¬ (GivesUp config start attempts ∧
        (attempts config.maxRetries.toNat).outcome.timesOut) := by
  constructor
  · rintro ⟨-, -, -, hexhausted⟩ ⟨hgivesUp, htimesOut⟩
    obtain ⟨err, hresult, -, hclass⟩ := hexhausted hgivesUp
    obtain ⟨last, hlast, hloop⟩ := result_of_givesUp parseTime hretries hgivesUp
    obtain rfl := Except.error.inj (hresult.symm.trans hloop)
    have hretried := hgivesUp.2 config.maxRetries.toNat (by omega)
    exact (RetryState.failureClass_mem_exhausted hlast hretried).2.mp hclass htimesOut
  · intro hnot
    by_cases hstart : start.LetsThrough
    · have hrequest := request_of_letsThrough parseTime config attempts hstart
      obtain ⟨n, hn, hcalls⟩ := calls_requestLoop parseTime config attempts
        (config.maxRetries + 1).toNat 0 { nextBackoff := config.initialBackoff }
      rw [← hrequest, ← List.range_eq_range'] at hcalls
      have hlength : (request parseTime config start attempts).calls.length = n := by
        rw [hcalls, List.length_map, List.length_range]
      refine ⟨by omega, by rwa [hlength], fun _ k hk hretried hfinal => ?_, fun hgivesUp => ?_⟩
      · rw [hrequest]
        refine length_calls_of_isFinal parseTime config (by omega) (fun j hj => ?_) ?_ _
        · rw [Nat.zero_add]
          exact hretried j hj
        · rwa [Nat.zero_add]
      · obtain ⟨last, hlast, hloop⟩ := result_of_givesUp parseTime hretries hgivesUp
        have hclass := RetryState.failureClass_mem_exhausted hlast
          (hgivesUp.2 config.maxRetries.toNat (by omega))
        exact ⟨last.exhausted, hloop, hclass.1, hclass.2.mpr fun htimesOut =>
          hnot ⟨hgivesUp, htimesOut⟩⟩
    · have hcalls := calls_request_of_not_letsThrough parseTime config attempts hstart
      refine ⟨?_, ?_, fun h => absurd h hstart, fun h => absurd h.1 hstart⟩
      · rw [hcalls, List.length_nil]
        omega
      · rw [hcalls]
        rfl

/-- The retries of a client that has no options. -/
def defaultRetryConfig : RetryConfig where
  maxRetries := 2
  initialBackoff := 100000000
  maxBackoff := 500000000

/-- A client whose circuit is closed. -/
def closedStart : RequestStart where
  circuit := {}
  now := 0
  marshals := true
  wellFormed := true

/-- Every attempt answers late. -/
def late : Attempt := ⟨0, .doFails true, 0⟩

theorem request_classified_notFound :
    Classified defaultRetryConfig closedStart (fun _ => ⟨0, .response 404 "" true, 0⟩)
      (request (fun _ => none) defaultRetryConfig closedStart
        fun _ => ⟨0, .response 404 "" true, 0⟩) :=
  (request_classified_iff (by decide)).mpr fun h => absurd h.2 (by decide)

theorem request_not_classified :
    ¬ Classified defaultRetryConfig closedStart (fun _ => late)
      (request (fun _ => none) defaultRetryConfig closedStart fun _ => late) := by
  intro h
  obtain ⟨err, hresult, -, hclass⟩ := h.exhausted ⟨⟨rfl, rfl, rfl⟩, fun _ _ => rfl⟩
  have herr : (request (fun _ => none) defaultRetryConfig closedStart fun _ => late).result =
      .error [.upstreamExhausted, .connection, .other] := by decide
  obtain rfl := Except.error.inj (hresult.symm.trans herr)
  exact absurd hclass (by decide)

/-! ### The length of the waits -/

variable {maxBackoff now secs : ℤ} {value : String}

lemma retrySeconds_eq_some :
    retrySeconds value = some secs ↔
      atoi? (CacheKey.trimSpace value) = some secs ∧ 0 ≤ secs := by
  rw [retrySeconds, Option.filter_eq_some_iff, decide_eq_true_eq]

lemma parseRetryAfter_of_seconds (parseTime : String → Option ℤ) (now maxBackoff : ℤ)
    (hsecs : retrySeconds value = some secs) :
    parseRetryAfter parseTime now value maxBackoff = capped (wrap (secs * second)) maxBackoff := by
  have hne : value ≠ "" := by
    rintro rfl
    have hempty : retrySeconds "" = none := by decide
    exact Option.some_ne_none secs (hsecs.symm.trans hempty)
  rw [parseRetryAfter, if_neg hne, hsecs]

lemma capped_le (hmax : 0 < maxBackoff) (duration : ℤ) : capped duration maxBackoff ≤ maxBackoff := by
  rw [capped]
  split_ifs <;> omega

lemma parseRetryAfter_le (parseTime : String → Option ℤ) (now : ℤ) (value : String)
    (hmax : 0 < maxBackoff) : parseRetryAfter parseTime now value maxBackoff ≤ maxBackoff := by
  rw [parseRetryAfter]
  split_ifs
  · exact hmax.le
  · split
    · exact capped_le hmax _
    · split
      · split_ifs
        · exact hmax.le
        · exact capped_le hmax _
      · exact hmax.le

/-- Only a number of seconds can make the wait negative. -/
lemma parseRetryAfter_nonneg (parseTime : String → Option ℤ) (now : ℤ) (hmax : 0 < maxBackoff)
    (hsecs : retrySeconds value = none) :
    0 ≤ parseRetryAfter parseTime now value maxBackoff := by
  rw [parseRetryAfter, hsecs]
  split_ifs
  · exact le_rfl
  · dsimp only
    split
    · rw [capped]
      split_ifs <;> omega
    · exact le_rfl

/-- The hint and the backoff are not above the cap. -/
def RetryState.Bounded (maxBackoff : ℤ) (state : RetryState) : Prop :=
  state.lastRetryAfter ≤ maxBackoff ∧ state.nextBackoff ≤ maxBackoff

namespace RetryState

lemma Bounded.atCall (hmax : 0 < maxBackoff) (h : Bounded maxBackoff state) (attempt : ℕ) :
    Bounded maxBackoff (state.atCall attempt maxBackoff) := by
  rw [RetryState.atCall]
  split_ifs
  · exact h
  · refine ⟨hmax.le, ?_⟩
    rw [waited]
    dsimp only
    split_ifs
    · exact min_le_right _ _
    · exact h.2

lemma Bounded.call {hint : String → ℤ} (hhint : ∀ value, hint value ≤ maxBackoff)
    (h : Bounded maxBackoff state) {outcome : TransportOutcome} {next : RetryState}
    (hcall : state.call hint outcome = .inr next) : Bounded maxBackoff next := by
  cases outcome with
  | response statusCode retryAfter isJSON =>
    rw [RetryState.call] at hcall
    split_ifs at hcall
    · obtain rfl := Sum.inr.inj hcall
      exact ⟨hhint retryAfter, h.2⟩
    · obtain rfl := Sum.inr.inj hcall
      exact ⟨hhint retryAfter, h.2⟩
  | doFails timeout =>
    obtain rfl := Sum.inr.inj hcall
    exact h
  | readFails cause =>
    obtain rfl := Sum.inr.inj hcall
    exact h
  | contextEnds err inWait => cases hcall

/-- A timer is set for a hint, or for a time below the backoff. -/
lemma Bounded.timer (h : Bounded maxBackoff state) {attempt draw : ℕ} {wait : ℤ}
    (htimer : wait ∈ state.timer attempt draw) : 0 ≤ wait ∧ wait ≤ maxBackoff := by
  rw [RetryState.timer] at htimer
  split_ifs at htimer with hset
  · obtain rfl := Option.mem_some.mp htimer
    refine ⟨hset.2.le, ?_⟩
    rw [RetryState.wait]
    split_ifs with hrandom
    · exact ((Int.emod_lt_of_pos _ hrandom.2).trans_le h.2).le
    · exact h.1
  · exact absurd htimer (Option.not_mem_none _)

end RetryState

lemma waits_requestLoop (parseTime : String → Option ℤ) (attempts : ℕ → Attempt)
    (hmax : 0 < config.maxBackoff) (remaining attempt : ℕ) {state : RetryState}
    (h : state.Bounded config.maxBackoff) :
    ∀ wait ∈ (requestLoop parseTime config wellFormed attempts remaining attempt state).waits,
      0 ≤ wait ∧ wait ≤ config.maxBackoff := by
  have htimer : ∀ wait ∈ (state.timer attempt (attempts attempt).draw).toList,
      0 ≤ wait ∧ wait ≤ config.maxBackoff :=
    fun wait hwait => h.timer (Option.mem_toList.mp hwait)
  induction remaining generalizing attempt state with
  | zero => exact fun wait hwait => absurd hwait List.not_mem_nil
  | succ remaining ih =>
    rw [requestLoop]
    dsimp only
    split
    · exact htimer
    · split_ifs
      · split
        · exact htimer
        · rename_i next hcall
          have hnext : next.Bounded config.maxBackoff :=
            (h.atCall hmax attempt).call (fun value => parseRetryAfter_le _ _ value hmax) hcall
          intro wait hwait
          rcases List.mem_append.mp hwait with hwait | hwait
          · exact htimer wait hwait
          · exact ih (attempt + 1) hnext
              (fun wait hwait => hnext.timer (Option.mem_toList.mp hwait)) wait hwait
      · exact htimer

/-- What the waits of a request and the duration of a header are to be. -/
structure WaitsBounded (config : RetryConfig) (value : String) (duration : ℤ) (run : RequestRun) :
    Prop where
  duration_between : 0 ≤ duration ∧ duration ≤ config.maxBackoff
  duration_eq : ∀ n, atoi? (CacheKey.trimSpace value) = some n → 0 ≤ n →
    duration = min (n * second) config.maxBackoff
  waits_between : ∀ wait ∈ run.waits, 0 ≤ wait ∧ wait ≤ config.maxBackoff

/-- The waits are bounded. The duration of a header is right exactly if its seconds are so few that
    their nanoseconds are an `int64`, or if what these wrap around to is at the cap again. -/
theorem waitsBounded_iff (hinitial : 0 < config.initialBackoff)
    (hmax : config.initialBackoff ≤ config.maxBackoff) :
    WaitsBounded config value (parseRetryAfter parseTime now value config.maxBackoff)
        (request parseTime config start attempts) ↔
      ∀ n, atoi? (CacheKey.trimSpace value) = some n → 0 ≤ n →
        n * second ≤ maxInt ∨ config.maxBackoff ≤ wrap (n * second) := by
  have hpos : 0 < config.maxBackoff := hinitial.trans_le hmax
  constructor
  · rintro ⟨-, hduration, -⟩ n hatoi hn
    have heq := hduration n hatoi hn
    rw [parseRetryAfter_of_seconds _ _ _ (retrySeconds_eq_some.mpr ⟨hatoi, hn⟩), capped] at heq
    by_contra hnot
    have hwrap := wrap_le (n * second)
    split_ifs at heq <;> omega
  · intro hfits
    refine ⟨⟨?_, parseRetryAfter_le _ _ _ hpos⟩, fun n hatoi hn => ?_, ?_⟩
    · cases hsecs : retrySeconds value with
      | none => exact parseRetryAfter_nonneg _ _ hpos hsecs
      | some n =>
        obtain ⟨hatoi, hn⟩ := retrySeconds_eq_some.mp hsecs
        have hseconds : 0 ≤ n * second := Int.mul_nonneg hn (by decide)
        rw [parseRetryAfter_of_seconds _ _ _ hsecs, capped]
        rcases hfits n hatoi hn with hfits | hfits
        · rw [wrap_of_le hseconds hfits]
          split_ifs <;> omega
        · split_ifs <;> omega
    · have hseconds : 0 ≤ n * second := Int.mul_nonneg hn (by decide)
      rw [parseRetryAfter_of_seconds _ _ _ (retrySeconds_eq_some.mpr ⟨hatoi, hn⟩), capped]
      rcases hfits n hatoi hn with hfits | hfits
      · rw [wrap_of_le hseconds hfits]
        split_ifs <;> omega
      · have hwrap := wrap_le_self hseconds
        split_ifs <;> omega
    · rw [request]
      split
      · exact fun wait hwait => absurd hwait List.not_mem_nil
      · split_ifs
        · exact waits_requestLoop parseTime attempts hpos _ _ ⟨hpos.le, hmax⟩
        · exact fun wait hwait => absurd hwait List.not_mem_nil

theorem waitsBounded_oneSecond :
    WaitsBounded defaultRetryConfig "1" (parseRetryAfter (fun _ => none) 0 "1" 500000000)
      (request (fun _ => none) defaultRetryConfig closedStart fun _ => late) :=
  (waitsBounded_iff (by decide) (by decide)).mpr fun n hn _ => by
    obtain rfl : (1 : ℤ) = n := Option.some.inj ((by decide : atoi? (CacheKey.trimSpace "1") =
      some 1).symm.trans hn)
    exact .inl (by decide)

/-- Some 292 years in seconds. -/
theorem not_waitsBounded :
    parseRetryAfter (fun _ => none) 0 "9223372037" defaultRetryConfig.maxBackoff < 0 ∧
    ¬ WaitsBounded defaultRetryConfig "9223372037"
      (parseRetryAfter (fun _ => none) 0 "9223372037" defaultRetryConfig.maxBackoff)
      (request (fun _ => none) defaultRetryConfig closedStart fun _ => late) := by
  have hneg : parseRetryAfter (fun _ => none) 0 "9223372037" defaultRetryConfig.maxBackoff < 0 := by
    decide
  exact ⟨hneg, fun h => absurd h.duration_between.1 (not_le.mpr hneg)⟩

end Denn.Proxy
