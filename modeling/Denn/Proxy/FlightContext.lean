import Denn.Proxy.Circuit
import Denn.Proxy.Eligibility
import Denn.Proxy.Homepage

/-!
# The context of a flight

The requests for one key of the homepage or of the browse handler. A request reads the two cache tiers
and then starts or joins a computation. The computation of a request runs under that request's context,
which ends when its client disconnects or its budget is spent; a refresh runs under a context of its
own. A step that is not enabled changes nothing, so that one schedule can be run with and without a
disconnect.
-/

namespace Denn.Proxy

open Denn.Core

/-- What `computeAndCache` makes of the answers of its buckets, in their order. -/
structure Aggregate (β α π : Type) where
  buckets : List β
  /-- Nothing where the payload cannot be marshalled. -/
  payload : List α → Option π
  isCached : List α → Bool
  freshTTL : ℕ
  staleTTL : ℕ

inductive CacheTier where
  | fresh
  | stale
  deriving DecidableEq

/-! ### Computations -/

inductive CallStage (π : Type) where
  | computing
  | storingFresh (payload : π)
  | storingStale (payload : π)
  | computed (payload : Option π)
  /-- `done` is closed. -/
  | closed (payload : Option π)

/-- A computation under the context of its leader, or of a refresh. `ended` is what the services make of
    the end of the context. -/
structure AggregateCall (ι β α π : Type) where
  leader : Option ι
  answers : β → Option α := fun _ => none
  ended : Option (β → α)
  stage : CallStage π := .computing

/-- What all requests share: the cache, the entry of the key in the map, and the computations. -/
structure AggregateFlights (ι β α π : Type) where
  now : ℕ := 0
  cache : ExpiringCache CacheTier π := .empty
  current : Option ℕ := none
  calls : List (AggregateCall ι β α π) := []

/-! ### Requests -/

inductive AggregateResponse (π : Type) where
  | cached (payload : π)
  | computed (payload : Option π)
  | contextEnded
  deriving DecidableEq

inductive HandlerPhase (π : Type) where
  | readingFresh
  | readingStale
  /-- The stale payload is served, and a refresh is about to begin. -/
  | refreshing (served : π)
  | entering
  | waiting (call : ℕ)
  | responded (response : AggregateResponse π)

/-- The request has a context for a computation. -/
def HandlerPhase.hasContext {π : Type} : HandlerPhase π → Bool
  | .entering | .waiting _ => true
  | _ => false

/-- `ended` is what the services make of the end of the context that a computation of this request has. -/
structure HandlerRequest (β α π : Type) where
  disconnected : Bool := false
  ended : Option (β → α) := none
  phase : HandlerPhase π := .readingFresh

def HandlerRequest.response {β α π : Type} (request : HandlerRequest β α π) :
    Option (AggregateResponse π) :=
  match request.phase with
  | .refreshing served => some (.cached served)
  | .responded response => some response
  | _ => none

structure AggregateState (ι β α π : Type) where
  flights : AggregateFlights ι β α π := {}
  requests : ι → Option (HandlerRequest β α π) := fun _ => none

/-- What the request receives. -/
def AggregateState.response {ι β α π : Type} (s : AggregateState ι β α π) (q : ι) :
    Option (AggregateResponse π) := (s.requests q).bind (·.response)

/-- A step of the shared part: the clock, the buckets and the computations. -/
inductive FlightStep (β α : Type) where
  | tick (duration : ℕ)
  /-- The upstream of a bucket answers. -/
  | bucketEnds (call : ℕ) (bucket : β) (answer : α)
  /-- The budget of a refresh is spent. -/
  | refreshBudget (call : ℕ) (outcome : β → α)
  | marshal (call : ℕ)
  | storeFresh (call : ℕ) (fails : Bool)
  | storeStale (call : ℕ) (fails : Bool)
  | finish (call : ℕ)
  /-- `delete(h.flights, key)`. -/
  | remove (call : ℕ)

inductive AggregateEvent (ι β α : Type) where
  | arrive (request : ι)
  /-- The client disconnects, and the services end with the outcome. -/
  | disconnect (request : ι) (outcome : β → α)
  /-- `computeCtx` is over. -/
  | budget (request : ι) (outcome : β → α)
  /-- The handler of the request goes on; a read of the cache may fail. -/
  | advance (request : ι) (cacheFails : Bool)
  /-- The request leaves its computation when its context has ended. -/
  | leave (request : ι)
  | flight (step : FlightStep β α)

namespace Aggregate

variable {ι β α π : Type} [DecidableEq ι] [DecidableEq β] (agg : Aggregate β α π)

/-! ### Steps of the computations -/

/-- What a bucket has answered, or makes of the end of the context. -/
def answer (call : AggregateCall ι β α π) (bucket : β) : Option α :=
  (call.answers bucket).or (call.ended.map (· bucket))

/-- A computation that waits for a bucket. -/
def isOpen (call : AggregateCall ι β α π) : Bool :=
  match call.stage with
  | .computing => !agg.buckets.all fun bucket => (answer call bucket).isSome
  | _ => false

def endContext (outcome : β → α) (call : AggregateCall ι β α π) : AggregateCall ι β α π :=
  if agg.isOpen call then { call with ended := some outcome } else call

def bucketEnds (bucket : β) (answer : α) (call : AggregateCall ι β α π) : AggregateCall ι β α π :=
  if agg.isOpen call && (call.answers bucket).isNone then
    { call with answers := Function.update call.answers bucket (some answer) }
  else call

/-- The computation after its buckets. -/
def marshal (call : AggregateCall ι β α π) : AggregateCall ι β α π :=
  match call.stage with
  | .computing =>
    if agg.isOpen call then call
    else
      let answers := agg.buckets.filterMap (answer call)
      match agg.payload answers with
      | none => { call with stage := .computed none }
      | some payload =>
        if agg.isCached answers then { call with stage := .storingFresh payload }
        else { call with stage := .computed (some payload) }
  | _ => call

/-- A payload is stored in a tier, unless the write fails. -/
def store (s : AggregateFlights ι β α π) (tier : CacheTier) (payload : π) (fails : Bool) :
    ExpiringCache CacheTier π :=
  if fails then s.cache
  else s.cache.set s.now tier payload (if tier = .fresh then agg.freshTTL else agg.staleTTL)

def setStage (s : AggregateFlights ι β α π) (n : ℕ) (stage : CallStage π) :
    AggregateFlights ι β α π :=
  { s with calls := s.calls.modify n fun call => { call with stage } }

def stage? (s : AggregateFlights ι β α π) (n : ℕ) : Option (CallStage π) := (s.calls[n]?).map (·.stage)

/-- `singleflight` of a request, or of a refresh: a computation starts unless there is one. -/
def enter (s : AggregateFlights ι β α π) (leader : Option ι) (ended : Option (β → α)) :
    AggregateFlights ι β α π :=
  if s.current.isSome then s
  else { s with current := some s.calls.length, calls := s.calls ++ [{ leader, ended }] }

def flightStep (s : AggregateFlights ι β α π) : FlightStep β α → AggregateFlights ι β α π
  | .tick duration => { s with now := s.now + duration }
  | .bucketEnds n bucket answer =>
    { s with calls := s.calls.modify n (agg.bucketEnds bucket answer) }
  | .refreshBudget n outcome =>
    { s with calls := s.calls.modify n fun call =>
        if call.leader.isNone then agg.endContext outcome call else call }
  | .marshal n => { s with calls := s.calls.modify n agg.marshal }
  | .storeFresh n fails =>
    match stage? s n with
    | some (.storingFresh payload) =>
      { setStage s n (.storingStale payload) with cache := agg.store s .fresh payload fails }
    | _ => s
  | .storeStale n fails =>
    match stage? s n with
    | some (.storingStale payload) =>
      { setStage s n (.computed (some payload)) with cache := agg.store s .stale payload fails }
    | _ => s
  | .finish n =>
    match stage? s n with
    | some (.computed payload) => setStage s n (.closed payload)
    | _ => s
  | .remove n =>
    match stage? s n with
    | some (.closed _) => if s.current = some n then { s with current := none } else s
    | _ => s

/-- The context of a request ends, and with it that of the computation which it leads. -/
def endContextOf (s : AggregateFlights ι β α π) (q : ι) (outcome : β → α) : AggregateFlights ι β α π :=
  { s with calls := s.calls.map fun call =>
      if call.leader = some q then agg.endContext outcome call else call }

/-! ### Steps of the requests -/

/-- A read of the cache under the context of the request. -/
def read (s : AggregateFlights ι β α π) (request : HandlerRequest β α π) (tier : CacheTier)
    (cacheFails : Bool) : Option π :=
  if cacheFails || request.disconnected then none else s.cache.get s.now tier

/-- The phase after the next step of a handler. -/
def nextPhase (s : AggregateFlights ι β α π) (request : HandlerRequest β α π) (cacheFails : Bool) :
    HandlerPhase π :=
  match request.phase with
  | .readingFresh =>
    match read s request .fresh cacheFails with
    | some payload => .responded (.cached payload)
    | none => .readingStale
  | .readingStale =>
    match read s request .stale cacheFails with
    | some payload => .refreshing payload
    | none => .entering
  | .refreshing served => .responded (.cached served)
  | .entering => .waiting (s.current.getD s.calls.length)
  | .waiting n =>
    match stage? s n with
    | some (.closed payload) => .responded (.computed payload)
    | _ => .waiting n
  | .responded response => .responded response

/-- The shared part after the next step of a handler. -/
def nextFlights (s : AggregateFlights ι β α π) (q : ι) (request : HandlerRequest β α π) :
    AggregateFlights ι β α π :=
  match request.phase with
  | .refreshing _ => enter s none none
  | .entering => enter s (some q) request.ended
  | _ => s

/-- The phase of a request after a look at its context. -/
def leavePhase (request : HandlerRequest β α π) : HandlerPhase π :=
  match request.phase with
  | .waiting n => if request.ended.isSome then .responded .contextEnded else .waiting n
  | phase => phase

/-- A step of a request that has arrived. -/
def requestStep (s : AggregateFlights ι β α π) (q : ι) (request : HandlerRequest β α π) :
    AggregateEvent ι β α → AggregateFlights ι β α π × HandlerRequest β α π
  | .disconnect _ outcome =>
    (agg.endContextOf s q outcome,
      { request with disconnected := true, ended := some (request.ended.getD outcome) })
  | .budget _ outcome =>
    if request.phase.hasContext then
      (agg.endContextOf s q outcome, { request with ended := some (request.ended.getD outcome) })
    else (s, request)
  | .advance _ cacheFails =>
    (nextFlights s q request, { request with phase := nextPhase s request cacheFails })
  | .leave _ => (s, { request with phase := leavePhase request })
  | _ => (s, request)

/-- A step of a request, if it has arrived. -/
def stepRequest (s : AggregateState ι β α π) (q : ι) (event : AggregateEvent ι β α) :
    AggregateState ι β α π :=
  match s.requests q with
  | some request =>
    { flights := (agg.requestStep s.flights q request event).1
      requests := Function.update s.requests q
        (some (agg.requestStep s.flights q request event).2) }
  | none => s

def step (s : AggregateState ι β α π) (event : AggregateEvent ι β α) : AggregateState ι β α π :=
  match event with
  | .arrive q => { s with requests := Function.update s.requests q (some ((s.requests q).getD {})) }
  | .flight step => { s with flights := agg.flightStep s.flights step }
  | .disconnect q _ | .budget q _ | .advance q _ | .leave q => agg.stepRequest s q event

/-- The handler after a schedule, from an empty cache. -/
def run (events : List (AggregateEvent ι β α)) : AggregateState ι β α π := events.foldl agg.step {}

end Aggregate

/-! ### The two handlers -/

/-- `computeAndCache` of the homepage. -/
def homepageAggregate (page : ℤ) : Aggregate Homepage.Bucket Homepage.BucketAnswer Homepage.Payload where
  buckets := Homepage.allBuckets
  payload answers := some ((Homepage.allBuckets.zip answers).foldl
    (fun payload result => payload.set result.1 (Homepage.enrich page result.1 result.2)) .empty)
  isCached _ := true
  freshTTL := Homepage.homepageCacheTTL
  staleTTL := Homepage.homepageStaleTTL

/-- What `fetch` of the browse handler returns. -/
structure BrowseAnswer where
  items : List SearchItem
  metadata : Homepage.PaginationMetadata
  err : Option RequestError := none

structure BrowseResponse where
  type : String
  mode : String
  status : String
  results : List SearchItem
  metadata : Homepage.PaginationMetadata
  error : Option String
  deriving DecidableEq

def browseErrorCode (err : RequestError) : String :=
  if .timeout ∈ err ∨ .context .deadlineExceeded ∈ err then "PROVIDER_TIMEOUT"
  else if .rateLimit ∈ err then "PROVIDER_RATE_LIMIT"
  else if .providerAuth ∈ err then "PROVIDER_AUTH_FAILED"
  else if .serverError ∈ err ∨ .connection ∈ err then "PROVIDER_UNAVAILABLE"
  else "BROWSE_UNAVAILABLE"

def browseResponse (contentType sortMode query : String) (answer : BrowseAnswer) : BrowseResponse where
  type := contentType
  mode := if query = "" then sortMode else "search"
  status := if answer.err.isSome then "degraded" else if answer.items = [] then "empty" else "complete"
  results := answer.items
  metadata := answer.metadata
  error := answer.err.map browseErrorCode

/-- `computeAndCache` of the browse handler, which keeps no degraded response. -/
def browseAggregate (contentType sortMode query : String) :
    Aggregate Unit BrowseAnswer BrowseResponse where
  buckets := [()]
  payload answers := answers.head?.map (browseResponse contentType sortMode query)
  isCached answers := answers.all (·.err.isNone)
  freshTTL := 5 * 60 * 1000
  staleTTL := 30 * 60 * 1000

end Denn.Proxy
