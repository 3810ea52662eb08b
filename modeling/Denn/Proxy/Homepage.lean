import Denn.Core.Expiring
import Denn.Core.Json
import Denn.Core.Transition

/-!
# The homepage aggregate

The handler behind `/homepage`: five buckets are fetched and enriched, and the payload is kept in a
fresh and in a stale cache tier. Requests for one key share a flight, which goes on when its
requests have left. What the services answer is an input; a deadline, a spent budget and a client
that disconnects end a bucket with an error or with whatever its service makes of it.
-/

namespace Denn.Homepage

open Core

/-! ### Buckets -/

inductive Bucket where
  | movies
  | tvShows
  | games
  | albums
  | books
  deriving DecidableEq, Repr

def allBuckets : List Bucket := [.movies, .tvShows, .games, .albums, .books]

structure PaginationMetadata where
  page : ℤ
  totalPages : ℤ := 0
  totalResults : ℤ := 0
  deriving DecidableEq, Repr

structure ContentResult where
  metadata : Option PaginationMetadata
  results : List Json
  error : Option String

/-- A result of a bulk request: the id and the response of a detail, or the text of an error. -/
structure BulkResult where
  detail : Option (String × Json)
  error : String := ""

/-- What the service of a bucket answers: the trending page, and the details for it. The games are
    the items and the details at once. -/
structure BucketAnswer where
  items : List String := []
  metadata : PaginationMetadata
  err : Option String := none
  bulk : List BulkResult := []

def successResult (items : List Json) (metadata : Option PaginationMetadata) : ContentResult :=
  ⟨metadata, items, none⟩

def errorResult (message : String) : ContentResult := ⟨none, [], some message⟩

/-- `strconv.Atoi` accepts the text. -/
def isAtoi (text : String) : Bool :=
  let (negative, digits) :=
    match text.toList with
    | '-' :: digits => (true, digits)
    | '+' :: digits => (false, digits)
    | digits => (false, digits)
  let value := digits.foldl (fun value c => value * 10 + (c.toNat - '0'.toNat)) 0
  !digits.isEmpty && digits.all (·.isDigit)
    && (if negative then value ≤ 2 ^ 63 else value < 2 ^ 63)

/-- The details by their ids; a later one replaces an earlier one. -/
def detailMap (bulk : List BulkResult) : Table String Json :=
  (bulk.filterMap (·.detail)).foldl (fun details detail => details.set detail.1 detail.2)
    Table.empty

/-- `buildOrderedResult`. -/
def buildOrderedResult (answer : BucketAnswer) (details : Table String Json) :
    ContentResult :=
  successResult (answer.items.filterMap details.get?) (some answer.metadata)

/-- `enrichAlbums`. -/
def enrichAlbums (answer : BucketAnswer) : ContentResult :=
  if answer.items.filter (· ≠ "") = [] then successResult [] (some answer.metadata)
  else
    let details := detailMap answer.bulk
    let errors := (answer.bulk.filter (·.detail.isNone)).map (·.error)
    match errors.find? (· ≠ "") with
    | some firstErr =>
      if details.rows.isEmpty then errorResult firstErr
      else buildOrderedResult answer details
    | none => buildOrderedResult answer details

/-- `enrichOne`. -/
def enrichOne (bucket : Bucket) (answer : BucketAnswer) : ContentResult :=
  match bucket with
  | .movies | .tvShows =>
    if answer.items.filter isAtoi = [] then successResult [] (some answer.metadata)
    else buildOrderedResult answer (detailMap answer.bulk)
  | .games => buildOrderedResult answer (detailMap answer.bulk)
  | .albums => enrichAlbums answer
  | .books =>
    if answer.items.filter (· ≠ "") = [] then successResult [] (some answer.metadata)
    else buildOrderedResult answer (detailMap answer.bulk)

/-- A bucket of `fetchTrending`. -/
def fetchTrending (page : ℤ) (bucket : Bucket) (answer : BucketAnswer) : BucketAnswer :=
  if bucket = .games then
    let items := (answer.bulk.filterMap (·.detail)).map Prod.fst
    { answer with items, metadata := { page, totalResults := items.length } }
  else answer

/-- A bucket of `enrichAll`. -/
def enrich (page : ℤ) (bucket : Bucket) (answer : BucketAnswer) : ContentResult :=
  let answer := fetchTrending page bucket answer
  match answer.err with
  | some message => errorResult message
  | none =>
    if answer.items = [] then ⟨some answer.metadata, [], none⟩ else enrichOne bucket answer

/-- The aggregate under the names of its buckets. -/
abbrev Payload := Table Bucket ContentResult

/-- At least one bucket carries an error. -/
def hasError (payload : Payload) : Bool := payload.any fun _ result => result.error.isSome

/-! ### Requests -/

/-- A request as its query and its header give it: unreadable numbers are zero, and a header that is
    missing is empty. -/
structure Request where
  page : ℤ := 0
  limit : ℤ := 0
  country : String := ""
  deriving DecidableEq, Repr

/-- `ParsePagination` and `GetCountryFromHeader`. -/
def Request.parse (request : Request) : Request where
  page := if request.page < 1 then 1 else request.page
  limit := if request.limit < 1 then 20 else if request.limit > 50 then 50 else request.limit
  country := if request.country = "" then "US" else request.country

/-- `homepageCacheKey` of a parsed request. -/
def homepageCacheKey (request : Request) : String :=
  "homepage:v3:adult-exclude:future-24h:p" ++ toString request.page ++ ":l"
    ++ toString request.limit ++ ":c"
    ++ if request.country = "" then "US" else request.country

/-- The stale entry of a cache key. -/
def staleCacheKey (cacheKey : String) : String := cacheKey ++ ":stale"

/-! ### The handler -/

/-- `HomepageCacheTTL` in milliseconds. -/
def homepageCacheTTL : ℕ := 5 * 60 * 1000

def homepageStaleTTL : ℕ := 30 * 60 * 1000

/-- Where `computeAndCache` is: it waits for its buckets, has stored its payload as fresh, or has
    returned, with `none` if the payload cannot be marshalled. -/
inductive FlightPhase where
  | computing (results : Payload)
  | storing (payload : Payload)
  | done (payload : Option Payload)

structure Flight where
  request : Request
  phase : FlightPhase

/-- The cache, the flights under their keys, and the keys that requests wait for. `succeededAt` is
    kept for the statements only: when a payload without errors was last stored in both tiers of a
    cache key. -/
structure HandlerState where
  now : ℕ := 0
  cache : ExpiringCache String Payload := .empty
  flights : Table String Flight := .empty
  waiting : List String := []
  succeededAt : Table String ℕ := .empty

inductive HandlerEvent where
  | tick (duration : ℕ)
  /-- A request reads the cache, and starts or joins a flight. -/
  | request (request : Request)
  /-- A waiting request is over: its flight is done, its client disconnects, or its budget is
      spent. -/
  | leave (cacheKey : String)
  | bucketEnds (cacheKey : String) (bucket : Bucket) (answer : BucketAnswer)
  | marshalFails (cacheKey : String)
  | storeFresh (cacheKey : String)
  | storeStale (cacheKey : String)
  /-- `delete(h.flights, key)`. -/
  | close (cacheKey : String)

/-- `singleflight`: a flight of the key goes on, or a new one starts. -/
def HandlerState.ensureFlight (s : HandlerState) (request : Request) : HandlerState :=
  let cacheKey := homepageCacheKey request
  if (s.flights.get? cacheKey).isSome then s
  else { s with flights := s.flights.set cacheKey ⟨request, .computing .empty⟩ }

def HandlerState.setPhase (s : HandlerState) (cacheKey : String) (flight : Flight)
    (phase : FlightPhase) : HandlerState :=
  { s with flights := s.flights.set cacheKey { flight with phase } }

/-- The payload of all buckets. -/
def complete (results : Payload) : Bool := allBuckets.all fun bucket => (results.get? bucket).isSome

def HandlerState.step (s : HandlerState) : HandlerEvent → Option HandlerState
  | .tick duration => some { s with now := s.now + duration }
  | .request request =>
    let request := request.parse
    let cacheKey := homepageCacheKey request
    if (s.cache.get s.now cacheKey).isSome then some s
    else if (s.cache.get s.now (staleCacheKey cacheKey)).isSome then some (s.ensureFlight request)
    else some { s.ensureFlight request with waiting := cacheKey :: s.waiting }
  | .leave cacheKey =>
    if cacheKey ∈ s.waiting then some { s with waiting := s.waiting.erase cacheKey } else none
  | .bucketEnds cacheKey bucket answer =>
    match s.flights.get? cacheKey with
    | some ⟨request, .computing results⟩ =>
      if (results.get? bucket).isSome then none
      else some (s.setPhase cacheKey ⟨request, .computing results⟩
        (.computing (results.set bucket (enrich request.page bucket answer))))
    | _ => none
  | .marshalFails cacheKey =>
    match s.flights.get? cacheKey with
    | some ⟨request, .computing results⟩ =>
      if complete results then
        some (s.setPhase cacheKey ⟨request, .computing results⟩ (.done none))
      else none
    | _ => none
  | .storeFresh cacheKey =>
    match s.flights.get? cacheKey with
    | some ⟨request, .computing results⟩ =>
      if complete results then
        some { s.setPhase cacheKey ⟨request, .computing results⟩ (.storing results) with
          cache := s.cache.set s.now (homepageCacheKey request) results homepageCacheTTL }
      else none
    | _ => none
  | .storeStale cacheKey =>
    match s.flights.get? cacheKey with
    | some ⟨request, .storing payload⟩ =>
      some { s.setPhase cacheKey ⟨request, .storing payload⟩ (.done (some payload)) with
        cache := s.cache.set s.now (staleCacheKey (homepageCacheKey request)) payload
          homepageStaleTTL
        succeededAt := if hasError payload then s.succeededAt else
          s.succeededAt.set (homepageCacheKey request) s.now }
    | _ => none
  | .close cacheKey =>
    match s.flights.get? cacheKey with
    | some ⟨_, .done _⟩ => some { s with flights := s.flights.delete cacheKey }
    | _ => none

end Denn.Homepage
