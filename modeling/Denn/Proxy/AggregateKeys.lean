import Denn.Core.GoInt
import Denn.Core.Sha256
import Denn.Proxy.CacheKey
import Denn.Proxy.Homepage

/-!
# Cache keys of the aggregates

The requests to the homepage, to the browse and to the multi-search handler, as their query and their
header give them, what the handlers read off them, and the cache keys that they build.
-/

namespace Denn.Proxy

open Denn.Core Denn.CacheKey

inductive AggregateType where
  | movies
  | tvShows
  | games
  | albums
  | books
  deriving DecidableEq

namespace AggregateType

def name : AggregateType → String
  | movies => "movies"
  | tvShows => "tv-shows"
  | games => "games"
  | albums => "albums"
  | books => "books"

def all : List AggregateType := [.movies, .tvShows, .games, .albums, .books]

def ofName (text : String) : Option AggregateType := all.find? fun t => t.name = text

end AggregateType

/-- `hex.EncodeToString(hash[:8])`. -/
def hashPrefix (text : String) : String :=
  String.ofList ((Sha256.hexdigest text.toList).toList.take 16)

-- `unicode.ToLower` and `unicode.ToUpper`, which map one character by the tables of their library.
variable (toLower toUpper : Char → Char)

def lower (text : String) : String := String.ofList (text.toList.map toLower)

def upper (text : String) : String := String.ofList (text.toList.map toUpper)

/-! ### Browse -/

inductive BrowseMode where
  | popular
  | recent
  | search
  deriving DecidableEq

def BrowseMode.name : BrowseMode → String
  | popular => "popular"
  | recent => "recent"
  | search => "search"

structure BrowseRequest where
  type : String := ""
  sort : String := ""
  q : String := ""
  page : String := ""
  country : String := ""

structure BrowseQuery where
  type : AggregateType
  mode : BrowseMode
  query : String
  page : ℤ
  country : String

def parseType (raw : String) : Except String AggregateType :=
  match AggregateType.ofName (lower toLower (trimSpace raw)) with
  | some t => .ok t
  | none => .error ("invalid type: " ++ raw)

def parseSort (raw : String) : Except String BrowseMode :=
  let value := lower toLower (trimSpace raw)
  if value = "" ∨ value = "popular" then .ok .popular
  else if value = "recent" then .ok .recent
  else .error ("invalid sort: " ++ raw)

def parsePage (raw : String) : Except String ℤ :=
  if trimSpace raw = "" then .ok 1
  else if atoi raw < 1 ∨ 100 < atoi raw then .error "page must be between 1 and 100"
  else .ok (atoi raw)

/-- `GetCountryFromHeader`. -/
def countryOfHeader (header : String) : String := if header = "" then "US" else header

def browseCountry (header : String) : String :=
  let country := upper toUpper (trimSpace (countryOfHeader header))
  if country = "" then "US" else country

def BrowseRequest.parse (request : BrowseRequest) : Except String BrowseQuery := do
  let type ← parseType toLower request.type
  let sortMode ← parseSort toLower request.sort
  let page ← parsePage request.page
  let query := trimSpace request.q
  if 80 < query.length then throw "q must be 80 characters or fewer"
  return {
    type, query, page
    mode := if query = "" then sortMode else .search
    country := browseCountry toUpper request.country }

def browseCacheKey (query : BrowseQuery) : String :=
  "browse:v1:" ++ query.type.name ++ ":" ++ query.mode.name ++ ":q"
    ++ hashPrefix (normalizeSearchCacheKey toLower query.query) ++ ":p" ++ itoa query.page ++ ":c"
    ++ query.country ++ ":policy-v1"

def browseStaleCacheKey (key : String) : String := key ++ ":stale"

/-! ### Multi-search -/

structure SearchRequest extends Homepage.Request where
  q : String := ""
  types : String := ""
  adult : String := ""

structure SearchQuery where
  query : String
  page : ℤ
  limit : ℤ
  country : String
  types : List AggregateType
  allowAdult : Bool

def invalidTypeError (value : String) : String :=
  "invalid content type: " ++ value ++ ". valid types are: "
    ++ ", ".intercalate (AggregateType.all.map (·.name))

/-- The loop of `parseTypes`. -/
def readType (types : List AggregateType) (part : String) : Except String (List AggregateType) :=
  let value := trimSpace (lower toLower part)
  match AggregateType.ofName value with
  | some t => .ok (if t ∈ types then types else types ++ [t])
  | none => .error (invalidTypeError value)

def parseTypes (raw : String) : Except String (List AggregateType) :=
  if raw = "" then .ok AggregateType.all
  else ((raw.toList.splitOn ',').map String.ofList).foldlM (readType toLower) []

/-- The adult content is allowed. -/
def parseAdultPolicy (raw : String) : Except String Bool :=
  let value := trimSpace (lower toLower raw)
  if value = "" ∨ value = "exclude" then .ok false
  else if value = "include" then .ok true
  else .error ("invalid adult policy: " ++ raw ++ ". valid values are: exclude, include")

def SearchRequest.parse (request : SearchRequest) : Except String SearchQuery := do
  let query := trimSpace request.q
  if query = "" then throw "query parameter is required"
  let types ← parseTypes toLower request.types
  let allowAdult ← parseAdultPolicy toLower request.adult
  let pagination := request.toRequest.parse
  return {
    query, types, allowAdult
    page := pagination.page
    limit := pagination.limit
    country := pagination.country }

def typeNames (types : List AggregateType) : String :=
  ",".intercalate ((types.map (·.name)).mergeSort)

def multiSearchCacheKey (query : SearchQuery) : String :=
  "search:v3:adult-" ++ Tmdb.adultPolicy query.allowAdult ++ ":future-24h:q"
    ++ hashPrefix (normalizeSearchCacheKey toLower query.query) ++ ":p" ++ itoa query.page ++ ":l"
    ++ itoa query.limit ++ ":c" ++ upper toUpper query.country ++ ":t" ++ typeNames query.types

/-! ### Requests -/

inductive AggregateRequest where
  | homepage (request : Homepage.Request)
  | browse (request : BrowseRequest)
  | search (request : SearchRequest)

/-- What a handler has read off a request. -/
inductive AggregateQuery where
  | homepage (request : Homepage.Request)
  | browse (query : BrowseQuery)
  | search (query : SearchQuery)

def AggregateRequest.parse : AggregateRequest → Except String AggregateQuery
  | .homepage request => .ok (.homepage request.parse)
  | .browse request => (request.parse toLower toUpper).map .browse
  | .search request => (request.parse toLower).map .search

namespace AggregateQuery

def freshKey : AggregateQuery → String
  | .homepage request => Homepage.homepageCacheKey request
  | .browse query => browseCacheKey toLower query
  | .search query => multiSearchCacheKey toLower toUpper query

/-- The multi-search has one tier only. -/
def staleKey : AggregateQuery → Option String
  | .homepage request => some (Homepage.staleCacheKey (Homepage.homepageCacheKey request))
  | .browse query => some (browseStaleCacheKey (browseCacheKey toLower query))
  | .search _ => none

/-- The search text of which a key has a digest. -/
def text : AggregateQuery → String
  | .homepage _ => ""
  | .browse query => normalizeSearchCacheKey toLower query.query
  | .search query => normalizeSearchCacheKey toLower query.query

end AggregateQuery

end Denn.Proxy
