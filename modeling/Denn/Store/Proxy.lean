import Denn.Core.Integer
import Denn.Core.Table
import Denn.Store.System
import Mathlib.Data.List.Induction

/-!
# Fetching from the proxy

`_proxy_fetch` groups a batch by provider. Each partition asks for its items in bulk requests of
at most twenty ids, seasons apart, which are asked for one by one, and merges the answers back by
id. What the proxy answers to each request, or that a request fails, is an argument.
-/

namespace Denn

open Core

/-! ### The batch -/

/-- The only provider that the endpoints accept for a content type. -/
def ContentType.sourceApi : ContentType → SourceAPI
  | movie => .tmdb
  | tvShow => .tmdb
  | season => .tmdb
  | game => .igdb
  | album => .spotify
  | book => .openlibrary

/-- A content item that is fetched. -/
structure FetchItem extends ContentItem where
  id : ItemId

/-- Rows of the content table, so without two of one id or of one external key. -/
structure Batch where
  items : List FetchItem
  id_inj : ∀ a ∈ items, ∀ b ∈ items, a.id = b.id → a = b
  unique_external_content : ∀ a ∈ items, ∀ b ∈ items, a.key = b.key → a = b
  source_valid : ∀ a ∈ items, a.sourceApi = a.contentType.sourceApi

/-! ### The proxy -/

/-- The `id` of an object that the proxy sends. -/
inductive ProviderId where
  | number (n : ℤ)
  | text (s : String)

def ProviderId.str : ProviderId → String
  | number n => toString n
  | text s => s

def ProviderId.isTruthy : ProviderId → Bool
  | number n => n ≠ 0
  | text s => s ≠ ""

structure ProxyObject (Payload : Type) where
  id : Option ProviderId
  payload : Payload

/-- The answers of the proxy. A request that fails, or is not answered with a list, has none. The
    proxy has one object for an id, whichever request it answers with it. -/
structure Proxy (Payload : Type) where
  bulk : (path : String) → (ids : List String) → (country : Option String) →
    Option (List (ProxyObject Payload))
  season : (tvId : String) → (seasonNumber : ℤ) → (country : Option String) → Option Payload
  consistent : ∀ path country ids ids' objects objects',
    bulk path ids country = some objects → bulk path ids' country = some objects' →
    ∀ a ∈ objects, ∀ b ∈ objects', a.id.isSome = true → a.id.map ProviderId.str
      = b.id.map ProviderId.str → a = b

variable {Payload : Type}

/-- `mid = movie.get("id")`, then `mid and str(mid)`. -/
def ProxyObject.numericKey (object : ProxyObject Payload) : Option String :=
  (object.id.filter (·.isTruthy)).map (·.str)

/-- `aid = album.get("id")`, then `aid`; a number is in no dictionary of strings. -/
def ProxyObject.textKey (object : ProxyObject Payload) : Option String :=
  (object.id.filter (·.isTruthy)).bind fun
    | .number _ => none
    | .text s => some s

/-- `_bulk`. -/
def Proxy.bulkAll (proxy : Proxy Payload) (path : String) (ids : List String)
    (country : Option String) : List (ProxyObject Payload) :=
  (ids.toChunks 20).flatMap fun chunk => (proxy.bulk path chunk country).getD []

/-! ### Merging the answers -/

/-- The `id_to_item` of an external id; a later item takes the place of an earlier one. -/
def idToItem (items : List (ItemId × String)) (externalId : String) : Option ItemId :=
  (items.reverse.find? fun item => item.2 = externalId).map Prod.fst

/-- The loop over the objects of the bulk answers. -/
def matchObjects (key : ProxyObject Payload → Option String) (items : List (ItemId × String))
    (data : List (ProxyObject Payload)) (results : Table ItemId (Option Payload)) :
    Table ItemId (Option Payload) :=
  data.foldl
    (fun results object => match (key object).bind (idToItem items) with
      | some item => results.set item (some object.payload)
      | none => results)
    results

/-- The loop that notes the items that nothing was returned for. -/
def fillMissing (isReturned : Table ItemId (Option Payload) → ItemId × String → Bool)
    (items : List (ItemId × String)) (results : Table ItemId (Option Payload)) :
    Table ItemId (Option Payload) :=
  items.foldl
    (fun results item => if isReturned results item then results else results.set item.1 none)
    results

/-- Movies or shows: an item is returned if its external id is. -/
def bulkTmdb (proxy : Proxy Payload) (path : String) (country : Option String)
    (items : List (ItemId × String)) (results : Table ItemId (Option Payload)) :
    Table ItemId (Option Payload) :=
  let data := proxy.bulkAll path (items.map Prod.snd) country
  let returnedIds := data.filterMap fun object =>
    object.numericKey.filter fun key => (idToItem items key).isSome
  fillMissing (fun _ item => item.2 ∈ returnedIds) items
    (matchObjects ProxyObject.numericKey items data results)

/-- The other providers: an item is returned if it has a result. -/
def bulkProvider (proxy : Proxy Payload) (path : String)
    (key : ProxyObject Payload → Option String) (items : List FetchItem) :
    Table ItemId (Option Payload) :=
  let pairs := items.map fun item => (item.id, item.externalId)
  fillMissing (fun results item => (results.get? item.1).isSome) pairs
    (matchObjects key pairs (proxy.bulkAll path (pairs.map Prod.snd) none) .empty)

def bulkFetchIgdb (proxy : Proxy Payload) : List FetchItem → Table ItemId (Option Payload) :=
  bulkProvider proxy "/games/bulk" ProxyObject.numericKey

def bulkFetchSpotify (proxy : Proxy Payload) : List FetchItem → Table ItemId (Option Payload) :=
  bulkProvider proxy "/albums/bulk" ProxyObject.textKey

def bulkFetchOpenlibrary (proxy : Proxy Payload) :
    List FetchItem → Table ItemId (Option Payload) :=
  bulkProvider proxy "/books/bulk" ProxyObject.textKey

/-- The two parts of a season's external id. -/
def seasonParts (externalId : String) : Option (String × String) :=
  match externalId.toList.splitOn ':' with
  | [tvId, seasonNumber] => some (String.ofList tvId, String.ofList seasonNumber)
  | _ => none

/-- One season. A number that does not parse raises, and the error leaves the loop. -/
def fetchSeason (proxy : Proxy Payload) (country : Option String)
    (results : Table ItemId (Option Payload)) (season : ItemId × String) :
    Option (Table ItemId (Option Payload)) :=
  match seasonParts season.2 with
  | some (tvId, seasonNumber) =>
    (readInt seasonNumber).map fun n => results.set season.1 (proxy.season tvId n country)
  | none => some (results.set season.1 none)

/-- `_bulk_fetch_tmdb`; `none` is its exception. -/
def bulkFetchTmdb (proxy : Proxy Payload) (country : Option String) (items : List FetchItem) :
    Option (Table ItemId (Option Payload)) :=
  let select := fun contentType =>
    (items.filter (·.contentType = contentType)).map fun item => (item.id, item.externalId)
  let movies := bulkTmdb proxy "/movies/bulk" country (select .movie) .empty
  let tvShows := bulkTmdb proxy "/tv-shows/bulk" country (select .tvShow) movies
  (select .season).foldlM (fetchSeason proxy country) tvShows

/-- `_proxy_fetch`: a partition that raises adds nothing. -/
def proxyFetch (proxy : Proxy Payload) (country : Option String) (items : List FetchItem) :
    Table ItemId (Option Payload) :=
  let grouped := fun sourceApi => items.filter (·.sourceApi = sourceApi)
  let futures :=
    [ bulkFetchTmdb proxy country (grouped .tmdb),
      some (bulkFetchIgdb proxy (grouped .igdb)),
      some (bulkFetchSpotify proxy (grouped .spotify)),
      some (bulkFetchOpenlibrary proxy (grouped .openlibrary)) ]
  futures.reduceOption.foldl Table.update .empty

/-- What a caller finds for an item. -/
def sourceData (proxy : Proxy Payload) (country : Option String) (items : List FetchItem)
    (item : ItemId) : Option Payload :=
  ((proxyFetch proxy country items).get? item).join

/-! ### What a merge finds -/

section Merge

variable {key : ProxyObject Payload → Option String} {pairs : List (ItemId × String)}
  {data : List (ProxyObject Payload)} {results : Table ItemId (Option Payload)}

/-- The last object with a key. -/
def lastWithKey (key : ProxyObject Payload → Option String) (externalId : String)
    (data : List (ProxyObject Payload)) : Option (ProxyObject Payload) :=
  data.reverse.find? fun object => key object = some externalId

variable {isReturned : Table ItemId (Option Payload) → ItemId × String → Bool}

end Merge

/-! ### What a partition finds -/

section Partition

variable {proxy : Proxy Payload} {path : String} {country : Option String}

/-- The payload that the bulk answers hold for an external id. -/
def Proxy.find (proxy : Proxy Payload) (path : String) (country : Option String)
    (key : ProxyObject Payload → Option String) (ids : List String) (externalId : String) :
    Option Payload :=
  (lastWithKey key externalId (proxy.bulkAll path ids country)).map ProxyObject.payload

lemma mem_of_lastWithKey {key : ProxyObject Payload → Option String} {externalId : String}
    {data : List (ProxyObject Payload)} {object : ProxyObject Payload}
    (h : lastWithKey key externalId data = some object) :
    object ∈ data ∧ key object = some externalId :=
  ⟨List.mem_reverse.mp (List.mem_of_find?_eq_some h), by simpa using List.find?_some h⟩

variable {key : ProxyObject Payload → Option String}

/-- The payload of a season's own request. -/
def Proxy.findSeason (proxy : Proxy Payload) (country : Option String) (externalId : String) :
    Option Payload :=
  (seasonParts externalId).bind fun parts =>
    (readInt parts.2).bind fun n => proxy.season parts.1 n country

end Partition

end Denn
