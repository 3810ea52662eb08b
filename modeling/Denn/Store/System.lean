import Denn.Core.Transition
import Denn.Moderation.Detail
import Denn.Store.Mappers

/-!
# The local content store

Content items, their persisted details and the materialized hashes, under upserts of payloads. An
upsert is one transaction: one that fails leaves everything as it is. The ingests and the reads that
were served locally are kept for the statements only.
-/

namespace Denn

open Core

structure ContentItem where
  sourceApi : SourceAPI
  externalId : String
  contentType : ContentType
  currentModerationSourceHash : Option SourceHash := none

/-- `unique_external_content`. -/
abbrev ContentKey := SourceAPI × String × ContentType

def ContentItem.key (item : ContentItem) : ContentKey :=
  (item.sourceApi, item.externalId, item.contentType)

/-- The key of a season of a show. -/
def ContentItem.seasonKey (tvShow : ContentItem) (seasonNumber : ℤ) : ContentKey :=
  (tvShow.sourceApi, tvShow.externalId ++ ":" ++ toString seasonNumber, .season)

/-- A main row with its child rows and the columns that freshness depends on. -/
structure StoredDetail where
  row : DetailRow
  children : ChildRows
  releaseDate : Option Date
  status : String
  lastRefreshedAt : Time

/-- Whose payload a detail was written from. -/
inductive IngestKind where
  | own
  | nested
  deriving DecidableEq, Repr

structure Ingest where
  item : ItemId
  kind : IngestKind
  ingestedAt : Time
  deriving DecidableEq, Repr

/-- A detail that was served without a call of the proxy and not as stale. -/
structure FreshRead where
  item : ItemId
  detail : StoredDetail
  readAt : Time

structure LocalStore where
  clock : Time
  items : Table ItemId ContentItem
  nextId : ItemId
  details : Table ItemId StoredDetail
  platforms : Table PlatformKey String
  ingests : List Ingest
  served : List FreshRead

def LocalStore.empty : LocalStore where
  clock := 0
  items := .empty
  nextId := 0
  details := .empty
  platforms := .empty
  ingests := []
  served := []

/-- What is fixed during a run. -/
structure StoreConfig where
  semantics : DetailSemantics LoadedDetail ChildRows
  policy : RefreshPolicyConfig
  forceProxyFetch : Bool
  defaultCountry : String

/-- The store as it is when nothing is configured. -/
def StoreConfig.standard (semantics : DetailSemantics LoadedDetail ChildRows) : StoreConfig where
  semantics := semantics
  policy := defaultPolicy
  forceProxyFetch := false
  defaultCountry := "US"

/-- The country that platforms are stored for under a requested country. -/
def StoreConfig.country (config : StoreConfig) (requestCountry : Option String) : String :=
  ((requestCountry.filter (· ≠ "")).getD config.defaultCountry).toUpper

/-- How `fetch_bulk_source_data` classifies an item. -/
inductive LocalState where
  | fresh
  | stale
  | missing
  | incomplete
  deriving DecidableEq, Repr

/-- An upsert of a payload. `cachedTvShow` is the show detail that the caller's instance of the item
    has cached: nothing, no row, or the title of a row. -/
structure Upsert where
  item : ItemId
  payload : DetailPayload
  cachedTvShow : Option (Option String) := none
  requestCountry : Option String := none

inductive StoreAction where
  | tick (seconds : ℕ)
  | getOrCreate (key : ContentKey)
  | upsert (request : Upsert)
  | serve (items : List ItemId)

/-- The show that a season is linked to. -/
def DetailRow.tvShow? : DetailRow → Option ItemId
  | season detail => detail.tvShow
  | _ => none

/-- The row is a season of the show whose name satisfies `p`. -/
def DetailRow.isSeasonOf (tvShow : ItemId) (p : String → Bool) : DetailRow → Bool
  | season detail => detail.tvShow = some tvShow && p detail.tvShowName
  | _ => false

namespace LocalStore

variable (config : StoreConfig) (s : LocalStore)

def lookup (key : ContentKey) : Option ItemId := s.items.first fun _ item => item.key = key

/-- `ContentItem.objects.get_or_create`. -/
def getOrCreate (key : ContentKey) : ItemId × LocalStore :=
  match s.lookup key with
  | some item => (item, s)
  | none => (s.nextId,
      { s with
        items := s.items.set s.nextId
          { sourceApi := key.1, externalId := key.2.1, contentType := key.2.2 }
        nextId := s.nextId + 1 })

/-! ### Hashes -/

/-- The title of a show with detail. -/
def showTitle (tvShow : ItemId) : Option String :=
  (s.details.get? tvShow).bind fun detail =>
    match detail.row with
    | .tvShow detail => some detail.title
    | _ => none

/-- The materialized hash of an item. -/
def currentHash (item : ItemId) : Option SourceHash :=
  (s.items.get? item).bind (·.currentModerationSourceHash)

/-- The hash of an item's detail with the given title of its show. -/
def hashWithTitle (item : ItemId) (tvShowTitle : Option String) : Option SourceHash :=
  (s.items.get? item).bind fun row => (s.details.get? item).bind fun detail =>
    config.semantics.currentHash ⟨row.sourceApi, detail.row, tvShowTitle⟩ detail.children

/-- `current_moderation_source_hash` of the persisted rows, `none` if there is none or it raises. -/
def freshHash (item : ItemId) : Option SourceHash :=
  s.hashWithTitle config item <|
    (s.details.get? item).bind fun detail => detail.row.tvShow?.bind s.showTitle

def setHash (item : ItemId) (sourceHash : Option SourceHash) : LocalStore :=
  match s.items.get? item with
  | none => s
  | some row =>
    { s with items := s.items.set item { row with currentModerationSourceHash := sourceHash } }

/-- `persist_current_moderation_source_hash` for an instance that is read from the tables. -/
def persistHash (item : ItemId) : LocalStore := s.setHash item (s.freshHash config item)

/-! ### Mappers -/

/-- A write of a detail row renews its `last_refreshed_at`. -/
def writeDetail (item : ItemId) (row : DetailRow) (children : ChildRows)
    (releaseDate : Option Date) (status : String) (kind : IngestKind) : LocalStore :=
  { s with
    details := s.details.set item ⟨row, children, releaseDate, status, s.clock⟩
    ingests := ⟨item, kind, s.clock⟩ :: s.ingests }

def replacePlatforms (item : ItemId) (platforms : Option PlatformMap)
    (requestCountry : Option String) : LocalStore :=
  match platforms with
  | none => s
  | some platforms =>
    { s with platforms :=
        replaceStreamingPlatforms item platforms (config.country requestCountry) s.platforms }

/-- The child rows of an item as far as they are stored with it. -/
def storedChildren (item : ItemId) : ChildRows :=
  ((s.details.get? item).map (·.children)).getD {}

/-- `season.upsert`. -/
def upsertSeasonDetail (item : ItemId) (payload : SeasonPayload) (tvShow : Option ItemId)
    (kind : IngestKind) (requestCountry : Option String) : Option LocalStore :=
  if hasPayloadShape payload.id payload.type "season" then
    (payload.replaceEpisodes (s.storedChildren item)).map fun children =>
      (s.writeDetail item (.season (payload.toRow tvShow)) children payload.releaseDate ""
        kind).replacePlatforms config item payload.platforms requestCountry
  else none

/-- `_resolve_local_tv_show`: by the external id before the first colon. -/
def resolveLocalTvShow (season : ContentItem) : Option ItemId :=
  let tvShowId := season.externalId.toList.takeWhile (· ≠ ':')
  if ':' ∈ season.externalId.toList ∧ tvShowId ≠ [] then
    s.lookup (season.sourceApi, String.ofList tvShowId, .tvShow)
  else none

/-- One nested entry. The instance of a season whose detail is created has it cached, linked to the
    caller's instance of the show, whose title it is hashed with. -/
def upsertNestedSeason (tvShow : ItemId) (tvShowItem : ContentItem) (payload : TvShowPayload)
    (instanceTitle requestCountry : Option String) (entry : ℤ × SeasonPayload) :
    Option LocalStore :=
  let key := tvShowItem.seasonKey entry.1
  let item := (s.getOrCreate key).1
  let s := (s.getOrCreate key).2
  let isCreated := (s.details.get? item).isNone
  (s.upsertSeasonDetail config item (payload.nestedPayload key.2.1 entry.2) (some tvShow) .nested
      requestCountry).map fun s =>
    if isCreated then s.setHash item (s.hashWithTitle config item instanceTitle)
    else s.persistHash config item

/-- `_upsert_seasons`. -/
def upsertSeasons (tvShow : ItemId) (tvShowItem : ContentItem) (payload : TvShowPayload)
    (instanceTitle requestCountry : Option String) :
    LocalStore → List (ℤ × SeasonPayload) → Option LocalStore
  | s, [] => some s
  | s, entry :: entries =>
    (s.upsertNestedSeason config tvShow tvShowItem payload instanceTitle requestCountry entry).bind
      fun s => upsertSeasons tvShow tvShowItem payload instanceTitle requestCountry s entries

/-- `_dependent_seasons_on_parent_name_change`. -/
def dependentSeasons (tvShow : ItemId) (nextName : String) : List ItemId :=
  if s.showTitle tvShow = some nextName then []
  else s.details.keysWhere fun _ detail => detail.row.isSeasonOf tvShow (· = "")

/-- The title that the caller's instance of a show gives after its detail has been upserted: a new row
    is cached, an old one stays cached. -/
def instanceTitle (tvShow : ItemId) (title : String) (cachedTvShow : Option (Option String)) :
    Option String :=
  if (s.details.get? tvShow).isNone then some title else cachedTvShow.getD (some title)

/-- The show's own rows, before its nested seasons. -/
def writeTvShow (tvShow : ItemId) (payload : TvShowPayload) (requestCountry : Option String) :
    LocalStore :=
  (s.writeDetail tvShow (.tvShow payload.toRow) (s.storedChildren tvShow) payload.releaseDate
    (payload.status.getD "") .own).replacePlatforms config tvShow payload.platforms requestCountry

/-! ### Upserts with moderation hash -/

def upsertTvShow (tvShow : ItemId) (tvShowItem : ContentItem) (payload : TvShowPayload)
    (cachedTvShow : Option (Option String)) (requestCountry : Option String) :
    Option LocalStore :=
  if hasPayloadShape payload.id payload.type "tv_show" then
    let title := payload.title.getD ""
    let dependentSeasons := s.dependentSeasons tvShow title
    let instanceTitle := s.instanceTitle tvShow title cachedTvShow
    let s := s.writeTvShow config tvShow payload requestCountry
    (upsertSeasons config tvShow tvShowItem payload instanceTitle requestCountry s
      payload.nestedSeasons).map fun s =>
        dependentSeasons.foldl (·.persistHash config ·) (s.persistHash config tvShow)
  else none

/-- `upsert_detail_with_moderation_hash`; `none` if it raises, and is rolled back. -/
def upsertDetail (request : Upsert) : Option LocalStore :=
  (s.items.get? request.item).bind fun item =>
    match item.contentType, request.payload with
    | .tvShow, .tvShow payload =>
      s.upsertTvShow config request.item item payload request.cachedTvShow request.requestCountry
    | .season, .season payload =>
      (s.upsertSeasonDetail config request.item payload (s.resolveLocalTvShow item) .own
        request.requestCountry).map (·.persistHash config request.item)
    | .movie, .movie row children releaseDate status platforms =>
      some (((s.writeDetail request.item (.movie row) children releaseDate status
        .own).replacePlatforms config request.item platforms
        request.requestCountry).persistHash config request.item)
    | contentType, .other row children releaseDate =>
      if contentType = row.contentType ∧ contentType ∈ [.game, .album, .book] then
        some ((s.writeDetail request.item row children releaseDate "" .own).persistHash config
          request.item)
      else none
    | _, _ => none

/-! ### Reads -/

/-- The child rows of an item, with the seasons that are linked to it. -/
def childRows (item : ItemId) : ChildRows :=
  { s.storedChildren item with
    seasonChildren := s.details.keysWhere fun _ detail => detail.row.isSeasonOf item fun _ => true }

/-- `detail_is_fresh` of a detail. -/
def detailIsFresh (policy : RefreshPolicyConfig) (now : Time) (detail : StoredDetail) : Bool :=
  now - detail.lastRefreshedAt
    ≤ (computeRefreshPolicy policy detail.row.contentType detail.releaseDate detail.status now).ttl

/-- `_classify` of one item. -/
def classify (item : ItemId) : LocalState :=
  match s.details.get? item with
  | none => .missing
  | some detail =>
    if config.forceProxyFetch then .stale
    else if !detailIsComplete detail.row (s.childRows item) then .incomplete
    else if detailIsFresh config.policy s.clock detail then .fresh
    else .stale

/-- The details that `fetch_bulk_source_data` serves as fresh. -/
def serveFresh (items : List ItemId) : List FreshRead :=
  items.filterMap fun item =>
    (s.details.get? item).bind fun detail =>
      if s.classify config item = .fresh then some ⟨item, detail, s.clock⟩ else none

def step : StoreAction → Option LocalStore
  | .tick seconds => some { s with clock := s.clock + seconds }
  | .getOrCreate key => some (s.getOrCreate key).2
  | .upsert request => s.upsertDetail config request
  | .serve items => some { s with served := s.serveFresh config items ++ s.served }

end LocalStore

def localStoreSystem (config : StoreConfig) : TransitionSystem LocalStore StoreAction where
  initial s := s = .empty
  step s a := s.step config a

end Denn
