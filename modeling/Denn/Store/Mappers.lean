import Denn.Content.Detail
import Denn.Core.Table
import Denn.Store.RefreshPolicy

/-!
# Payloads

The proxy's payloads and the rows that the mappers make of them. A payload field is `none` if it is
absent or null; of the season fields `episodes` and `platforms` the mappers distinguish the two, so
their absence is `none`, and null is the empty list or map.
-/

namespace Denn

open Core

/-- `StreamingPlatform.Kind`. -/
inductive StreamingKind where
  | stream
  | rent
  | buy
  deriving DecidableEq, Repr

def StreamingKind.values : List StreamingKind := [.stream, .rent, .buy]

structure PlatformPayload where
  name : Option String
  imageUrl : Option String := none

/-- A `platforms` object, without the kinds that the store does not know. -/
structure PlatformMap where
  stream : List PlatformPayload := []
  rent : List PlatformPayload := []
  buy : List PlatformPayload := []

def PlatformMap.get (platforms : PlatformMap) : StreamingKind → List PlatformPayload
  | .stream => platforms.stream
  | .rent => platforms.rent
  | .buy => platforms.buy

structure EpisodePayload where
  externalId : Option String
  episodeNumber : Option ℤ := none
  title : Option String := none
  description : Option String := none

/-- A season, on its own or nested in its show. Nested entries that are no objects or have no integer
    number are those without `seasonNumber`. -/
structure SeasonPayload where
  id : Option String := none
  type : Option String := none
  seasonNumber : Option ℤ := none
  tvShowName : Option String := none
  title : Option String := none
  description : Option String := none
  releaseDate : Option Date := none
  numberOfEpisodes : Option ℕ := none
  episodes : Option (List EpisodePayload) := none
  platforms : Option PlatformMap := none

structure TvShowPayload where
  id : Option String := none
  type : Option String := none
  title : Option String := none
  originalTitle : Option String := none
  tagline : Option String := none
  description : Option String := none
  releaseDate : Option Date := none
  status : Option String := none
  adult : Json := .null
  genres : Json := .null
  keywords : Json := .null
  numberOfSeasons : Option ℕ := none
  seasons : Option (List SeasonPayload) := none
  platforms : PlatformMap := {}

/-- A payload of the proxy. Of movies, albums, games and books it is given by the rows that their
    mappers make of it. -/
inductive DetailPayload where
  | tvShow (payload : TvShowPayload)
  | season (payload : SeasonPayload)
  | movie (row : MovieDetail) (children : ChildRows) (releaseDate : Option Date) (status : String)
      (platforms : PlatformMap)
  | other (row : DetailRow) (children : ChildRows) (releaseDate : Option Date)

/-- `require_payload_shape`. -/
def hasPayloadShape (id type : Option String) (expectedType : String) : Bool :=
  id.getD "" ≠ "" && (type.getD "" = "" || type = some expectedType)

/-- `a or b or ... or ""`. -/
def firstText (texts : List (Option String)) : String :=
  (texts.findSome? fun text => text.filter (· ≠ "")).getD ""

def cleanOptionalBool : Json → Option Bool
  | .bool b => some b
  | _ => none

def maxStoredGenres : ℕ := 100

def maxStoredKeywords : ℕ := 100

/-- `clean_text_list`: stripped texts without duplicates, up to a limit. -/
def cleanTextList (limit : ℕ) : Json → List String
  | .arr values =>
    let texts := values.filterMap fun
      | .str text => some (strip text)
      | _ => none
    ((texts.filter (· ≠ "")).eraseDups).take limit
  | _ => []

def TvShowPayload.toRow (payload : TvShowPayload) : TvShowDetail where
  title := payload.title.getD ""
  originalTitle := payload.originalTitle.getD ""
  tagline := payload.tagline.getD ""
  description := payload.description.getD ""
  adult := cleanOptionalBool payload.adult
  genres := .strings (cleanTextList maxStoredGenres payload.genres)
  keywords := .strings (cleanTextList maxStoredKeywords payload.keywords)
  numberOfSeasons := payload.numberOfSeasons

/-- The nested entries that are persisted, by season number. -/
def TvShowPayload.nestedSeasons (payload : TvShowPayload) : List (ℤ × SeasonPayload) :=
  (payload.seasons.getD []).filterMap fun entry => entry.seasonNumber.map (·, entry)

/-- The show name that a nested entry is stored with. -/
def TvShowPayload.nestedName (payload : TvShowPayload) (entry : SeasonPayload) : String :=
  firstText [entry.tvShowName, payload.title, payload.originalTitle]

/-- The payload that is made of a nested entry of a show. -/
def TvShowPayload.nestedPayload (payload : TvShowPayload) (externalId : String)
    (entry : SeasonPayload) : SeasonPayload :=
  { entry with
    id := some externalId
    type := some "season"
    tvShowName := some (payload.nestedName entry) }

/-- The declared number of episodes, or the number of those listed. -/
def SeasonPayload.declaredCount (payload : SeasonPayload) : ℕ :=
  (payload.numberOfEpisodes.filter (· ≠ 0)).getD (payload.episodes.getD []).length

def SeasonPayload.toRow (payload : SeasonPayload) (tvShow : Option ItemId) : SeasonDetail where
  tvShow := tvShow
  seasonNumber := payload.seasonNumber.getD 0
  tvShowName := payload.tvShowName.getD ""
  title := payload.title.getD ""
  description := payload.description.getD ""
  numberOfEpisodes := payload.declaredCount

/-- An entry without an id has no row. -/
def EpisodePayload.toRow (entry : EpisodePayload) : Option EpisodeRow :=
  (entry.externalId.filter (· ≠ "")).map fun externalId =>
    { episodeIdExternal := externalId, episodeNumber := entry.episodeNumber.getD 0,
      title := entry.title.getD "", description := entry.description.getD "" }

def SeasonPayload.episodeRows (payload : SeasonPayload) : Option (List EpisodeRow) :=
  payload.episodes.map (·.filterMap EpisodePayload.toRow)

/-- The children that a season payload leaves: its episodes if it carries any list of them. `none`
    if two of them have one id. -/
def SeasonPayload.replaceEpisodes (payload : SeasonPayload) (children : ChildRows) :
    Option ChildRows :=
  match payload.episodeRows with
  | none => some children
  | some rows =>
    if (rows.map (·.episodeIdExternal)).Nodup then
      some { children with
        episodes := rows.insertionSort fun a b => a.episodeNumber ≤ b.episodeNumber }
    else none

/-! ### Streaming platforms -/

/-- A row of a streaming platform, without its image: the columns that are unique together. -/
structure PlatformKey where
  item : ItemId
  kind : StreamingKind
  name : String
  countryCode : String
  deriving DecidableEq, Repr

/-- The entries of a `platforms` object, by kind. -/
def PlatformMap.entries (platforms : PlatformMap) : List (StreamingKind × PlatformPayload) :=
  StreamingKind.values.flatMap fun kind => (platforms.get kind).map (kind, ·)

/-- An entry is stored unless it has no name or one that has been stored for its kind. -/
def addPlatform (item : ItemId) (country : String) (rows : Table PlatformKey String)
    (entry : StreamingKind × PlatformPayload) : Table PlatformKey String :=
  match entry.2.name.filter (· ≠ "") with
  | none => rows
  | some name =>
    let key : PlatformKey := ⟨item, entry.1, name, country⟩
    if (rows.get? key).isSome then rows else rows.set key (entry.2.imageUrl.getD "")

/-- `replace_streaming_platforms`: the rows of the item for the country are replaced. -/
def replaceStreamingPlatforms (item : ItemId) (platforms : PlatformMap) (country : String)
    (rows : Table PlatformKey String) : Table PlatformKey String :=
  platforms.entries.foldl (addPlatform item country)
    (rows.deleteWhere fun key _ => key.item = item && key.countryCode = country)

lemma get?_addPlatform_of_ne {item : ItemId} {country : String} {key : PlatformKey}
    (h : ¬ (key.item = item ∧ key.countryCode = country)) (rows : Table PlatformKey String)
    (entry : StreamingKind × PlatformPayload) :
    (addPlatform item country rows entry).get? key = rows.get? key := by
  unfold addPlatform
  cases hname : entry.2.name.filter (· ≠ "") with
  | none => rfl
  | some name =>
    simp only
    split_ifs
    · rfl
    · refine Table.get?_set_ne _ _ ?_
      rintro rfl
      exact h ⟨rfl, rfl⟩

/-- The rows of other items and of other countries stay. -/
lemma get?_replaceStreamingPlatforms_of_ne {item : ItemId} {country : String} {key : PlatformKey}
    (h : ¬ (key.item = item ∧ key.countryCode = country)) (platforms : PlatformMap)
    (rows : Table PlatformKey String) :
    (replaceStreamingPlatforms item platforms country rows).get? key = rows.get? key := by
  have hfold : ∀ (entries : List (StreamingKind × PlatformPayload))
      (rows : Table PlatformKey String),
      (entries.foldl (addPlatform item country) rows).get? key = rows.get? key := by
    intro entries
    induction entries with
    | nil => exact fun _ => rfl
    | cons entry entries ih =>
      intro rows
      rw [List.foldl_cons, ih, get?_addPlatform_of_ne h]
  rw [replaceStreamingPlatforms, hfold, Table.get?_deleteWhere]
  have hkeep : (key.item = item && key.countryCode = country) = false := by
    simpa only [Bool.and_eq_false_iff, decide_eq_false_iff_not, ← not_and_or] using h
  cases rows.get? key <;> simp [hkeep]

end Denn
