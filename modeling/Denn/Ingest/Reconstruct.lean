import Denn.Core.Query
import Denn.Ingest.Tolerance
import Mathlib.Logic.Embedding.Basic

/-!
# Reconstruction

What the `from_local` of movies, albums, games and books makes of the rows of an item. Empty texts,
empty lists and nulls are left out of the payload, and so are the time stamps here. The rows of each
table come in the order of its `Meta.ordering`: authors and images by position, tracks by number, names
by their collation, and streaming platforms in any order, as their table has none.
-/

namespace Denn.Ingest

open Denn.Core

variable {slugify : String → String}

/-! ### Fields -/

/-- A text, left out if it is empty. -/
def omitEmpty (text : String) : Option String := (some text).filter (· ≠ "")

/-- A boolean, left out if it is unknown. -/
def serializeBool : Option Bool → Json
  | some b => .bool b
  | none => .null

/-- `serialize_release_date`. -/
def serializeReleaseDate (date : Option CalendarDate) : Option String := date.map (·.isoformat)

/-- `serialize_safety_list`, left out if it is empty. -/
def serializeSafetyList {α : Type} (write : α → Json) (values : List α) : Json :=
  if values = [] then .null else .arr (values.map write)

def Certification.toJson (certification : Certification) : Json :=
  .obj [("country", .str certification.country), ("rating", .str certification.rating)]

/-- An entry of `_serialize_age_ratings`, without descriptors if there are none. -/
def AgeRating.toJson (rating : AgeRating) : Json :=
  .obj (("organization", .str rating.organization) :: ("rating", .str rating.rating) ::
    if rating.descriptors = [] then [] else [("descriptors", .strings rating.descriptors)])

/-- The name in the row that is linked. -/
def Catalog.text (catalog : Catalog slugify) (slug : String) : String :=
  ((catalog.nameAt? slug).map (·.val)).getD ""

/-- `serialize_authors`, and the authors of a track. -/
def serializeAuthors (authors : Catalog slugify) (rows : List CreditRow) : List AuthorEntry :=
  rows.map fun row => { name := some (authors.text row.author), type := some row.role }

/-- `serialize_images`. -/
def serializeImages (rows : List ImageRow) : List ImageEntry :=
  rows.map fun row => { type := some row.type, size := some row.size, imageUrl := some row.imageUrl }

def StreamingRow.entry (row : StreamingRow) : PlatformPayload where
  name := some row.name
  imageUrl := omitEmpty row.imageUrl

/-- The bucket of a kind. -/
def platformBucket (rows : List StreamingRow) (kind : StreamingKind) : List PlatformPayload :=
  (rows.filter (·.kind = kind)).map StreamingRow.entry

/-- `serialize_streaming_platforms` of all countries. -/
def serializeStreamingPlatforms (rows : List StreamingRow) : PlatformMap where
  stream := platformBucket rows .stream
  rent := platformBucket rows .rent
  buy := platformBucket rows .buy

/-! ### Payloads -/

def MoviePayload.fromLocal (authors : Catalog slugify) (item : ContentItem)
    (read : ScreenRecord MovieRow) : MoviePayload where
  id := some item.externalId
  type := some "movie"
  title := some read.detail.title
  originalTitle := some read.detail.originalTitle
  imdbId := omitEmpty read.detail.imdbId
  tagline := omitEmpty read.detail.tagline
  description := omitEmpty read.detail.description
  imageUrl := omitEmpty read.detail.imageUrl
  releaseDate := serializeReleaseDate read.detail.releaseDate
  status := omitEmpty read.detail.status
  durationMinutes := read.detail.durationMinutes
  adult := serializeBool read.detail.adult
  genres := serializeSafetyList .str read.detail.genres
  keywords := serializeSafetyList .str read.detail.keywords
  certifications := serializeSafetyList Certification.toJson read.detail.certifications
  authors := serializeAuthors authors read.credits
  images := serializeImages read.images
  platforms := serializeStreamingPlatforms read.platforms

def TrackRecord.entry (authors : Catalog slugify) (track : TrackRecord) : TrackEntry where
  id := some track.row.trackIdExternal
  trackNumber := some track.row.trackNumber
  title := omitEmpty track.row.title
  durationSeconds := track.row.durationSeconds
  externalUrl := omitEmpty track.row.externalUrl
  explicit := serializeBool track.row.explicit
  authors := serializeAuthors authors track.credits

def AlbumPayload.fromLocal (authors : Catalog slugify) (item : ContentItem) (read : AlbumRecord) :
    AlbumPayload where
  id := some item.externalId
  type := some "album"
  title := some read.detail.title
  imageUrl := omitEmpty read.detail.imageUrl
  releaseDate := serializeReleaseDate read.detail.releaseDate
  totalTracks := read.detail.totalTracks
  durationMinutes := read.detail.durationMinutes
  albumType := omitEmpty read.detail.albumType
  externalUrl := omitEmpty read.detail.externalUrl
  authors := serializeAuthors authors read.credits
  images := serializeImages read.images
  tracks := read.tracks.map (TrackRecord.entry authors)

def durationStatusText : DurationStatus → String
  | .matched => "matched"
  | .noData => "no_data"
  | .stale => "stale"
  | .error => "error"

/-- The `duration` of a payload, with the data rules applied. -/
def serializeDuration (estimate : EstimateRow) : DurationPayload :=
  let values := normalizeGameDurationValues estimate.values
  { source := some "igdb"
    status := some (durationStatusText (normalizedGameDurationStatus estimate.status values))
    hastilySeconds := values.hastilySeconds.map (↑)
    normallySeconds := values.normallySeconds.map (↑)
    completelySeconds := values.completelySeconds.map (↑)
    sampleCount := (some estimate.sampleCount).filter (· ≠ 0) }

def GamePlatformRow.entry (row : GamePlatformRow) : PlatformPayload where
  name := some row.name
  imageUrl := omitEmpty row.imageUrl

/-- `play_time`, if one of its columns is set. -/
def serializePlayTime (min max : Option ℤ) : Option PlayTime :=
  if min.isSome || max.isSome then some ⟨min, max⟩ else none

def GamePayload.fromLocal (store : Store slugify) (item : ContentItem) (read : GameRecord) :
    GamePayload where
  id := some item.externalId
  type := some "game"
  title := some read.detail.title
  gameType := omitEmpty read.detail.gameType
  description := omitEmpty read.detail.description
  imageUrl := omitEmpty read.detail.imageUrl
  releaseDate := serializeReleaseDate read.detail.releaseDate
  series := omitEmpty read.detail.series
  playTime := serializePlayTime read.detail.playTimeMin read.detail.playTimeMax
  duration := read.estimate.map serializeDuration
  authors := serializeAuthors store.authors read.credits
  platforms := read.platforms.map GamePlatformRow.entry
  keywords := serializeSafetyList .str read.detail.keywords
  ageRatings := serializeSafetyList AgeRating.toJson read.detail.ageRatings
  genres := read.genres.map store.genres.text
  themes := read.themes.map store.themes.text
  gameModes := read.gameModes.map store.gameModes.text
  images := serializeImages read.images

def BookPayload.fromLocal (authors : Catalog slugify) (item : ContentItem) (read : BookRecord) :
    BookPayload where
  id := some item.externalId
  type := some "book"
  title := some read.detail.title
  imageUrl := omitEmpty read.detail.imageUrl
  releaseDate := serializeReleaseDate read.detail.releaseDate
  pages := read.detail.pages
  description := omitEmpty read.detail.description
  subjects := serializeSafetyList .str read.detail.subjects
  authors := serializeAuthors authors read.credits
  images := serializeImages read.images

/-! ### Reading -/

/-- The rows of a record as queries can return them. Ids, which break ties of positions, are left out;
    no two credits and no two images of an item share one. -/
structure ScreenRecord.Reads {ρ : Type} (record read : ScreenRecord ρ) : Prop where
  detail : read.detail = record.detail
  credits : ReadsBy (·.position) record.credits read.credits
  images : ReadsBy (·.position) record.images read.images
  platforms : ReadsBy (fun _ => ()) record.platforms read.platforms

structure TrackRecord.Reads (track read : TrackRecord) : Prop where
  row : read.row = track.row
  credits : ReadsBy (·.position) track.credits read.credits

structure AlbumRecord.Reads (record read : AlbumRecord) : Prop where
  detail : read.detail = record.detail
  credits : ReadsBy (·.position) record.credits read.credits
  images : ReadsBy (·.position) record.images read.images
  tracks : ∃ tracks, ReadsBy (·.row.trackNumber) record.tracks tracks ∧
    List.Forall₂ TrackRecord.Reads tracks read.tracks

/-- A collation orders names by their sort keys and does not confuse two of them. -/
structure GameRecord.Reads {κ : Type*} [LinearOrder κ] (collate : String ↪ κ)
    (store : Store slugify) (record read : GameRecord) : Prop where
  detail : read.detail = record.detail
  credits : ReadsBy (·.position) record.credits read.credits
  images : ReadsBy (·.position) record.images read.images
  genres : ReadsBy (fun slug => collate (store.genres.text slug)) record.genres read.genres
  themes : ReadsBy (fun slug => collate (store.themes.text slug)) record.themes read.themes
  gameModes : ReadsBy (fun slug => collate (store.gameModes.text slug)) record.gameModes
    read.gameModes
  platforms : ReadsBy (fun row => collate row.name) record.platforms read.platforms
  estimate : read.estimate = record.estimate

structure BookRecord.Reads (record read : BookRecord) : Prop where
  detail : read.detail = record.detail
  credits : ReadsBy (·.position) record.credits read.credits
  images : ReadsBy (·.position) record.images read.images

/-- The payloads that `from_local` can return for a movie, an album, a game or a book. -/
inductive FromLocal {κ : Type*} [LinearOrder κ] (collate : String ↪ κ) (store : Store slugify)
    (item : ContentItem) : Payload → Prop
  | movie {record read : ScreenRecord MovieRow} (htype : item.contentType = .movie)
      (hrecord : store.movies.get? item = some record) (hread : record.Reads read) :
      FromLocal collate store item (.movie (.fromLocal store.authors item read))
  | album {record read : AlbumRecord} (htype : item.contentType = .album)
      (hrecord : store.albums.get? item = some record) (hread : record.Reads read) :
      FromLocal collate store item (.album (.fromLocal store.authors item read))
  | game {record read : GameRecord} (htype : item.contentType = .game)
      (hrecord : store.games.get? item = some record) (hread : record.Reads collate store read) :
      FromLocal collate store item (.game (.fromLocal store item read))
  | book {record read : BookRecord} (htype : item.contentType = .book)
      (hrecord : store.books.get? item = some record) (hread : record.Reads read) :
      FromLocal collate store item (.book (.fromLocal store.authors item read))

end Denn.Ingest
