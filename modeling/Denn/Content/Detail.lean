import Denn.Content.State

/-!
# Detail rows

The normalized detail of an item as it is persisted: one main row of its content type and its child
rows. A payload of the proxy's shape is reconstructed from them; moderation reads the payload only.
-/

namespace Denn

open Core

/-- The columns that movies and TV shows share. -/
structure ScreenDetail where
  title : String := ""
  originalTitle : String := ""
  tagline : String := ""
  description : String := ""
  adult : Option Bool := none
  genres : Json := .arr []
  keywords : Json := .arr []

abbrev MovieDetail := ScreenDetail

structure TvShowDetail extends ScreenDetail where
  numberOfSeasons : Option ℕ := none

structure SeasonDetail where
  tvShow : Option ItemId := none
  seasonNumber : ℤ := 0
  tvShowName : String := ""
  title : String := ""
  description : String := ""
  numberOfEpisodes : ℕ := 0
  deriving DecidableEq

structure GameDetail where
  title : String := ""
  gameType : String := ""
  description : String := ""
  series : String := ""
  keywords : Json := .arr []
  ageRatings : Json := .arr []

structure AlbumDetail where
  title : String := ""

structure BookDetail where
  title : String := ""
  description : String := ""
  subjects : Json := .arr []

/-- The main row of an item. -/
inductive DetailRow where
  | movie (detail : MovieDetail)
  | tvShow (detail : TvShowDetail)
  | season (detail : SeasonDetail)
  | game (detail : GameDetail)
  | album (detail : AlbumDetail)
  | book (detail : BookDetail)

def DetailRow.contentType : DetailRow → ContentType
  | movie _ => .movie
  | tvShow _ => .tvShow
  | season _ => .season
  | game _ => .game
  | album _ => .album
  | book _ => .book

/-- An author row, with its role. -/
structure AuthorRow where
  name : String
  role : String

structure EpisodeRow where
  episodeIdExternal : String
  episodeNumber : ℤ
  title : String
  description : String
  deriving DecidableEq

structure TrackRow where
  trackIdExternal : String
  trackNumber : ℤ
  title : String
  explicit : Option Bool
  authors : List AuthorRow

inductive DurationStatus where
  | matched
  | noData
  | stale
  | error
  deriving DecidableEq, Repr

/-- A duration estimate; the only provider is IGDB. -/
structure GameDurationEstimateRow where
  status : DurationStatus
  retryCount : ℕ
  hastilySeconds : Option ℕ := none
  normallySeconds : Option ℕ := none
  completelySeconds : Option ℕ := none

/-- The child rows of an item, each list in its table's ordering. -/
structure ChildRows where
  authors : List AuthorRow := []
  episodes : List EpisodeRow := []
  tracks : List TrackRow := []
  genres : List String := []
  themes : List String := []
  gameModes : List String := []
  seasonChildren : List ItemId := []
  gameDurationEstimates : List GameDurationEstimateRow := []

/-! ### Reconstruction -/

/-- `if text: payload[key] = text`. -/
def optionalText (key text : String) : List (String × Json) :=
  if text = "" then [] else [(key, .str text)]

/-- `if values: payload[key] = values`. -/
def optionalList (key : String) (values : List Json) : List (String × Json) :=
  if values.isEmpty then [] else [(key, .arr values)]

/-- `serialize_safety_list`. -/
def safetyList : Json → List Json
  | .arr values => values
  | _ => []

def serializeAuthors (authors : List AuthorRow) : List Json :=
  authors.map fun author => .obj [("name", .str author.name), ("type", .str author.role)]

/-- `add_safety_metadata`. -/
def safetyMetadata (detail : ScreenDetail) : List (String × Json) :=
  (match detail.adult with
    | some adult => [("adult", .bool adult)]
    | none => [])
  ++ optionalList "genres" (safetyList detail.genres)
  ++ optionalList "keywords" (safetyList detail.keywords)

def screenPayload (kind : String) (detail : ScreenDetail) : List (String × Json) :=
  [("type", .str kind), ("title", .str detail.title), ("original_title", .str detail.originalTitle)]
  ++ optionalText "tagline" detail.tagline ++ optionalText "description" detail.description
  ++ safetyMetadata detail

/-- The name of a season's show: its own column, or the title of the local show if that is blank. -/
def SeasonDetail.parentShowName (detail : SeasonDetail) (tvShowTitle : Option String) : String :=
  if isBlank detail.tvShowName && detail.tvShow.isSome then tvShowTitle.getD ""
  else detail.tvShowName

def serializeEpisode (episode : EpisodeRow) : Json :=
  .obj ([("id", .str episode.episodeIdExternal), ("episode_number", .int episode.episodeNumber)]
    ++ optionalText "title" episode.title ++ optionalText "description" episode.description)

def seasonPayload (detail : SeasonDetail) (tvShowTitle : Option String) (children : ChildRows) :
    List (String × Json) :=
  let tvShowName := detail.parentShowName tvShowTitle
  [("type", .str "season"), ("season_number", .int detail.seasonNumber)]
  ++ optionalText "title" detail.title
  ++ (if isBlank tvShowName then [] else [("tv_show_name", .str tvShowName)])
  ++ optionalText "description" detail.description
  ++ [("number_of_episodes", .int detail.numberOfEpisodes)]
  ++ optionalList "episodes" (children.episodes.map serializeEpisode)

/-- `_serialize_age_ratings`: entries that are objects, without their empty lists. -/
def serializeAgeRatings (value : Json) : List Json :=
  (safetyList value).filterMap fun
    | .obj rating => some (.obj (rating.filter fun field =>
        match field.2 with
        | .arr [] => false
        | _ => true))
    | _ => none

def gamePayload (detail : GameDetail) (children : ChildRows) : List (String × Json) :=
  [("type", .str "game"), ("title", .str detail.title)]
  ++ optionalText "game_type" detail.gameType ++ optionalText "description" detail.description
  ++ optionalText "series" detail.series
  ++ optionalList "keywords" (safetyList detail.keywords)
  ++ optionalList "age_ratings" (serializeAgeRatings detail.ageRatings)
  ++ optionalList "genres" (children.genres.map .str)
  ++ optionalList "themes" (children.themes.map .str)
  ++ optionalList "game_modes" (children.gameModes.map .str)

def serializeTrack (track : TrackRow) : Json :=
  .obj ([("id", .str track.trackIdExternal), ("track_number", .int track.trackNumber)]
    ++ optionalText "title" track.title
    ++ (match track.explicit with
      | some explicit => [("explicit", .bool explicit)]
      | none => [])
    ++ optionalList "authors" (serializeAuthors track.authors))

def albumPayload (detail : AlbumDetail) (children : ChildRows) : List (String × Json) :=
  [("type", .str "album"), ("title", .str detail.title)]
  ++ optionalList "authors" (serializeAuthors children.authors)
  ++ optionalList "tracks" (children.tracks.map serializeTrack)

def bookPayload (detail : BookDetail) (children : ChildRows) : List (String × Json) :=
  [("type", .str "book"), ("title", .str detail.title)]
  ++ optionalText "description" detail.description
  ++ optionalList "subjects" (safetyList detail.subjects)
  ++ optionalList "authors" (serializeAuthors children.authors)

/-- `from_local` of a loaded main row; `tvShowTitle` is the title of a season's local show. -/
def fromLocal (row : DetailRow) (tvShowTitle : Option String) (children : ChildRows) : Json :=
  .obj <|
    match row with
    | .movie detail => screenPayload "movie" detail
    | .tvShow detail => screenPayload "tv_show" detail.toScreenDetail
    | .season detail => seasonPayload detail tvShowTitle children
    | .game detail => gamePayload detail children
    | .album detail => albumPayload detail children
    | .book detail => bookPayload detail children

/-- The hash of persisted text, `current_moderation_source_hash`. -/
def currentModerationSourceHash (sourceApi : SourceAPI) (row : DetailRow)
    (tvShowTitle : Option String) (children : ChildRows) : Except ModerationStateError String :=
  (buildModerationState sourceApi row.contentType (fromLocal row tvShowTitle children)).map
    hashModerationState

/-! ### What moderation reads -/

/-- A rating that is exactly `AO` of the ESRB. -/
def isAdultsOnly (rating : Json) : Bool :=
  match rating.get "organization", rating.get "rating" with
  | .str organization, .str rating => organization = "ESRB" && rating = "AO"
  | _, _ => false

/-- `_provider_explicit` on a reconstructed payload. -/
def payloadIsExplicit (sourceApi : SourceAPI) (contentType : ContentType) (payload : Json) : Bool :=
  match sourceApi, contentType with
  | .tmdb, .movie | .tmdb, .tvShow =>
    match payload.get "adult" with
    | .bool true => true
    | _ => false
  | .igdb, .game =>
    match payload.get "age_ratings" with
    | .arr ratings => ratings.any isAdultsOnly
    | _ => false
  | _, _ => false

def maxGameDurationRetries : ℕ := 3

/-- `detail_is_complete` of an item that has a detail. -/
def detailIsComplete (row : DetailRow) (children : ChildRows) : Bool :=
  match row with
  | .game _ => children.gameDurationEstimates.any fun estimate =>
      estimate.status ≠ .error || maxGameDurationRetries ≤ estimate.retryCount
  | .tvShow detail => detail.numberOfSeasons.getD 0 = 0 || !children.seasonChildren.isEmpty
  | _ => true

end Denn
