import Denn.Core.IsoDate
import Denn.Ingest.Payload
import Denn.Store.Reconstruct

/-!
# Detail rows and their constraints

The rows that the mappers write: one detail row for an item, the rows of its children, and the
constraints of their tables, as the migrations create them. Hashes and time stamps are left out, and
so are the widths of the columns, which raise no integrity error.
-/

namespace Denn.Ingest

open Denn.Core

/-- A content item: the columns that are unique together. -/
structure ContentItem where
  sourceApi : SourceAPI
  externalId : String
  contentType : ContentType
  deriving DecidableEq

/-- The check of a nullable `PositiveIntegerField`. -/
def nonNegative (value : Option ℤ) : Bool := value.all (0 ≤ ·)

/-! ### Detail rows -/

/-- The columns that movies and TV shows share. -/
structure ScreenRow where
  title : String
  originalTitle : String
  tagline : String
  description : String
  imageUrl : String
  releaseDate : Option CalendarDate
  status : String
  imdbId : String
  adult : Option Bool
  genres : List String
  keywords : List String
  certifications : List Certification
  deriving DecidableEq

structure MovieRow extends ScreenRow where
  durationMinutes : Option ℤ
  deriving DecidableEq

structure TvShowRow extends ScreenRow where
  numberOfSeasons : Option ℤ
  numberOfEpisodes : Option ℤ
  deriving DecidableEq

structure SeasonRow where
  tvShow : Option ContentItem
  seasonNumber : ℤ
  tvShowName : String
  title : String
  description : String
  imageUrl : String
  releaseDate : Option CalendarDate
  numberOfEpisodes : ℤ
  deriving DecidableEq

structure AlbumRow where
  title : String
  albumType : String
  totalTracks : Option ℤ
  durationMinutes : Option ℤ
  imageUrl : String
  releaseDate : Option CalendarDate
  externalUrl : String
  deriving DecidableEq

structure GameRow where
  title : String
  gameType : String
  description : String
  imageUrl : String
  releaseDate : Option CalendarDate
  series : String
  playTimeMin : Option ℤ
  playTimeMax : Option ℤ
  keywords : List String
  ageRatings : List AgeRating
  deriving DecidableEq

structure BookRow where
  title : String
  description : String
  pages : Option ℤ
  imageUrl : String
  releaseDate : Option CalendarDate
  subjects : List String
  deriving DecidableEq

def MovieRow.check (row : MovieRow) : Bool := nonNegative row.durationMinutes

def TvShowRow.check (row : TvShowRow) : Bool :=
  nonNegative row.numberOfSeasons && nonNegative row.numberOfEpisodes

def SeasonRow.check (row : SeasonRow) : Bool := 0 ≤ row.numberOfEpisodes

def AlbumRow.check (row : AlbumRow) : Bool :=
  nonNegative row.totalTracks && nonNegative row.durationMinutes

def GameRow.check (row : GameRow) : Bool :=
  nonNegative row.playTimeMin && nonNegative row.playTimeMax

def BookRow.check (row : BookRow) : Bool := nonNegative row.pages

/-! ### Children -/

/-- A credit of an item or a track; `author` is the slug of the author's row. -/
structure CreditRow where
  author : String
  role : String
  position : ℕ
  deriving DecidableEq

structure ImageRow where
  type : String
  size : String
  imageUrl : String
  position : ℕ
  deriving DecidableEq

structure StreamingRow where
  kind : StreamingKind
  name : String
  imageUrl : String
  countryCode : String
  deriving DecidableEq

structure EpisodeRow where
  episodeIdExternal : String
  episodeNumber : ℤ
  seasonNumber : ℤ
  title : String
  description : String
  releaseDate : Option CalendarDate
  durationMinutes : Option ℤ
  imageUrl : String
  episodeType : String
  deriving DecidableEq

structure TrackRow where
  trackIdExternal : String
  trackNumber : ℤ
  title : String
  durationSeconds : Option ℤ
  externalUrl : String
  explicit : Option Bool
  deriving DecidableEq

structure GamePlatformRow where
  name : String
  imageUrl : String
  deriving DecidableEq

/-- A duration estimate; one that failed has no values. -/
structure EstimateRow where
  providerExternalId : String
  values : DurationValues
  status : DurationStatus
  sampleCount : ℤ
  retryCount : ℕ
  lastErrorCode : String
  values_of_error : status = .error → values = ⟨none, none, none⟩

/-- `unique_content_item_author_role` and `unique_track_author_role`. -/
def creditConstraints : Constraints CreditRow (String × String) where
  key row := (row.author, row.role)

/-- `unique_streaming_platform_per_item`. -/
def streamingConstraints : Constraints StreamingRow (StreamingKind × String × String) where
  key row := (row.kind, row.name, row.countryCode)

/-- `unique_episode_per_season`. -/
def episodeConstraints : Constraints EpisodeRow String where
  check row := nonNegative row.durationMinutes
  key row := row.episodeIdExternal

/-- `unique_track_per_album`. -/
def trackConstraints : Constraints TrackRow String where
  check row := nonNegative row.durationSeconds
  key row := row.trackIdExternal

/-- `unique_game_platform_per_game`. -/
def gamePlatformConstraints : Constraints GamePlatformRow String where
  key row := row.name

/-! ### Records -/

/-- The rows of a movie or a TV show. -/
structure ScreenRecord (ρ : Type) where
  detail : ρ
  credits : List CreditRow
  images : List ImageRow
  platforms : List StreamingRow

structure SeasonRecord where
  detail : SeasonRow
  episodes : List EpisodeRow
  images : List ImageRow
  platforms : List StreamingRow

/-- A track with its credits. -/
structure TrackRecord where
  row : TrackRow
  credits : List CreditRow
  deriving DecidableEq

structure AlbumRecord where
  detail : AlbumRow
  credits : List CreditRow
  images : List ImageRow
  tracks : List TrackRecord

/-- The rows of a game; genres, themes and modes are linked by their slugs. -/
structure GameRecord where
  detail : GameRow
  credits : List CreditRow
  images : List ImageRow
  genres : List String
  themes : List String
  gameModes : List String
  platforms : List GamePlatformRow
  estimate : Option EstimateRow

structure BookRecord where
  detail : BookRow
  credits : List CreditRow
  images : List ImageRow

/-- The catalogs, the items and the rows of each content type by item. -/
structure Store (slugify : String → String) where
  authors : Catalog slugify := .empty
  genres : Catalog slugify := .empty
  themes : Catalog slugify := .empty
  gameModes : Catalog slugify := .empty
  items : List ContentItem := []
  movies : Table ContentItem (ScreenRecord MovieRow) := .empty
  tvShows : Table ContentItem (ScreenRecord TvShowRow) := .empty
  seasons : Table ContentItem SeasonRecord := .empty
  albums : Table ContentItem AlbumRecord := .empty
  games : Table ContentItem GameRecord := .empty
  books : Table ContentItem BookRecord := .empty

end Denn.Ingest
