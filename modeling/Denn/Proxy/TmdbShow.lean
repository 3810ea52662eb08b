import Denn.Core.Decimal
import Denn.Ingest.Payload
import Denn.Proxy.Eligibility

/-!
# The TV show payload of the proxy

`GetTVShowComplete` maps the detail of TMDB: `number_of_seasons` is copied, and of the listed seasons
those that have been aired, or are going to be within a day, are sent. The fields that have nothing to
do with seasons are taken as mapped. The clock is read once.
-/

namespace Denn.Proxy

open Denn.Core

structure TmdbSeasonSummary where
  id : ℤ
  seasonNumber : ℤ
  name : String := ""
  overview : String := ""
  posterPath : Option String := none
  airDate : String := ""
  episodeCount : ℤ

structure TmdbTvDetail where
  id : ℤ
  numberOfSeasons : Option ℤ := none
  numberOfEpisodes : Option ℤ := none
  seasons : List TmdbSeasonSummary := []
  screen : Ingest.ScreenPayload := {}

def imageBaseURL : String := "https://image.tmdb.org/t/p/"

def posterSizeStandard : String := "w500"

def buildImageURL (path size : String) : String := imageBaseURL ++ size ++ path

def buildImageURLPtr (path : Option String) (size : String) : Option String :=
  (path.filter (· ≠ "")).map (buildImageURL · size)

def strPtr (s : String) : Option String := if s = "" then none else some s

/-- `IsValidSeason`. -/
def isValidSeason (now : Instant) (s : TmdbSeasonSummary) : Bool :=
  if s.seasonNumber ≤ 0 || s.episodeCount ≤ 0 || s.airDate = "" then false
  else match parseFullDate s.airDate with
    | some releaseAt => releaseAt ≤ now + day
    | none => false

/-- `MapSeasonSummary`. -/
def mapSeasonSummary (s : TmdbSeasonSummary) : Season where
  id := itoa s.id
  seasonNumber := s.seasonNumber
  title := s.name
  numberOfEpisodes := s.episodeCount
  description := strPtr s.overview
  releaseDate := strPtr s.airDate
  imageUrl := buildImageURLPtr s.posterPath posterSizeStandard

/-- The seasons of `GetTVShowComplete`. -/
def completeSeasons (now : Instant) (data : TmdbTvDetail) : List Season :=
  filterValidSeasonSummaries now ((data.seasons.filter (isValidSeason now)).map mapSeasonSummary)

/-- `ToResponse` of a season without episodes. -/
def Season.toResponse (season : Season) : Ingest.SeasonPayload where
  id := some season.id
  type := some "season"
  seasonNumber := some season.seasonNumber
  title := some season.title
  description := season.description
  imageUrl := season.imageUrl
  releaseDate := season.releaseDate
  numberOfEpisodes := some season.numberOfEpisodes

/-- `GetTVShowComplete` and `ToResponse`; a show without seasons has no such field. -/
def getTVShowComplete (now : Instant) (data : TmdbTvDetail) : Ingest.TvShowPayload where
  toScreenPayload := { data.screen with id := some (itoa data.id), type := some "tv_show" }
  numberOfSeasons := data.numberOfSeasons
  numberOfEpisodes := data.numberOfEpisodes
  seasons :=
    if (completeSeasons now data).isEmpty then none
    else some ((completeSeasons now data).map Season.toResponse)

variable {now : Instant}

end Denn.Proxy
