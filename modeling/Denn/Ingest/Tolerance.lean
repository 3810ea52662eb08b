import Denn.Ingest.Writes

/-!
# Tolerance of the mappers

A payload of the shape of its type is stored, with all the children that it lists, unless one of the
deduplications misses a unique key or a count is negative.
-/

namespace Denn.Ingest

open Denn.Core

variable {slugify : String → String}

/-- The payload has an id and no other type than its mapper's. -/
def Payload.hasShape : Payload → Bool
  | .movie payload => hasPayloadShape payload.id payload.type "movie"
  | .tvShow payload => hasPayloadShape payload.id payload.type "tv_show"
  | .season payload => hasPayloadShape payload.id payload.type "season"
  | .album payload => hasPayloadShape payload.id payload.type "album"
  | .game payload => hasPayloadShape payload.id payload.type "game"
  | .book payload => hasPayloadShape payload.id payload.type "book"

/-- Counts are not negative, credits of one role have different slugs unless they have one name, the
    ids of tracks and of episodes are different, and a genre, theme or mode has the slug of no
    other. -/
def Payload.Storable (store : Store slugify) (item : ContentItem) : Payload → Prop
  | .movie payload => payload.Storable slugify
  | .tvShow payload => payload.Storable slugify item
  | .season payload => payload.Storable
  | .album payload => payload.Storable slugify
  | .game payload => payload.Storable store
  | .book payload => payload.Storable slugify

/-! ### Stored payloads -/

structure ScreenRecord.Holds {ρ : Type} (slugify : String → String) (payload : ScreenPayload)
    (country : String) (detail : ρ) (record : ScreenRecord ρ) : Prop where
  detail : record.detail = detail
  credits : record.credits = creditRows slugify payload.authors
  images : record.images = imageRows payload.images
  platforms : ∀ row ∈ streamingRows payload.platforms country, row ∈ record.platforms

structure SeasonRecord.Holds (payload : SeasonPayload) (country : String) (record : SeasonRecord) :
    Prop where
  detail : ∃ tvShow, record.detail = payload.toRow tvShow
  episodes : ∀ rows ∈ payload.episodeRows, record.episodes = rows
  images : ∀ images ∈ payload.images, record.images = imageRows images
  platforms : ∀ platforms ∈ payload.platforms, ∀ row ∈ streamingRows platforms country,
    row ∈ record.platforms

structure AlbumRecord.Holds (slugify : String → String) (payload : AlbumPayload)
    (record : AlbumRecord) : Prop where
  detail : record.detail = payload.toRow
  credits : record.credits = creditRows slugify payload.authors
  images : record.images = imageRows payload.images
  tracks : record.tracks = payload.trackRows.map (trackRecord slugify)

structure GameRecord.Holds (slugify : String → String) (payload : GamePayload)
    (record : GameRecord) : Prop where
  detail : record.detail = payload.toRow
  credits : record.credits = creditRows slugify payload.authors
  images : record.images = imageRows payload.images
  genres : record.genres = linkedSlugs slugify payload.genres
  themes : record.themes = linkedSlugs slugify payload.themes
  gameModes : record.gameModes = linkedSlugs slugify payload.gameModes
  platforms : record.platforms = gamePlatformRows payload.platforms
  estimate : payload.hasDurationData = true → record.estimate.isSome = true

structure BookRecord.Holds (slugify : String → String) (payload : BookPayload)
    (record : BookRecord) : Prop where
  detail : record.detail = payload.toRow
  credits : record.credits = creditRows slugify payload.authors
  images : record.images = imageRows payload.images

/-- The store that a mapper leaves. -/
def afterUpsert (store : Store slugify) (item : ContentItem) (country : String) :
    Payload → Store slugify
  | .movie payload => afterMovie store item payload country
  | .tvShow payload => afterTvShow store item payload country
  | .season payload => afterSeason none store item payload country
  | .album payload => afterAlbum store item payload
  | .game payload => afterGame store item payload
  | .book payload => afterBook store item payload

lemma yields_upsert (store : Store slugify) (item : ContentItem) (country : String)
    (payload : Payload) : Yields (upsert store item country payload)
      (payload.hasShape = true ∧ payload.Storable store item)
      (afterUpsert store item country payload) := by
  cases payload with
  | movie payload => exact yields_upsertMovie store item payload country
  | tvShow payload => exact yields_upsertTvShow store item payload country
  | season payload => exact yields_upsertSeason none store item payload country
  | album payload => exact yields_upsertAlbum store item payload
  | game payload => exact yields_upsertGame store item payload
  | book payload => exact yields_upsertBook store item payload

end Denn.Ingest
