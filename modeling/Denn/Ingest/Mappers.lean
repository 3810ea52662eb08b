import Denn.Ingest.Rows

/-!
# Mappers

The `upsert` of each content type writes a payload's rows in one transaction: it fails as a whole if
the payload has not the shape of its type or if a write breaks a constraint. The country of the
streaming platforms is `(request_country or DEFAULT_COUNTRY or "").upper()`.
-/

namespace Denn.Ingest

open Denn.Core

/-- The errors of a mapper. -/
inductive UpsertError where
  | value
  | integrity (error : IntegrityError)
  deriving DecidableEq, Repr

variable {slugify : String → String}

/-- The error of a constraint leaves the mapper. -/
def integrity {α : Type} (x : Except IntegrityError α) : Except UpsertError α :=
  x.mapError .integrity

def requirePayloadShape (id type : Option String) (expectedType : String) :
    Except UpsertError Unit :=
  if hasPayloadShape id type expectedType then .ok () else .error .value

/-- `update_or_create` of the detail row of an item. -/
def updateOrCreate {ρ : Type} (check : ρ → Bool) (row : ρ) : Except UpsertError ρ :=
  if check row then .ok row else .error (.integrity .check)

/-- `text or default`. -/
def textOr (text : Option String) (default : String) : String :=
  (text.filter (· ≠ "")).getD default

/-! ### Shared children -/

/-- A credit that an entry asks for. -/
structure Credit where
  name : Name
  role : String
  position : ℕ

def Credit.key (credit : Credit) : Name × String := (credit.name, credit.role)

def Credit.row (slugify : String → String) (credit : Credit) : CreditRow where
  author := slugOf slugify credit.name
  role := credit.role
  position := credit.position

/-- The entries with a name, each with its position. -/
def namedCredits (entries : List AuthorEntry) : List Credit :=
  entries.zipIdx.filterMap fun entry =>
    (nameOf? entry.1.name).map fun name => ⟨name, entry.1.type.getD "", entry.2⟩

/-- The first entry of each name and role. -/
def credits (entries : List AuthorEntry) : List Credit := keepFirst Credit.key [] (namedCredits entries)

def addCredit (state : Catalog slugify × List CreditRow) (credit : Credit) :
    Except IntegrityError (Catalog slugify × List CreditRow) := do
  let rows ← creditConstraints.insert state.2 (credit.row slugify)
  return (state.1.ensure credit.name, rows)

/-- `replace_content_item_authors` and `_replace_track_authors`. -/
def replaceAuthors (authors : Catalog slugify) (entries : List AuthorEntry) :
    Except IntegrityError (Catalog slugify × List CreditRow) :=
  (credits entries).foldlM addCredit (authors, [])

/-- `replace_images`. -/
def imageRows (entries : List ImageEntry) : List ImageRow :=
  entries.zipIdx.filterMap fun entry =>
    (entry.1.imageUrl.filter (· ≠ "")).map fun url =>
      { type := textOr entry.1.type "poster"
        size := textOr entry.1.size "standard"
        imageUrl := url
        position := entry.2 }

/-- The first entry of each name, with its image. -/
def namedPlatforms (entries : List PlatformPayload) : List (String × String) :=
  keepFirst Prod.fst [] <| entries.filterMap fun entry =>
    (entry.name.filter (· ≠ "")).map fun name => (name, entry.imageUrl.getD "")

def streamingRows (platforms : PlatformMap) (country : String) : List StreamingRow :=
  StreamingKind.values.flatMap fun kind =>
    (namedPlatforms (platforms.get kind)).map fun platform =>
      { kind := kind, name := platform.1, imageUrl := platform.2, countryCode := country }

/-- `replace_streaming_platforms`. -/
def replaceStreamingPlatforms (rows : List StreamingRow) (platforms : PlatformMap)
    (country : String) : Except IntegrityError (List StreamingRow) :=
  streamingConstraints.insertAll (rows.filter (·.countryCode ≠ country))
    (streamingRows platforms country)

/-! ### Movies -/

def ScreenPayload.toRow (payload : ScreenPayload) : ScreenRow where
  title := payload.title.getD ""
  originalTitle := payload.originalTitle.getD ""
  tagline := payload.tagline.getD ""
  description := payload.description.getD ""
  imageUrl := payload.imageUrl.getD ""
  releaseDate := payload.releaseDate.bind parseIsoDate
  status := payload.status.getD ""
  imdbId := payload.imdbId.getD ""
  adult := cleanOptionalBool payload.adult
  genres := cleanTextList maxStoredGenres payload.genres
  keywords := cleanTextList maxStoredKeywords payload.keywords
  certifications := cleanCertifications maxCertifications payload.certifications

def MoviePayload.toRow (payload : MoviePayload) : MovieRow where
  toScreenRow := payload.toScreenPayload.toRow
  durationMinutes := payload.durationMinutes

def upsertMovie (store : Store slugify) (item : ContentItem) (payload : MoviePayload)
    (country : String) : Except UpsertError (Store slugify) := do
  requirePayloadShape payload.id payload.type "movie"
  let detail ← updateOrCreate MovieRow.check payload.toRow
  let written ← integrity (replaceAuthors store.authors payload.authors)
  let platforms ← integrity (replaceStreamingPlatforms
    ((store.movies.get? item).elim [] (·.platforms)) payload.platforms country)
  return { store with
    authors := written.1
    movies := store.movies.set item
      { detail := detail, credits := written.2, images := imageRows payload.images,
        platforms := platforms } }

/-! ### Seasons -/

/-- The declared number of episodes, or the number of those listed. -/
def SeasonPayload.declaredCount (payload : SeasonPayload) : ℤ :=
  (payload.numberOfEpisodes.filter (· ≠ 0)).getD (payload.episodes.getD []).length

def SeasonPayload.toRow (payload : SeasonPayload) (tvShow : Option ContentItem) : SeasonRow where
  tvShow := tvShow
  seasonNumber := payload.seasonNumber.getD 0
  tvShowName := payload.tvShowName.getD ""
  title := payload.title.getD ""
  description := payload.description.getD ""
  imageUrl := payload.imageUrl.getD ""
  releaseDate := payload.releaseDate.bind parseIsoDate
  numberOfEpisodes := payload.declaredCount

/-- An entry without an id has no row. -/
def EpisodeEntry.toRow (seasonNumber : ℤ) (entry : EpisodeEntry) : Option EpisodeRow :=
  (entry.id.filter (· ≠ "")).map fun external =>
    { episodeIdExternal := external
      episodeNumber := entry.episodeNumber.getD 0
      seasonNumber := (entry.seasonNumber.filter (· ≠ 0)).getD seasonNumber
      title := entry.title.getD ""
      description := entry.description.getD ""
      releaseDate := entry.releaseDate.bind parseIsoDate
      durationMinutes := entry.durationMinutes
      imageUrl := entry.imageUrl.getD ""
      episodeType := entry.episodeType.getD "" }

/-- The rows of the listed episodes, if the payload lists any. -/
def SeasonPayload.episodeRows (payload : SeasonPayload) : Option (List EpisodeRow) :=
  payload.episodes.map (·.filterMap (EpisodeEntry.toRow (payload.seasonNumber.getD 0)))

/-- The text before the first colon, if there is a colon. -/
def showExternalId (externalId : String) : Option String :=
  let text := externalId.toList
  if ':' ∈ text then some (String.ofList (text.takeWhile (· ≠ ':'))) else none

/-- `_resolve_local_tv_show`. -/
def resolveLocalTvShow (store : Store slugify) (item : ContentItem) : Option ContentItem :=
  ((showExternalId item.externalId).filter (· ≠ "")).bind fun external =>
    store.items.find? (· = ⟨item.sourceApi, external, .tvShow⟩)

/-- Children stay as they are if the payload does not carry them. -/
def replaceIfPresent {α β : Type} (field : Option α) (old : β)
    (replace : α → Except IntegrityError β) : Except IntegrityError β :=
  match field with
  | some value => replace value
  | none => .ok old

def upsertSeason (tvShow : Option ContentItem) (store : Store slugify) (item : ContentItem)
    (payload : SeasonPayload) (country : String) : Except UpsertError (Store slugify) := do
  requirePayloadShape payload.id payload.type "season"
  let detail ← updateOrCreate SeasonRow.check
    (payload.toRow (tvShow.orElse fun _ => resolveLocalTvShow store item))
  let episodes ← integrity (replaceIfPresent payload.episodeRows
    ((store.seasons.get? item).elim [] (·.episodes)) (episodeConstraints.insertAll []))
  let platforms ← integrity (replaceIfPresent payload.platforms
    ((store.seasons.get? item).elim [] (·.platforms)) fun platforms =>
      replaceStreamingPlatforms ((store.seasons.get? item).elim [] (·.platforms)) platforms country)
  return { store with
    seasons := store.seasons.set item
      { detail := detail, episodes := episodes,
        images := (payload.images.map imageRows).getD
          ((store.seasons.get? item).elim [] (·.images)),
        platforms := platforms } }

/-! ### TV shows -/

def TvShowPayload.toRow (payload : TvShowPayload) : TvShowRow where
  toScreenRow := payload.toScreenPayload.toRow
  numberOfSeasons := payload.numberOfSeasons
  numberOfEpisodes := payload.numberOfEpisodes

/-- The nested entries that are persisted, by season number. -/
def TvShowPayload.nestedSeasons (payload : TvShowPayload) : List (ℤ × SeasonPayload) :=
  (payload.seasons.getD []).filterMap fun entry => entry.seasonNumber.map (·, entry)

/-- The payload that is made of a nested entry of a show. -/
def TvShowPayload.nestedPayload (payload : TvShowPayload) (externalId : String)
    (entry : SeasonPayload) : SeasonPayload :=
  { entry with
    id := some externalId
    type := some "season"
    tvShowName := some (firstText [entry.tvShowName, payload.title, payload.originalTitle]) }

/-- The item of a season of a show. -/
def seasonItem (tvShow : ContentItem) (seasonNumber : ℤ) : ContentItem where
  sourceApi := tvShow.sourceApi
  externalId := tvShow.externalId ++ ":" ++ toString seasonNumber
  contentType := .season

/-- `get_or_create` of an item. -/
def Store.getOrCreateItem (store : Store slugify) (item : ContentItem) : Store slugify :=
  if item ∈ store.items then store else { store with items := store.items ++ [item] }

/-- A turn of `_upsert_seasons`, without the moderation job and the browse metadata of the season. -/
def upsertNestedSeason (tvShow : ContentItem) (payload : TvShowPayload) (country : String)
    (store : Store slugify) (entry : ℤ × SeasonPayload) : Except UpsertError (Store slugify) :=
  let item := seasonItem tvShow entry.1
  upsertSeason (some tvShow) (store.getOrCreateItem item) item
    (payload.nestedPayload item.externalId entry.2) country

def upsertTvShow (store : Store slugify) (item : ContentItem) (payload : TvShowPayload)
    (country : String) : Except UpsertError (Store slugify) := do
  requirePayloadShape payload.id payload.type "tv_show"
  let detail ← updateOrCreate TvShowRow.check payload.toRow
  let written ← integrity (replaceAuthors store.authors payload.authors)
  let platforms ← integrity (replaceStreamingPlatforms
    ((store.tvShows.get? item).elim [] (·.platforms)) payload.platforms country)
  payload.nestedSeasons.foldlM (upsertNestedSeason item payload country) { store with
    authors := written.1
    tvShows := store.tvShows.set item
      { detail := detail, credits := written.2, images := imageRows payload.images,
        platforms := platforms } }

/-! ### Albums -/

def AlbumPayload.toRow (payload : AlbumPayload) : AlbumRow where
  title := payload.title.getD ""
  albumType := payload.albumType.getD ""
  totalTracks := payload.totalTracks
  durationMinutes := payload.durationMinutes
  imageUrl := payload.imageUrl.getD ""
  releaseDate := payload.releaseDate.bind parseIsoDate
  externalUrl := payload.externalUrl.getD ""

/-- An entry without an id has no row. -/
def TrackEntry.toRow (entry : TrackEntry) : Option TrackRow :=
  (entry.id.filter (· ≠ "")).map fun external =>
    { trackIdExternal := external
      trackNumber := entry.trackNumber.getD 0
      title := entry.title.getD ""
      durationSeconds := entry.durationSeconds
      externalUrl := entry.externalUrl.getD ""
      explicit := cleanOptionalBool entry.explicit }

/-- The entries with a row, each with its authors. -/
def AlbumPayload.trackRows (payload : AlbumPayload) : List (TrackRow × List AuthorEntry) :=
  payload.tracks.filterMap fun entry => entry.toRow.map (·, entry.authors)

/-- A turn of the loop over the tracks. -/
def addTrack (state : Catalog slugify × List TrackRecord) (entry : TrackRow × List AuthorEntry) :
    Except IntegrityError (Catalog slugify × List TrackRecord) := do
  let _ ← trackConstraints.insert (state.2.map (·.row)) entry.1
  let written ← replaceAuthors state.1 entry.2
  return (written.1, state.2 ++ [⟨entry.1, written.2⟩])

def upsertAlbum (store : Store slugify) (item : ContentItem) (payload : AlbumPayload) :
    Except UpsertError (Store slugify) := do
  requirePayloadShape payload.id payload.type "album"
  let detail ← updateOrCreate AlbumRow.check payload.toRow
  let written ← integrity (replaceAuthors store.authors payload.authors)
  let tracks ← integrity (payload.trackRows.foldlM addTrack (written.1, []))
  return { store with
    authors := tracks.1
    albums := store.albums.set item
      { detail := detail, credits := written.2, images := imageRows payload.images,
        tracks := tracks.2 } }

/-! ### Games -/

def GamePayload.toRow (payload : GamePayload) : GameRow where
  title := payload.title.getD ""
  gameType := payload.gameType.getD ""
  description := payload.description.getD ""
  imageUrl := payload.imageUrl.getD ""
  releaseDate := payload.releaseDate.bind parseIsoDate
  series := payload.series.getD ""
  playTimeMin := payload.playTime.bind (·.min)
  playTimeMax := payload.playTime.bind (·.max)
  keywords := cleanTextList maxStoredKeywords payload.keywords
  ageRatings := cleanAgeRatings maxAgeRatings payload.ageRatings

/-- The names of a list that are not empty. -/
def namesOf (names : List String) : List Name := names.filterMap fun name => nameOf? (some name)

/-- The rows that a game with the names is linked to. -/
def linkedSlugs (slugify : String → String) (names : List String) : List String :=
  ((namesOf names).map fun name : Name => slugOf slugify name.val).eraseDups

/-- `_ensure_named`, with the rows that the game is linked to. -/
def ensureNamed (catalog : Catalog slugify) (names : List String) :
    Except IntegrityError (Catalog slugify × List String) := do
  let catalog ← (namesOf names).foldlM Catalog.getOrCreate catalog
  return (catalog, linkedSlugs slugify names)

def gamePlatformRows (entries : List PlatformPayload) : List GamePlatformRow :=
  (namedPlatforms entries).map fun platform => ⟨platform.1, platform.2⟩

/-- `GameDurationEstimate.Status` of a text; what is none of the other three counts as no data. -/
def readDurationStatus (text : Option String) : DurationStatus :=
  if text = some "matched" then .matched
  else if text = some "stale" then .stale
  else if text = some "error" then .error
  else .noData

/-- The values of a `duration` object that are not negative. -/
def DurationPayload.values (duration : DurationPayload) : DurationValues where
  hastilySeconds := duration.hastilySeconds.bind Int.toNat?
  normallySeconds := duration.normallySeconds.bind Int.toNat?
  completelySeconds := duration.completelySeconds.bind Int.toNat?

/-- `duration`, or the empty object. -/
def GamePayload.durationValues (payload : GamePayload) : DurationValues :=
  normalizeGameDurationValues (payload.duration.getD {}).values

def GamePayload.durationStatus (payload : GamePayload) : DurationStatus :=
  normalizedGameDurationStatus (readDurationStatus (payload.duration.getD {}).status)
    payload.durationValues

def hasDuration (values : DurationValues) : Bool := values.values.any (·.isSome)

lemma eq_of_hasDuration {values : DurationValues} (h : hasDuration values = false) :
    values = ⟨none, none, none⟩ := by
  obtain ⟨hastily, normally, completely⟩ := values
  simp_all [hasDuration, DurationValues.values]

/-- The values of an estimate, if there is one. -/
def storedValues (estimate : Option EstimateRow) : DurationValues :=
  estimate.elim ⟨none, none, none⟩ (·.values)

/-- The estimate that a failed lookup leaves: stored values become stale. -/
def EstimateRow.failed (providerExternalId : String) (old : Option EstimateRow) : EstimateRow where
  providerExternalId := providerExternalId
  values := storedValues old
  status := if hasDuration (storedValues old) then .stale else .error
  sampleCount := old.elim 0 (·.sampleCount)
  retryCount := min (old.elim 0 (·.retryCount) + 1) maxGameDurationRetries
  lastErrorCode := "igdb_time_to_beats_failed"
  values_of_error := by
    split_ifs with hany
    · exact nofun
    · exact fun _ => eq_of_hasDuration (Bool.not_eq_true _ ▸ hany)

/-- The estimate is written if the payload has a duration or a play time. -/
def GamePayload.hasDurationData (payload : GamePayload) : Bool :=
  payload.duration.isSome || payload.playTime.isSome

def GamePayload.sampleCount (payload : GamePayload) : ℤ := (payload.duration.getD {}).sampleCount.getD 0

/-- The estimate that a payload leaves. -/
def GamePayload.toEstimate (payload : GamePayload) (item : ContentItem) (old : Option EstimateRow) :
    EstimateRow :=
  if herror : payload.durationStatus = .error then
    .failed (textOr payload.id item.externalId) old
  else
    { providerExternalId := textOr payload.id item.externalId
      values := payload.durationValues
      status := payload.durationStatus
      sampleCount := payload.sampleCount
      retryCount := 0
      lastErrorCode := ""
      values_of_error := fun h => absurd h herror }

/-- The check of the sample count, which a failed lookup does not write. -/
def GamePayload.checkEstimate (payload : GamePayload) : Bool :=
  !payload.hasDurationData || payload.durationStatus = .error || 0 ≤ payload.sampleCount

/-- The write to the estimate of a game. -/
def upsertEstimate (item : ContentItem) (payload : GamePayload) (old : Option EstimateRow) :
    Except IntegrityError (Option EstimateRow) :=
  if !payload.checkEstimate then .error .check
  else if payload.hasDurationData then .ok (some (payload.toEstimate item old))
  else .ok old

def upsertGame (store : Store slugify) (item : ContentItem) (payload : GamePayload) :
    Except UpsertError (Store slugify) := do
  requirePayloadShape payload.id payload.type "game"
  let detail ← updateOrCreate GameRow.check payload.toRow
  let written ← integrity (replaceAuthors store.authors payload.authors)
  let genres ← integrity (ensureNamed store.genres payload.genres)
  let themes ← integrity (ensureNamed store.themes payload.themes)
  let gameModes ← integrity (ensureNamed store.gameModes payload.gameModes)
  let platforms ← integrity (gamePlatformConstraints.insertAll [] (gamePlatformRows payload.platforms))
  let estimate ← integrity (upsertEstimate item payload ((store.games.get? item).bind (·.estimate)))
  return { store with
    authors := written.1
    genres := genres.1
    themes := themes.1
    gameModes := gameModes.1
    games := store.games.set item
      { detail := detail, credits := written.2, images := imageRows payload.images,
        genres := genres.2, themes := themes.2, gameModes := gameModes.2,
        platforms := platforms, estimate := estimate } }

/-! ### Books -/

def BookPayload.toRow (payload : BookPayload) : BookRow where
  title := payload.title.getD ""
  description := payload.description.getD ""
  pages := payload.pages
  imageUrl := payload.imageUrl.getD ""
  releaseDate := payload.releaseDate.bind parseIsoDate
  subjects := cleanTextList maxSubjects payload.subjects

def upsertBook (store : Store slugify) (item : ContentItem) (payload : BookPayload) :
    Except UpsertError (Store slugify) := do
  requirePayloadShape payload.id payload.type "book"
  let detail ← updateOrCreate BookRow.check payload.toRow
  let written ← integrity (replaceAuthors store.authors payload.authors)
  return { store with
    authors := written.1
    books := store.books.set item
      { detail := detail, credits := written.2, images := imageRows payload.images } }

/-! ### The mappers -/

/-- A payload of a content type. -/
inductive Payload where
  | movie (payload : MoviePayload)
  | tvShow (payload : TvShowPayload)
  | season (payload : SeasonPayload)
  | album (payload : AlbumPayload)
  | game (payload : GamePayload)
  | book (payload : BookPayload)

/-- The mapper of the payload's content type. -/
def upsert (store : Store slugify) (item : ContentItem) (country : String) :
    Payload → Except UpsertError (Store slugify)
  | .movie payload => upsertMovie store item payload country
  | .tvShow payload => upsertTvShow store item payload country
  | .season payload => upsertSeason none store item payload country
  | .album payload => upsertAlbum store item payload
  | .game payload => upsertGame store item payload
  | .book payload => upsertBook store item payload

end Denn.Ingest
