import Denn.Ingest.Settled

/-!
# Feeding reconstructed payloads back

What `from_local` returns of an item, mapped again, leaves rows of which the same payloads can be
returned. A payload comes back as it is if the order of its rows is determined.
-/

namespace Denn.Ingest

open Denn.Core

variable {slugify : String → String} {store store' : Store slugify} {item : ContentItem}
  {country : String} {authors : Catalog slugify} {κ : Type*} [LinearOrder κ] {collate : String ↪ κ}

lemma readsBy_const_iff {α : Type*} {rows read : List α} :
    ReadsBy (fun _ => ()) rows read ↔ read.Perm rows :=
  ⟨fun h => h.perm, fun h => ⟨h, List.pairwise_of_forall fun _ _ => le_rfl⟩⟩

/-! ### Movies -/

/-- The rows that the mapper leaves of a movie. -/
structure SettledMovie (authors : Catalog slugify) (country : String)
    (record : ScreenRecord MovieRow) : Prop where
  detail : ∃ payload : MoviePayload, record.detail = payload.toRow
  check : record.detail.check = true
  credits : SettledCredits authors record.credits
  images : SettledImages record.images
  platforms : SettledPlatforms country record.platforms

namespace SettledMovie

variable {record read : ScreenRecord MovieRow}

/-- Only the order of the platforms is open. -/
lemma reads_iff (h : SettledMovie authors country record) :
    record.Reads read ↔ ∃ platforms, platforms.Perm record.platforms ∧
      read = ⟨record.detail, record.credits, record.images, platforms⟩ := by
  constructor
  · intro hread
    refine ⟨read.platforms, hread.platforms.perm, ?_⟩
    obtain ⟨detail, credits, images, platforms⟩ := read
    rw [ScreenRecord.mk.injEq]
    exact ⟨hread.detail, h.credits.reads_iff.mp hread.credits, h.images.reads_iff.mp hread.images, rfl⟩
  · rintro ⟨platforms, hperm, rfl⟩
    exact ⟨rfl, h.credits.reads_iff.mpr rfl, h.images.reads_iff.mpr rfl, readsBy_const_iff.mpr hperm⟩

/-- The rows that a reading leaves when it is mapped again. -/
def again (country : String) (record : ScreenRecord MovieRow) (platforms : List StreamingRow) :
    ScreenRecord MovieRow :=
  ⟨record.detail, renumberCredits record.credits, renumberImages record.images,
    streamingRows (serializeStreamingPlatforms platforms) country⟩

lemma settled_again (h : SettledMovie authors country record) (platforms : List StreamingRow) :
    SettledMovie authors country (again country record platforms) where
  detail := h.detail
  check := h.check
  credits := h.credits.renumber
  images := h.images.renumber
  platforms := settledPlatforms_streamingRows _ country

lemma fromLocal_again (platforms read : List StreamingRow) :
    MoviePayload.fromLocal authors item ⟨(again country record platforms).detail,
        (again country record platforms).credits, (again country record platforms).images, read⟩
      = .fromLocal authors item ⟨record.detail, record.credits, record.images, read⟩ := by
  simp only [MoviePayload.fromLocal, again, serializeAuthors_renumberCredits,
    serializeImages_renumberImages]

lemma record_fromLocal (h : SettledMovie authors country record) (platforms : List StreamingRow) :
    (MoviePayload.fromLocal authors item
      ⟨record.detail, record.credits, record.images, platforms⟩).record slugify country (some record)
      record.detail = again country record platforms := by
  have hold : record.platforms.filter (·.countryCode ≠ country) = [] := by
    refine List.filter_eq_nil_iff.mpr fun row hrow => ?_
    simp [h.platforms.country row hrow]
  have hcredits := h.credits.creditRows_eq
  have himages := h.images.imageRows_eq
  simp only [ScreenPayload.record, MoviePayload.fromLocal, again, hcredits, himages, Option.elim_some,
    hold, List.nil_append]

/-- A reading can be mapped again, and leaves rows with the same readings. -/
lemma reingest (h : SettledMovie authors country record) (hread : record.Reads read)
    (hstore : store.authors = authors) (hrecord : store.movies.get? item = some record) :
    (MoviePayload.fromLocal authors item read).Storable slugify ∧
      ∃ record', afterMovie store item (.fromLocal authors item read) country
          = { store with movies := store.movies.set item record' } ∧
        ∀ payload, (∃ read', record'.Reads read' ∧ payload = MoviePayload.fromLocal authors item read') ↔
          ∃ read', record.Reads read' ∧ payload = MoviePayload.fromLocal authors item read' := by
  obtain ⟨platforms, hperm, rfl⟩ := h.reads_iff.mp hread
  obtain ⟨original, horiginal⟩ := h.detail
  have hrow : (MoviePayload.fromLocal authors item
      ⟨record.detail, record.credits, record.images, platforms⟩).toRow = record.detail :=
    (MoviePayload.toRow_fromLocal horiginal authors item).trans horiginal.symm
  refine ⟨⟨by rw [hrow]; exact h.check, separateCredits_serializeAuthors authors record.credits⟩,
    again country record platforms, ?_, fun payload => ?_⟩
  · rw [afterMovie, hrow, hrecord, h.record_fromLocal platforms]
    congr 1
    exact hstore ▸ ensureAll_serializeAuthors store.authors record.credits
  · have hplatforms : (again country record platforms).platforms.Perm record.platforms :=
      (h.platforms.perm hperm).streamingRows_perm.trans hperm
    simp only [(h.settled_again platforms).reads_iff, h.reads_iff]
    constructor
    · rintro ⟨-, ⟨rows, hrows, rfl⟩, rfl⟩
      exact ⟨_, ⟨rows, hrows.trans hplatforms, rfl⟩, fromLocal_again platforms rows⟩
    · rintro ⟨-, ⟨rows, hrows, rfl⟩, rfl⟩
      exact ⟨_, ⟨rows, hrows.trans hplatforms.symm, rfl⟩, (fromLocal_again platforms rows).symm⟩

end SettledMovie

/-! ### Albums -/

/-- The rows that the mapper leaves of an album. -/
structure SettledAlbum (authors : Catalog slugify) (record : AlbumRecord) : Prop where
  check : record.detail.check = true
  credits : SettledCredits authors record.credits
  images : SettledImages record.images
  tracks : SettledTracks authors record.tracks

namespace SettledAlbum

variable {record read : AlbumRecord}

/-- Only the order of the tracks is open. -/
lemma reads_iff (h : SettledAlbum authors record) :
    record.Reads read ↔ ∃ tracks, ReadsBy (·.row.trackNumber) record.tracks tracks ∧
      read = ⟨record.detail, record.credits, record.images, tracks⟩ := by
  constructor
  · intro hread
    refine ⟨read.tracks, h.tracks.reads_iff.mp hread.tracks, ?_⟩
    obtain ⟨detail, credits, images, tracks⟩ := read
    rw [AlbumRecord.mk.injEq]
    exact ⟨hread.detail, h.credits.reads_iff.mp hread.credits, h.images.reads_iff.mp hread.images, rfl⟩
  · rintro ⟨tracks, htracks, rfl⟩
    exact ⟨rfl, h.credits.reads_iff.mpr rfl, h.images.reads_iff.mpr rfl, h.tracks.reads_iff.mpr htracks⟩

/-- The rows that a reading leaves when it is mapped again. -/
def again (record : AlbumRecord) (tracks : List TrackRecord) : AlbumRecord :=
  ⟨record.detail, renumberCredits record.credits, renumberImages record.images,
    tracks.map renumberTrack⟩

lemma settled_again (h : SettledAlbum authors record) {tracks : List TrackRecord}
    (hperm : tracks.Perm record.tracks) : SettledAlbum authors (again record tracks) where
  check := h.check
  credits := h.credits.renumber
  images := h.images.renumber
  tracks := (h.tracks.perm hperm).renumber

lemma fromLocal_again (tracks read : List TrackRecord) :
    AlbumPayload.fromLocal authors item ⟨(again record tracks).detail,
        (again record tracks).credits, (again record tracks).images, read.map renumberTrack⟩
      = .fromLocal authors item ⟨record.detail, record.credits, record.images, read⟩ := by
  have hentries : (read.map renumberTrack).map (TrackRecord.entry authors)
      = read.map (TrackRecord.entry authors) := by
    rw [List.map_map]
    exact List.map_congr_left fun track _ => entry_renumberTrack authors track
  simp only [AlbumPayload.fromLocal, again, serializeAuthors_renumberCredits,
    serializeImages_renumberImages, hentries]

/-- The tracks are read again in the orders in which they could be read. -/
lemma readsBy_again {tracks read : List TrackRecord} (hperm : tracks.Perm record.tracks) :
    ReadsBy (·.row.trackNumber) (again record tracks).tracks read ↔
      ∃ read', ReadsBy (·.row.trackNumber) record.tracks read' ∧ read = read'.map renumberTrack := by
  rw [again, ReadsBy.perm_iff (hperm.map renumberTrack)]
  exact ReadsBy.map_iff

lemma trackRows_fromLocal (h : SettledAlbum authors record) {tracks : List TrackRecord}
    (hperm : tracks.Perm record.tracks) :
    (AlbumPayload.fromLocal authors item
        ⟨record.detail, record.credits, record.images, tracks⟩).trackRows
      = tracks.map fun track => (track.row, serializeAuthors authors track.credits) :=
  (h.tracks.perm hperm).trackRows_eq rfl

lemma storable_fromLocal (h : SettledAlbum authors record) {tracks : List TrackRecord}
    (hperm : tracks.Perm record.tracks) :
    (AlbumPayload.fromLocal authors item
      ⟨record.detail, record.credits, record.images, tracks⟩).Storable slugify where
  check := by
    rw [AlbumPayload.toRow_fromLocal]
    exact h.check
  authors := separateCredits_serializeAuthors authors record.credits
  tracks := by
    rw [h.trackRows_fromLocal hperm, List.map_map]
    exact (h.tracks.perm hperm).admits
  trackAuthors entry hentry := by
    rw [h.trackRows_fromLocal hperm] at hentry
    obtain ⟨track, -, rfl⟩ := List.mem_map.mp hentry
    exact separateCredits_serializeAuthors authors track.credits

/-- A reading can be mapped again, and leaves rows with the same readings. -/
lemma reingest (h : SettledAlbum authors record) (hread : record.Reads read)
    (hstore : store.authors = authors) :
    (AlbumPayload.fromLocal authors item read).Storable slugify ∧
      ∃ record', afterAlbum store item (.fromLocal authors item read)
          = { store with albums := store.albums.set item record' } ∧
        ∀ payload, (∃ read', record'.Reads read' ∧ payload = AlbumPayload.fromLocal authors item read') ↔
          ∃ read', record.Reads read' ∧ payload = AlbumPayload.fromLocal authors item read' := by
  obtain ⟨tracks, htracks, rfl⟩ := h.reads_iff.mp hread
  refine ⟨h.storable_fromLocal htracks.perm, again record tracks, ?_, fun payload => ?_⟩
  · rw [afterAlbum, h.trackRows_fromLocal htracks.perm, (h.tracks.perm htracks.perm).map_trackRecord,
      AlbumPayload.toRow_fromLocal]
    have hcredits := h.credits.creditRows_eq
    have himages := h.images.imageRows_eq
    have hauthors := ensureAll_serializeAuthors authors record.credits
    have htrackAuthors := SettledTracks.ensureAll_trackNames authors tracks
    simp only [AlbumPayload.fromLocal, again, hcredits, himages, hstore, hauthors, htrackAuthors]
  · simp only [(h.settled_again htracks.perm).reads_iff, h.reads_iff, readsBy_again htracks.perm]
    constructor
    · rintro ⟨-, ⟨-, ⟨rows, hrows, rfl⟩, rfl⟩, rfl⟩
      exact ⟨_, ⟨rows, hrows, rfl⟩, fromLocal_again tracks rows⟩
    · rintro ⟨-, ⟨rows, hrows, rfl⟩, rfl⟩
      exact ⟨_, ⟨_, ⟨rows, hrows, rfl⟩, rfl⟩, (fromLocal_again tracks rows).symm⟩

end SettledAlbum

/-! ### Games -/

/-- The rows that the mapper leaves of a game. -/
structure SettledGame (store : Store slugify) (record : GameRecord) : Prop where
  detail : ∃ payload : GamePayload, record.detail = payload.toRow
  check : record.detail.check = true
  credits : SettledCredits store.authors record.credits
  images : SettledImages record.images
  genres : SettledLinks store.genres record.genres
  themes : SettledLinks store.themes record.themes
  gameModes : SettledLinks store.gameModes record.gameModes
  platforms : SettledGamePlatforms record.platforms
  estimate : SettledEstimate record.detail record.estimate

omit [LinearOrder κ] in
/-- Different rows have different names, and so different keys. -/
lemma SettledLinks.nodup_keys {catalog : Catalog slugify} {slugs : List String}
    (h : SettledLinks catalog slugs) (collate : String ↪ κ) :
    (slugs.map fun slug => collate (catalog.text slug)).Nodup := by
  refine (List.nodup_map_iff_inj_on h.nodup).mpr fun slug hslug slug' hslug' heq => ?_
  obtain ⟨name, hname⟩ := Option.isSome_iff_exists.mp (h.named slug hslug)
  obtain ⟨name', hname'⟩ := Option.isSome_iff_exists.mp (h.named slug' hslug')
  have htext := collate.injective heq
  rw [Catalog.text, Catalog.text, hname, hname'] at htext
  rw [← Catalog.slugOf_eq hname, ← Catalog.slugOf_eq hname']
  exact congrArg (slugOf slugify) htext

omit [LinearOrder κ] in
lemma SettledGamePlatforms.nodup_keys {rows : List GamePlatformRow} (h : SettledGamePlatforms rows)
    (collate : String ↪ κ) : (rows.map fun row => collate row.name).Nodup := by
  have hnames := h.nodup.map collate.injective
  rwa [List.map_map] at hnames

namespace SettledGame

variable {record read read' : GameRecord}

lemma reads_with_games {games : Table ContentItem GameRecord} :
    record.Reads collate { store with games := games } read ↔ record.Reads collate store read := by
  constructor <;> intro h <;>
    exact ⟨h.detail, h.credits, h.images, h.genres, h.themes, h.gameModes, h.platforms, h.estimate⟩

/-- A game is read in one way. -/
lemma reads_unique (h : SettledGame store record) (hread : record.Reads collate store read)
    (hread' : record.Reads collate store read') : read = read' := by
  obtain ⟨detail, credits, images, genres, themes, gameModes, platforms, estimate⟩ := read
  obtain ⟨detail', credits', images', genres', themes', gameModes', platforms', estimate'⟩ := read'
  rw [GameRecord.mk.injEq]
  exact ⟨hread.detail.trans hread'.detail.symm,
    (h.credits.reads_iff.mp hread.credits).trans (h.credits.reads_iff.mp hread'.credits).symm,
    (h.images.reads_iff.mp hread.images).trans (h.images.reads_iff.mp hread'.images).symm,
    hread.genres.unique hread'.genres (h.genres.nodup_keys collate),
    hread.themes.unique hread'.themes (h.themes.nodup_keys collate),
    hread.gameModes.unique hread'.gameModes (h.gameModes.nodup_keys collate),
    hread.platforms.unique hread'.platforms (h.platforms.nodup_keys collate),
    hread.estimate.trans hread'.estimate.symm⟩

lemma exists_reads (h : SettledGame store record) (collate : String ↪ κ) :
    ∃ read, record.Reads collate store read :=
  ⟨{ record with
      genres := record.genres.mergeSort fun a b =>
        collate (store.genres.text a) ≤ collate (store.genres.text b)
      themes := record.themes.mergeSort fun a b =>
        collate (store.themes.text a) ≤ collate (store.themes.text b)
      gameModes := record.gameModes.mergeSort fun a b =>
        collate (store.gameModes.text a) ≤ collate (store.gameModes.text b)
      platforms := record.platforms.mergeSort fun a b => collate a.name ≤ collate b.name },
    { detail := rfl
      credits := h.credits.reads_iff.mpr rfl
      images := h.images.reads_iff.mpr rfl
      genres := ReadsBy.mergeSort ..
      themes := ReadsBy.mergeSort ..
      gameModes := ReadsBy.mergeSort ..
      platforms := ReadsBy.mergeSort ..
      estimate := rfl }⟩

/-- The rows that a reading leaves when it is mapped again. -/
def again (store : Store slugify) (item : ContentItem) (record read : GameRecord) : GameRecord :=
  ⟨record.detail, renumberCredits record.credits, renumberImages record.images, read.genres,
    read.themes, read.gameModes, read.platforms,
    (GamePayload.fromLocal store item read).estimateAfter item record.estimate⟩

lemma toRow_fromLocal (h : SettledGame store record) (hread : record.Reads collate store read) :
    (GamePayload.fromLocal store item read).toRow = record.detail := by
  obtain ⟨payload, hpayload⟩ := h.detail
  rw [GamePayload.toRow_fromLocal (hread.detail.trans hpayload), hpayload]

lemma duration_fromLocal (hread : record.Reads collate store read) :
    (GamePayload.fromLocal store item read).duration = record.estimate.map serializeDuration := by
  rw [GamePayload.fromLocal, hread.estimate]

lemma playTime_fromLocal (hread : record.Reads collate store read) :
    (GamePayload.fromLocal store item read).playTime
      = serializePlayTime record.detail.playTimeMin record.detail.playTimeMax := by
  rw [GamePayload.fromLocal, hread.detail]

lemma checkEstimate_fromLocal (h : SettledGame store record)
    (hread : record.Reads collate store read) :
    (GamePayload.fromLocal store item read).checkEstimate = true :=
  h.estimate.checkEstimate (duration_fromLocal hread) (playTime_fromLocal hread)

lemma storable_fromLocal (h : SettledGame store record) (hread : record.Reads collate store read) :
    (GamePayload.fromLocal store item read).Storable store where
  check := by
    rw [h.toRow_fromLocal hread]
    exact h.check
  authors := separateCredits_serializeAuthors store.authors read.credits
  genres := SettledLinks.accepts store.genres read.genres
  themes := SettledLinks.accepts store.themes read.themes
  gameModes := SettledLinks.accepts store.gameModes read.gameModes
  estimate := h.checkEstimate_fromLocal hread

lemma settled_again (h : SettledGame store record) (hread : record.Reads collate store read) :
    SettledGame store (again store item record read) where
  detail := h.detail
  check := h.check
  credits := h.credits.renumber
  images := h.images.renumber
  genres := h.genres.perm hread.genres.perm
  themes := h.themes.perm hread.themes.perm
  gameModes := h.gameModes.perm hread.gameModes.perm
  platforms := h.platforms.perm hread.platforms.perm
  estimate := by
    have hcheck : (GamePayload.fromLocal store item read).checkEstimate = true :=
      h.checkEstimate_fromLocal hread
    have hsettled := settledEstimate_estimateAfter item hcheck h.estimate.sampleCount
    rwa [h.toRow_fromLocal hread] at hsettled

/-- The rows are read again as they were read. -/
lemma reads_again (h : SettledGame store record) (hread : record.Reads collate store read) :
    (again store item record read).Reads collate store (again store item record read) where
  detail := rfl
  credits := h.credits.renumber.reads_iff.mpr rfl
  images := h.images.renumber.reads_iff.mpr rfl
  genres := ⟨.rfl, hread.genres.sorted⟩
  themes := ⟨.rfl, hread.themes.sorted⟩
  gameModes := ⟨.rfl, hread.gameModes.sorted⟩
  platforms := ⟨.rfl, hread.platforms.sorted⟩
  estimate := rfl

lemma fromLocal_again (h : SettledGame store record) (hread : record.Reads collate store read) :
    GamePayload.fromLocal store item (again store item record read)
      = .fromLocal store item read := by
  have hestimate : ((GamePayload.fromLocal store item read).estimateAfter item record.estimate).map
      serializeDuration = record.estimate.map serializeDuration :=
    h.estimate.map_estimateAfter (duration_fromLocal hread) (playTime_fromLocal hread) item
  have hcredits := h.credits.reads_iff.mp hread.credits
  have himages := h.images.reads_iff.mp hread.images
  simp only [again, GamePayload.fromLocal, hread.detail, hread.estimate, hcredits, himages,
    serializeAuthors_renumberCredits, serializeImages_renumberImages] at hestimate ⊢
  rw [hestimate]

/-- The reading can be mapped again, and leaves rows that are read alike. -/
lemma reingest (h : SettledGame store record) (hread : record.Reads collate store read)
    (hrecord : store.games.get? item = some record) :
    afterGame store item (.fromLocal store item read)
      = { store with games := store.games.set item (again store item record read) } := by
  have hrow : (GamePayload.fromLocal store item read).toRow = record.detail := h.toRow_fromLocal hread
  have hcredits := h.credits.creditRows_eq
  have himages := h.images.imageRows_eq
  have hgenres := (h.genres.perm hread.genres.perm).linkedSlugs_eq
  have hthemes := (h.themes.perm hread.themes.perm).linkedSlugs_eq
  have hgameModes := (h.gameModes.perm hread.gameModes.perm).linkedSlugs_eq
  have hplatforms := (h.platforms.perm hread.platforms.perm).gamePlatformRows_eq
  rw [← h.credits.reads_iff.mp hread.credits] at hcredits
  rw [← h.images.reads_iff.mp hread.images] at himages
  rw [afterGame, hrow, hrecord, Option.bind_some]
  simp only [again, GamePayload.fromLocal, hcredits, himages, hgenres, hthemes, hgameModes, hplatforms,
    ensureAll_serializeAuthors, SettledLinks.ensureAll_eq]
  rw [h.credits.reads_iff.mp hread.credits, h.images.reads_iff.mp hread.images]

end SettledGame

/-! ### Books -/

/-- The rows that the mapper leaves of a book. -/
structure SettledBook (authors : Catalog slugify) (record : BookRecord) : Prop where
  detail : ∃ payload : BookPayload, record.detail = payload.toRow
  check : record.detail.check = true
  credits : SettledCredits authors record.credits
  images : SettledImages record.images

namespace SettledBook

variable {record read : BookRecord}

/-- A book is read in one way. -/
lemma reads_iff (h : SettledBook authors record) : record.Reads read ↔ read = record := by
  constructor
  · intro hread
    obtain ⟨detail, credits, images⟩ := read
    obtain ⟨detail', credits', images'⟩ := record
    rw [BookRecord.mk.injEq]
    exact ⟨hread.detail, h.credits.reads_iff.mp hread.credits, h.images.reads_iff.mp hread.images⟩
  · rintro rfl
    exact ⟨rfl, h.credits.reads_iff.mpr rfl, h.images.reads_iff.mpr rfl⟩

/-- The rows that the payload leaves when it is mapped again. -/
def again (record : BookRecord) : BookRecord :=
  ⟨record.detail, renumberCredits record.credits, renumberImages record.images⟩

lemma settled_again (h : SettledBook authors record) : SettledBook authors (again record) where
  detail := h.detail
  check := h.check
  credits := h.credits.renumber
  images := h.images.renumber

lemma fromLocal_again :
    BookPayload.fromLocal authors item (again record) = .fromLocal authors item record := by
  simp only [BookPayload.fromLocal, again, serializeAuthors_renumberCredits,
    serializeImages_renumberImages]

lemma toRow_fromLocal (h : SettledBook authors record) :
    (BookPayload.fromLocal authors item record).toRow = record.detail := by
  obtain ⟨payload, hpayload⟩ := h.detail
  rw [BookPayload.toRow_fromLocal hpayload, hpayload]

lemma storable_fromLocal (h : SettledBook authors record) :
    (BookPayload.fromLocal authors item record).Storable slugify where
  check := by
    rw [h.toRow_fromLocal]
    exact h.check
  authors := separateCredits_serializeAuthors authors record.credits

lemma reingest {record : BookRecord} (h : SettledBook store.authors record) :
    afterBook store item (.fromLocal store.authors item record)
      = { store with books := store.books.set item (again record) } := by
  have hrow : (BookPayload.fromLocal store.authors item record).toRow = record.detail :=
    h.toRow_fromLocal
  have hcredits := h.credits.creditRows_eq
  have himages := h.images.imageRows_eq
  rw [afterBook, hrow]
  simp only [again, BookPayload.fromLocal, hcredits, himages, ensureAll_serializeAuthors]

end SettledBook

/-! ### Payloads -/

/-- The record of the item is as its mapper leaves it. -/
def SettledItem (store : Store slugify) (country : String) (item : ContentItem) : Payload → Prop
  | .movie _ => ∃ record, store.movies.get? item = some record ∧
      SettledMovie store.authors country record
  | .album _ => ∃ record, store.albums.get? item = some record ∧ SettledAlbum store.authors record
  | .game _ => ∃ record, store.games.get? item = some record ∧ SettledGame store record
  | .book _ => ∃ record, store.books.get? item = some record ∧ SettledBook store.authors record
  | _ => False

/-- A movie, album, game or book that is stored under the item. -/
def Payload.Fits (item : ContentItem) : Payload → Prop
  | .movie _ => item.contentType = .movie
  | .album _ => item.contentType = .album
  | .game _ => item.contentType = .game
  | .book _ => item.contentType = .book
  | _ => False

/-- The rows that the item has before the payload is stored: platforms of no other country, and no
    negative number of samples. -/
structure StoredBefore (store : Store slugify) (item : ContentItem) (country : String) : Prop where
  country : ∀ record, store.movies.get? item = some record →
    ∀ row ∈ record.platforms, row.countryCode = country
  samples : ∀ record, store.games.get? item = some record →
    ∀ row ∈ record.estimate, 0 ≤ row.sampleCount

/-- What is returned can be mapped again, and what is returned then is the same. -/
def ReachesFixpoint (collate : String ↪ κ) (store : Store slugify) (item : ContentItem)
    (country : String) : Prop :=
  (∃ payload, FromLocal collate store item payload) ∧
    ∀ payload, FromLocal collate store item payload →
      ∃ store', upsert store item country payload = .ok store' ∧
        (∃ payload', FromLocal collate store' item payload') ∧
        ∀ payload', FromLocal collate store' item payload' → payload' = payload

/-- No order of rows is left open: at most one platform of each kind, and tracks of different
    numbers. -/
def Payload.OrderDetermined : Payload → Prop
  | .movie payload => ∀ kind, (namedPlatforms (payload.platforms.get kind)).length ≤ 1
  | .album payload => (payload.trackRows.map (·.1.trackNumber)).Nodup
  | _ => True

/-! ### What can be returned -/

section

variable {payload : Payload}

lemma fromLocal_movie_iff {record : ScreenRecord MovieRow} (htype : item.contentType = .movie)
    (hrecord : store.movies.get? item = some record) :
    FromLocal collate store item payload ↔ ∃ read, record.Reads read ∧
      payload = .movie (.fromLocal store.authors item read) := by
  constructor
  · intro h
    cases h with
    | movie _ hfound hread =>
      obtain rfl := Option.some.inj (hrecord.symm.trans hfound)
      exact ⟨_, hread, rfl⟩
    | album hother | game hother | book hother => rw [htype] at hother; cases hother
  · rintro ⟨read, hread, rfl⟩
    exact .movie htype hrecord hread

lemma fromLocal_album_iff {record : AlbumRecord} (htype : item.contentType = .album)
    (hrecord : store.albums.get? item = some record) :
    FromLocal collate store item payload ↔ ∃ read, record.Reads read ∧
      payload = .album (.fromLocal store.authors item read) := by
  constructor
  · intro h
    cases h with
    | album _ hfound hread =>
      obtain rfl := Option.some.inj (hrecord.symm.trans hfound)
      exact ⟨_, hread, rfl⟩
    | movie hother | game hother | book hother => rw [htype] at hother; cases hother
  · rintro ⟨read, hread, rfl⟩
    exact .album htype hrecord hread

lemma fromLocal_game_iff {record : GameRecord} (htype : item.contentType = .game)
    (hrecord : store.games.get? item = some record) :
    FromLocal collate store item payload ↔ ∃ read, record.Reads collate store read ∧
      payload = .game (.fromLocal store item read) := by
  constructor
  · intro h
    cases h with
    | game _ hfound hread =>
      obtain rfl := Option.some.inj (hrecord.symm.trans hfound)
      exact ⟨_, hread, rfl⟩
    | movie hother | album hother | book hother => rw [htype] at hother; cases hother
  · rintro ⟨read, hread, rfl⟩
    exact .game htype hrecord hread

lemma fromLocal_book_iff {record : BookRecord} (htype : item.contentType = .book)
    (hrecord : store.books.get? item = some record) :
    FromLocal collate store item payload ↔ ∃ read, record.Reads read ∧
      payload = .book (.fromLocal store.authors item read) := by
  constructor
  · intro h
    cases h with
    | book _ hfound hread =>
      obtain rfl := Option.some.inj (hrecord.symm.trans hfound)
      exact ⟨_, hread, rfl⟩
    | movie hother | album hother | game hother => rw [htype] at hother; cases hother
  · rintro ⟨read, hread, rfl⟩
    exact .book htype hrecord hread

lemma Payload.id_of_fromLocal (h : FromLocal collate store item payload) :
    payload.hasShape = true ↔ item.externalId ≠ "" := by
  cases h <;>
    simp only [Payload.hasShape, hasPayloadShape, MoviePayload.fromLocal, AlbumPayload.fromLocal,
      GamePayload.fromLocal, BookPayload.fromLocal] <;>
    simp <;>
    exact decide_eq_true_iff

/-- What is returned can be mapped again, and leaves rows of which the same can be returned. -/
theorem fromLocal_reingest {stored : Payload} (hfits : stored.Fits item)
    (hsettled : SettledItem store country item stored) (hid : item.externalId ≠ "")
    (h : FromLocal collate store item payload) :
    ∃ store', upsert store item country payload = .ok store' ∧
      ∀ payload', FromLocal collate store' item payload' ↔ FromLocal collate store item payload' := by
  have hshape := (Payload.id_of_fromLocal h).mpr hid
  cases stored with
  | movie stored =>
    obtain ⟨record, hrecord, hmovie⟩ := hsettled
    obtain ⟨read, hread, rfl⟩ := (fromLocal_movie_iff hfits hrecord).mp h
    obtain ⟨hstorable, record', hafter, hsame⟩ := hmovie.reingest hread rfl hrecord
    refine ⟨_, (yields_upsertMovie ..).mpr ⟨⟨hshape, hstorable⟩, hafter.symm⟩, fun payload' => ?_⟩
    rw [fromLocal_movie_iff hfits (Table.get?_set_self ..), fromLocal_movie_iff hfits hrecord]
    constructor
    · rintro ⟨read', hread', rfl⟩
      obtain ⟨other, hother, heq⟩ := (hsame _).mp ⟨read', hread', rfl⟩
      exact ⟨other, hother, congrArg Payload.movie heq⟩
    · rintro ⟨read', hread', rfl⟩
      obtain ⟨other, hother, heq⟩ := (hsame _).mpr ⟨read', hread', rfl⟩
      exact ⟨other, hother, congrArg Payload.movie heq⟩
  | album stored =>
    obtain ⟨record, hrecord, halbum⟩ := hsettled
    obtain ⟨read, hread, rfl⟩ := (fromLocal_album_iff hfits hrecord).mp h
    obtain ⟨hstorable, record', hafter, hsame⟩ := halbum.reingest hread rfl
    refine ⟨_, (yields_upsertAlbum ..).mpr ⟨⟨hshape, hstorable⟩, hafter.symm⟩, fun payload' => ?_⟩
    rw [fromLocal_album_iff hfits (Table.get?_set_self ..), fromLocal_album_iff hfits hrecord]
    constructor
    · rintro ⟨read', hread', rfl⟩
      obtain ⟨other, hother, heq⟩ := (hsame _).mp ⟨read', hread', rfl⟩
      exact ⟨other, hother, congrArg Payload.album heq⟩
    · rintro ⟨read', hread', rfl⟩
      obtain ⟨other, hother, heq⟩ := (hsame _).mpr ⟨read', hread', rfl⟩
      exact ⟨other, hother, congrArg Payload.album heq⟩
  | game stored =>
    obtain ⟨record, hrecord, hgame⟩ := hsettled
    obtain ⟨read, hread, rfl⟩ := (fromLocal_game_iff hfits hrecord).mp h
    refine ⟨_, (yields_upsertGame ..).mpr
      ⟨⟨hshape, hgame.storable_fromLocal hread⟩, (hgame.reingest hread hrecord).symm⟩,
      fun payload' => ?_⟩
    rw [fromLocal_game_iff hfits (Table.get?_set_self ..), fromLocal_game_iff hfits hrecord]
    have hsettled : SettledGame store (SettledGame.again store item record read) :=
      hgame.settled_again hread
    have hsame : GamePayload.fromLocal store item (SettledGame.again store item record read)
        = .fromLocal store item read := hgame.fromLocal_again hread
    constructor
    · rintro ⟨read', hread', rfl⟩
      obtain rfl := hsettled.reads_unique (hgame.reads_again hread)
        (SettledGame.reads_with_games.mp hread')
      exact ⟨read, hread, congrArg Payload.game hsame⟩
    · rintro ⟨read', hread', rfl⟩
      obtain rfl := hgame.reads_unique hread hread'
      exact ⟨_, SettledGame.reads_with_games.mpr (hgame.reads_again hread),
        congrArg Payload.game hsame.symm⟩
  | book stored =>
    obtain ⟨record, hrecord, hbook⟩ := hsettled
    obtain ⟨read, hread, rfl⟩ := (fromLocal_book_iff hfits hrecord).mp h
    obtain rfl := hbook.reads_iff.mp hread
    refine ⟨_, (yields_upsertBook ..).mpr
      ⟨⟨hshape, hbook.storable_fromLocal⟩, hbook.reingest.symm⟩, fun payload' => ?_⟩
    rw [fromLocal_book_iff hfits (Table.get?_set_self ..), fromLocal_book_iff hfits hrecord]
    simp only [hbook.reads_iff, hbook.settled_again.reads_iff, exists_eq_left,
      SettledBook.fromLocal_again]
  | tvShow stored => exact hfits.elim
  | season stored => exact hfits.elim

end

/-! ### What the mappers leave -/

lemma settledCredits_ensureAll {entries : List AuthorEntry} (authors : Catalog slugify)
    (h : SeparateCredits slugify entries) :
    SettledCredits (authors.ensureAll (creditNames entries)) (creditRows slugify entries) :=
  settledCredits_creditRows h fun _ hname => authors.isSome_nameAt?_ensureAll hname

/-- Names that are added leave credits settled. -/
lemma SettledCredits.ensureAll {rows : List CreditRow} (h : SettledCredits authors rows)
    (names : List Name) : SettledCredits (authors.ensureAll names) rows where
  named row hrow := by
    obtain ⟨name, hname⟩ := Option.isSome_iff_exists.mp (h.named row hrow)
    exact Option.isSome_of_mem (Catalog.nameAt?_ensureAll_of_some hname names)
  admits := h.admits
  ordered := h.ordered

lemma platforms_record {ρ : Type} (payload : ScreenPayload) (detail : ρ)
    {old : Option (ScreenRecord ρ)}
    (hcountry : ∀ record ∈ old, ∀ row ∈ record.platforms, row.countryCode = country) :
    (payload.record slugify country old detail).platforms
      = streamingRows payload.platforms country := by
  have hold : (old.elim [] (·.platforms)).filter (·.countryCode ≠ country) = [] := by
    refine List.filter_eq_nil_iff.mpr fun row hrow => ?_
    cases old with
    | none => cases hrow
    | some record => simp [hcountry record rfl row hrow]
  rw [ScreenPayload.record, hold, List.nil_append]

lemma settledMovie_record {payload : MoviePayload} (h : payload.Storable slugify)
    (authors : Catalog slugify) {old : Option (ScreenRecord MovieRow)}
    (hcountry : ∀ record ∈ old, ∀ row ∈ record.platforms, row.countryCode = country) :
    SettledMovie (authors.ensureAll (creditNames payload.authors)) country
      (payload.record slugify country old payload.toRow) where
  detail := ⟨payload, rfl⟩
  check := h.check
  credits := settledCredits_ensureAll authors h.authors
  images := settledImages_imageRows payload.images
  platforms := by
    rw [platforms_record _ _ hcountry]
    exact settledPlatforms_streamingRows payload.platforms country

lemma settledAlbum_record {payload : AlbumPayload} (h : payload.Storable slugify)
    (authors : Catalog slugify) :
    SettledAlbum ((authors.ensureAll (creditNames payload.authors)).ensureAll
        (trackNames payload.trackRows))
      ⟨payload.toRow, creditRows slugify payload.authors, imageRows payload.images,
        payload.trackRows.map (trackRecord slugify)⟩ where
  check := h.check
  credits := (settledCredits_ensureAll authors h.authors).ensureAll _
  images := settledImages_imageRows payload.images
  tracks := settledTracks_trackRows h fun _ hname => Catalog.isSome_nameAt?_ensureAll _ hname

/-- The record of an item is settled once its payload has been stored. -/
lemma settledItem_of_upsert {payload : Payload} (hfits : payload.Fits item)
    (hbefore : StoredBefore store item country)
    (hok : upsert store item country payload = .ok store') :
    SettledItem store' country item payload := by
  obtain ⟨⟨-, hstorable⟩, rfl⟩ := (yields_upsert store item country payload store').mp hok
  cases payload with
  | movie payload =>
    exact ⟨_, Table.get?_set_self .., settledMovie_record hstorable store.authors hbefore.country⟩
  | album payload =>
    exact ⟨_, Table.get?_set_self .., settledAlbum_record hstorable store.authors⟩
  | game payload =>
    have hgame : payload.Storable store := hstorable
    exact ⟨_, Table.get?_set_self .., {
      detail := ⟨payload, rfl⟩
      check := hgame.check
      credits := settledCredits_ensureAll store.authors hgame.authors
      images := settledImages_imageRows payload.images
      genres := settledLinks_linkedSlugs store.genres payload.genres
      themes := settledLinks_linkedSlugs store.themes payload.themes
      gameModes := settledLinks_linkedSlugs store.gameModes payload.gameModes
      platforms := settledGamePlatforms_gamePlatformRows payload.platforms
      estimate := by
        refine settledEstimate_estimateAfter item hgame.estimate fun row hrow => ?_
        obtain ⟨record, hrecord, hestimate⟩ := Option.bind_eq_some_iff.mp hrow
        exact hbefore.samples record hrecord row hestimate }⟩
  | book payload =>
    have hbook : payload.Storable slugify := hstorable
    exact ⟨_, Table.get?_set_self .., {
      detail := ⟨payload, rfl⟩
      check := hbook.check
      credits := settledCredits_ensureAll store.authors hbook.authors
      images := settledImages_imageRows payload.images }⟩
  | tvShow payload => exact hfits.elim
  | season payload => exact hfits.elim

/-! ### The order of the rows -/

/-- All that can be returned is one payload. -/
def ReturnsOne (collate : String ↪ κ) (store : Store slugify) (item : ContentItem) : Prop :=
  ∀ payload payload', FromLocal collate store item payload → FromLocal collate store item payload' →
    payload = payload'

lemma length_filter_streamingRows (platforms : PlatformMap) (country : String) (kind : StreamingKind) :
    ((streamingRows platforms country).filter (·.kind = kind)).length
      = (namedPlatforms (platforms.get kind)).length := by
  simp only [streamingRows, StreamingKind.values, List.flatMap_cons, List.flatMap_nil, List.append_nil,
    List.filter_append, List.length_append, List.filter_map, List.length_map]
  cases kind <;> simp [Function.comp_def]

/-- A bucket is returned in one order if it has at most one platform. -/
lemma bucket_alike_iff {rows : List StreamingRow} (h : SettledPlatforms country rows)
    (kind : StreamingKind) :
    (∀ read read', read.Perm rows → read'.Perm rows →
        platformBucket read kind = platformBucket read' kind) ↔
      (rows.filter (·.kind = kind)).length ≤ 1 := by
  have hentries : ((rows.filter (·.kind = kind)).map StreamingRow.entry).Nodup := by
    refine List.Nodup.of_map PlatformPayload.name ?_
    rw [List.map_map]
    have hnames := (h.nodup_names kind).map (Option.some_injective String)
    rw [List.map_map] at hnames
    exact hnames
  have hlength : (rows.filter (·.kind = kind)).length ≤ 1 ↔
      ((rows.filter (·.kind = kind)).map fun _ => ()).Nodup := by
    rw [List.map_const', List.nodup_replicate]
  rw [hlength, ← reads_alike_iff hentries]
  constructor
  · intro halike read read' hread hread'
    obtain ⟨all, hall, rfl⟩ := hread.exists_filter_eq
    obtain ⟨all', hall', rfl⟩ := hread'.exists_filter_eq
    exact halike all all' hall.perm hall'.perm
  · intro halike read read' hread hread'
    exact halike _ _ ((readsBy_const_iff.mpr hread).filter _) ((readsBy_const_iff.mpr hread').filter _)

lemma serializeStreamingPlatforms_inj {rows rows' : List StreamingRow} :
    serializeStreamingPlatforms rows = serializeStreamingPlatforms rows' ↔
      ∀ kind, platformBucket rows kind = platformBucket rows' kind := by
  constructor
  · intro heq kind
    rw [← SettledPlatforms.get_serializeStreamingPlatforms, heq,
      SettledPlatforms.get_serializeStreamingPlatforms]
  · intro hbuckets
    rw [serializeStreamingPlatforms, hbuckets, hbuckets, hbuckets]
    rfl

lemma returnsOne_movie_iff {record : ScreenRecord MovieRow} (htype : item.contentType = .movie)
    (hrecord : store.movies.get? item = some record)
    (h : SettledMovie store.authors country record) :
    ReturnsOne collate store item ↔
      ∀ kind, (record.platforms.filter (·.kind = kind)).length ≤ 1 := by
  simp only [ReturnsOne, fromLocal_movie_iff htype hrecord, h.reads_iff, ← bucket_alike_iff h.platforms]
  constructor
  · intro hone kind read read' hread hread'
    have heq := hone _ _ ⟨_, ⟨read, hread, rfl⟩, rfl⟩ ⟨_, ⟨read', hread', rfl⟩, rfl⟩
    have hplatforms := congrArg (·.platforms) (Payload.movie.inj heq)
    exact serializeStreamingPlatforms_inj.mp hplatforms kind
  · rintro halike - - ⟨-, ⟨read, hread, rfl⟩, rfl⟩ ⟨-, ⟨read', hread', rfl⟩, rfl⟩
    have hplatforms : serializeStreamingPlatforms read = serializeStreamingPlatforms read' :=
      serializeStreamingPlatforms_inj.mpr fun kind => halike kind read read' hread hread'
    simp only [MoviePayload.fromLocal, hplatforms]

lemma returnsOne_album_iff {record : AlbumRecord} (htype : item.contentType = .album)
    (hrecord : store.albums.get? item = some record) (h : SettledAlbum store.authors record) :
    ReturnsOne collate store item ↔ (record.tracks.map (·.row.trackNumber)).Nodup := by
  have hentries : (record.tracks.map (TrackRecord.entry store.authors)).Nodup := by
    refine List.Nodup.of_map TrackEntry.id ?_
    have hids := h.tracks.admits.nodup.map (Option.some_injective String)
    rw [List.map_map, List.map_map] at hids
    rw [List.map_map]
    exact hids
  rw [← reads_alike_iff hentries]
  simp only [ReturnsOne, fromLocal_album_iff htype hrecord, h.reads_iff]
  constructor
  · intro hone read read' hread hread'
    have heq := hone _ _ ⟨_, ⟨read, hread, rfl⟩, rfl⟩ ⟨_, ⟨read', hread', rfl⟩, rfl⟩
    exact congrArg (·.tracks) (Payload.album.inj heq)
  · rintro halike - - ⟨-, ⟨read, hread, rfl⟩, rfl⟩ ⟨-, ⟨read', hread', rfl⟩, rfl⟩
    have htracks := halike read read' hread hread'
    simp only [AlbumPayload.fromLocal, htracks]

/-- A payload that has been stored is returned in one way if its order is determined. -/
lemma returnsOne_iff {payload : Payload} (hfits : payload.Fits item)
    (hbefore : StoredBefore store item country)
    (hok : upsert store item country payload = .ok store') :
    ReturnsOne collate store' item ↔ payload.OrderDetermined := by
  have hsettled := settledItem_of_upsert hfits hbefore hok
  obtain ⟨⟨-, hstorable⟩, rfl⟩ := (yields_upsert store item country payload store').mp hok
  cases payload with
  | movie payload =>
    have hmovie := settledMovie_record hstorable store.authors hbefore.country
    rw [returnsOne_movie_iff hfits (Table.get?_set_self ..) hmovie,
      platforms_record _ _ hbefore.country]
    simp only [length_filter_streamingRows]
    rfl
  | album payload =>
    rw [returnsOne_album_iff hfits (Table.get?_set_self ..) (settledAlbum_record hstorable store.authors),
      List.map_map]
    rfl
  | game payload =>
    obtain ⟨record, hrecord, hgame⟩ := hsettled
    refine iff_of_true (fun returned returned' h h' => ?_) trivial
    obtain ⟨read, hread, rfl⟩ := (fromLocal_game_iff hfits hrecord).mp h
    obtain ⟨read', hread', rfl⟩ := (fromLocal_game_iff hfits hrecord).mp h'
    rw [hgame.reads_unique hread hread']
  | book payload =>
    obtain ⟨record, hrecord, hbook⟩ := hsettled
    refine iff_of_true (fun returned returned' h h' => ?_) trivial
    obtain ⟨read, hread, rfl⟩ := (fromLocal_book_iff hfits hrecord).mp h
    obtain ⟨read', hread', rfl⟩ := (fromLocal_book_iff hfits hrecord).mp h'
    rw [hbook.reads_iff.mp hread, hbook.reads_iff.mp hread']
  | tvShow payload => exact hfits.elim
  | season payload => exact hfits.elim

/-- A settled item is returned. -/
lemma exists_fromLocal {stored : Payload} (collate : String ↪ κ) (hfits : stored.Fits item)
    (hsettled : SettledItem store country item stored) :
    ∃ payload, FromLocal collate store item payload := by
  cases stored with
  | movie stored =>
    obtain ⟨record, hrecord, hmovie⟩ := hsettled
    exact ⟨_, .movie hfits hrecord (hmovie.reads_iff.mpr ⟨_, .rfl, rfl⟩)⟩
  | album stored =>
    obtain ⟨record, hrecord, halbum⟩ := hsettled
    exact ⟨_, .album hfits hrecord (halbum.reads_iff.mpr ⟨_, ReadsBy.mergeSort _ _, rfl⟩)⟩
  | game stored =>
    obtain ⟨record, hrecord, hgame⟩ := hsettled
    obtain ⟨read, hread⟩ := hgame.exists_reads collate
    exact ⟨_, .game hfits hrecord hread⟩
  | book stored =>
    obtain ⟨record, hrecord, hbook⟩ := hsettled
    exact ⟨_, .book hfits hrecord (hbook.reads_iff.mpr rfl)⟩
  | tvShow stored => exact hfits.elim
  | season stored => exact hfits.elim

/-! ### Fixpoint -/

lemma ReachesFixpoint.returnsOne {stored : Payload} (hfits : stored.Fits item)
    (hsettled : SettledItem store country item stored)
    (h : ReachesFixpoint collate store item country) :
    item.externalId ≠ "" ∧ ReturnsOne collate store item := by
  obtain ⟨⟨first, hfirst⟩, hagain⟩ := h
  have hid : item.externalId ≠ "" := by
    obtain ⟨store'', hstore'', -⟩ := hagain first hfirst
    exact (Payload.id_of_fromLocal hfirst).mp ((yields_upsert ..).mp hstore'').1.1
  refine ⟨hid, fun returned returned' hreturned hreturned' => ?_⟩
  obtain ⟨store'', hstore'', -, hsame⟩ := hagain returned hreturned
  obtain ⟨again, hupsert, hreadings⟩ := fromLocal_reingest hfits hsettled hid hreturned
  obtain rfl := Except.ok.inj (hstore''.symm.trans hupsert)
  exact (hsame returned' ((hreadings returned').mpr hreturned')).symm

/-- A stored payload reaches a fixpoint exactly if its item has an external id and no order of its
    rows is left open. -/
theorem reachesFixpoint_iff (collate : String ↪ κ) {payload : Payload} (hfits : payload.Fits item)
    (hbefore : StoredBefore store item country)
    (hok : upsert store item country payload = .ok store') :
    ReachesFixpoint collate store' item country ↔
      item.externalId ≠ "" ∧ payload.OrderDetermined := by
  have hsettled := settledItem_of_upsert hfits hbefore hok
  have hreturns : ReturnsOne collate store' item ↔ payload.OrderDetermined :=
    returnsOne_iff hfits hbefore hok
  rw [← hreturns]
  constructor
  · exact ReachesFixpoint.returnsOne hfits hsettled
  · rintro ⟨hid, hone⟩
    refine ⟨exists_fromLocal collate hfits hsettled, fun returned hreturned => ?_⟩
    obtain ⟨again, hagain, hreadings⟩ := fromLocal_reingest hfits hsettled hid hreturned
    refine ⟨again, hagain, ⟨returned, (hreadings returned).mpr hreturned⟩, ?_⟩
    intro returned' hreturned'
    exact hone returned' returned ((hreadings returned').mp hreturned') hreturned

/-! ### Samples -/

section Samples

/-- A movie that streams on the given platforms. -/
def streamed (names : List String) : Payload :=
  .movie { id := some "77", title := some "Memento",
           platforms := { stream := names.map fun name => { name := some name } } }

def memento : ContentItem := ⟨.tmdb, "77", .movie⟩

lemma storedBefore_empty : StoredBefore ({} : Store id) memento "US" where
  country record hrecord := by
    rw [Table.get?_empty] at hrecord
    cases hrecord
  samples record hrecord := by
    rw [Table.get?_empty] at hrecord
    cases hrecord

lemma upsert_streamed (names : List String) :
    upsert {} memento "US" (streamed names)
      = .ok (afterUpsert ({} : Store id) memento "US" (streamed names)) := by
  refine (yields_upsert ..).mpr ⟨⟨rfl, rfl, ?_⟩, rfl⟩
  rintro a ⟨⟩

/-- A movie with one platform is a fixpoint. -/
theorem reachesFixpoint_onePlatform : ReachesFixpoint (.refl String)
    (afterUpsert ({} : Store id) memento "US" (streamed ["Mubi"])) memento "US" := by
  have hfits : (streamed ["Mubi"]).Fits memento := rfl
  refine (reachesFixpoint_iff (.refl String) hfits storedBefore_empty (upsert_streamed ["Mubi"])).mpr
    ⟨by decide, fun kind => ?_⟩
  cases kind <;> decide

/-- A movie with two platforms may come back with them exchanged. -/
theorem twoPlatforms_no_fixpoint : ¬ ∀ (slugify : String → String) (store store' : Store slugify)
    (item : ContentItem) (country : String) (payload : Payload), payload.Fits item →
    StoredBefore store item country → upsert store item country payload = .ok store' →
    ReachesFixpoint (.refl String) store' item country := by
  intro h
  have hok := upsert_streamed ["Mubi", "Prime Video"]
  have hfits : (streamed ["Mubi", "Prime Video"]).Fits memento := rfl
  have hfixpoint := h id _ _ _ _ _ hfits storedBefore_empty hok
  have hone := hfixpoint.returnsOne hfits (settledItem_of_upsert hfits storedBefore_empty hok)
  have hlength := (returnsOne_iff hfits storedBefore_empty hok).mp hone.2 .stream
  exact absurd hlength (by decide)

end Samples

end Denn.Ingest
