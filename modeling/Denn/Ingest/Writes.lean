import Denn.Ingest.Mappers

/-!
# What the mappers write

For each mapper, the condition under which it completes and the store that it then leaves. The credits
of an item are deduplicated by name and role but unique by slug and role, tracks and episodes are
unique by id but not deduplicated at all, and a name is looked up in the game catalogs by itself but
unique by its slug.
-/

namespace Denn.Ingest

open Denn.Core

variable {slugify : String → String}

/-! ### Credits -/

def creditNames (entries : List AuthorEntry) : List Name := (credits entries).map (·.name)

def creditRows (slugify : String → String) (entries : List AuthorEntry) : List CreditRow :=
  (credits entries).map (Credit.row slugify)

/-- Credits of one role whose names have one slug have one name. -/
def SeparateCredits (slugify : String → String) (entries : List AuthorEntry) : Prop :=
  ∀ a ∈ namedCredits entries, ∀ b ∈ namedCredits entries,
    slugOf slugify a.name = slugOf slugify b.name → a.role = b.role → a.name = b.name

lemma foldlM_addCredit (list : List Credit) (state : Catalog slugify × List CreditRow) :
    list.foldlM addCredit state
      = (creditConstraints.insertAll state.2 (list.map (Credit.row slugify))).map fun rows =>
          (state.1.ensureAll (list.map (·.name)), rows) := by
  induction list generalizing state with
  | nil => rfl
  | cons credit list ih =>
    rw [List.foldlM_cons, addCredit, List.map_cons, List.map_cons, Constraints.insertAll,
      List.foldlM_cons]
    cases hrow : creditConstraints.insert state.2 (credit.row slugify) with
    | error e => rfl
    | ok rows => exact ih (state.1.ensure credit.name, rows)

lemma nodup_credits (entries : List AuthorEntry) : ((credits entries).map Credit.key).Nodup :=
  nodup_keepFirst Credit.key [] _

lemma exists_mem_credits {entries : List AuthorEntry} {a : Credit} (h : a ∈ namedCredits entries) :
    ∃ b ∈ credits entries, b.name = a.name ∧ b.role = a.role := by
  obtain ⟨b, hb, hkey⟩ : ∃ b ∈ credits entries, b.key = a.key :=
    exists_mem_keepFirst h List.not_mem_nil
  exact ⟨b, hb, congrArg Prod.fst hkey, congrArg Prod.snd hkey⟩

/-- The rows of the credits are admitted if no slug is taken twice for a role. -/
lemma admits_creditRows_iff {entries : List AuthorEntry} :
    creditConstraints.Admits (creditRows slugify entries) ↔ SeparateCredits slugify entries := by
  have hkeys := nodup_credits entries
  have hrows : (creditRows slugify entries).map creditConstraints.key
      = (credits entries).map fun credit => (slugOf slugify credit.name, credit.role) := by
    rw [creditRows, List.map_map]
    rfl
  constructor
  · rintro ⟨-, hnodup⟩ a ha b hb hslug hrole
    rw [hrows, List.nodup_map_iff_inj_on (List.Nodup.of_map _ hkeys)] at hnodup
    obtain ⟨a', ha', haname, harole⟩ := exists_mem_credits ha
    obtain ⟨b', hb', hbname, hbrole⟩ := exists_mem_credits hb
    have heq := hnodup a' ha' b' hb' (by rw [haname, harole, hbname, hbrole, hslug, hrole])
    rw [← haname, ← hbname, heq]
  · intro hseparate
    refine ⟨fun _ _ => rfl, ?_⟩
    rw [hrows, List.nodup_map_iff_inj_on (List.Nodup.of_map _ hkeys)]
    intro a ha b hb heq
    obtain ⟨hslug, hrole⟩ := Prod.mk.inj heq
    have hname := hseparate a (mem_of_mem_keepFirst ha) b (mem_of_mem_keepFirst hb) hslug hrole
    exact List.inj_on_of_nodup_map hkeys ha hb (Prod.ext hname hrole)

lemma yields_replaceAuthors (authors : Catalog slugify) (entries : List AuthorEntry) :
    Yields (replaceAuthors authors entries) (SeparateCredits slugify entries)
      (authors.ensureAll (creditNames entries), creditRows slugify entries) := by
  rw [replaceAuthors, foldlM_addCredit]
  exact ((creditConstraints.yields_insertAll_nil (creditRows slugify entries)).congr
    admits_creditRows_iff).map _

/-! ### Platforms -/

lemma nodup_namedPlatforms (entries : List PlatformPayload) :
    ((namedPlatforms entries).map Prod.fst).Nodup :=
  nodup_keepFirst Prod.fst [] _

lemma mem_streamingRows {platforms : PlatformMap} {country : String} {row : StreamingRow} :
    row ∈ streamingRows platforms country ↔
      (row.name, row.imageUrl) ∈ namedPlatforms (platforms.get row.kind) ∧
        row.countryCode = country := by
  simp only [streamingRows, List.mem_flatMap, List.mem_map]
  constructor
  · rintro ⟨kind, -, platform, hplatform, rfl⟩
    exact ⟨hplatform, rfl⟩
  · rintro ⟨hplatform, rfl⟩
    have hkind : row.kind ∈ StreamingKind.values := by cases row.kind <;> decide
    exact ⟨row.kind, hkind, (row.name, row.imageUrl), hplatform, rfl⟩

/-- Deduplication leaves no two platforms of one kind with one name. -/
lemma admits_streamingRows (platforms : PlatformMap) (country : String) :
    streamingConstraints.Admits (streamingRows platforms country) := by
  refine ⟨fun _ _ => rfl, ?_⟩
  rw [streamingRows, List.map_flatMap, List.nodup_flatMap]
  constructor
  · intro kind _
    have hnames := nodup_namedPlatforms (platforms.get kind)
    rw [List.map_map]
    refine (List.nodup_map_iff_inj_on (List.Nodup.of_map _ hnames)).mpr fun a ha b hb heq => ?_
    obtain ⟨-, hname⟩ := Prod.mk.inj heq
    exact List.inj_on_of_nodup_map hnames ha hb (Prod.mk.inj hname).1
  · have hkinds : StreamingKind.values.Nodup := by decide
    refine hkinds.imp fun {kind kind'} hne key hkey hkey' => hne ?_
    obtain ⟨row, hrow, rfl⟩ := List.mem_map.mp hkey
    obtain ⟨row', hrow', heq⟩ := List.mem_map.mp hkey'
    obtain ⟨platform, -, rfl⟩ := List.mem_map.mp hrow
    obtain ⟨platform', -, rfl⟩ := List.mem_map.mp hrow'
    exact (Prod.mk.inj heq).1.symm

/-- Streaming platforms break no constraint. -/
lemma yields_replaceStreamingPlatforms (rows : List StreamingRow) (platforms : PlatformMap)
    (country : String) : Yields (replaceStreamingPlatforms rows platforms country) True
      (rows.filter (·.countryCode ≠ country) ++ streamingRows platforms country) := by
  refine (streamingConstraints.yields_insertAll _ _).congr ⟨fun _ => trivial, fun _ => ?_⟩
  refine ⟨admits_streamingRows platforms country, fun row hrow hkey => ?_⟩
  obtain ⟨other, hother, heq⟩ := List.mem_map.mp hkey
  have hcountry : other.countryCode = row.countryCode := (Prod.mk.inj (Prod.mk.inj heq).2).2
  rw [(mem_streamingRows.mp hrow).2] at hcountry
  simp [hcountry] at hother

/-- Platforms of a game break no constraint. -/
lemma yields_insertAll_gamePlatformRows (entries : List PlatformPayload) :
    Yields (gamePlatformConstraints.insertAll [] (gamePlatformRows entries)) True
      (gamePlatformRows entries) := by
  refine (gamePlatformConstraints.yields_insertAll_nil _).congr ⟨fun _ => trivial, fun _ => ?_⟩
  refine ⟨fun _ _ => rfl, ?_⟩
  rw [gamePlatformRows, List.map_map]
  exact nodup_namedPlatforms entries

/-! ### Catalogs and estimates -/

lemma yields_ensureNamed (catalog : Catalog slugify) (names : List String) :
    Yields (ensureNamed catalog names) (catalog.Accepts (namesOf names))
      (catalog.ensureAll (namesOf names), linkedSlugs slugify names) :=
  (catalog.yields_foldlM_getOrCreate (namesOf names)).bind_return _

def GamePayload.estimateAfter (payload : GamePayload) (item : ContentItem)
    (old : Option EstimateRow) : Option EstimateRow :=
  if payload.hasDurationData then some (payload.toEstimate item old) else old

lemma yields_upsertEstimate (item : ContentItem) (payload : GamePayload) (old : Option EstimateRow) :
    Yields (upsertEstimate item payload old) (payload.checkEstimate = true)
      (payload.estimateAfter item old) := by
  intro estimate
  rw [upsertEstimate, GamePayload.estimateAfter]
  cases payload.checkEstimate <;> cases payload.hasDurationData <;> simp [eq_comm]

/-! ### Tracks -/

def trackRecord (slugify : String → String) (entry : TrackRow × List AuthorEntry) : TrackRecord :=
  ⟨entry.1, creditRows slugify entry.2⟩

/-- The names that the credits of the tracks add. -/
def trackNames (entries : List (TrackRow × List AuthorEntry)) : List Name :=
  entries.flatMap fun entry => creditNames entry.2

/-- A turn of the loop over the tracks inserts the track and its credits. -/
lemma yields_addTrack (state : Catalog slugify × List TrackRecord)
    (entry : TrackRow × List AuthorEntry) :
    Yields (addTrack state entry)
      ((trackConstraints.check entry.1 = true ∧
          trackConstraints.key entry.1 ∉ (state.2.map (·.row)).map trackConstraints.key) ∧
        SeparateCredits slugify entry.2)
      (state.1.ensureAll (creditNames entry.2), state.2 ++ [trackRecord slugify entry]) :=
  (trackConstraints.yields_insert _ _).bind fun _ =>
    (yields_replaceAuthors state.1 entry.2).bind_return
      fun written => (written.1, state.2 ++ [⟨entry.1, written.2⟩])

lemma yields_foldlM_addTrack (entries : List (TrackRow × List AuthorEntry))
    (state : Catalog slugify × List TrackRecord) :
    Yields (entries.foldlM addTrack state)
      ((trackConstraints.Admits (entries.map Prod.fst) ∧
          ∀ entry ∈ entries, trackConstraints.key entry.1 ∉
            (state.2.map (·.row)).map trackConstraints.key) ∧
        ∀ entry ∈ entries, SeparateCredits slugify entry.2)
      (state.1.ensureAll (trackNames entries),
        state.2 ++ entries.map (trackRecord slugify)) := by
  induction entries generalizing state with
  | nil =>
    have hadmits : trackConstraints.Admits [] := ⟨by simp, by simp⟩
    have hstate : (state.1.ensureAll (trackNames []), state.2 ++ [].map (trackRecord slugify))
        = state := by
      rw [List.map_nil, List.append_nil]
      rfl
    rw [hstate]
    exact (Yields.of_ok state).congr ⟨fun _ => ⟨⟨hadmits, by simp⟩, by simp⟩, fun _ => trivial⟩
  | cons entry entries ih =>
    have hnames : (state.1.ensureAll (creditNames entry.2)).ensureAll (trackNames entries)
        = state.1.ensureAll (trackNames (entry :: entries)) :=
      (List.foldl_append ..).symm
    have hrecords : (state.2 ++ [trackRecord slugify entry]) ++ entries.map (trackRecord slugify)
        = state.2 ++ (entry :: entries).map (trackRecord slugify) :=
      (List.append_cons ..).symm
    rw [List.foldlM_cons, ← hnames, ← hrecords]
    refine ((yields_addTrack state entry).bind fun _ => ih _).congr ?_
    simp only [List.map_cons, Constraints.admits_cons, List.forall_mem_cons, List.map_append,
      List.mem_append, not_or, List.map_nil, List.mem_singleton, List.forall_mem_map, forall₂_and,
      ne_eq, trackRecord]
    tauto

/-! ### Steps of a mapper -/

lemma yields_requirePayloadShape (id type : Option String) (expectedType : String) :
    Yields (requirePayloadShape id type expectedType) (hasPayloadShape id type expectedType = true)
      () :=
  Yields.of_if _ _

lemma yields_updateOrCreate {ρ : Type} (check : ρ → Bool) (row : ρ) :
    Yields (updateOrCreate check row) (check row = true) row :=
  Yields.of_if _ _

lemma yields_integrity {α : Type} {x : Except IntegrityError α} {p : Prop} {a : α}
    (h : Yields x p a) : Yields (integrity x) p a :=
  h.mapError _

lemma yields_replaceIfPresent {α β : Type} {replace : α → Except IntegrityError β} {good : α → Prop}
    {value : α → β} (h : ∀ a, Yields (replace a) (good a) (value a)) (field : Option α) (old : β) :
    Yields (replaceIfPresent field old replace) (∀ a ∈ field, good a) (field.elim old value) := by
  cases field with
  | none => exact (Yields.of_ok old).congr ⟨fun _ => nofun, fun _ => trivial⟩
  | some a => exact (h a).congr (by simp)

/-! ### Movies -/

/-- The rows that a movie or a show leaves. -/
def ScreenPayload.record {ρ : Type} (slugify : String → String) (payload : ScreenPayload)
    (country : String) (old : Option (ScreenRecord ρ)) (detail : ρ) : ScreenRecord ρ where
  detail := detail
  credits := creditRows slugify payload.authors
  images := imageRows payload.images
  platforms := (old.elim [] (·.platforms)).filter (·.countryCode ≠ country)
    ++ streamingRows payload.platforms country

def afterMovie (store : Store slugify) (item : ContentItem) (payload : MoviePayload)
    (country : String) : Store slugify :=
  { store with
    authors := store.authors.ensureAll (creditNames payload.authors)
    movies := store.movies.set item
      (payload.record slugify country (store.movies.get? item) payload.toRow) }

structure MoviePayload.Storable (slugify : String → String) (payload : MoviePayload) : Prop where
  check : payload.toRow.check = true
  authors : SeparateCredits slugify payload.authors

lemma yields_upsertMovie (store : Store slugify) (item : ContentItem) (payload : MoviePayload)
    (country : String) : Yields (upsertMovie store item payload country)
      (hasPayloadShape payload.id payload.type "movie" = true ∧ payload.Storable slugify)
      (afterMovie store item payload country) := by
  have h : Yields (upsertMovie store item payload country)
      (hasPayloadShape payload.id payload.type "movie" = true ∧ payload.toRow.check = true ∧
        SeparateCredits slugify payload.authors ∧ True) (afterMovie store item payload country) := by
    refine (yields_requirePayloadShape _ _ _).bind fun _ => ?_
    refine (yields_updateOrCreate _ _).bind fun _ => ?_
    refine (yields_integrity (yields_replaceAuthors _ _)).bind fun _ => ?_
    exact (yields_integrity (yields_replaceStreamingPlatforms _ _ _)).bind_return _
  refine h.congr (and_congr_right fun _ => ?_)
  exact ⟨fun h => ⟨h.1, h.2.1⟩, fun h => ⟨h.check, h.authors, trivial⟩⟩

/-! ### Seasons and shows -/

def seasonRecord (store : Store slugify) (item : ContentItem) (payload : SeasonPayload)
    (country : String) (detail : SeasonRow) : SeasonRecord where
  detail := detail
  episodes := payload.episodeRows.elim ((store.seasons.get? item).elim [] (·.episodes)) id
  images := (payload.images.map imageRows).getD ((store.seasons.get? item).elim [] (·.images))
  platforms := payload.platforms.elim ((store.seasons.get? item).elim [] (·.platforms))
    fun platforms => ((store.seasons.get? item).elim [] (·.platforms)).filter
      (·.countryCode ≠ country) ++ streamingRows platforms country

def afterSeason (tvShow : Option ContentItem) (store : Store slugify) (item : ContentItem)
    (payload : SeasonPayload) (country : String) : Store slugify :=
  { store with
    seasons := store.seasons.set item (seasonRecord store item payload country
      (payload.toRow (tvShow.orElse fun _ => resolveLocalTvShow store item))) }

structure SeasonPayload.Storable (payload : SeasonPayload) : Prop where
  check : 0 ≤ payload.declaredCount
  episodes : ∀ rows ∈ payload.episodeRows, episodeConstraints.Admits rows

lemma yields_upsertSeason (tvShow : Option ContentItem) (store : Store slugify) (item : ContentItem)
    (payload : SeasonPayload) (country : String) :
    Yields (upsertSeason tvShow store item payload country)
      (hasPayloadShape payload.id payload.type "season" = true ∧ payload.Storable)
      (afterSeason tvShow store item payload country) := by
  have h : Yields (upsertSeason tvShow store item payload country)
      (hasPayloadShape payload.id payload.type "season" = true ∧
        decide (0 ≤ payload.declaredCount) = true ∧
        (∀ rows ∈ payload.episodeRows, episodeConstraints.Admits rows) ∧
        ∀ platforms ∈ payload.platforms, True)
      (afterSeason tvShow store item payload country) := by
    refine (yields_requirePayloadShape _ _ _).bind fun _ => ?_
    refine (yields_updateOrCreate _ _).bind fun _ => ?_
    refine (yields_integrity
      (yields_replaceIfPresent episodeConstraints.yields_insertAll_nil _ _)).bind fun _ => ?_
    exact (yields_integrity (yields_replaceIfPresent
      (fun platforms => yields_replaceStreamingPlatforms _ platforms _) _ _)).bind_return _
  refine h.congr (and_congr_right fun _ => ?_)
  exact ⟨fun h => ⟨of_decide_eq_true h.1, h.2.1⟩,
    fun h => ⟨decide_eq_true h.check, h.episodes, fun _ _ => trivial⟩⟩

/-- A nested entry can be stored as a season. -/
def TvShowPayload.StorableSeason (payload : TvShowPayload) (tvShow : ContentItem)
    (entry : ℤ × SeasonPayload) : Prop :=
  (payload.nestedPayload (seasonItem tvShow entry.1).externalId entry.2).Storable

def afterNestedSeason (tvShow : ContentItem) (payload : TvShowPayload) (country : String)
    (store : Store slugify) (entry : ℤ × SeasonPayload) : Store slugify :=
  let item := seasonItem tvShow entry.1
  afterSeason (some tvShow) (store.getOrCreateItem item) item
    (payload.nestedPayload item.externalId entry.2) country

/-- The payload that is made of a nested entry has the shape of a season. -/
lemma hasPayloadShape_nestedPayload (payload : TvShowPayload) (tvShow : ContentItem)
    (entry : ℤ × SeasonPayload) :
    let nested := payload.nestedPayload (seasonItem tvShow entry.1).externalId entry.2
    hasPayloadShape nested.id nested.type "season" = true := by
  have hne : (seasonItem tvShow entry.1).externalId ≠ "" := by
    intro h
    have hlength := congrArg (fun text => text.toList.length) h
    simp [seasonItem] at hlength
  simp [TvShowPayload.nestedPayload, hasPayloadShape, hne]

lemma yields_upsertNestedSeason (tvShow : ContentItem) (payload : TvShowPayload) (country : String)
    (store : Store slugify) (entry : ℤ × SeasonPayload) :
    Yields (upsertNestedSeason tvShow payload country store entry)
      (payload.StorableSeason tvShow entry)
      (afterNestedSeason tvShow payload country store entry) :=
  (yields_upsertSeason _ _ _ _ _).congr
    (and_iff_right (hasPayloadShape_nestedPayload payload tvShow entry))

structure TvShowPayload.Storable (slugify : String → String) (item : ContentItem)
    (payload : TvShowPayload) : Prop where
  check : payload.toRow.check = true
  authors : SeparateCredits slugify payload.authors
  seasons : ∀ entry ∈ payload.nestedSeasons, payload.StorableSeason item entry

def afterTvShow (store : Store slugify) (item : ContentItem) (payload : TvShowPayload)
    (country : String) : Store slugify :=
  payload.nestedSeasons.foldl (afterNestedSeason item payload country) { store with
    authors := store.authors.ensureAll (creditNames payload.authors)
    tvShows := store.tvShows.set item
      (payload.record slugify country (store.tvShows.get? item) payload.toRow) }

lemma yields_upsertTvShow (store : Store slugify) (item : ContentItem) (payload : TvShowPayload)
    (country : String) : Yields (upsertTvShow store item payload country)
      (hasPayloadShape payload.id payload.type "tv_show" = true ∧ payload.Storable slugify item)
      (afterTvShow store item payload country) := by
  have h : Yields (upsertTvShow store item payload country)
      (hasPayloadShape payload.id payload.type "tv_show" = true ∧ payload.toRow.check = true ∧
        SeparateCredits slugify payload.authors ∧ True ∧
        ∀ entry ∈ payload.nestedSeasons, payload.StorableSeason item entry)
      (afterTvShow store item payload country) := by
    refine (yields_requirePayloadShape _ _ _).bind fun _ => ?_
    refine (yields_updateOrCreate _ _).bind fun _ => ?_
    refine (yields_integrity (yields_replaceAuthors _ _)).bind fun _ => ?_
    refine (yields_integrity (yields_replaceStreamingPlatforms _ _ _)).bind fun _ => ?_
    exact Yields.foldlM_forall (yields_upsertNestedSeason item payload country) _ _
  refine h.congr (and_congr_right fun _ => ?_)
  exact ⟨fun h => ⟨h.1, h.2.1, h.2.2.2⟩, fun h => ⟨h.check, h.authors, trivial, h.seasons⟩⟩

/-! ### Albums, games and books -/

def afterAlbum (store : Store slugify) (item : ContentItem) (payload : AlbumPayload) :
    Store slugify :=
  { store with
    authors := (store.authors.ensureAll (creditNames payload.authors)).ensureAll
      (trackNames payload.trackRows)
    albums := store.albums.set item
      { detail := payload.toRow
        credits := creditRows slugify payload.authors
        images := imageRows payload.images
        tracks := payload.trackRows.map (trackRecord slugify) } }

structure AlbumPayload.Storable (slugify : String → String) (payload : AlbumPayload) : Prop where
  check : payload.toRow.check = true
  authors : SeparateCredits slugify payload.authors
  tracks : trackConstraints.Admits (payload.trackRows.map Prod.fst)
  trackAuthors : ∀ entry ∈ payload.trackRows, SeparateCredits slugify entry.2

lemma yields_upsertAlbum (store : Store slugify) (item : ContentItem) (payload : AlbumPayload) :
    Yields (upsertAlbum store item payload)
      (hasPayloadShape payload.id payload.type "album" = true ∧ payload.Storable slugify)
      (afterAlbum store item payload) := by
  have h : Yields (upsertAlbum store item payload)
      (hasPayloadShape payload.id payload.type "album" = true ∧ payload.toRow.check = true ∧
        SeparateCredits slugify payload.authors ∧
        (trackConstraints.Admits (payload.trackRows.map Prod.fst) ∧
          ∀ entry ∈ payload.trackRows, trackConstraints.key entry.1 ∉
            (([] : List TrackRecord).map (·.row)).map trackConstraints.key) ∧
        ∀ entry ∈ payload.trackRows, SeparateCredits slugify entry.2)
      (afterAlbum store item payload) := by
    refine (yields_requirePayloadShape _ _ _).bind fun _ => ?_
    refine (yields_updateOrCreate _ _).bind fun _ => ?_
    refine (yields_integrity (yields_replaceAuthors _ _)).bind fun _ => ?_
    exact (yields_integrity (yields_foldlM_addTrack _ _)).bind_return _
  refine h.congr (and_congr_right fun _ => ?_)
  exact ⟨fun h => ⟨h.1, h.2.1, h.2.2.1.1, h.2.2.2⟩,
    fun h => ⟨h.check, h.authors, ⟨h.tracks, fun _ _ => List.not_mem_nil⟩, h.trackAuthors⟩⟩

def afterGame (store : Store slugify) (item : ContentItem) (payload : GamePayload) :
    Store slugify :=
  { store with
    authors := store.authors.ensureAll (creditNames payload.authors)
    genres := store.genres.ensureAll (namesOf payload.genres)
    themes := store.themes.ensureAll (namesOf payload.themes)
    gameModes := store.gameModes.ensureAll (namesOf payload.gameModes)
    games := store.games.set item
      { detail := payload.toRow
        credits := creditRows slugify payload.authors
        images := imageRows payload.images
        genres := linkedSlugs slugify payload.genres
        themes := linkedSlugs slugify payload.themes
        gameModes := linkedSlugs slugify payload.gameModes
        platforms := gamePlatformRows payload.platforms
        estimate := payload.estimateAfter item ((store.games.get? item).bind (·.estimate)) } }

structure GamePayload.Storable (store : Store slugify) (payload : GamePayload) : Prop where
  check : payload.toRow.check = true
  authors : SeparateCredits slugify payload.authors
  genres : store.genres.Accepts (namesOf payload.genres)
  themes : store.themes.Accepts (namesOf payload.themes)
  gameModes : store.gameModes.Accepts (namesOf payload.gameModes)
  estimate : payload.checkEstimate = true

lemma yields_upsertGame (store : Store slugify) (item : ContentItem) (payload : GamePayload) :
    Yields (upsertGame store item payload)
      (hasPayloadShape payload.id payload.type "game" = true ∧ payload.Storable store)
      (afterGame store item payload) := by
  have h : Yields (upsertGame store item payload)
      (hasPayloadShape payload.id payload.type "game" = true ∧ payload.toRow.check = true ∧
        SeparateCredits slugify payload.authors ∧
        store.genres.Accepts (namesOf payload.genres) ∧
        store.themes.Accepts (namesOf payload.themes) ∧
        store.gameModes.Accepts (namesOf payload.gameModes) ∧ True ∧
        payload.checkEstimate = true) (afterGame store item payload) := by
    refine (yields_requirePayloadShape _ _ _).bind fun _ => ?_
    refine (yields_updateOrCreate _ _).bind fun _ => ?_
    refine (yields_integrity (yields_replaceAuthors _ _)).bind fun _ => ?_
    refine (yields_integrity (yields_ensureNamed _ _)).bind fun _ => ?_
    refine (yields_integrity (yields_ensureNamed _ _)).bind fun _ => ?_
    refine (yields_integrity (yields_ensureNamed _ _)).bind fun _ => ?_
    refine (yields_integrity (yields_insertAll_gamePlatformRows _)).bind fun _ => ?_
    exact (yields_integrity (yields_upsertEstimate _ _ _)).bind_return _
  refine h.congr (and_congr_right fun _ => ?_)
  constructor
  · rintro ⟨hcheck, hauthors, hgenres, hthemes, hmodes, -, hestimate⟩
    exact ⟨hcheck, hauthors, hgenres, hthemes, hmodes, hestimate⟩
  · rintro ⟨hcheck, hauthors, hgenres, hthemes, hmodes, hestimate⟩
    exact ⟨hcheck, hauthors, hgenres, hthemes, hmodes, trivial, hestimate⟩

def afterBook (store : Store slugify) (item : ContentItem) (payload : BookPayload) :
    Store slugify :=
  { store with
    authors := store.authors.ensureAll (creditNames payload.authors)
    books := store.books.set item
      { detail := payload.toRow
        credits := creditRows slugify payload.authors
        images := imageRows payload.images } }

structure BookPayload.Storable (slugify : String → String) (payload : BookPayload) : Prop where
  check : payload.toRow.check = true
  authors : SeparateCredits slugify payload.authors

lemma yields_upsertBook (store : Store slugify) (item : ContentItem) (payload : BookPayload) :
    Yields (upsertBook store item payload)
      (hasPayloadShape payload.id payload.type "book" = true ∧ payload.Storable slugify)
      (afterBook store item payload) := by
  have h : Yields (upsertBook store item payload)
      (hasPayloadShape payload.id payload.type "book" = true ∧ payload.toRow.check = true ∧
        SeparateCredits slugify payload.authors) (afterBook store item payload) := by
    refine (yields_requirePayloadShape _ _ _).bind fun _ => ?_
    refine (yields_updateOrCreate _ _).bind fun _ => ?_
    exact (yields_integrity (yields_replaceAuthors _ _)).bind_return _
  refine h.congr (and_congr_right fun _ => ?_)
  exact ⟨fun h => ⟨h.1, h.2⟩, fun h => ⟨h.check, h.authors⟩⟩

end Denn.Ingest
