import Denn.Store.Coherence

/-!
# Renames of shows

An upsert that renames a show persists the hashes of its dependent seasons again. The query for them
takes the seasons with an empty show name, while the text of a season inherits the title also under
a name that is only whitespace.
-/

namespace Denn

open Core

variable {config : StoreConfig} {s s' : LocalStore}

namespace LocalStore

/-- The seasons that inherit the title of their show and that the query for dependants leaves out. -/
def overlookedSeasons (s : LocalStore) (tvShow : ItemId) : List ItemId :=
  s.details.keysWhere fun _ detail =>
    detail.row.isSeasonOf tvShow fun name => isBlank name && name ≠ ""

/-- A nested entry of the payload is stored for the item. -/
def rewrites (s : LocalStore) (tvShowItem : ContentItem) (payload : TvShowPayload)
    (item : ItemId) : Bool :=
  (s.items.get? item).any fun row =>
    payload.nestedSeasons.any fun entry => row.key = tvShowItem.seasonKey entry.1

/-- An upsert of a show gives it another title only if it rewrites the overlooked seasons, and
    creates details that inherit the title only under that title. -/
def upsertsCoherently (s : LocalStore) : StoreAction → Bool
  | .upsert request =>
    match s.items.get? request.item, request.payload with
    | some tvShowItem, .tvShow payload =>
      let title := payload.title.getD ""
      (inheritedText (s.showTitle request.item) = inheritedText (some title)
        || (s.overlookedSeasons request.item).all (s.rewrites tvShowItem payload))
      && s.createsCurrent tvShowItem payload
        (inheritedText (s.instanceTitle request.item title request.cachedTvShow)
          = inheritedText (some title)) [] payload.nestedSeasons
    | _, _ => true
  | _ => true

variable {tvShow : ItemId} {tvShowItem row : ContentItem} {payload : TvShowPayload}
  {requestCountry : Option String}

lemma showTitle_writeTvShow (s : LocalStore) (tvShow : ItemId) (payload : TvShowPayload)
    (requestCountry : Option String) :
    (s.writeTvShow config tvShow payload requestCountry).showTitle tvShow
      = some (payload.title.getD "") := by
  rw [showTitle, writeTvShow, replacePlatforms_details, writeDetail, Table.get?_set_self]
  rfl

/-- A season that inherits the title of a show is found by the query for dependants, or is
    overlooked. -/
lemma mem_dependentSeasons_or {item : ItemId} {detail : StoredDetail} {title : String}
    (hdetail : s.details.get? item = some detail) (hfrom : detail.row.inheritsFrom = some tvShow)
    (htitle : inheritedText (s.showTitle tvShow) ≠ inheritedText (some title)) :
    item ∈ s.dependentSeasons tvShow title ∨ item ∈ s.overlookedSeasons tvShow := by
  have hrename : s.showTitle tvShow ≠ some title := fun heq => htitle (by rw [heq])
  rw [dependentSeasons, if_neg hrename, overlookedSeasons, Table.mem_keysWhere,
    Table.mem_keysWhere]
  cases hrow : detail.row with
  | season season =>
    rw [hrow, DetailRow.inheritsFrom] at hfrom
    split_ifs at hfrom with hblank
    by_cases hempty : season.tvShowName = ""
    · exact .inl ⟨detail, hdetail, by simp [hrow, DetailRow.isSeasonOf, hfrom, hempty]⟩
    · exact .inr ⟨detail, hdetail, by simp [hrow, DetailRow.isSeasonOf, hfrom, hempty, hblank]⟩
  | movie | tvShow | game | album | book => simp [hrow, DetailRow.inheritsFrom] at hfrom

lemma Coherent.upsertTvShow (hsemantics : config.semantics = detailSemantics)
    (hI : StoreInvariant s) (h : Coherent config s) (hrow : s.items.get? tvShow = some row)
    (htype : row.contentType = .tvShow) {cachedTvShow : Option (Option String)}
    (hrewrites : inheritedText (s.showTitle tvShow) = inheritedText (some (payload.title.getD ""))
      ∨ ∀ item ∈ s.overlookedSeasons tvShow, s.rewrites row payload item = true)
    (hcreates : s.createsCurrent row payload
      (inheritedText (s.instanceTitle tvShow (payload.title.getD "") cachedTvShow)
        = inheritedText (some (payload.title.getD ""))) [] payload.nestedSeasons = true)
    (hupsert : s.upsertTvShow config tvShow row payload cachedTvShow requestCountry = some s') :
    Coherent config s' := by
  obtain ⟨s₁, hseasons, rfl⟩ := upsertTvShow_eq_some hupsert
  set title := payload.title.getD ""
  set written := s.writeTvShow config tvShow payload requestCountry with hwritten
  -- the show and, if its title changes, all seasons that inherit it
  let X : Set ItemId := insert tvShow {item | inheritedText (s.showTitle tvShow)
    ≠ inheritedText (some title) ∧
    ∃ detail, s.details.get? item = some detail ∧ detail.row.inheritsFrom = some tvShow}
  have htitle : written.showTitle tvShow = some title := showTitle_writeTvShow ..
  have hX : CoherentOutside config written X := by
    refine CoherentOutside.replacePlatforms ?_ _ _ _
    refine (coherentOutside_empty.mpr h).writeDetail hsemantics
      (Set.empty_subset _) (Set.mem_insert ..) _ _ _ _ _ fun item detail hdetail hfrom hitem => ?_
    by_contra hne
    refine hitem (.inr ⟨fun heq => hne ?_, detail, hdetail, hfrom⟩)
    rw [heq, showTitle, writeDetail, Table.get?_set_self]
    rfl
  have htype' : row.contentType = (DetailRow.tvShow payload.toRow).contentType := htype
  have hI' : StoreInvariant written :=
    (hI.writeDetail hrow htype' _ _ _ _).replacePlatforms _ _ _ _
  have hext : Extends s written :=
    (extends_writeDetail ..).trans (extends_replacePlatforms ..)
  have hitems : written.items = s.items := by
    rw [hwritten, writeTvShow, replacePlatforms_items, writeDetail]
  rw [← htitle] at hcreates
  obtain ⟨-, hnested⟩ := upsertSeasons_spec hsemantics hI' (hitems ▸ hrow) htype
    (fun _ hkey => hasDetail_mono hI hI' hext hkey) (by simp) hcreates hX hseasons
  have hend := (hnested.persistHash hsemantics tvShow).persistHashes hsemantics
    (s.dependentSeasons tvShow title)
  refine coherentOutside_empty.mp (hend.mono ?_)
  rintro item ⟨⟨⟨hmem, hnot⟩, hne⟩, hdependent⟩
  obtain ⟨hchanged, detail, hdetail, hfrom⟩ := hmem.resolve_left hne
  have hoverlooked := (mem_dependentSeasons_or hdetail hfrom hchanged).resolve_left hdependent
  have hrewritten := (hrewrites.resolve_left hchanged) item hoverlooked
  obtain ⟨row', hrow', hany⟩ := (Option.any_eq_true _ _).mp hrewritten
  obtain ⟨entry, hentry, hkey⟩ := List.any_eq_true.mp hany
  exact absurd ⟨row', hitems ▸ hrow', entry, hentry, by simpa using hkey⟩ hnot

/-- A write of a detail other than a show's, and of its hash. -/
lemma Coherent.upsertLeaf (hsemantics : config.semantics = detailSemantics)
    (hI : StoreInvariant s) (h : Coherent config s) {item : ItemId}
    (hrow : s.items.get? item = some row) {detail : DetailRow}
    (htype : row.contentType = detail.contentType) (hleaf : row.contentType ≠ .tvShow)
    (children : ChildRows) (releaseDate : Option Date) (status : String)
    (platforms : Option PlatformMap) :
    Coherent config (((s.writeDetail item detail children releaseDate status
      .own).replacePlatforms config item platforms requestCountry).persistHash config item) := by
  have hwritten := (coherentOutside_empty.mpr h).writeLeaf hsemantics hI hrow htype hleaf children
    releaseDate status .own
  refine coherentOutside_empty.mp <| ((hwritten.replacePlatforms item platforms
    requestCountry).persistHash hsemantics item).mono ?_
  rintro item' ⟨hmem, hne⟩
  exact absurd (hmem.resolve_right (Set.notMem_empty _)) hne

lemma Coherent.upsertDetail (hsemantics : config.semantics = detailSemantics) {request : Upsert}
    (hI : StoreInvariant s) (h : Coherent config s)
    (hok : s.upsertsCoherently (.upsert request) = true)
    (hupsert : s.upsertDetail config request = some s') : Coherent config s' := by
  cases upsertDetail_cases hupsert with
  | tvShow hrow htype hpayload hupsert =>
    simp only [upsertsCoherently, hrow, hpayload, Bool.and_eq_true, Bool.or_eq_true,
      decide_eq_true_eq, List.all_eq_true] at hok
    exact h.upsertTvShow hsemantics hI hrow htype hok.1 hok.2 hupsert
  | season hrow htype hpayload hchildren hwrite =>
    rw [hwrite]
    refine h.upsertLeaf hsemantics hI hrow ?_ (by simp [htype]) _ _ _ _
    exact htype
  | plain platforms hrow htype hdetail hwrite =>
    rw [hwrite]
    exact h.upsertLeaf hsemantics hI hrow htype (htype ▸ hdetail.1) _ _ _ _

lemma Coherent.step (hsemantics : config.semantics = detailSemantics) {a : StoreAction}
    (hI : StoreInvariant s) (h : Coherent config s) (hok : s.upsertsCoherently a = true)
    (hstep : s.step config a = some s') : Coherent config s' := by
  cases a with
  | tick seconds =>
    cases hstep
    exact h
  | getOrCreate key =>
    cases hstep
    exact coherentOutside_empty.mp <|
      (coherentOutside_empty.mpr h).getOrCreate hsemantics hI (getOrCreate_spec hI key)
  | upsert request => exact h.upsertDetail hsemantics hI hok hstep
  | serve items =>
    cases hstep
    exact h

/-- In a run whose upserts of shows reach every season that inherits the title, the materialized
    hashes are those of the persisted rows. -/
theorem coherent_of_reachableUnder (hsemantics : config.semantics = detailSemantics)
    (h : (localStoreSystem config).ReachableUnder (fun s a => s.upsertsCoherently a = true) s) :
    Coherent config s := by
  refine h.invariant_of (fun _ => storeInvariant_of_reachable) ?_
    fun _ _ _ hI hcoherent hok hstep => hcoherent.step hsemantics hI hok hstep
  intro s hinit item hdetail
  rw [show s = .empty from hinit] at hdetail
  simp [LocalStore.empty] at hdetail

/-! ### A renamed show with a season -/

/-- The hashes of the season when its show is called A or B. -/
def computedSeasonHash (main : LoadedDetail) (children : ChildRows) : Option SourceHash :=
  match main with
  | ⟨.tmdb, .season detail, some title⟩ =>
    if (detail = standaloneSeason "" ∨ detail = standaloneSeason " ") ∧ children.episodes = [] then
      if title = "A" then some seasonHashOfA
      else if title = "B" then some seasonHashOfB
      else none
    else none
  | _ => none

lemma state_standaloneSeason (title : String) {detail : SeasonDetail} {children : ChildRows}
    (hdetail : detail = standaloneSeason "" ∨ detail = standaloneSeason " ")
    (hepisodes : children.episodes = []) :
    LoadedDetail.state ⟨.tmdb, .season detail, some title⟩ children
      = LoadedDetail.state ⟨.tmdb, .season (standaloneSeason ""), some title⟩ {} := by
  have hpayload : seasonPayload detail (some title) children
      = seasonPayload (standaloneSeason "") (some title) {} := by
    rcases hdetail with rfl | rfl
    · simp only [seasonPayload, hepisodes]
    · simp only [seasonPayload, hepisodes]
      rfl
  simp only [LoadedDetail.state, Denn.fromLocal, hpayload, DetailRow.contentType]

lemma sourceHash_of_computedSeasonHash {main : LoadedDetail} {children : ChildRows}
    {hash : SourceHash} (h : computedSeasonHash main children = some hash) :
    main.sourceHash children = .ok hash := by
  unfold computedSeasonHash at h
  split at h
  · next detail title =>
    split_ifs at h with hseason hA hB
    · cases h
      rw [LoadedDetail.sourceHash, state_standaloneSeason _ hseason.1 hseason.2, hA]
      exact sourceHash_seasonOfA
    · cases h
      rw [LoadedDetail.sourceHash, state_standaloneSeason _ hseason.1 hseason.2, hB]
      exact sourceHash_seasonOfB
  · cases h

def seasonSemantics : DetailSemantics LoadedDetail ChildRows :=
  detailSemantics.memo computedSeasonHash sourceHash_of_computedSeasonHash

lemma seasonSemantics_eq : seasonSemantics = detailSemantics :=
  detailSemantics.memo_eq sourceHash_of_computedSeasonHash

/-- A run of the standard store is replayed with the hashes of the season looked up. -/
theorem exists_storeRun (ok : StoreConfig → LocalStore → StoreAction → Bool)
    (P : StoreConfig → LocalStore → Bool) (as : List StoreAction)
    (h : ((localStoreSystem (.standard seasonSemantics)).replay
      (fun s a => ok (.standard seasonSemantics) s a = true) .empty as).any
        (P (.standard seasonSemantics)) = true) :
    ∃ s, (localStoreSystem (.standard detailSemantics)).ReachableUnder
      (fun s a => ok (.standard detailSemantics) s a = true) s ∧
        P (.standard detailSemantics) s = true := by
  rw [seasonSemantics_eq] at h
  exact TransitionSystem.exists_reachableUnder_of_replay _ _ _ as (.initial rfl) h

def standalonePayload (tvShowName : String) : DetailPayload :=
  .season { id := some "42:1", seasonNumber := some 1, tvShowName := some tvShowName }

/-- A show is called A, then B, around a season whose own payload gives the show name. -/
def renameRun (tvShowName : String) : List StoreAction :=
  [ .getOrCreate (.tmdb, "42", .tvShow), .getOrCreate (.tmdb, "42:1", .season),
    .upsert { item := 0, payload := .tvShow { id := some "42", title := some "A" } },
    .upsert { item := 1, payload := standalonePayload tvShowName },
    .upsert { item := 0, payload := .tvShow { id := some "42", title := some "B" } } ]

theorem coherent_renamed_show : ∃ s, s.currentHash 1 = some seasonHashOfB ∧
    Coherent (.standard detailSemantics) s := by
  obtain ⟨s, hs, hhash⟩ := exists_storeRun (fun _ s a => s.upsertsCoherently a)
    (fun _ s => s.currentHash 1 = some seasonHashOfB) (renameRun "") (by decide +kernel)
  exact ⟨s, by simpa using hhash, coherent_of_reachableUnder rfl hs⟩

/-- The query for dependants leaves the season with a whitespace name out, so it keeps the hash that
    it has under the old title. -/
theorem renamed_show_leaves_stale_hash :
    ¬ ∀ s, (localStoreSystem (.standard detailSemantics)).Reachable s →
      Coherent (.standard detailSemantics) s := by
  intro hall
  obtain ⟨s, hs, hstale⟩ := exists_storeRun (fun _ _ _ => true)
    (fun config s => (s.details.get? 1).isSome && s.currentHash 1 = some seasonHashOfA
      && s.freshHash config 1 = some seasonHashOfB) (renameRun " ") (by decide +kernel)
  simp only [Bool.and_eq_true, decide_eq_true_eq] at hstale
  obtain ⟨⟨hdetail, hcurrent⟩, hfresh⟩ := hstale
  have hsame := hall s hs.reachable 1 hdetail
  rw [hcurrent, hfresh] at hsame
  exact absurd hsame (by decide)

end LocalStore

end Denn
