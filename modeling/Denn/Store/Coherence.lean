import Denn.Store.Writes

/-!
# Coherence of the materialized hashes

A season without a name of its own is hashed with the title of its show, so an upsert of the show can
outdate the hashes of its seasons. An upsert is followed as a set of items that may be incoherent: the
write of the show adds its dependants, every hash that is persisted removes its item.
-/

namespace Denn

open Core

variable {config : StoreConfig} {s s' : LocalStore}

/-! ### Inherited titles -/

/-- The show whose title enters the text of the row. -/
def DetailRow.inheritsFrom : DetailRow → Option ItemId
  | season detail => if isBlank detail.tvShowName then detail.tvShow else none
  | _ => none

/-- What the text of a season keeps of the title of its show. -/
def inheritedText (tvShowTitle : Option String) : String := collapse (tvShowTitle.getD "")

lemma lookup_optionalText_ne {key key' : String} (h : key ≠ key') (text : String) :
    (optionalText key' text).lookup key = none := by
  unfold optionalText
  split_ifs
  · rfl
  · have hkey : (key == key') = false := by simpa using h
    rw [List.lookup_cons, hkey]
    rfl

/-- The show name is the only field of a season that its show's title enters. -/
lemma get_seasonPayload_of_ne {detail : SeasonDetail} {title title' : Option String}
    {children : ChildRows} {key : String} (h : key ≠ "tv_show_name") :
    (Json.obj (seasonPayload detail title children)).get key
      = (Json.obj (seasonPayload detail title' children)).get key := by
  have hname : ∀ name : String,
      (if isBlank name then [] else [("tv_show_name", Json.str name)]).lookup key = none := by
    intro name
    have hkey : (key == "tv_show_name") = false := by simpa using h
    split_ifs
    · rfl
    · rw [List.lookup_cons, hkey]
      rfl
  simp only [seasonPayload, Json.get, List.lookup_append, hname]

lemma get_seasonPayload_showName (detail : SeasonDetail) (title : Option String)
    (children : ChildRows) :
    (Json.obj (seasonPayload detail title children)).get "tv_show_name"
      = if isBlank (detail.parentShowName title) then .null
        else .str (detail.parentShowName title) := by
  have htitle := lookup_optionalText_ne (show "tv_show_name" ≠ "title" by decide) detail.title
  have hdescription :=
    lookup_optionalText_ne (show "tv_show_name" ≠ "description" by decide) detail.description
  have hepisodes := lookup_optionalList_ne (show "tv_show_name" ≠ "episodes" by decide)
    (children.episodes.map serializeEpisode)
  simp only [seasonPayload, Json.get, List.lookup_append, htitle, hdescription, hepisodes]
  split_ifs <;> rfl

lemma normalizeText_showName (name field : String) :
    normalizeText (if isBlank name then .null else .str name) field = .ok (collapse name) := by
  split_ifs with hblank
  · rw [collapse_of_isBlank hblank]
    rfl
  · rfl

/-- Titles with one text lead to one state, and of rows that inherit nothing all titles do. -/
lemma state_of_inheritedText {main : LoadedDetail} {title' : Option String}
    (h : main.row.inheritsFrom.isSome → inheritedText main.tvShowTitle = inheritedText title')
    (children : ChildRows) :
    main.state children = { main with tvShowTitle := title' }.state children := by
  obtain ⟨sourceApi, row, title⟩ := main
  cases row with
  | season detail =>
    have hname : collapse (detail.parentShowName title)
        = collapse (detail.parentShowName title') := by
      unfold SeasonDetail.parentShowName
      by_cases hblank : (isBlank detail.tvShowName && detail.tvShow.isSome) = true
      · obtain ⟨hname, hshow⟩ := Bool.and_eq_true_iff.mp hblank
        rw [if_pos hblank, if_pos hblank]
        exact h (by simpa [DetailRow.inheritsFrom, hname] using hshow)
      · rw [if_neg hblank, if_neg hblank]
    have hget : ∀ key, key ≠ "tv_show_name" →
        (Json.obj (seasonPayload detail title children)).get key
          = (Json.obj (seasonPayload detail title' children)).get key :=
      fun key hkey => get_seasonPayload_of_ne hkey
    simp only [LoadedDetail.state, fromLocal, buildModerationState, DetailRow.contentType,
      normalizeTypeSpecific, normalizeSeason, get_seasonPayload_showName, normalizeText_showName,
      hname, hget "title" (by decide), hget "description" (by decide),
      hget "episodes" (by decide)]
  | movie | tvShow | game | album | book => rfl

namespace LocalStore

/-! ### A season under two titles -/

/-- A season of the show with id 0. -/
def standaloneSeason (tvShowName : String) : SeasonDetail where
  tvShow := some 0
  seasonNumber := 1
  tvShowName := tvShowName

def seasonHashOfA : SourceHash := "8899234b95a82c44760666673d4b1286fa2b67b77801f8ba58e8a0db0eace5a6"

def seasonHashOfB : SourceHash := "a9a806cea7430ba65735550762f26d54bb143114d73505cda3266cb0299b1cd1"

lemma sourceHash_seasonOfA :
    LoadedDetail.sourceHash ⟨.tmdb, .season (standaloneSeason ""), some "A"⟩ {}
      = .ok seasonHashOfA := by
  decide +kernel

lemma sourceHash_seasonOfB :
    LoadedDetail.sourceHash ⟨.tmdb, .season (standaloneSeason ""), some "B"⟩ {}
      = .ok seasonHashOfB := by
  decide +kernel

/-! ### The hashes of a store -/

/-- The title that the text of an item inherits. -/
def inheritedTitle (s : LocalStore) (item : ItemId) : Option String :=
  (s.details.get? item).bind fun detail => detail.row.inheritsFrom.bind s.showTitle

lemma inheritedTitle_congr (h : s'.details = s.details) (item : ItemId) :
    s'.inheritedTitle item = s.inheritedTitle item := by
  have htitle : s'.showTitle = s.showTitle := by
    funext tvShow
    rw [showTitle, showTitle, h]
  rw [inheritedTitle, inheritedTitle, h, htitle]

/-- A hash with a title that is right where it is inherited is the fresh one. -/
lemma hashWithTitle_eq_freshHash (hsemantics : config.semantics = detailSemantics) {item : ItemId}
    {title : Option String}
    (h : ∀ detail, s.details.get? item = some detail → detail.row.inheritsFrom.isSome →
      inheritedText title = inheritedText (s.inheritedTitle item)) :
    s.hashWithTitle config item title = s.freshHash config item := by
  unfold freshHash hashWithTitle
  cases hrow : s.items.get? item with
  | none => rfl
  | some row =>
    cases hdetail : s.details.get? item with
    | none => rfl
    | some detail =>
      have hstate : LoadedDetail.state ⟨row.sourceApi, detail.row, title⟩ detail.children
          = LoadedDetail.state
            ⟨row.sourceApi, detail.row, detail.row.tvShow?.bind s.showTitle⟩ detail.children := by
        refine state_of_inheritedText (fun hinherits => ?_) _
        rw [h detail hdetail hinherits, inheritedTitle, hdetail, Option.bind_some]
        cases hseason : detail.row with
        | season season =>
          rw [hseason] at hinherits
          have hblank : isBlank season.tvShowName = true := by
            by_contra hblank
            simp [DetailRow.inheritsFrom, hblank] at hinherits
          simp [DetailRow.inheritsFrom, DetailRow.tvShow?, hblank]
        | movie | tvShow | game | album | book =>
          simp [hseason, DetailRow.inheritsFrom] at hinherits
      simp only [Option.bind_some, hsemantics, DetailSemantics.currentHash, detailSemantics,
        LoadedDetail.sourceHash, hstate]

/-- The fresh hash depends on the item's key, its detail and the title that it inherits. -/
lemma freshHash_congr (hsemantics : config.semantics = detailSemantics) {item : ItemId}
    (hitem : (s'.items.get? item).map ContentItem.key = (s.items.get? item).map ContentItem.key)
    (hdetail : s'.details.get? item = s.details.get? item)
    (htitle : inheritedText (s'.inheritedTitle item) = inheritedText (s.inheritedTitle item)) :
    s'.freshHash config item = s.freshHash config item := by
  have hfresh' : s'.hashWithTitle config item (s'.inheritedTitle item) = s'.freshHash config item :=
    hashWithTitle_eq_freshHash hsemantics fun _ _ _ => rfl
  have hfresh : s.hashWithTitle config item (s'.inheritedTitle item) = s.freshHash config item :=
    hashWithTitle_eq_freshHash hsemantics fun _ _ _ => htitle
  rw [← hfresh', ← hfresh]
  unfold hashWithTitle
  rw [hdetail]
  cases hrow : s.items.get? item with
  | none =>
    rw [hrow, Option.map_none, Option.map_eq_none_iff] at hitem
    rw [hitem]
  | some row =>
    rw [hrow, Option.map_some, Option.map_eq_some_iff] at hitem
    obtain ⟨row', hrow', hkey⟩ := hitem
    have hsource : row'.sourceApi = row.sourceApi := congrArg Prod.fst hkey
    rw [hrow', Option.bind_some, Option.bind_some, hsource]

/-! ### Incoherent items -/

def CoherentAt (config : StoreConfig) (s : LocalStore) (item : ItemId) : Prop :=
  (s.details.get? item).isSome → s.currentHash item = s.freshHash config item

/-- All items with detail are coherent, up to those of a set. -/
def CoherentOutside (config : StoreConfig) (s : LocalStore) (X : Set ItemId) : Prop :=
  ∀ item, item ∉ X → CoherentAt config s item

/-- Every item with detail has the hash that is computed from its persisted rows. -/
def Coherent (config : StoreConfig) (s : LocalStore) : Prop :=
  ∀ item, CoherentAt config s item

variable {X Y : Set ItemId}

lemma CoherentOutside.mono (h : CoherentOutside config s X) (hsub : X ⊆ Y) :
    CoherentOutside config s Y :=
  fun item hitem => h item fun hmem => hitem (hsub hmem)

lemma coherentOutside_empty : CoherentOutside config s ∅ ↔ Coherent config s :=
  ⟨fun h item => h item (Set.notMem_empty item), fun h item _ => h item⟩

lemma currentHash_setHash (s : LocalStore) (item : ItemId) (hash : Option SourceHash)
    (item' : ItemId) :
    (s.setHash item hash).currentHash item'
      = if item' = item then (s.items.get? item).bind fun _ => hash else s.currentHash item' := by
  rw [currentHash, get?_setHash]
  by_cases hitem : item' = item
  · subst hitem
    cases hrow : s.items.get? item' <;> simp
  · simp only [hitem, if_false, currentHash]
    cases hrow : s.items.get? item' <;> rfl

lemma freshHash_setHash (hsemantics : config.semantics = detailSemantics) (s : LocalStore)
    (item : ItemId) (hash : Option SourceHash) (item' : ItemId) :
    (s.setHash item hash).freshHash config item' = s.freshHash config item' := by
  have hdetails := setHash_details s item hash
  exact freshHash_congr hsemantics (key_setHash ..) (by rw [hdetails])
    (by rw [inheritedTitle_congr hdetails])

lemma freshHash_replacePlatforms (s : LocalStore) (item : ItemId)
    (platforms : Option PlatformMap) (requestCountry : Option String) :
    (s.replacePlatforms config item platforms requestCountry).freshHash config
      = s.freshHash config := by
  cases platforms <;> rfl

lemma CoherentOutside.replacePlatforms (h : CoherentOutside config s X) (item : ItemId)
    (platforms : Option PlatformMap) (requestCountry : Option String) :
    CoherentOutside config (s.replacePlatforms config item platforms requestCountry) X := by
  intro item' hitem' hdetail
  rw [replacePlatforms_details] at hdetail
  rw [freshHash_replacePlatforms, currentHash, replacePlatforms_items]
  exact h item' hitem' hdetail

/-- Any hash may be set for an item that may be incoherent. -/
lemma CoherentOutside.setHash (hsemantics : config.semantics = detailSemantics)
    (h : CoherentOutside config s X) {item : ItemId} (hitem : item ∈ X)
    (hash : Option SourceHash) : CoherentOutside config (s.setHash item hash) X := by
  intro item' hitem' hdetail
  have hne : item' ≠ item := by
    rintro rfl
    exact hitem' hitem
  rw [setHash_details] at hdetail
  rw [freshHash_setHash hsemantics, currentHash_setHash, if_neg hne]
  exact h item' hitem' hdetail

/-- A hash that is persisted makes its item coherent. -/
lemma CoherentOutside.persistHash (hsemantics : config.semantics = detailSemantics)
    (h : CoherentOutside config s X) (item : ItemId) :
    CoherentOutside config (s.persistHash config item) (X \ {item}) := by
  intro item' hitem' hdetail
  rw [LocalStore.persistHash, setHash_details] at hdetail
  rw [LocalStore.persistHash, freshHash_setHash hsemantics, currentHash_setHash]
  by_cases hitem : item' = item
  · subst hitem
    rw [if_pos rfl]
    cases hrow : s.items.get? item' with
    | none => rw [freshHash, hashWithTitle, hrow, Option.bind_none, Option.bind_none]
    | some row => rfl
  · rw [if_neg hitem]
    exact h item' (fun hmem => hitem' ⟨hmem, hitem⟩) hdetail

lemma CoherentOutside.persistHashes (hsemantics : config.semantics = detailSemantics)
    (items : List ItemId) (h : CoherentOutside config s X) :
    CoherentOutside config (items.foldl (·.persistHash config ·) s) (X \ {item | item ∈ items}) := by
  induction items generalizing s X with
  | nil => exact h.mono fun item hitem => ⟨hitem, List.not_mem_nil⟩
  | cons item items ih =>
    refine (ih (h.persistHash hsemantics item)).mono ?_
    rintro item' ⟨⟨hmem, hne⟩, hnot⟩
    refine ⟨hmem, fun hin => ?_⟩
    rcases List.mem_cons.mp hin with heq | htail
    · exact hne heq
    · exact hnot htail

/-- An item that is added has no detail. -/
lemma CoherentOutside.getOrCreate (hsemantics : config.semantics = detailSemantics)
    (hI : StoreInvariant s) {key : ContentKey} {item : ItemId} (hadd : GetOrCreate s key item s')
    (h : CoherentOutside config s X) : CoherentOutside config s' X := by
  intro item' hitem' hdetail
  rw [hadd.details] at hdetail
  obtain ⟨detail, hdetail'⟩ := Option.isSome_iff_exists.mp hdetail
  obtain ⟨row, hrow, -⟩ := hI.typed item' detail hdetail'
  have hrow' := hadd.found item' row hrow
  have hfresh : s'.freshHash config item' = s.freshHash config item' :=
    freshHash_congr hsemantics (by rw [hrow, hrow']) (by rw [hadd.details])
      (by rw [inheritedTitle_congr hadd.details])
  have hcurrent : s'.currentHash item' = s.currentHash item' := by
    rw [currentHash, currentHash, hrow, hrow']
  rw [hfresh, hcurrent]
  exact h item' hitem' hdetail

/-- A detail that is written may outdate the hash of its item and of those that inherit from it. -/
lemma CoherentOutside.writeDetail (hsemantics : config.semantics = detailSemantics)
    (h : CoherentOutside config s X) (hsub : X ⊆ Y) {item : ItemId} (hitem : item ∈ Y)
    (detail : DetailRow) (children : ChildRows) (releaseDate : Option Date) (status : String)
    (kind : IngestKind)
    (hinherits : ∀ item' detail', s.details.get? item' = some detail' →
      detail'.row.inheritsFrom = some item → item' ∉ Y →
      inheritedText
          ((s.writeDetail item detail children releaseDate status kind).showTitle item)
        = inheritedText (s.showTitle item)) :
    CoherentOutside config (s.writeDetail item detail children releaseDate status kind) Y := by
  intro item' hitem' hdetail
  have hne : item' ≠ item := by
    rintro rfl
    exact hitem' hitem
  have hget : (s.writeDetail item detail children releaseDate status kind).details.get? item'
      = s.details.get? item' := Table.get?_set_ne _ _ hne
  rw [hget] at hdetail
  have hfresh : (s.writeDetail item detail children releaseDate status kind).freshHash config item'
      = s.freshHash config item' := by
    refine freshHash_congr hsemantics rfl hget ?_
    rw [inheritedTitle, inheritedTitle, hget]
    obtain ⟨detail', hdetail'⟩ := Option.isSome_iff_exists.mp hdetail
    rw [hdetail', Option.bind_some, Option.bind_some]
    cases hfrom : detail'.row.inheritsFrom with
    | none => rfl
    | some tvShow =>
      rw [Option.bind_some, Option.bind_some]
      by_cases hshow : tvShow = item
      · subst hshow
        exact hinherits item' detail' hdetail' hfrom hitem'
      · simp only [showTitle, LocalStore.writeDetail, Table.get?_set_ne _ _ hshow]
  rw [hfresh]
  exact h item' (fun hmem => hitem' (hsub hmem)) hdetail

/-! ### Details other than shows -/

lemma showTitle_of_typed (hI : StoreInvariant s) {item : ItemId} {row : ContentItem}
    (hrow : s.items.get? item = some row) (htype : row.contentType ≠ .tvShow) :
    s.showTitle item = none := by
  unfold showTitle
  cases hdetail : s.details.get? item with
  | none => rfl
  | some detail =>
    obtain ⟨row', hrow', htype'⟩ := hI.typed item detail hdetail
    rw [hrow] at hrow'
    cases hrow'
    rw [Option.bind_some]
    cases hshow : detail.row with
    | tvShow show' => exact absurd (htype'.trans (by rw [hshow]; rfl)) htype
    | movie | season | game | album | book => rfl

/-- No text inherits from an item that is no show, so a write of its detail concerns itself only. -/
lemma CoherentOutside.writeLeaf (hsemantics : config.semantics = detailSemantics)
    (hI : StoreInvariant s) (h : CoherentOutside config s X) {item : ItemId} {row : ContentItem}
    (hrow : s.items.get? item = some row) {detail : DetailRow}
    (htype : row.contentType = detail.contentType) (hleaf : row.contentType ≠ .tvShow)
    (children : ChildRows) (releaseDate : Option Date) (status : String) (kind : IngestKind) :
    CoherentOutside config (s.writeDetail item detail children releaseDate status kind)
      (insert item X) := by
  refine h.writeDetail hsemantics (Set.subset_insert item X) (Set.mem_insert item X) detail
    children releaseDate status kind ?_
  intro item' detail' _ _ _
  have hI' := hI.writeDetail hrow htype children releaseDate status kind
  rw [showTitle_of_typed hI hrow hleaf, showTitle_of_typed hI' hrow hleaf]

/-! ### Nested seasons -/

lemma hasDetail_iff (hI : StoreInvariant s) {key : ContentKey} :
    s.hasDetail key = true ↔ ∃ item row, s.items.get? item = some row ∧ row.key = key ∧
      (s.details.get? item).isSome := by
  constructor
  · intro h
    obtain ⟨item, hlookup, hdetail⟩ := (Option.any_eq_true _ _).mp h
    obtain ⟨row, hrow, hkey⟩ := lookup_eq_some hlookup
    exact ⟨item, row, hrow, hkey, hdetail⟩
  · rintro ⟨item, row, hrow, hkey, hdetail⟩
    cases hlookup : s.lookup key with
    | none =>
      have hnot := Table.first_eq_none hlookup hrow
      simp [hkey] at hnot
    | some item' =>
      obtain ⟨row', hrow', hkey'⟩ := lookup_eq_some hlookup
      rw [hI.unique item item' row row' hrow hrow' (hkey.trans hkey'.symm)] at hdetail
      rw [hasDetail, hlookup, Option.any_some, hdetail]

lemma hasDetail_mono (hI : StoreInvariant s) (hI' : StoreInvariant s') (h : Extends s s')
    {key : ContentKey} (hkey : s.hasDetail key = true) : s'.hasDetail key = true := by
  obtain ⟨item, row, hrow, hsame, hdetail⟩ := (hasDetail_iff hI).mp hkey
  obtain ⟨row', hrow', hkey'⟩ := h.key item row hrow
  exact (hasDetail_iff hI').mpr ⟨item, row', hrow', hkey'.trans hsame, h.detail item hdetail⟩

variable {tvShow : ItemId} {tvShowItem row : ContentItem} {payload : TvShowPayload}
  {instanceTitle requestCountry : Option String}

/-- The title of the show is right for the row of a nested entry, or is not inherited by it. -/
lemma hashWithTitle_nestedRow (hsemantics : config.semantics = detailSemantics) {item : ItemId}
    {entry : ℤ × SeasonPayload} {detail : StoredDetail}
    (hdetail : s.details.get? item = some detail)
    (hnested : detail.row = nestedRow tvShow tvShowItem payload entry)
    (hcurrent : isBlank (payload.nestedName entry.2) = false ∨
      inheritedText instanceTitle = inheritedText (s.showTitle tvShow)) :
    s.hashWithTitle config item instanceTitle = s.freshHash config item := by
  refine hashWithTitle_eq_freshHash hsemantics fun detail' hdetail' hinherits => ?_
  rw [hdetail] at hdetail'
  cases hdetail'
  have hfrom : detail.row.inheritsFrom
      = if isBlank (payload.nestedName entry.2) then some tvShow else none := by
    rw [hnested]
    rfl
  rw [inheritedTitle, hdetail, Option.bind_some, hfrom]
  rw [hfrom] at hinherits
  rcases hcurrent with hname | htitle
  · simp [hname] at hinherits
  · split_ifs at hinherits ⊢
    · exact htitle
    · cases hinherits

/-- What the upsert of nested entries leaves of the store. -/
structure NestedWrite (tvShow : ItemId) (s s' : LocalStore) : Prop where
  invariant : StoreInvariant s'
  extending : Extends s s'
  tvShow : s'.details.get? tvShow = s.details.get? tvShow

/-- A nested entry is upserted with the hash of the persisted rows, unless its detail is created
    under a title that is not the show's. -/
lemma upsertNestedSeason_spec (hsemantics : config.semantics = detailSemantics)
    (hI : StoreInvariant s) (hrow : s.items.get? tvShow = some row)
    (htype : row.contentType = .tvShow) {entry : ℤ × SeasonPayload}
    (h : s.upsertNestedSeason config tvShow tvShowItem payload instanceTitle requestCountry entry
      = some s') :
    NestedWrite tvShow s s' ∧ ∃ item row, s'.items.get? item = some row ∧
      row.key = tvShowItem.seasonKey entry.1 ∧ (s'.details.get? item).isSome ∧
      ∀ X, CoherentOutside config s X → CoherentOutside config s' (insert item X) ∧
        ((s.hasDetail (tvShowItem.seasonKey entry.1) = true ∨
          isBlank (payload.nestedName entry.2) = false ∨
          inheritedText instanceTitle = inheritedText (s.showTitle tvShow)) →
        CoherentOutside config s' (X \ {item})) := by
  obtain ⟨item, s₁, s₂, children, -, hadd, -, hs₂, hset⟩ := upsertNestedSeason_eq_some hI h
  obtain ⟨seasonRow, hseason, hkey⟩ := hadd.row
  have hleaf : seasonRow.contentType = .season := congrArg (fun key => key.2.2) hkey
  have hnested : seasonRow.contentType = (nestedRow tvShow tvShowItem payload entry).contentType :=
    hleaf
  have hne : tvShow ≠ item := by
    rintro rfl
    rw [hadd.found _ row hrow] at hseason
    cases hseason
    rw [htype] at hleaf
    cases hleaf
  have hdetails : s₂.details = s.details.set item
      ⟨nestedRow tvShow tvShowItem payload entry, children, entry.2.releaseDate, "", s₁.clock⟩ := by
    rw [hs₂, replacePlatforms_details, LocalStore.writeDetail, hadd.details]
  have htvShow : s₂.details.get? tvShow = s.details.get? tvShow := by
    rw [hdetails]
    exact Table.get?_set_ne _ _ hne
  have hseason₂ : s₂.items.get? item = some seasonRow := by
    rw [hs₂, replacePlatforms_items]
    exact hseason
  have hsame : (s.hasDetail (tvShowItem.seasonKey entry.1) = true ∨
      isBlank (payload.nestedName entry.2) = false ∨
      inheritedText instanceTitle = inheritedText (s.showTitle tvShow)) →
      s' = s₂.persistHash config item := by
    intro hcurrent
    rcases hset with heq | ⟨hcreated, heq⟩
    · exact heq
    · rw [heq, persistHash]
      congr 1
      have hdetail : s₂.details.get? item = some ⟨nestedRow tvShow tvShowItem payload entry,
          children, entry.2.releaseDate, "", s₁.clock⟩ := by
        rw [hdetails]
        exact Table.get?_set_self ..
      refine hashWithTitle_nestedRow hsemantics hdetail rfl ?_
      have htitle : s₂.showTitle tvShow = s.showTitle tvShow := by
        rw [showTitle, showTitle, htvShow]
      rw [htitle]
      exact hcurrent.resolve_left (by simp [hcreated])
  obtain ⟨hash, heq⟩ : ∃ hash, s' = s₂.setHash item hash := by
    rcases hset with heq | ⟨-, heq⟩
    · exact ⟨_, heq⟩
    · exact ⟨_, heq⟩
  have hI₂ : StoreInvariant s₂ := by
    rw [hs₂]
    exact (hadd.invariant.writeDetail hseason hnested ..).replacePlatforms ..
  have hext : Extends s s' := by
    rw [heq, hs₂]
    exact ((hadd.extends.trans (extends_writeDetail ..)).trans
      (extends_replacePlatforms ..)).trans (extends_setHash ..)
  have hwritten : ∀ X, CoherentOutside config s X → CoherentOutside config s₂ (insert item X) := by
    intro X hX
    rw [hs₂]
    exact ((hX.getOrCreate hsemantics hI hadd).writeLeaf hsemantics hadd.invariant hseason
      hnested (by simp [hleaf]) _ _ _ _).replacePlatforms _ _ _
  refine ⟨⟨heq ▸ hI₂.setHash item hash, hext, ?_⟩, ?_⟩
  · rw [heq, setHash_details, htvShow]
  · obtain ⟨row', hrow', hkey'⟩ := (extends_setHash s₂ item hash).key item seasonRow hseason₂
    refine ⟨item, row', heq ▸ hrow', hkey'.trans hkey, ?_, fun X hX => ⟨?_, fun hcurrent => ?_⟩⟩
    · rw [heq, setHash_details, hdetails, Table.get?_set_self]
      rfl
    · rw [heq]
      exact (hwritten X hX).setHash hsemantics (Set.mem_insert item X) hash
    · rw [hsame hcurrent]
      refine ((hwritten X hX).persistHash hsemantics item).mono ?_
      rintro item' ⟨hmem, hne'⟩
      exact ⟨hmem.resolve_left hne', hne'⟩

/-- No nested entry creates a detail that inherits the title of the show and keeps the hash of it,
    unless the caller's instance gives that title. `seen` are the numbers of the entries before. -/
def createsCurrent (s : LocalStore) (tvShowItem : ContentItem) (payload : TvShowPayload)
    (isCurrent : Bool) : List ℤ → List (ℤ × SeasonPayload) → Bool
  | _, [] => true
  | seen, entry :: entries =>
    (isCurrent || s.hasDetail (tvShowItem.seasonKey entry.1) || entry.1 ∈ seen
      || entry.1 ∈ entries.map (·.1) || !isBlank (payload.nestedName entry.2))
    && createsCurrent s tvShowItem payload isCurrent (entry.1 :: seen) entries

/-- The items of the nested entries. -/
def rewritten (s : LocalStore) (tvShowItem : ContentItem) (entries : List (ℤ × SeasonPayload)) :
    Set ItemId :=
  {item | ∃ row, s.items.get? item = some row ∧
    ∃ entry ∈ entries, row.key = tvShowItem.seasonKey entry.1}

/-- The upsert of nested entries, after a state `s₀`, makes their items coherent. -/
lemma upsertSeasons_spec (hsemantics : config.semantics = detailSemantics) {s₀ : LocalStore}
    {entries : List (ℤ × SeasonPayload)} {seen : List ℤ} (hI : StoreInvariant s)
    (hrow : s.items.get? tvShow = some row) (htype : row.contentType = .tvShow)
    (hbefore : ∀ key, s₀.hasDetail key = true → s.hasDetail key = true)
    (hseen : ∀ number ∈ seen, s.hasDetail (tvShowItem.seasonKey number) = true)
    (hok : s₀.createsCurrent tvShowItem payload
      (inheritedText instanceTitle = inheritedText (s.showTitle tvShow)) seen entries = true)
    (hX : CoherentOutside config s X)
    (h : upsertSeasons config tvShow tvShowItem payload instanceTitle requestCountry s entries
      = some s') :
    NestedWrite tvShow s s' ∧
      CoherentOutside config s' (X \ s.rewritten tvShowItem entries) := by
  induction entries generalizing s X seen row with
  | nil =>
    cases h
    refine ⟨⟨hI, .rfl _, rfl⟩, hX.mono fun item hitem => ⟨hitem, ?_⟩⟩
    rintro ⟨row', -, entry, hmem, -⟩
    cases hmem
  | cons entry entries ih =>
    obtain ⟨s₁, hentry, hrest⟩ := Option.bind_eq_some_iff.mp h
    obtain ⟨hhead, htail⟩ := Bool.and_eq_true_iff.mp hok
    obtain ⟨hwrite, item, seasonRow, hseason, hkey, hdetail, hcoherent⟩ :=
      upsertNestedSeason_spec hsemantics hI hrow htype hentry
    obtain ⟨hanyway, hcurrent⟩ := hcoherent X hX
    -- the item of the entry is coherent now, or a later entry rewrites it
    obtain ⟨Y, hY, hsub, hlater⟩ : ∃ Y, CoherentOutside config s₁ Y ∧ Y ⊆ insert item X ∧
        (item ∈ Y → entry.1 ∈ entries.map (·.1)) := by
      by_cases hlater : entry.1 ∈ entries.map (·.1)
      · exact ⟨_, hanyway, Set.Subset.refl _, fun _ => hlater⟩
      · refine ⟨_, hcurrent ?_, fun item' hmem => .inr hmem.1, fun hmem => absurd rfl hmem.2⟩
        simp only [Bool.or_eq_true, decide_eq_true_eq, Bool.not_eq_true'] at hhead
        rcases hhead with (((htitle | hdetail) | hmem) | hmem) | hname
        · exact .inr (.inr htitle)
        · exact .inl (hbefore _ hdetail)
        · exact .inl (hseen _ hmem)
        · exact absurd hmem hlater
        · exact .inr (.inl hname)
    have htitle : s₁.showTitle tvShow = s.showTitle tvShow := by
      rw [showTitle, showTitle, hwrite.tvShow]
    obtain ⟨row₁, hrow₁, hkey₁⟩ := hwrite.extending.key tvShow row hrow
    have htype₁ : row₁.contentType = .tvShow :=
      (congrArg (fun key => key.2.2) hkey₁).trans htype
    have hmono : ∀ key, s.hasDetail key = true → s₁.hasDetail key = true :=
      fun key => hasDetail_mono hI hwrite.invariant hwrite.extending
    have hnew : s₁.hasDetail (tvShowItem.seasonKey entry.1) = true :=
      (hasDetail_iff hwrite.invariant).mpr ⟨item, seasonRow, hseason, hkey, hdetail⟩
    obtain ⟨hwrites, hrestCoherent⟩ := ih hwrite.invariant hrow₁ htype₁
      (fun key hkey => hmono key (hbefore key hkey))
      (fun number hmem => (List.mem_cons.mp hmem).elim (fun heq => heq ▸ hnew)
        fun hmem => hmono _ (hseen number hmem))
      (htitle ▸ htail) hY hrest
    refine ⟨⟨hwrites.invariant, hwrite.extending.trans hwrites.extending,
      hwrites.tvShow.trans hwrite.tvShow⟩, hrestCoherent.mono ?_⟩
    rintro item' ⟨hmem, hnot⟩
    have hne : item' ≠ item := by
      rintro rfl
      obtain ⟨entry', hentry', hnumber⟩ := List.mem_map.mp (hlater hmem)
      exact hnot ⟨seasonRow, hseason, entry', hentry', hnumber ▸ hkey⟩
    refine ⟨(hsub hmem).resolve_left hne, ?_⟩
    rintro ⟨row', hrow', entry', hentry', hkey'⟩
    obtain ⟨row'', hrow'', hkey''⟩ := hwrite.extending.key item' row' hrow'
    rcases List.mem_cons.mp hentry' with rfl | htailmem
    · exact hne <| hwrite.invariant.unique item' item row'' seasonRow hrow'' hseason
        ((hkey''.trans hkey').trans hkey.symm)
    · exact hnot ⟨row'', hrow'', entry', htailmem, hkey''.trans hkey'⟩

end LocalStore

end Denn
