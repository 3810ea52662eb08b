import Denn.Store.Invariant
import Mathlib.Logic.Relation

/-!
# Writes

An upsert is a sequence of writes to the tables. What each write keeps, every upsert keeps, and so
does every run.
-/

namespace Denn

open Core

variable {config : StoreConfig} {request : Upsert} {s s' : LocalStore}

/-- The keys of the seasons that a payload has entries for. -/
def DetailPayload.nestedKeys (item : ContentItem) : DetailPayload → List ContentKey
  | .tvShow payload => payload.nestedSeasons.map fun entry => item.seasonKey entry.1
  | _ => []

namespace LocalStore

/-- The payload has text for the item: it is its own, or has an entry for it. -/
def Concerns (request : Upsert) (s : LocalStore) (item : ItemId) : Prop :=
  request.item = item ∨ ∃ row sourceRow, s.items.get? item = some row ∧
    s.items.get? request.item = some sourceRow ∧ row.key ∈ request.payload.nestedKeys sourceRow

/-- The row that a nested entry is stored as. -/
def nestedRow (tvShow : ItemId) (tvShowItem : ContentItem) (payload : TvShowPayload)
    (entry : ℤ × SeasonPayload) : DetailRow :=
  .season ((payload.nestedPayload (tvShowItem.seasonKey entry.1).2.1 entry.2).toRow (some tvShow))

/-- The rows of a detail that an upsert writes for an item. -/
inductive Written (request : Upsert) (s : LocalStore) (item : ItemId) :
    DetailRow → ChildRows → IngestKind → Prop
  | tvShow {payload : TvShowPayload} (hitem : item = request.item)
      (hpayload : request.payload = .tvShow payload) :
      Written request s item (.tvShow payload.toRow) (s.storedChildren item) .own
  | season {payload : SeasonPayload} {tvShow : Option ItemId} {children : ChildRows}
      (hitem : item = request.item) (hpayload : request.payload = .season payload)
      (hchildren : payload.replaceEpisodes (s.storedChildren item) = some children) :
      Written request s item (.season (payload.toRow tvShow)) children .own
  | nested {payload : TvShowPayload} {tvShowItem itemRow : ContentItem} {entry : ℤ × SeasonPayload}
      {children : ChildRows} (htvShow : s.items.get? request.item = some tvShowItem)
      (hpayload : request.payload = .tvShow payload) (hentry : entry ∈ payload.nestedSeasons)
      (hitem : s.items.get? item = some itemRow)
      (hkey : itemRow.key = tvShowItem.seasonKey entry.1)
      (hchildren : entry.2.replaceEpisodes (s.storedChildren item) = some children) :
      Written request s item (nestedRow request.item tvShowItem payload entry) children .nested
  | plain {row : DetailRow} {children : ChildRows} (hitem : item = request.item)
      (hrow : row.contentType ≠ .tvShow ∧ row.contentType ≠ .season) :
      Written request s item row children .own

/-- A write of an upsert to the tables. -/
inductive Write (config : StoreConfig) (request : Upsert) : LocalStore → LocalStore → Prop
  | item (s : LocalStore) (key : ContentKey) : Write config request s (s.getOrCreate key).2
  | hash (s : LocalStore) (item : ItemId) (hash : Option SourceHash) :
      Write config request s (s.setHash item hash)
  | detail {s : LocalStore} {item : ItemId} {itemRow : ContentItem} {row : DetailRow}
      {children : ChildRows} {kind : IngestKind} (hitem : s.items.get? item = some itemRow)
      (hwritten : Written request s item row children kind)
      (htype : itemRow.contentType = row.contentType) (releaseDate : Option Date)
      (status : String) :
      Write config request s (s.writeDetail item row children releaseDate status kind)
  | platforms {s : LocalStore} {item : ItemId} (hconcerns : Concerns request s item)
      (hdetail : (s.details.get? item).isSome) (platforms : Option PlatformMap) :
      Write config request s (s.replacePlatforms config item platforms request.requestCountry)

abbrev Writes (config : StoreConfig) (request : Upsert) : LocalStore → LocalStore → Prop :=
  Relation.ReflTransGen (Write config request)

lemma StoreInvariant.write (h : StoreInvariant s) (hwrite : Write config request s s') :
    StoreInvariant s' := by
  cases hwrite with
  | item key => exact (getOrCreate_spec h key).invariant
  | hash item hash => exact h.setHash item hash
  | detail hitem hwritten htype releaseDate status =>
    exact h.writeDetail hitem htype _ releaseDate status _
  | @platforms item hconcerns hdetail platforms => exact h.replacePlatforms config item platforms _

lemma StoreInvariant.writes (h : StoreInvariant s) (hwrites : Writes config request s s') :
    StoreInvariant s' := by
  induction hwrites with
  | refl => exact h
  | tail _ hwrite ih => exact ih.write hwrite

lemma Write.extends (h : StoreInvariant s) (hwrite : Write config request s s') :
    Extends s s' := by
  cases hwrite with
  | item key => exact (getOrCreate_spec h key).extends
  | hash item hash => exact extends_setHash s item hash
  | detail hitem hwritten htype releaseDate status => exact extends_writeDetail s ..
  | @platforms item hconcerns hdetail platforms => exact extends_replacePlatforms config s item platforms _

lemma Writes.extends (h : StoreInvariant s) (hwrites : Writes config request s s') :
    Extends s s' := by
  induction hwrites with
  | refl => exact .rfl _
  | tail hwrites hwrite ih => exact ih.trans (hwrite.extends (h.writes hwrites))

/-! ### The writes of a nested season -/

variable {tvShow : ItemId} {tvShowItem row : ContentItem} {payload : TvShowPayload}
  {instanceTitle requestCountry : Option String}

lemma upsertSeasonDetail_eq_some {item : ItemId} {payload : SeasonPayload} {tvShow : Option ItemId}
    {kind : IngestKind}
    (h : s.upsertSeasonDetail config item payload tvShow kind requestCountry = some s') :
    ∃ children, payload.replaceEpisodes (s.storedChildren item) = some children ∧
      s' = (s.writeDetail item (.season (payload.toRow tvShow)) children payload.releaseDate ""
        kind).replacePlatforms config item payload.platforms requestCountry := by
  unfold upsertSeasonDetail at h
  split_ifs at h
  obtain ⟨children, hchildren, heq⟩ := Option.map_eq_some_iff.mp h
  exact ⟨children, hchildren, heq.symm⟩

/-- There is a detail under the key. -/
def hasDetail (s : LocalStore) (key : ContentKey) : Bool :=
  (s.lookup key).any fun item => (s.details.get? item).isSome

/-- The upsert of a nested entry: its item is found or added, its detail is written with the
    platforms, and a hash is set, that of the persisted rows unless the detail is created. -/
lemma upsertNestedSeason_eq_some (hI : StoreInvariant s) {entry : ℤ × SeasonPayload}
    (h : s.upsertNestedSeason config tvShow tvShowItem payload instanceTitle requestCountry entry
      = some s') :
    ∃ item s₁ s₂ children, s₁ = (s.getOrCreate (tvShowItem.seasonKey entry.1)).2 ∧
      GetOrCreate s (tvShowItem.seasonKey entry.1) item s₁ ∧
      entry.2.replaceEpisodes (s₁.storedChildren item) = some children ∧
      s₂ = (s₁.writeDetail item (nestedRow tvShow tvShowItem payload entry) children
        entry.2.releaseDate "" .nested).replacePlatforms config item entry.2.platforms
          requestCountry ∧
      (s' = s₂.persistHash config item ∨
        s.hasDetail (tvShowItem.seasonKey entry.1) = false ∧
          s' = s₂.setHash item (s₂.hashWithTitle config item instanceTitle)) := by
  have hadd := getOrCreate_spec hI (tvShowItem.seasonKey entry.1)
  have hcreated : (s.details.get? (s.getOrCreate (tvShowItem.seasonKey entry.1)).1).isNone →
      s.hasDetail (tvShowItem.seasonKey entry.1) = false := by
    intro hnone
    rcases getOrCreate_cases s (tvShowItem.seasonKey entry.1) with ⟨item, hitem, heq⟩ | ⟨hitem, -⟩
    · rw [heq] at hnone
      simpa [hasDetail, hitem] using hnone
    · rw [hasDetail, hitem, Option.any_none]
  obtain ⟨s₂, hupsert, hset⟩ := Option.map_eq_some_iff.mp h
  obtain ⟨children, hchildren, rfl⟩ := upsertSeasonDetail_eq_some hupsert
  refine ⟨_, _, _, children, rfl, hadd, hchildren, rfl, ?_⟩
  rw [hadd.details] at hset
  split_ifs at hset with hnone
  · exact .inr ⟨hcreated hnone, hset.symm⟩
  · exact .inl hset.symm

lemma upsertNestedSeason_writes (hI : StoreInvariant s)
    (hrow : s.items.get? request.item = some row) (hkey : row.key = tvShowItem.key)
    (hpayload : request.payload = .tvShow payload) {entry : ℤ × SeasonPayload}
    (hentry : entry ∈ payload.nestedSeasons)
    (h : s.upsertNestedSeason config request.item tvShowItem payload instanceTitle
      request.requestCountry entry = some s') :
    Writes config request s s' := by
  obtain ⟨item, s₁, s₂, children, hs₁, hadd, hchildren, hs₂, hset⟩ :=
    upsertNestedSeason_eq_some hI h
  obtain ⟨itemRow, hitem, hitemKey⟩ := hadd.row
  have hseasonKey : row.seasonKey entry.1 = tvShowItem.seasonKey entry.1 := by
    have hsource : row.sourceApi = tvShowItem.sourceApi := congrArg Prod.fst hkey
    have hexternal : row.externalId = tvShowItem.externalId := congrArg (fun key => key.2.1) hkey
    rw [ContentItem.seasonKey, ContentItem.seasonKey, hsource, hexternal]
  have hcreate : Writes config request s s₁ := .single (hs₁ ▸ .item s _)
  have hwrite : Write config request s₁
      (s₁.writeDetail item (nestedRow request.item tvShowItem payload entry) children
        entry.2.releaseDate "" .nested) :=
    .detail hitem (.nested (hadd.found _ row hrow) hpayload hentry hitem
      (hitemKey.trans hseasonKey.symm) hchildren) (congrArg (fun key => key.2.2) hitemKey) _ _
  have hconcerns : Concerns request (s₁.writeDetail item
      (nestedRow request.item tvShowItem payload entry) children entry.2.releaseDate "" .nested)
      item := by
    refine .inr ⟨itemRow, row, hitem, hadd.found _ row hrow, ?_⟩
    rw [hpayload, hitemKey, ← hseasonKey]
    exact List.mem_map.mpr ⟨entry, hentry, rfl⟩
  have hplatforms : Writes config request s s₂ :=
    (hcreate.tail hwrite).tail (hs₂ ▸ .platforms hconcerns (isSome_writeDetail ..) _)
  rcases hset with heq | ⟨-, heq⟩
  · exact hplatforms.tail (heq ▸ .hash s₂ item _)
  · exact hplatforms.tail (heq ▸ .hash s₂ item _)

lemma upsertSeasons_writes {entries : List (ℤ × SeasonPayload)} (hI : StoreInvariant s)
    (hrow : s.items.get? request.item = some row) (hkey : row.key = tvShowItem.key)
    (hpayload : request.payload = .tvShow payload)
    (hentries : ∀ entry ∈ entries, entry ∈ payload.nestedSeasons)
    (h : upsertSeasons config request.item tvShowItem payload instanceTitle
      request.requestCountry s entries = some s') :
    Writes config request s s' := by
  induction entries generalizing s row with
  | nil =>
    cases h
    exact .refl
  | cons entry entries ih =>
    obtain ⟨s₁, hentry, hrest⟩ := Option.bind_eq_some_iff.mp h
    have hwrites := upsertNestedSeason_writes hI hrow hkey hpayload
      (hentries entry List.mem_cons_self) hentry
    obtain ⟨row₁, hrow₁, hkey₁⟩ := (Writes.extends hI hwrites).key request.item row hrow
    exact hwrites.trans <| ih (hI.writes hwrites) hrow₁ (hkey₁.trans hkey)
      (fun entry' hmem => hentries entry' (List.mem_cons_of_mem _ hmem)) hrest

/-! ### The writes of an upsert -/

lemma upsertTvShow_eq_some {cachedTvShow : Option (Option String)}
    (h : s.upsertTvShow config tvShow tvShowItem payload cachedTvShow requestCountry = some s') :
    ∃ s₁, upsertSeasons config tvShow tvShowItem payload
        (s.instanceTitle tvShow (payload.title.getD "") cachedTvShow) requestCountry
        (s.writeTvShow config tvShow payload requestCountry) payload.nestedSeasons = some s₁ ∧
      s' = (s.dependentSeasons tvShow (payload.title.getD "")).foldl (·.persistHash config ·)
        (s₁.persistHash config tvShow) := by
  unfold upsertTvShow at h
  split_ifs at h
  obtain ⟨s₁, hseasons, heq⟩ := Option.map_eq_some_iff.mp h
  exact ⟨s₁, hseasons, heq.symm⟩

/-- The upserts that succeed, by the type of the item. -/
inductive UpsertCases (config : StoreConfig) (request : Upsert) (s s' : LocalStore) : Prop
  | tvShow {row : ContentItem} {payload : TvShowPayload}
      (hrow : s.items.get? request.item = some row) (htype : row.contentType = .tvShow)
      (hpayload : request.payload = .tvShow payload)
      (hupsert : s.upsertTvShow config request.item row payload request.cachedTvShow
        request.requestCountry = some s')
  | season {row : ContentItem} {payload : SeasonPayload} {children : ChildRows}
      (hrow : s.items.get? request.item = some row) (htype : row.contentType = .season)
      (hpayload : request.payload = .season payload)
      (hchildren : payload.replaceEpisodes (s.storedChildren request.item) = some children)
      (hwrite : s' = ((s.writeDetail request.item
        (.season (payload.toRow (s.resolveLocalTvShow row))) children payload.releaseDate ""
        .own).replacePlatforms config request.item payload.platforms
          request.requestCountry).persistHash config request.item)
  | plain {row : ContentItem} {detail : DetailRow} {children : ChildRows}
      {releaseDate : Option Date} {status : String} (platforms : Option PlatformMap)
      (hrow : s.items.get? request.item = some row) (htype : row.contentType = detail.contentType)
      (hdetail : detail.contentType ≠ .tvShow ∧ detail.contentType ≠ .season)
      (hwrite : s' = ((s.writeDetail request.item detail children releaseDate status
        .own).replacePlatforms config request.item platforms
          request.requestCountry).persistHash config request.item)

lemma upsertDetail_cases (h : s.upsertDetail config request = some s') :
    UpsertCases config request s s' := by
  obtain ⟨row, hrow, hupsert⟩ := Option.bind_eq_some_iff.mp h
  split at hupsert
  · next payload htype hpayload => exact .tvShow hrow htype hpayload hupsert
  · next payload htype hpayload =>
    obtain ⟨s₁, hseason, rfl⟩ := Option.map_eq_some_iff.mp hupsert
    obtain ⟨children, hchildren, rfl⟩ := upsertSeasonDetail_eq_some hseason
    exact .season hrow htype hpayload hchildren rfl
  · next row' children releaseDate status platforms htype hpayload =>
    have hmovie : row.contentType = (DetailRow.movie row').contentType := htype
    exact .plain (some platforms) hrow hmovie ⟨by simp [DetailRow.contentType],
      by simp [DetailRow.contentType]⟩ (Option.some.inj hupsert).symm
  · next row' children releaseDate hpayload =>
    split_ifs at hupsert with hother
    obtain ⟨htype, hmem⟩ := hother
    rw [htype] at hmem
    exact .plain none hrow htype (by cases row' <;> simp_all [DetailRow.contentType])
      (Option.some.inj hupsert).symm
  · cases hupsert

lemma persistHashes_writes (s : LocalStore) (items : List ItemId) :
    Writes config request s (items.foldl (·.persistHash config ·) s) := by
  induction items generalizing s with
  | nil => exact .refl
  | cons item items ih => exact (Relation.ReflTransGen.single (.hash s item _)).trans (ih _)

/-- An upsert begins with the write of the item's own detail. -/
lemma upsertDetail_begins (hI : StoreInvariant s) (h : s.upsertDetail config request = some s') :
    ∃ row children releaseDate status,
      Write config request s (s.writeDetail request.item row children releaseDate status .own) ∧
      Writes config request (s.writeDetail request.item row children releaseDate status .own)
        s' := by
  cases upsertDetail_cases h with
  | @tvShow row payload hrow htype hpayload hupsert =>
    obtain ⟨s₁, hseasons, rfl⟩ := upsertTvShow_eq_some hupsert
    let written := s.writeDetail request.item (.tvShow payload.toRow)
      (s.storedChildren request.item) payload.releaseDate (payload.status.getD "") .own
    have hwrite : Write config request s written := .detail hrow (.tvShow rfl hpayload) htype _ _
    have hplatforms : Writes config request written
        (s.writeTvShow config request.item payload request.requestCountry) :=
      .single (.platforms (.inl rfl) (isSome_writeDetail ..) _)
    refine ⟨_, _, _, _, hwrite, ?_⟩
    have hwrites := (Relation.ReflTransGen.single hwrite).trans hplatforms
    obtain ⟨row₁, hrow₁, hkey₁⟩ := (Writes.extends hI hwrites).key request.item _ hrow
    have hnested := upsertSeasons_writes (hI.writes hwrites) hrow₁ hkey₁ hpayload
      (fun _ hmem => hmem) hseasons
    exact ((hplatforms.trans hnested).tail (.hash _ _ _)).trans (persistHashes_writes _ _)
  | season hrow htype hpayload hchildren hwrite =>
    rw [hwrite]
    exact ⟨_, _, _, _, .detail hrow (.season rfl hpayload hchildren) htype _ _,
      (Relation.ReflTransGen.single (.platforms (.inl rfl) (isSome_writeDetail ..) _)).tail (.hash _ _ _)⟩
  | plain platforms hrow htype hdetail hwrite =>
    rw [hwrite]
    exact ⟨_, _, _, _, .detail hrow (.plain rfl hdetail) htype _ _,
      (Relation.ReflTransGen.single (.platforms (.inl rfl) (isSome_writeDetail ..) _)).tail (.hash _ _ _)⟩

lemma upsertDetail_writes (hI : StoreInvariant s) (h : s.upsertDetail config request = some s') :
    Writes config request s s' := by
  obtain ⟨row, children, releaseDate, status, hwrite, hwrites⟩ := upsertDetail_begins hI h
  exact (Relation.ReflTransGen.single hwrite).trans hwrites

/-! ### Runs -/

lemma StoreInvariant.step {a : StoreAction} (hI : StoreInvariant s)
    (h : s.step config a = some s') : StoreInvariant s' := by
  cases a with
  | tick seconds =>
    cases h
    exact ⟨hI.bounded, hI.unique, hI.typed⟩
  | getOrCreate key =>
    cases h
    exact (getOrCreate_spec hI key).invariant
  | upsert request => exact hI.writes (upsertDetail_writes hI h)
  | serve items =>
    cases h
    exact ⟨hI.bounded, hI.unique, hI.typed⟩

theorem storeInvariant_of_reachable (h : (localStoreSystem config).Reachable s) :
    StoreInvariant s :=
  h.invariant (fun _ hinit => hinit ▸ .empty) fun _ _ _ hI hstep => hI.step hstep

end LocalStore

end Denn
