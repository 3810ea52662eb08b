import Denn.Store.Writes

/-!
# What an upsert refreshes

A payload is accepted or not by its shape alone. An accepted one refreshes the row of its item and,
of a show, the rows of the seasons it has entries for; every other row stays as it is.
-/

namespace Denn

open Core

variable {config : StoreConfig} {request : Upsert} {s s' : LocalStore}

/-- No two episodes of the payload have one id. -/
def SeasonPayload.episodesAreDistinct (payload : SeasonPayload) : Bool :=
  payload.episodeRows.all fun rows => (rows.map (·.episodeIdExternal)).Nodup

/-- The mapper of the content type stores the payload. -/
def DetailPayload.isAccepted (contentType : ContentType) (payload : DetailPayload) : Bool :=
  match contentType, payload with
  | .tvShow, .tvShow payload => hasPayloadShape payload.id payload.type "tv_show"
      && payload.nestedSeasons.all fun entry => entry.2.episodesAreDistinct
  | .season, .season payload => hasPayloadShape payload.id payload.type "season"
      && payload.episodesAreDistinct
  | .movie, .movie .. => true
  | contentType, .other row _ _ =>
    contentType = row.contentType ∧ contentType ∈ [ContentType.game, .album, .book]
  | _, _ => false

lemma SeasonPayload.isSome_replaceEpisodes (payload : SeasonPayload) (children : ChildRows) :
    (payload.replaceEpisodes children).isSome = payload.episodesAreDistinct := by
  unfold replaceEpisodes episodesAreDistinct
  cases payload.episodeRows with
  | none => rfl
  | some rows =>
    rw [Option.all_some]
    by_cases hdistinct : (rows.map (·.episodeIdExternal)).Nodup
    · simp [hdistinct]
    · simp [hdistinct]

namespace LocalStore

variable {tvShow : ItemId} {tvShowItem row : ContentItem} {payload : TvShowPayload}
  {instanceTitle requestCountry : Option String}

lemma isSome_upsertSeasonDetail {item : ItemId} {payload : SeasonPayload} {tvShow : Option ItemId}
    {kind : IngestKind} :
    (s.upsertSeasonDetail config item payload tvShow kind requestCountry).isSome
      = (hasPayloadShape payload.id payload.type "season" && payload.episodesAreDistinct) := by
  unfold upsertSeasonDetail
  by_cases hshape : hasPayloadShape payload.id payload.type "season" = true
  · rw [if_pos hshape, Option.isSome_map, SeasonPayload.isSome_replaceEpisodes, hshape,
      Bool.true_and]
  · rw [if_neg hshape, Bool.eq_false_iff.mpr hshape]
    rfl

/-- The payload that is made of a nested entry has the shape of a season. -/
lemma hasPayloadShape_nestedPayload (entry : ℤ × SeasonPayload) :
    hasPayloadShape (payload.nestedPayload (tvShowItem.seasonKey entry.1).2.1 entry.2).id
      (payload.nestedPayload (tvShowItem.seasonKey entry.1).2.1 entry.2).type "season" = true := by
  simp [hasPayloadShape, TvShowPayload.nestedPayload, ContentItem.seasonKey]

lemma isSome_upsertNestedSeason (entry : ℤ × SeasonPayload) :
    (s.upsertNestedSeason config tvShow tvShowItem payload instanceTitle requestCountry
      entry).isSome = entry.2.episodesAreDistinct := by
  rw [upsertNestedSeason, Option.isSome_map, isSome_upsertSeasonDetail,
    hasPayloadShape_nestedPayload, Bool.true_and]
  rfl

lemma isSome_upsertSeasons (entries : List (ℤ × SeasonPayload)) :
    (upsertSeasons config tvShow tvShowItem payload instanceTitle requestCountry s
      entries).isSome = entries.all fun entry => entry.2.episodesAreDistinct := by
  induction entries generalizing s with
  | nil => rfl
  | cons entry entries ih =>
    have hentry : (s.upsertNestedSeason config tvShow tvShowItem payload instanceTitle
        requestCountry entry).isSome = entry.2.episodesAreDistinct :=
      isSome_upsertNestedSeason entry
    rw [upsertSeasons, List.all_cons, ← hentry]
    cases hupsert : s.upsertNestedSeason config tvShow tvShowItem payload instanceTitle
      requestCountry entry with
    | none => rfl
    | some s' => rw [Option.bind_some, ih, Option.isSome_some, Bool.true_and]

/-- An upsert fails exactly on the payloads that are not accepted. -/
lemma isSome_upsertDetail (hrow : s.items.get? request.item = some row) :
    (s.upsertDetail config request).isSome = request.payload.isAccepted row.contentType := by
  rw [upsertDetail, hrow, Option.bind_some]
  cases hpayload : request.payload with
  | tvShow payload =>
    cases htype : row.contentType with
    | tvShow =>
      simp only [DetailPayload.isAccepted, upsertTvShow]
      by_cases hshape : hasPayloadShape payload.id payload.type "tv_show" = true
      · rw [if_pos hshape, hshape, Option.isSome_map, isSome_upsertSeasons, Bool.true_and]
      · rw [if_neg hshape, Bool.eq_false_iff.mpr hshape]
        rfl
    | movie | season | game | album | book => rfl
  | season payload =>
    cases htype : row.contentType with
    | season =>
      simp only [DetailPayload.isAccepted]
      rw [Option.isSome_map, isSome_upsertSeasonDetail]
    | movie | tvShow | game | album | book => rfl
  | movie detail children releaseDate status platforms => cases row.contentType <;> rfl
  | other detail children releaseDate =>
    have haccepted : (DetailPayload.other detail children releaseDate).isAccepted row.contentType
        = decide (row.contentType = detail.contentType ∧
            row.contentType ∈ [ContentType.game, .album, .book]) := by
      cases row.contentType <;> rfl
    rw [haccepted]
    by_cases hother : row.contentType = detail.contentType ∧
        row.contentType ∈ [ContentType.game, .album, .book]
    · rw [decide_eq_true hother]
      cases htype : row.contentType <;> simp_all
    · rw [decide_eq_false hother]
      cases htype : row.contentType <;> simp_all

/-! ### Refreshed rows -/

/-- The row of the item was written in this moment. -/
def RefreshedNow (s : LocalStore) (item : ItemId) : Prop :=
  ∃ detail, s.details.get? item = some detail ∧ detail.lastRefreshedAt = s.clock

/-- The detail of the item and its platforms are the same. -/
structure SameRows (s s' : LocalStore) (item : ItemId) : Prop where
  details : s'.details.get? item = s.details.get? item
  platforms : ∀ key : PlatformKey, key.item = item → s'.platforms.get? key = s.platforms.get? key

lemma SameRows.rfl (s : LocalStore) (item : ItemId) : SameRows s s item :=
  ⟨Eq.refl _, fun _ _ => Eq.refl _⟩

lemma SameRows.trans {s'' : LocalStore} {item : ItemId} (h : SameRows s s' item)
    (h' : SameRows s' s'' item) : SameRows s s'' item where
  details := h'.details.trans h.details
  platforms key hkey := (h'.platforms key hkey).trans (h.platforms key hkey)

/-- The row of the item was written in this moment if `p`, and all its rows stay otherwise. -/
structure RefreshesIff (s s' : LocalStore) (item : ItemId) (p : Prop) : Prop where
  refreshed : p → RefreshedNow s' item
  left : ¬ p → SameRows s s' item

lemma RefreshesIff.rfl (s : LocalStore) (item : ItemId) : RefreshesIff s s item False :=
  ⟨False.elim, fun _ => .rfl s item⟩

lemma RefreshesIff.congr {item : ItemId} {p q : Prop} (h : RefreshesIff s s' item p)
    (hiff : p ↔ q) : RefreshesIff s s' item q :=
  ⟨fun hq => h.refreshed (hiff.mpr hq), fun hq => h.left fun hp => hq (hiff.mp hp)⟩

/-- A row that is refreshed by one of two steps of the same moment is refreshed by both. -/
lemma RefreshesIff.trans {s'' : LocalStore} {item : ItemId} {p q : Prop}
    (h : RefreshesIff s s' item p) (h' : RefreshesIff s' s'' item q)
    (hclock : s''.clock = s'.clock) : RefreshesIff s s'' item (p ∨ q) where
  refreshed := by
    intro hpq
    by_cases hq : q
    · exact h'.refreshed hq
    · obtain ⟨detail, hdetail, hnow⟩ := h.refreshed (hpq.resolve_right hq)
      exact ⟨detail, (h'.left hq).details.trans hdetail, hnow.trans hclock.symm⟩
  left hnot := by
    rw [not_or] at hnot
    exact (h.left hnot.1).trans (h'.left hnot.2)

lemma Write.clock_eq (h : Write config request s s') : s'.clock = s.clock := by
  cases h with
  | item key => exact (itemsOnly_getOrCreate s key).clock
  | hash item hash => exact (itemsOnly_setHash s item hash).clock
  | detail hitem hwritten htype releaseDate status => rfl
  | platforms hconcerns hdetail platforms => exact replacePlatforms_clock ..

lemma Writes.clock_eq (h : Writes config request s s') : s'.clock = s.clock := by
  induction h with
  | refl => rfl
  | tail _ hwrite ih => exact hwrite.clock_eq.trans ih

lemma seasonKey_congr {item item' : ContentItem} (h : item.key = item'.key) (number : ℤ) :
    item.seasonKey number = item'.seasonKey number := by
  have hsource : item.sourceApi = item'.sourceApi := congrArg Prod.fst h
  have hexternal : item.externalId = item'.externalId := congrArg (fun key => key.2.1) h
  rw [ContentItem.seasonKey, ContentItem.seasonKey, hsource, hexternal]

lemma nestedKeys_congr {item item' : ContentItem} (h : item.key = item'.key)
    (payload : DetailPayload) : payload.nestedKeys item = payload.nestedKeys item' := by
  cases payload with
  | tvShow payload => simp only [DetailPayload.nestedKeys, seasonKey_congr h]
  | season | movie | other => rfl

/-- A write leaves the row of an item, or refreshes it. -/
lemma Write.details_cases (hI : StoreInvariant s) (h : Write config request s s')
    (item : ItemId) : s'.details.get? item = s.details.get? item ∨ RefreshedNow s' item := by
  cases h with
  | item key => exact .inl (by rw [(getOrCreate_spec hI key).details])
  | hash item' hash => exact .inl (by rw [setHash_details])
  | @detail item' itemRow detail children kind hitem hwritten htype releaseDate status =>
    by_cases heq : item = item'
    · subst heq
      exact .inr ⟨_, Table.get?_set_self .., rfl⟩
    · exact .inl (Table.get?_set_ne _ _ heq)
  | platforms hconcerns hdetail platforms => exact .inl (by rw [replacePlatforms_details])

lemma Concerns.of_written {item : ItemId} {detail : DetailRow} {children : ChildRows}
    {kind : IngestKind} (h : Written request s item detail children kind) :
    Concerns request s item := by
  cases h with
  | tvShow hitem hpayload => exact .inl hitem.symm
  | season hitem hpayload hchildren => exact .inl hitem.symm
  | nested htvShow hpayload hentry hitem hkey hchildren =>
    refine .inr ⟨_, _, hitem, htvShow, ?_⟩
    rw [hpayload]
    exact List.mem_map.mpr ⟨_, hentry, hkey.symm⟩
  | plain hitem hrow => exact .inl hitem.symm

/-- A write leaves the rows of the items that the payload has no text for. -/
lemma Write.sameRows (h : Write config request s s') {item : ItemId}
    (hnot : ¬ Concerns request s item) : SameRows s s' item := by
  cases h with
  | item key =>
    have hsame := itemsOnly_getOrCreate s key
    exact ⟨by rw [hsame.details], fun key' _ => by rw [hsame.platforms]⟩
  | hash item' hash =>
    have hsame := itemsOnly_setHash s item' hash
    exact ⟨by rw [hsame.details], fun key _ => by rw [hsame.platforms]⟩
  | @detail item' itemRow detail children kind hitem hwritten htype releaseDate status =>
    have hne : item ≠ item' := by
      rintro rfl
      exact hnot (.of_written hwritten)
    exact ⟨Table.get?_set_ne _ _ hne, fun _ _ => rfl⟩
  | @platforms item' hconcerns hdetail platforms =>
    refine ⟨by rw [replacePlatforms_details], fun key hkey => ?_⟩
    cases platforms with
    | none => rfl
    | some platforms =>
      refine get?_replaceStreamingPlatforms_of_ne ?_ platforms s.platforms
      rintro ⟨hitem, -⟩
      rw [← hkey, hitem] at hnot
      exact hnot hconcerns

/-- Whom a payload concerns is told by the keys of the items. -/
lemma Concerns.iff_of_rows {item : ItemId} {row sourceRow : ContentItem}
    (hrow : s.items.get? item = some row)
    (hsource : s.items.get? request.item = some sourceRow) :
    Concerns request s item ↔
      request.item = item ∨ row.key ∈ request.payload.nestedKeys sourceRow := by
  refine or_congr_right ⟨?_, fun hkey => ⟨row, sourceRow, hrow, hsource, hkey⟩⟩
  rintro ⟨row', sourceRow', hrow', hsource', hkey⟩
  rw [hrow] at hrow'
  rw [hsource] at hsource'
  cases hrow'
  cases hsource'
  exact hkey

lemma Writes.details_cases (hI : StoreInvariant s) (h : Writes config request s s')
    (item : ItemId) : s'.details.get? item = s.details.get? item ∨ RefreshedNow s' item := by
  induction h with
  | refl => exact .inl rfl
  | tail hwrites hwrite ih =>
    rcases hwrite.details_cases (hI.writes hwrites) item with hsame | hnow
    · rcases ih with hsame' | ⟨detail, hdetail, hclock⟩
      · exact .inl (hsame.trans hsame')
      · exact .inr ⟨detail, hsame.trans hdetail, hclock.trans hwrite.clock_eq.symm⟩
    · exact .inr hnow

lemma Writes.sameRows {item : ItemId} {sourceRow : ContentItem} (hI : StoreInvariant s)
    (hrow : s.items.get? item = some row)
    (hsource : s.items.get? request.item = some sourceRow) (h : Writes config request s s')
    (hnot : ¬ (request.item = item ∨ row.key ∈ request.payload.nestedKeys sourceRow)) :
    SameRows s s' item := by
  induction h with
  | refl => exact .rfl s item
  | tail hwrites hwrite ih =>
    have hext := Writes.extends hI hwrites
    obtain ⟨row₁, hrow₁, hkey₁⟩ := hext.key item row hrow
    obtain ⟨sourceRow₁, hsource₁, hsourceKey₁⟩ := hext.key request.item sourceRow hsource
    refine ih.trans (hwrite.sameRows ?_)
    rw [Concerns.iff_of_rows hrow₁ hsource₁, hkey₁, nestedKeys_congr hsourceKey₁]
    exact hnot

/-- A row that was refreshed stays refreshed. -/
lemma RefreshedNow.writes {item : ItemId} (hI : StoreInvariant s)
    (hwrites : Writes config request s s') (h : RefreshedNow s item) : RefreshedNow s' item := by
  obtain ⟨detail, hdetail, hclock⟩ := h
  rcases hwrites.details_cases hI item with hsame | hnow
  · exact ⟨detail, hsame.trans hdetail, hclock.trans hwrites.clock_eq.symm⟩
  · exact hnow

lemma refreshedNow_writeDetail (s : LocalStore) (item : ItemId) (detail : DetailRow)
    (children : ChildRows) (releaseDate : Option Date) (status : String) (kind : IngestKind) :
    RefreshedNow (s.writeDetail item detail children releaseDate status kind) item :=
  ⟨_, Table.get?_set_self .., rfl⟩

/-- The nested entries of a show refresh the rows of their seasons. -/
lemma refreshedNow_of_upsertSeasons {entries : List (ℤ × SeasonPayload)} (hI : StoreInvariant s)
    {sourceRow : ContentItem} (hsource : s.items.get? request.item = some sourceRow)
    (hsourceKey : sourceRow.key = tvShowItem.key) (hpayload : request.payload = .tvShow payload)
    (hentries : ∀ entry ∈ entries, entry ∈ payload.nestedSeasons)
    (h : upsertSeasons config request.item tvShowItem payload instanceTitle
      request.requestCountry s entries = some s')
    {item : ItemId} (hrow : s.items.get? item = some row)
    (hkey : row.key ∈ entries.map fun entry => tvShowItem.seasonKey entry.1) :
    RefreshedNow s' item := by
  induction entries generalizing s row sourceRow with
  | nil => cases hkey
  | cons entry entries ih =>
    obtain ⟨s₁, hentry, hrest⟩ := Option.bind_eq_some_iff.mp h
    have hwrites := upsertNestedSeason_writes hI hsource hsourceKey hpayload
      (hentries entry List.mem_cons_self) hentry
    have hI₁ := hI.writes hwrites
    obtain ⟨row₁, hrow₁, hkey₁⟩ := (Writes.extends hI hwrites).key item row hrow
    obtain ⟨sourceRow₁, hsource₁, hsourceKey₁⟩ :=
      (Writes.extends hI hwrites).key request.item sourceRow hsource
    have hlater : ∀ entry' ∈ entries, entry' ∈ payload.nestedSeasons :=
      fun entry' hmem => hentries entry' (List.mem_cons_of_mem _ hmem)
    rcases List.mem_cons.mp hkey with hhead | htail
    · obtain ⟨item', s₂, s₃, children, -, hadd, -, hs₃, hset⟩ :=
        upsertNestedSeason_eq_some hI hentry
      obtain ⟨itemRow, hitem, hitemKey⟩ := hadd.row
      have hsame : item = item' := hadd.invariant.unique item item' row itemRow
        (hadd.found item row hrow) hitem (hhead.trans hitemKey.symm)
      have hnow : RefreshedNow s₁ item := by
        obtain ⟨hash, heq⟩ : ∃ hash, s₁ = s₃.setHash item' hash := by
          rcases hset with heq | ⟨-, heq⟩
          · exact ⟨_, heq⟩
          · exact ⟨_, heq⟩
        have hclock : s₁.clock = s₂.clock := by
          rw [heq, (itemsOnly_setHash ..).clock, hs₃, replacePlatforms_clock]
          rfl
        have hdetails : s₁.details = (s₂.writeDetail item'
            (nestedRow request.item tvShowItem payload entry) children entry.2.releaseDate ""
            .nested).details := by
          rw [heq, setHash_details, hs₃, replacePlatforms_details]
        rw [RefreshedNow, hdetails, hclock, hsame]
        exact refreshedNow_writeDetail ..
      exact hnow.writes hI₁ <|
        upsertSeasons_writes hI₁ hsource₁ (hsourceKey₁.trans hsourceKey) hpayload hlater hrest
    · exact ih hI₁ hsource₁ (hsourceKey₁.trans hsourceKey) hlater hrest hrow₁ (hkey₁ ▸ htail)

/-- An upsert that succeeds refreshes the rows that the payload has text for and leaves the others. -/
theorem upsertDetail_refreshes (hI : StoreInvariant s) {sourceRow : ContentItem}
    (hsource : s.items.get? request.item = some sourceRow)
    (h : s.upsertDetail config request = some s') {item : ItemId}
    (hrow : s.items.get? item = some row) :
    RefreshesIff s s' item
      (request.item = item ∨ row.key ∈ request.payload.nestedKeys sourceRow) := by
  constructor
  · rintro (hown | hnested)
    · subst hown
      obtain ⟨detail, children, releaseDate, status, hwrite, hwrites⟩ := upsertDetail_begins hI h
      exact (refreshedNow_writeDetail ..).writes (hI.write hwrite) hwrites
    · cases upsertDetail_cases h with
      | @tvShow sourceRow' payload hsource' htype hpayload hupsert =>
        rw [hsource] at hsource'
        cases hsource'
        rw [hpayload] at hnested
        obtain ⟨s₁, hseasons, rfl⟩ := upsertTvShow_eq_some hupsert
        let written := s.writeTvShow config request.item payload request.requestCountry
        have hwrites : Writes config request s written :=
          (Relation.ReflTransGen.single (.detail hsource (.tvShow rfl hpayload) htype _ _)).tail
            (.platforms (.inl rfl) (isSome_writeDetail ..) _)
        have hI' := hI.writes hwrites
        obtain ⟨row', hrow', hkey'⟩ := (Writes.extends hI hwrites).key item row hrow
        obtain ⟨source', hsource', hsourceKey'⟩ :=
          (Writes.extends hI hwrites).key request.item sourceRow hsource
        have hnow := refreshedNow_of_upsertSeasons hI' hsource' hsourceKey' hpayload
          (fun _ hmem => hmem) hseasons hrow' (hkey' ▸ hnested)
        have hwrites₁ := upsertSeasons_writes hI' hsource' hsourceKey' hpayload
          (fun _ hmem => hmem) hseasons
        have hhash : Write config request s₁ (s₁.persistHash config request.item) := .hash ..
        exact hnow.writes (hI'.writes hwrites₁) <|
          (Relation.ReflTransGen.single hhash).trans (persistHashes_writes ..)
      | season hsource' htype hpayload hchildren hwrite =>
        rw [hpayload] at hnested
        cases hnested
      | plain platforms hsource' htype hdetail hwrite =>
        rw [hsource] at hsource'
        cases hsource'
        have haccepted : request.payload.isAccepted sourceRow.contentType = true := by
          rw [← isSome_upsertDetail hsource, h]
          rfl
        cases hpayload : request.payload with
        | tvShow payload =>
          rw [hpayload] at haccepted
          rw [← htype] at hdetail
          cases hsourceType : sourceRow.contentType <;>
            simp_all [DetailPayload.isAccepted]
        | season | movie | other =>
          rw [hpayload] at hnested
          cases hnested
  · intro hnot
    exact (upsertDetail_writes hI h).sameRows hI hrow hsource hnot

end LocalStore

end Denn
