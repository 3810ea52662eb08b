import Denn.Store.Availability

/-!
# The country of streaming platforms

Platforms are stored for the country that they were fetched for. The dispatch of `from_local` drops
the requested country, so a payload lists the stored platforms of every country.
-/

namespace Denn

open Core

variable {config : StoreConfig} {request : Upsert} {s s' : LocalStore} {call : FetchCall}
  {item : ItemId}

/-- No provider is listed twice under one kind. -/
def PlatformMap.IsDistinct (platforms : PlatformMap) : Prop :=
  ∀ kind, ((platforms.get kind).map (·.name)).Nodup

/-- The platforms of a payload of the proxy. -/
def DetailPayload.platforms : DetailPayload → PlatformMap
  | .tvShow payload => payload.platforms
  | .season payload => payload.platforms.getD {}
  | .movie _ _ _ _ platforms => platforms
  | .other .. => {}

/-- The platforms of a payload come from rows of the country, each once. The proxy's own payload
    has been fetched for the country. -/
def FetchedPayload.AnswersCountry (country : String) : FetchedPayload → Prop
  | .fromRows _ payload =>
    (∀ row ∈ payload.platformRows, row.1.countryCode = country) ∧ payload.platforms.IsDistinct
  | .raw payload => payload.platforms.IsDistinct

namespace LocalStore

/-! ### Rows of platforms -/

lemma mem_streamingPlatforms {row : PlatformRow} :
    row ∈ s.streamingPlatforms item ↔ s.platforms.get? row.1 = some row.2 ∧ row.1.item = item := by
  rw [streamingPlatforms, List.mem_filter, decide_eq_true_eq, ← Table.mem_rows_iff]

lemma get_groupRows (rows : List PlatformRow) (kind : StreamingKind) :
    ((groupRows rows).get kind).map (·.name)
      = (rows.filter (·.1.kind = kind)).map fun row => some row.1.name := by
  cases kind <;> simp [groupRows, PlatformMap.get, Function.comp_def]

/-- The rows of an item for one country have different names under each kind. -/
lemma isDistinct_groupRows {country : String}
    (h : ∀ row ∈ s.streamingPlatforms item, row.1.countryCode = country) :
    (groupRows (s.streamingPlatforms item)).IsDistinct := by
  intro kind
  rw [get_groupRows]
  refine ((s.platforms.nodup_rows.filter _).filter _).map_on ?_
  intro row hrow row' hrow' hname
  obtain ⟨hmem, hkind⟩ := List.mem_filter.mp hrow
  obtain ⟨hmem', hkind'⟩ := List.mem_filter.mp hrow'
  have hkey : row.1 = row'.1 := by
    obtain ⟨hget, hitem⟩ := mem_streamingPlatforms.mp hmem
    obtain ⟨hget', hitem'⟩ := mem_streamingPlatforms.mp hmem'
    have hcountry := (h row hmem).trans (h row' hmem').symm
    rw [decide_eq_true_eq] at hkind hkind'
    rw [PlatformKey.mk.injEq]
    exact ⟨hitem.trans hitem'.symm, hkind.trans hkind'.symm, Option.some.inj hname, hcountry⟩
  have hvalue : some row.2 = some row'.2 := by
    rw [← (mem_streamingPlatforms.mp hmem).1, ← (mem_streamingPlatforms.mp hmem').1, hkey]
  exact Prod.ext hkey (Option.some.inj hvalue)

/-- Every row of a platform belongs to an item with detail. -/
def PlatformsHaveDetail (s : LocalStore) : Prop :=
  ∀ key, (s.platforms.get? key).isSome → (s.details.get? key.item).isSome

lemma PlatformsHaveDetail.write (hI : StoreInvariant s) (h : PlatformsHaveDetail s)
    (hwrite : Write config request s s') : PlatformsHaveDetail s' := by
  have hmono := (hwrite.extends hI).detail
  intro key hkey
  by_cases hsame : s'.platforms.get? key = s.platforms.get? key
  · exact hmono _ (h key (hsame ▸ hkey))
  · cases hwrite with
    | item key' => exact absurd (by rw [(itemsOnly_getOrCreate s key').platforms]) hsame
    | hash item' hash => exact absurd (by rw [(itemsOnly_setHash s item' hash).platforms]) hsame
    | detail hitem hwritten htype releaseDate status => exact absurd rfl hsame
    | @platforms item' hconcerns hdetail platforms =>
      cases platforms with
      | none => exact absurd rfl hsame
      | some platforms =>
        have hitem : key.item = item' := by
          by_contra hne
          exact hsame (get?_replaceStreamingPlatforms_of_ne (fun hboth => hne hboth.1) _ _)
        rw [hitem]
        exact hmono _ hdetail

/-- A write leaves the rows for other countries than the requested one. -/
lemma Write.otherCountries (h : Write config request s s') {key : PlatformKey}
    (hkey : key.countryCode ≠ config.country request.requestCountry) :
    s'.platforms.get? key = s.platforms.get? key := by
  cases h with
  | item key' => rw [(itemsOnly_getOrCreate s key').platforms]
  | hash item' hash => rw [(itemsOnly_setHash s item' hash).platforms]
  | detail hitem hwritten htype releaseDate status => rfl
  | platforms hconcerns hdetail platforms =>
    cases platforms with
    | none => rfl
    | some platforms =>
      exact get?_replaceStreamingPlatforms_of_ne (fun hboth => hkey hboth.2) _ _

lemma platformsHaveDetail_of_reachable (h : (localStoreSystem config).Reachable s) :
    PlatformsHaveDetail s := by
  refine h.invariant_of (fun _ => storeInvariant_of_reachable) ?_ ?_
  · intro s hinit key hkey
    rw [show s = .empty from hinit] at hkey
    simp [LocalStore.empty] at hkey
  · intro s a s' hI hplatforms hstep
    cases a with
    | tick seconds =>
      cases hstep
      exact hplatforms
    | getOrCreate key =>
      cases hstep
      have hwrite : Write config ⟨0, .tvShow {}, none, none⟩ s (s.getOrCreate key).2 := .item s key
      exact hplatforms.write hI hwrite
    | upsert request =>
      have hwrites := upsertDetail_writes hI hstep
      clear hstep
      induction hwrites with
      | refl => exact hplatforms
      | tail hwrites hwrite ih => exact ih.write (hI.writes hwrites) hwrite
    | serve items =>
      cases hstep
      exact hplatforms

lemma Writes.otherCountries (h : Writes config request s s') {key : PlatformKey}
    (hkey : key.countryCode ≠ config.country request.requestCountry) :
    s'.platforms.get? key = s.platforms.get? key := by
  induction h with
  | refl => rfl
  | tail _ hwrite ih => exact (hwrite.otherCountries hkey).trans ih

lemma persist_otherCountries (hI : StoreInvariant s) (before : LocalStore) (source : ItemId)
    (payload : DetailPayload) {key : PlatformKey}
    (hkey : key.countryCode ≠ config.country call.countryCode) :
    (s.persist config call before source payload).platforms.get? key = s.platforms.get? key := by
  unfold persist
  split_ifs
  · rfl
  · let request : Upsert :=
      { item := source, payload := payload
        cachedTvShow := some ((before.showTitle source).or (s.showTitle source))
        requestCountry := call.countryCode }
    cases hupsert : s.upsertDetail config request with
    | none => rfl
    | some s' => exact (upsertDetail_writes hI hupsert).otherCountries hkey

/-- A call leaves the rows for other countries than its own. -/
lemma fetchBulkSourceData_otherCountries (hI : StoreInvariant s) {key : PlatformKey}
    (hkey : key.countryCode ≠ config.country call.countryCode) :
    (s.fetchBulkSourceData config call).1.platforms.get? key = s.platforms.get? key := by
  have hloop : ∀ (items : List ItemId) (state : FetchState), StoreInvariant state.store →
      (items.foldl (fetchItem config call s) state).store.platforms.get? key
        = state.store.platforms.get? key := by
    intro items
    induction items with
    | nil => exact fun _ _ => rfl
    | cons source items ih =>
      intro state hstate
      rw [List.foldl_cons, ih _ (persists_fetchItem hstate).invariant, fetchItem_store]
      cases call.proxy source with
      | none => rfl
      | some payload =>
        simp only
        split_ifs
        · exact persist_otherCountries hstate s source payload hkey
        · rfl
  exact hloop _ _ hI

/-! ### Answers -/

/-- No row of the item is stored for another country. -/
def HasOnlyCountry (s : LocalStore) (country : String) (item : ItemId) : Prop :=
  ∀ key : PlatformKey, key.item = item → (s.platforms.get? key).isSome →
    key.countryCode = country

/-- A reconstructed payload answers the country exactly if its item has no rows for others. -/
lemma answersCountry_fromLocal_iff {country : String} {origin : Origin} {payload : LocalPayload}
    (hpayload : s.fromLocal item = some payload)
    (hplatforms : payload.detail.row.contentType.hasPlatforms = true) :
    (FetchedPayload.fromRows origin payload).AnswersCountry country ↔
      HasOnlyCountry s country item := by
  obtain ⟨-, -, hrows⟩ := fromLocal_eq_some hpayload
  constructor
  · rintro ⟨hcountry, -⟩ key hkey hsome
    obtain ⟨url, hurl⟩ := Option.isSome_iff_exists.mp hsome
    exact hcountry (key, url) (hrows hplatforms ▸ mem_streamingPlatforms.mpr ⟨hurl, hkey⟩)
  · intro honly
    have hcountry : ∀ row ∈ s.streamingPlatforms item, row.1.countryCode = country := by
      intro row hrow
      obtain ⟨hget, hitem⟩ := mem_streamingPlatforms.mp hrow
      exact honly row.1 hitem (by rw [hget]; rfl)
    refine ⟨by rwa [hrows hplatforms], ?_⟩
    rw [LocalPayload.platforms, hrows hplatforms]
    exact isDistinct_groupRows hcountry

lemma answersCountry_of_hasOnlyCountry {country : String} {origin : Origin}
    {payload : LocalPayload} (hpayload : s.fromLocal item = some payload)
    (honly : payload.detail.row.contentType.hasPlatforms = true → HasOnlyCountry s country item) :
    (FetchedPayload.fromRows origin payload).AnswersCountry country := by
  cases hplatforms : payload.detail.row.contentType.hasPlatforms with
  | true => exact (answersCountry_fromLocal_iff hpayload hplatforms).mpr (honly hplatforms)
  | false =>
    have hrows : payload.platformRows = [] := by
      obtain ⟨detail, -, rfl⟩ := Option.map_eq_some_iff.mp hpayload
      exact if_neg (by simpa using hplatforms)
    refine ⟨by simp [hrows], fun kind => ?_⟩
    rw [LocalPayload.platforms, hrows, get_groupRows]
    exact List.nodup_nil

/-- A payload is made of a row of the item's type. -/
lemma contentType_fromLocal (hI : StoreInvariant s) {row : ContentItem}
    (hrow : s.items.get? item = some row) {payload : LocalPayload}
    (hpayload : s.fromLocal item = some payload) :
    payload.detail.row.contentType = row.contentType := by
  obtain ⟨row', hrow', htype⟩ := hI.typed item payload.detail (fromLocal_eq_some hpayload).1
  rw [hrow] at hrow'
  cases hrow'
  exact htype.symm

lemma hasOnlyCountry_fetch_iff (hI : StoreInvariant s) :
    HasOnlyCountry (s.fetchBulkSourceData config call).1 (config.country call.countryCode) item ↔
      HasOnlyCountry s (config.country call.countryCode) item := by
  constructor
  · intro honly key hkey hsome
    by_contra hne
    exact hne (honly key hkey (by rwa [fetchBulkSourceData_otherCountries hI hne]))
  · intro honly key hkey hsome
    by_contra hne
    exact hne (honly key hkey (by rwa [fetchBulkSourceData_otherCountries hI hne] at hsome))

/-- An item with detail is answered from its rows before or after the call. -/
lemma answeredFromRows (config : StoreConfig) (hI : StoreInvariant s) (hguard : call.guard = none)
    (hitem : item ∈ call.items) (hdetail : (s.details.get? item).isSome) :
    ∃ origin payload t, (t = s ∨ t = (s.fetchBulkSourceData config call).1) ∧
      t.fromLocal item = some payload ∧
      ((s.fetchBulkSourceData config call).2.get? item = some (.fromRows origin payload) ∨
        (s.fetchBulkSourceData config call).2.get? item
          = some (.fromRows origin payload.markStale)) := by
  obtain ⟨detail, hsome⟩ := Option.isSome_iff_exists.mp hdetail
  obtain ⟨row, hrow, -⟩ := hI.typed item detail hsome
  have hhydrate : item ∈ s.hydrate call.items := mem_hydrate.mpr ⟨hitem, by rw [hrow]; rfl⟩
  obtain ⟨before, hbefore⟩ := Option.isSome_iff_exists.mp
    ((isSome_fromLocal (s := s)).trans hdetail)
  have hext := (fetchBulkSourceData_refreshes config call hI hrow).1.extending
  obtain ⟨after, hafter⟩ := Option.isSome_iff_exists.mp
    (isSome_fromLocal.trans (hext.detail item hdetail))
  have hanswer : Answered config s call item ((s.fetchBulkSourceData config call).2.get? item) :=
    fetchBulkSourceData_answers
  generalize (s.fetchBulkSourceData config call).2.get? item = answer at hanswer ⊢
  cases hanswer with
  | absent hnot => exact absurd hhydrate hnot
  | fresh _ hclass => exact ⟨.fresh, before, s, .inl rfl, hbefore, .inl (by rw [hbefore]; rfl)⟩
  | stale _ hclass hserve =>
    exact ⟨.stale, before, s, .inl rfl, hbefore, .inr (by rw [hbefore]; rfl)⟩
  | fallback hneeds hproxy =>
    refine ⟨.fallback, before, s, .inl rfl, hbefore, .inr ?_⟩
    rw [fallback_of_needsProxy hneeds hdetail, hbefore]
    rfl
  | refused hneeds hproxy hpermits => simp [FetchCall.permits, hguard] at hpermits
  | rebuilt hneeds hproxy hpermits =>
    exact ⟨.rebuilt, after, _, .inr rfl, hafter, .inl (by rw [rebuild, hafter])⟩

/-- A payload read after the call is made of a row of the item's type. -/
lemma contentType_fromLocal_fetch (hI : StoreInvariant s) {row : ContentItem}
    (hrow : s.items.get? item = some row) {payload : LocalPayload}
    (hpayload : (s.fetchBulkSourceData config call).1.fromLocal item = some payload) :
    payload.detail.row.contentType = row.contentType := by
  obtain ⟨hpersists, -⟩ := fetchBulkSourceData_refreshes config call hI hrow
  obtain ⟨row', hrow', hkey⟩ := hpersists.extending.key item row hrow
  exact (contentType_fromLocal hpersists.invariant hrow' hpayload).trans
    (congrArg (fun key => key.2.2) hkey)

/-- An item whose answer is for the country has no rows for others. -/
lemma hasOnlyCountry_of_answers (h : (localStoreSystem config).Reachable s)
    (hguard : call.guard = none) (hitem : item ∈ call.items) {row : ContentItem}
    (hrow : s.items.get? item = some row) (hplatforms : row.contentType.hasPlatforms = true)
    (hanswers : ∀ payload, (s.fetchBulkSourceData config call).2.get? item = some payload →
      payload.AnswersCountry (config.country call.countryCode)) :
    HasOnlyCountry s (config.country call.countryCode) item := by
  have hI := storeInvariant_of_reachable h
  intro key hkey hsome
  have hdetail : (s.details.get? item).isSome :=
    hkey ▸ platformsHaveDetail_of_reachable h key hsome
  obtain ⟨origin, payload, t, ht, hpayload, hresult⟩ :=
    answeredFromRows config hI hguard hitem hdetail
  have hanswer : (FetchedPayload.fromRows origin payload).AnswersCountry
      (config.country call.countryCode) :=
    hresult.elim (hanswers _) (hanswers (.fromRows origin payload.markStale))
  rcases ht with rfl | rfl
  · have htype := contentType_fromLocal hI hrow hpayload
    exact (answersCountry_fromLocal_iff hpayload (htype ▸ hplatforms)).mp hanswer key hkey hsome
  · have htype := contentType_fromLocal_fetch hI hrow hpayload
    have honly := (answersCountry_fromLocal_iff hpayload (htype ▸ hplatforms)).mp hanswer
    exact (hasOnlyCountry_fetch_iff hI).mp honly key hkey hsome

/-- A payload that is not stored for an item without detail is returned as it is. -/
lemma fetch_eq_raw (hI : StoreInvariant s) (hguard : call.guard = none)
    (hneeds : item ∈ s.needsProxy config call) {payload : DetailPayload}
    (hproxy : call.proxy item = some payload) (hnone : s.details.get? item = none)
    (hnot : s.stores config call item = false) :
    (s.fetchBulkSourceData config call).2.get? item = some (.raw payload) := by
  obtain ⟨row, hrow⟩ := Option.isSome_iff_exists.mp
    (mem_hydrate.mp (mem_needsProxy.mp hneeds).1).2
  have hsame := (fetchBulkSourceData_refreshes config call hI hrow).2.left (by simp [hnot])
  have hrebuilt : (s.fetchBulkSourceData config call).1.fromLocal item = none := by
    rw [fromLocal, fromLocalIn, hsame.details, hnone]
    rfl
  rw [answer_of_permits hneeds (by rw [hproxy]; rfl) (by simp [FetchCall.permits, hguard]),
    rebuild, hrebuilt, hproxy]
  rfl

/-- An item without detail after the call had none before, and nothing was stored for it. -/
lemma not_stores_of_details_none (hI : StoreInvariant s) {row : ContentItem}
    (hrow : s.items.get? item = some row)
    (hafter : (s.fetchBulkSourceData config call).1.details.get? item = none) :
    s.details.get? item = none ∧ s.stores config call item = false := by
  obtain ⟨hpersists, hrefreshes⟩ := fetchBulkSourceData_refreshes config call hI hrow
  constructor
  · rw [← Option.not_isSome_iff_eq_none]
    intro hdetail
    have hsome := hpersists.extending.detail item hdetail
    rw [hafter] at hsome
    cases hsome
  · by_contra hstores
    obtain ⟨detail, hdetail, -⟩ := hrefreshes.refreshed (by simpa using hstores)
    rw [hafter] at hdetail
    cases hdetail

/-- What is rebuilt after the write answers the country, from rows or with the proxy's payload. -/
lemma answersCountry_rebuild (hI : StoreInvariant s) {row : ContentItem}
    (hrow : s.items.get? item = some row)
    (honly : row.contentType.hasPlatforms = true →
      HasOnlyCountry s (config.country call.countryCode) item)
    (hraw : ∀ payload, call.proxy item = some payload → s.details.get? item = none →
      s.stores config call item = false → payload.platforms.IsDistinct)
    {payload : FetchedPayload}
    (h : (s.fetchBulkSourceData config call).1.rebuild call item = some payload) :
    payload.AnswersCountry (config.country call.countryCode) := by
  unfold rebuild at h
  split at h
  · next rows hlocal =>
    cases h
    have htype := contentType_fromLocal_fetch hI hrow hlocal
    refine answersCountry_of_hasOnlyCountry hlocal fun hplatforms => ?_
    exact (hasOnlyCountry_fetch_iff hI).mpr (honly (htype ▸ hplatforms))
  · next hlocal =>
    obtain ⟨raw, hproxy, rfl⟩ := Option.map_eq_some_iff.mp h
    have hafter : (s.fetchBulkSourceData config call).1.details.get? item = none := by
      rw [← Option.not_isSome_iff_eq_none, ← isSome_fromLocal, hlocal]
      simp
    obtain ⟨hnone, hnot⟩ := not_stores_of_details_none hI hrow hafter
    exact hraw raw hproxy hnone hnot

/-- Every payload answers the country of the call exactly if no item of the batch has rows for
    another, and the payloads that are returned without being stored list no provider twice. -/
theorem answersCountry_iff (h : (localStoreSystem config).Reachable s)
    (hguard : call.guard = none) :
    (∀ item payload, (s.fetchBulkSourceData config call).2.get? item = some payload →
      payload.AnswersCountry (config.country call.countryCode)) ↔
    (∀ item ∈ call.items, ∀ row, s.items.get? item = some row →
      row.contentType.hasPlatforms = true →
        HasOnlyCountry s (config.country call.countryCode) item) ∧
    ∀ item ∈ s.needsProxy config call, ∀ payload, call.proxy item = some payload →
      s.details.get? item = none → s.stores config call item = false →
        payload.platforms.IsDistinct := by
  have hI := storeInvariant_of_reachable h
  constructor
  · intro hanswers
    constructor
    · intro item hitem row hrow hplatforms
      exact hasOnlyCountry_of_answers h hguard hitem hrow hplatforms (hanswers item)
    · intro item hneeds payload hproxy hnone hnot
      exact hanswers item (.raw payload) (fetch_eq_raw hI hguard hneeds hproxy hnone hnot)
  · rintro ⟨hrows, hraw⟩ item payload hpayload
    have hanswer : Answered config s call item ((s.fetchBulkSourceData config call).2.get? item) :=
      fetchBulkSourceData_answers
    have hexists : item ∈ s.hydrate call.items → item ∈ call.items ∧
        ∃ row, s.items.get? item = some row := fun hitem =>
      (mem_hydrate.mp hitem).imp id Option.isSome_iff_exists.mp
    have hbefore : ∀ origin rows, item ∈ s.hydrate call.items →
        s.fromLocal item = some rows →
        (FetchedPayload.fromRows origin rows).AnswersCountry
          (config.country call.countryCode) := by
      intro origin rows hitem hlocal
      obtain ⟨hmem, row, hrow⟩ := hexists hitem
      refine answersCountry_of_hasOnlyCountry hlocal fun hplatforms => ?_
      exact hrows item hmem row hrow (contentType_fromLocal hI hrow hlocal ▸ hplatforms)
    rw [hpayload] at hanswer
    generalize hsome : some payload = answer at hanswer
    cases hanswer with
    | absent hnot => cases hsome
    | fresh hitem hclass =>
      obtain ⟨rows, hlocal, rfl⟩ := Option.map_eq_some_iff.mp hsome.symm
      exact hbefore .fresh rows hitem hlocal
    | stale hitem hclass hserve =>
      obtain ⟨rows, hlocal, rfl⟩ := Option.map_eq_some_iff.mp hsome.symm
      exact hbefore .stale rows hitem hlocal
    | fallback hneeds hproxy =>
      obtain ⟨marked, hmarked, rfl⟩ := Option.map_eq_some_iff.mp hsome.symm
      unfold fallback at hmarked
      split_ifs at hmarked
      obtain ⟨rows, hlocal, rfl⟩ := Option.map_eq_some_iff.mp hmarked
      exact hbefore .fallback rows (mem_needsProxy.mp hneeds).1 hlocal
    | refused hneeds hproxy hpermits => cases hsome
    | rebuilt hneeds hproxy hpermits =>
      obtain ⟨hmem, row, hrow⟩ := hexists (mem_needsProxy.mp hneeds).1
      exact answersCountry_rebuild hI hrow (hrows item hmem row hrow) (hraw item hneeds) hsome.symm

/-- A show with one platform is stored for a country. -/
def showIngest (country : String) : List StoreAction :=
  [ .getOrCreate (.tmdb, "42", .tvShow),
    .upsert
      { item := 0, requestCountry := some country
        payload := .tvShow
          { id := some "42", title := some "A", platforms := { stream := [{ name := "Netflix" }] } } } ]

/-- A call for the show in the US. -/
def fetchShow : FetchCall where
  items := [0]
  countryCode := some "US"
  proxy _ := none

lemma country_fetchShow :
    (StoreConfig.standard detailSemantics).country fetchShow.countryCode = "US" := by
  decide +kernel

/-- A show that was only fetched for the US has the platforms of the US. -/
theorem answersCountry_same_country : ∃ s : LocalStore, 0 < s.platforms.count (fun _ _ => true) ∧
    ∀ item payload, (s.fetchBulkSourceData (.standard detailSemantics) fetchShow).2.get? item
      = some payload → payload.AnswersCountry "US" := by
  obtain ⟨s, hs, hstored⟩ := exists_storeRun (fun _ _ _ => true)
    (fun _ s => 0 < s.platforms.count (fun _ _ => true)
      && s.platforms.rows.all (fun row => row.1.countryCode = "US")) (showIngest "US")
    (by decide +kernel)
  simp only [Bool.and_eq_true, decide_eq_true_eq, List.all_eq_true] at hstored
  have hguard : fetchShow.guard = none := rfl
  rw [← country_fetchShow] at hstored ⊢
  refine ⟨s, hstored.1, (answersCountry_iff hs.reachable hguard).mpr ⟨?_, ?_⟩⟩
  · intro _ _ _ _ _ key _ hsome
    obtain ⟨url, hurl⟩ := Option.isSome_iff_exists.mp hsome
    exact hstored.2 (key, url) ((s.platforms.mem_rows_iff key url).mpr hurl)
  · intro _ _ payload hproxy
    cases hproxy

/-- The fetch answers with platforms that are not those of the US. -/
def showsForeignPlatform (config : StoreConfig) (s : LocalStore) : Bool :=
  match (s.fetchBulkSourceData config fetchShow).2.get? 0 with
  | some (.fromRows _ payload) => payload.platformRows.any fun row => row.1.countryCode ≠ "US"
  | _ => false

/-- A show that was fetched for Spain lists the platforms of Spain in the US. -/
theorem fetch_answers_another_country :
    ¬ ∀ (s : LocalStore) call, (localStoreSystem (.standard detailSemantics)).Reachable s →
      call.guard = none → ∀ item payload,
        (s.fetchBulkSourceData (.standard detailSemantics) call).2.get? item = some payload →
          payload.AnswersCountry
            ((StoreConfig.standard detailSemantics).country call.countryCode) := by
  intro hall
  obtain ⟨s, hs, hforeign⟩ := exists_storeRun (fun _ _ _ => true) showsForeignPlatform
    (showIngest "ES") (by decide +kernel)
  unfold showsForeignPlatform at hforeign
  split at hforeign
  · next origin payload hpayload =>
    obtain ⟨row, hrow, hcountry⟩ := List.any_eq_true.mp hforeign
    have hanswer := hall s fetchShow hs.reachable rfl 0 _ hpayload
    exact of_decide_eq_true hcountry ((hanswer.1 row hrow).trans country_fetchShow)
  · cases hforeign

end LocalStore

end Denn
