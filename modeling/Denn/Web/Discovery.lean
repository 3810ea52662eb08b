import Denn.Web.Resolution

/-!
# Discovery pages

Every response of the proxy's homepage, search and browse routes is turned into a request for identities,
and Core refuses the whole request for one bad entry.
-/

namespace Denn.Web

open Core
open Homepage (Bucket)

variable {β : Type}

/-! ### Responses of the proxy -/

/-- A homepage or search response as the results of its categories, or a browse response, whose results
    are null if the service has failed. -/
inductive CatalogResponse (β : Type) where
  | categories (results : List (List (SearchItem β)))
  | browse (results : Option (List (SearchItem β)))

/-- The items that `collectItems` runs through. A browse response without a list of results is taken for
    one with categories, and its fields have no results. -/
def CatalogResponse.items : CatalogResponse β → Except String (List (SearchItem β))
  | categories results => .ok results.flatten
  | browse (some results) => .ok results
  | browse none => .error "undefined is not iterable"

/-- `collectContentIdentities`. -/
def CatalogResponse.identities (response : CatalogResponse β) :
    Except String (List ContentIdentity) := do
  collectContentIdentities (← response.items)

/-- The content types of the proxy. -/
def bucketContentType : Bucket → Denn.ContentType
  | .movies => .movie
  | .tvShows => .tvShow
  | .games => .game
  | .albums => .album
  | .books => .book

/-- The constants of the proxy's content types. -/
def bucketType : Bucket → String
  | .movies => "movie"
  | .tvShows => "tv_show"
  | .games => "game"
  | .albums => "album"
  | .books => "book"

/-- The mappers of a bucket give its items their type; the ids come from upstream. -/
def IsBucket (bucket : Bucket) (items : List (SearchItem β)) : Prop :=
  ∀ item ∈ items, item.type = bucketType bucket

/-- The responses of the proxy: all categories or some of them, or one bucket. -/
inductive FromProxy : CatalogResponse β → Prop
  | categories {buckets : List Bucket} (hbuckets : buckets.Sublist categoryOrder)
      {results : Bucket → List (SearchItem β)} (hresults : ∀ bucket, IsBucket bucket (results bucket)) :
      FromProxy (.categories (buckets.map results))
  | browse {bucket : Bucket} {results : List (SearchItem β)} (hresults : IsBucket bucket results) :
      FromProxy (.browse (some results))
  | failed : FromProxy (.browse none)

/-! ### The validation of Core -/

structure ContentItemLookup where
  sourceApi : SourceAPI
  externalId : String
  contentType : Denn.ContentType
  deriving DecidableEq

def maxExternalIdLength : ℕ := 255

def maxCatalogResolveItems : ℕ := 200

/-- A `CharField`, which strips the text. -/
def validateExternalId (value : String) : Except String String :=
  if isBlank value then .error "This field may not be blank."
  else if maxExternalIdLength < (strip value).length then
    .error "Ensure this field has no more than 255 characters."
  else if Char.ofNat 0 ∈ (strip value).toList then .error "Null characters are not allowed."
  else .ok (strip value)

/-- A `ChoiceField` of Core's content types. -/
def validateContentType : ContentType → Except String Denn.ContentType
  | .movie => .ok .movie
  | .tvShow => .ok .tvShow
  | .season => .ok .season
  | .game => .ok .game
  | .album => .ok .album
  | .book => .ok .book
  | .person => .error "\"PERSON\" is not a valid choice."

def validateLookup (identity : ContentIdentity) : Except String ContentItemLookup := do
  let externalId ← validateExternalId identity.externalId
  let contentType ← validateContentType identity.contentType
  return { sourceApi := identity.sourceApi, externalId, contentType }

def expectedSource : Denn.ContentType → SourceAPI
  | .movie | .tvShow | .season => .tmdb
  | .game => .igdb
  | .album => .spotify
  | .book => .openlibrary

/-- A turn of the loop over the items, with the items that it has seen. -/
def checkItem (seen : List ContentItemLookup) (item : ContentItemLookup) :
    Except String (List ContentItemLookup) :=
  if item ∈ seen then
    .error "Duplicate source_api/external_id/content_type triples are not allowed."
  else if expectedSource item.contentType ≠ item.sourceApi then
    .error "source_api is not valid for content_type."
  else .ok (item :: seen)

/-- `ContentItemBulkResolveRequestSerializer`. -/
def validateItems (identities : List ContentIdentity) : Except String (List ContentItemLookup) := do
  let items ← identities.mapM validateLookup
  if items = [] then throw "At least one item is required."
  if maxCatalogResolveItems < items.length then throw "Maximum 200 items allowed per request."
  let _ ← items.foldlM checkItem []
  return items

/-! ### Accepted requests -/

lemma foldlM_checkItem_iff (items seen : List ContentItemLookup) :
    (∃ seen', items.foldlM checkItem seen = .ok seen') ↔
      items.Nodup ∧ (∀ item ∈ items, item ∉ seen) ∧
        ∀ item ∈ items, expectedSource item.contentType = item.sourceApi := by
  induction items generalizing seen with
  | nil => simp [pure, Except.pure]
  | cons item items ih =>
    rw [List.foldlM_cons, List.nodup_cons, List.forall_mem_cons, List.forall_mem_cons]
    by_cases hseen : item ∈ seen
    · rw [checkItem, if_pos hseen]
      exact ⟨fun ⟨_, h⟩ => (nomatch h), fun h => absurd hseen h.2.1.1⟩
    by_cases hsource : expectedSource item.contentType = item.sourceApi
    · rw [checkItem, if_neg hseen, if_neg (not_not.mpr hsource), ok_bind, ih]
      constructor
      · rintro ⟨hnodup, hfresh, hsources⟩
        exact ⟨⟨fun hmem => hfresh item hmem List.mem_cons_self, hnodup⟩,
          ⟨hseen, fun other hother hmem => hfresh other hother (List.mem_cons_of_mem _ hmem)⟩,
          hsource, hsources⟩
      · rintro ⟨⟨hmem, hnodup⟩, ⟨-, hfresh⟩, -, hsources⟩
        refine ⟨hnodup, fun other hother hcons => ?_, hsources⟩
        rcases List.mem_cons.mp hcons with rfl | hold
        · exact hmem hother
        · exact hfresh other hother hold
    · rw [checkItem, if_neg hseen, if_pos hsource]
      exact ⟨fun ⟨_, h⟩ => (nomatch h), fun h => absurd h.2.2.1 hsource⟩

/-- A request is accepted exactly if each entry can be read, and the entries that are read are between one
    and the maximum, different, and of the source of their type. -/
lemma validateItems_iff (identities : List ContentIdentity) :
    (∃ validated, validateItems identities = .ok validated) ↔
      ∃ items, List.Forall₂ (fun identity item => validateLookup identity = .ok item) identities items ∧
        items ≠ [] ∧ items.length ≤ maxCatalogResolveItems ∧ items.Nodup ∧
          ∀ item ∈ items, expectedSource item.contentType = item.sourceApi := by
  constructor
  · rintro ⟨validated, h⟩
    obtain ⟨items, hitems, h⟩ := bind_eq_ok h
    refine ⟨items, mapM_eq_ok_iff.mp hitems, ?_⟩
    by_cases hnil : items = []
    · rw [if_pos hnil] at h
      exact nomatch h
    by_cases hmax : maxCatalogResolveItems < items.length
    · rw [if_neg hnil, if_pos hmax] at h
      exact nomatch h
    rw [if_neg hnil, if_neg hmax] at h
    obtain ⟨seen, hseen, -⟩ := bind_eq_ok h
    obtain ⟨hnodup, -, hsources⟩ := (foldlM_checkItem_iff items []).mp ⟨seen, hseen⟩
    exact ⟨hnil, not_lt.mp hmax, hnodup, hsources⟩
  · rintro ⟨items, hitems, hnil, hmax, hnodup, hsources⟩
    obtain ⟨seen, hseen⟩ := (foldlM_checkItem_iff items []).mpr
      ⟨hnodup, fun _ _ => List.not_mem_nil, hsources⟩
    refine ⟨items, ?_⟩
    rw [validateItems, mapM_eq_ok_iff.mpr hitems, ok_bind, if_neg hnil, if_neg (not_lt.mpr hmax)]
    change (items.foldlM checkItem [] >>= fun _ => pure items) = .ok items
    rw [hseen]
    rfl

/-! ### Items of the proxy -/

/-- The bucket of an item of the proxy. -/
def bucketOf (type : String) : Bucket :=
  if type = "movie" then .movies
  else if type = "tv_show" then .tvShows
  else if type = "game" then .games
  else if type = "album" then .albums
  else .books

variable {items : List (SearchItem β)} {item : SearchItem β} {response : CatalogResponse β}

/-- Every item has the type of a bucket. -/
def IsCatalogued (items : List (SearchItem β)) : Prop :=
  ∀ item ∈ items, item.type = bucketType (bucketOf item.type)

lemma bucketOf_bucketType (bucket : Bucket) : bucketOf (bucketType bucket) = bucket := by
  cases bucket <;> decide

lemma isCatalogued_of_isBucket {bucket : Bucket} (h : IsBucket bucket items) : IsCatalogued items := by
  intro item hitem
  rw [h item hitem, bucketOf_bucketType]

lemma isCatalogued_of_fromProxy (h : FromProxy response) (hitems : response.items = .ok items) :
    IsCatalogued items := by
  cases h with
  | categories hbuckets hresults =>
    obtain rfl := Except.ok.inj hitems
    intro item hitem
    obtain ⟨results, hresult, hitem⟩ := List.mem_flatten.mp hitem
    obtain ⟨bucket, -, rfl⟩ := List.mem_map.mp hresult
    exact isCatalogued_of_isBucket (hresults bucket) item hitem
  | browse hresults =>
    obtain rfl := Except.ok.inj hitems
    exact isCatalogued_of_isBucket hresults
  | failed => exact nomatch hitems

/-- The content type of an item of the proxy. -/
def SearchItem.coreType (item : SearchItem β) : Denn.ContentType :=
  bucketContentType (bucketOf item.type)

def itemIdentity (item : SearchItem β) : ContentIdentity where
  sourceApi := expectedSource item.coreType
  externalId := item.id
  contentType := .ofCore item.coreType

lemma contentIdentity_item (h : item.type = bucketType (bucketOf item.type)) :
    ∃ alias', resolvableType item.type = some alias' ∧
      contentIdentity item alias' = .ok (itemIdentity item) := by
  refine ⟨.contentType (.ofCore item.coreType), ?_, ?_⟩
  · rw [h, SearchItem.coreType]
    cases bucketOf item.type <;> decide
  · rw [itemIdentity, contentIdentity, SearchItem.coreType]
    cases bucketOf item.type <;> rfl

lemma collectItems_subset : collectItems items ⊆ items := by
  intro item hitem
  obtain ⟨front, rest, rfl, -⟩ := mem_collectItems.mp hitem
  exact List.mem_append_right _ List.mem_cons_self

lemma collectContentIdentities_of_catalogued (h : IsCatalogued items) :
    collectContentIdentities items = .ok ((collectItems items).map itemIdentity) := by
  have hcollected : IsCatalogued (collectItems items) := fun item hitem =>
    h item (collectItems_subset hitem)
  rw [collectContentIdentities, mapM_eq_ok_iff, List.forall₂_map_right_iff]
  revert hcollected
  generalize collectItems items = collected
  intro hcollected
  induction collected with
  | nil => exact .nil
  | cons item collected ih =>
    obtain ⟨hitem, hrest⟩ := List.forall_mem_cons.mp hcollected
    obtain ⟨alias', htype, hidentity⟩ := contentIdentity_item hitem
    rw [List.filterMap_cons_some (by rw [htype]; rfl)]
    exact .cons hidentity (ih hrest)

/-! ### Acceptable responses -/

/-- The text of an id as Core reads it is within the bounds of the field. -/
structure IsValidId (value : String) : Prop where
  not_blank : isBlank value = false
  length_le : (strip value).length ≤ maxExternalIdLength
  no_null : Char.ofNat 0 ∉ (strip value).toList

lemma validateExternalId_iff {value text : String} :
    validateExternalId value = .ok text ↔ IsValidId value ∧ text = strip value := by
  rw [validateExternalId]
  by_cases hblank : isBlank value = true
  · rw [if_pos hblank]
    exact ⟨nofun, fun h => absurd (h.1.not_blank.symm.trans hblank) Bool.false_ne_true⟩
  by_cases hlength : maxExternalIdLength < (strip value).length
  · rw [if_neg hblank, if_pos hlength]
    exact ⟨nofun, fun h => absurd hlength (not_lt.mpr h.1.length_le)⟩
  by_cases hnull : Char.ofNat 0 ∈ (strip value).toList
  · rw [if_neg hblank, if_neg hlength, if_pos hnull]
    exact ⟨nofun, fun h => absurd hnull h.1.no_null⟩
  · rw [if_neg hblank, if_neg hlength, if_neg hnull, Except.ok.injEq, eq_comm]
    exact (and_iff_right ⟨Bool.eq_false_iff.mpr hblank, not_lt.mp hlength, hnull⟩).symm

/-- What Core reads of an item. -/
def itemLookup (item : SearchItem β) : ContentItemLookup where
  sourceApi := expectedSource item.coreType
  externalId := strip item.id
  contentType := item.coreType

lemma validateLookup_item (item : SearchItem β) (lookup : ContentItemLookup) :
    validateLookup (itemIdentity item) = .ok lookup ↔
      IsValidId item.id ∧ lookup = itemLookup item := by
  have htype : validateContentType (.ofCore item.coreType) = .ok item.coreType := by
    cases item.coreType <;> rfl
  constructor
  · intro h
    obtain ⟨text, htext, h⟩ := bind_eq_ok h
    obtain ⟨hvalid, rfl⟩ := validateExternalId_iff.mp htext
    change (validateContentType (.ofCore item.coreType) >>= _) = _ at h
    rw [htype] at h
    exact ⟨hvalid, (Except.ok.inj h).symm⟩
  · rintro ⟨hvalid, rfl⟩
    have htext : validateExternalId (itemIdentity item).externalId = .ok (strip item.id) :=
      validateExternalId_iff.mpr ⟨hvalid, rfl⟩
    rw [validateLookup, htext, ok_bind]
    change (validateContentType (.ofCore item.coreType) >>= _) = _
    rw [htype]
    rfl

/-- The items have no more identities than Core takes at once, and ids that Core can read and does not
    take for one another. -/
structure Acceptable (items : List (SearchItem β)) : Prop where
  count : (items.map SearchItem.rawKey).dedup.length ≤ maxCatalogResolveItems
  ids : ∀ item ∈ items, IsValidId item.id
  distinct : ∀ item ∈ items, ∀ other ∈ items, item.type = other.type →
    strip item.id = strip other.id → item.id = other.id

/-! ### Collected items of the proxy -/

lemma nodup_map_rawKey_collectItems (items : List (SearchItem β)) :
    ((collectItems items).map SearchItem.rawKey).Nodup := by
  have hnodup := (OrderedMap.ofList (items.map fun item => (item.rawKey, item))).nodup
  rw [collectItems, OrderedMap.values, List.map_map]
  convert hnodup using 1
  refine List.map_congr_left fun entry hentry => ?_
  exact (OrderedMap.isLast_map.mp (OrderedMap.get?_ofList.mp (OrderedMap.mem_entries.mp hentry))).1

lemma exists_collected (hitem : item ∈ items) :
    ∃ other ∈ collectItems items, other.rawKey = item.rawKey := by
  have hentry : ∃ entry ∈ items.map fun item => (item.rawKey, item), entry.1 = item.rawKey :=
    ⟨_, List.mem_map_of_mem hitem, rfl⟩
  obtain ⟨other, hlast⟩ := OrderedMap.exists_isLast hentry
  exact ⟨other, OrderedMap.mem_values.mpr ⟨_, OrderedMap.get?_ofList.mpr hlast⟩,
    (OrderedMap.isLast_map.mp hlast).1⟩

lemma colon_notMem_bucketType (bucket : Bucket) : ':' ∉ (bucketType bucket).toList := by
  cases bucket <;> decide

/-- The raw keys of the proxy's items tell their types and ids. -/
lemma rawKey_eq_iff (h : IsCatalogued items) {other : SearchItem β} (hitem : item ∈ items)
    (hother : other ∈ items) :
    item.rawKey = other.rawKey ↔ item.type = other.type ∧ item.id = other.id := by
  have hcolon : ∀ item ∈ items, ':' ∉ item.type.toList := fun item hitem =>
    h item hitem ▸ colon_notMem_bucketType _
  rw [SearchItem.rawKey, SearchItem.rawKey, identityKey, identityKey, ← String.toList_inj]
  simp only [String.toList_append, List.append_assoc]
  change item.type.toList ++ ':' :: item.id.toList = other.type.toList ++ ':' :: other.id.toList ↔ _
  rw [append_cons_inj (hcolon item hitem) (hcolon other hother), String.toList_inj,
    String.toList_inj]

lemma bucketContentType_injective : Function.Injective bucketContentType := by
  intro a b h
  cases a <;> cases b <;> first | rfl | exact absurd h (by decide)

lemma itemLookup_eq_iff (h : IsCatalogued items) {other : SearchItem β} (hitem : item ∈ items)
    (hother : other ∈ items) :
    itemLookup item = itemLookup other ↔ item.type = other.type ∧ strip item.id = strip other.id := by
  constructor
  · intro heq
    have htype : item.coreType = other.coreType := congrArg ContentItemLookup.contentType heq
    refine ⟨?_, congrArg ContentItemLookup.externalId heq⟩
    rw [h item hitem, h other hother, bucketContentType_injective htype]
  · rintro ⟨htype, hid⟩
    rw [itemLookup, itemLookup, SearchItem.coreType, SearchItem.coreType, htype, hid]

lemma acceptable_iff (h : IsCatalogued items) :
    Acceptable items ↔ (collectItems items).length ≤ maxCatalogResolveItems ∧
      (∀ item ∈ collectItems items, IsValidId item.id) ∧
      ((collectItems items).map itemLookup).Nodup := by
  have hcount : (collectItems items).length = (items.map SearchItem.rawKey).dedup.length := by
    rw [collectItems, OrderedMap.length_values_ofList, List.map_map]
    rfl
  have hinjective : ((collectItems items).map itemLookup).Nodup ↔
      ∀ item ∈ collectItems items, ∀ other ∈ collectItems items,
        itemLookup item = itemLookup other → item = other :=
    List.nodup_map_iff_inj_on (nodup_map_rawKey_collectItems items).of_map
  rw [hcount, hinjective]
  constructor
  · rintro ⟨hcount, hids, hdistinct⟩
    refine ⟨hcount, fun item hitem => hids item (collectItems_subset hitem), ?_⟩
    intro item hitem other hother hlookup
    have hmem := collectItems_subset hitem
    have hmem' := collectItems_subset hother
    obtain ⟨htype, hstrip⟩ := (itemLookup_eq_iff h hmem hmem').mp hlookup
    have hid := hdistinct item hmem other hmem' htype hstrip
    exact List.inj_on_of_nodup_map (nodup_map_rawKey_collectItems items) hitem hother
      ((rawKey_eq_iff h hmem hmem').mpr ⟨htype, hid⟩)
  · rintro ⟨hcount, hids, hunique⟩
    refine ⟨hcount, fun item hitem => ?_, fun item hitem other hother htype hstrip => ?_⟩
    · obtain ⟨kept, hkept, hkey⟩ := exists_collected hitem
      rw [← ((rawKey_eq_iff h (collectItems_subset hkept) hitem).mp hkey).2]
      exact hids kept hkept
    · obtain ⟨kept, hkept, hkey⟩ := exists_collected hitem
      obtain ⟨kept', hkept', hkey'⟩ := exists_collected hother
      have hmem := collectItems_subset hkept
      have hmem' := collectItems_subset hkept'
      obtain ⟨htype₁, hid₁⟩ := (rawKey_eq_iff h hmem hitem).mp hkey
      obtain ⟨htype₂, hid₂⟩ := (rawKey_eq_iff h hmem' hother).mp hkey'
      have hlookup : itemLookup kept = itemLookup kept' :=
        (itemLookup_eq_iff h hmem hmem').mpr
          ⟨htype₁.trans (htype.trans htype₂.symm), by rw [hid₁, hid₂, hstrip]⟩
      rw [← hid₁, ← hid₂, hunique kept hkept kept' hkept' hlookup]

/-! ### Resolvable pages -/

/-- The identities of the response are none, or Core accepts them. -/
def CatalogResponse.Resolvable (response : CatalogResponse β) : Prop :=
  ∃ identities, response.identities = .ok identities ∧
    (identities = [] ∨ ∃ validated, validateItems identities = .ok validated)

lemma forall₂_validateLookup (collected : List (SearchItem β)) (lookups : List ContentItemLookup) :
    List.Forall₂ (fun identity item => validateLookup identity = .ok item)
        (collected.map itemIdentity) lookups ↔
      (∀ item ∈ collected, IsValidId item.id) ∧ lookups = collected.map itemLookup := by
  simp only [List.forall₂_map_left_iff, validateLookup_item]
  induction collected generalizing lookups with
  | nil => simp
  | cons item collected ih =>
    rw [List.forall₂_cons_left_iff, List.forall_mem_cons]
    constructor
    · rintro ⟨lookup, rest, ⟨hvalid, rfl⟩, hrest, rfl⟩
      obtain ⟨hall, rfl⟩ := (ih rest).mp hrest
      exact ⟨⟨hvalid, hall⟩, rfl⟩
    · rintro ⟨⟨hvalid, hall⟩, rfl⟩
      exact ⟨_, _, ⟨hvalid, rfl⟩, (ih _).mpr ⟨hall, rfl⟩, rfl⟩

lemma validateItems_collected_iff (collected : List (SearchItem β)) :
    (∃ validated, validateItems (collected.map itemIdentity) = .ok validated) ↔
      (∀ item ∈ collected, IsValidId item.id) ∧ collected ≠ [] ∧
        collected.length ≤ maxCatalogResolveItems ∧ (collected.map itemLookup).Nodup := by
  rw [validateItems_iff]
  constructor
  · rintro ⟨lookups, hlookups, hnil, hmax, hnodup, -⟩
    obtain ⟨hvalid, rfl⟩ := (forall₂_validateLookup collected lookups).mp hlookups
    rw [List.length_map] at hmax
    exact ⟨hvalid, fun h => hnil (congrArg _ h), hmax, hnodup⟩
  · rintro ⟨hvalid, hnil, hmax, hnodup⟩
    refine ⟨_, (forall₂_validateLookup collected _).mpr ⟨hvalid, rfl⟩,
      fun h => hnil (List.map_eq_nil_iff.mp h), by rwa [List.length_map], hnodup, ?_⟩
    intro lookup hlookup
    obtain ⟨item, -, rfl⟩ := List.mem_map.mp hlookup
    rfl

/-- A page of the proxy is resolved, or needs not be, exactly if it has a list of items and these are
    acceptable. -/
theorem discovery_resolvable_iff (response : CatalogResponse β) (h : FromProxy response) :
    response.Resolvable ↔ ∃ items, response.items = .ok items ∧ Acceptable items := by
  cases hitems : response.items with
  | error err =>
    have hnone : ∀ identities, response.identities ≠ .ok identities := by
      intro identities hidentities
      rw [CatalogResponse.identities, hitems] at hidentities
      exact nomatch hidentities
    exact ⟨fun ⟨identities, hidentities, _⟩ => absurd hidentities (hnone identities), nofun⟩
  | ok items =>
    have hcatalogued := isCatalogued_of_fromProxy h hitems
    have hidentities : response.identities = .ok ((collectItems items).map itemIdentity) := by
      rw [CatalogResponse.identities, hitems, ok_bind,
        collectContentIdentities_of_catalogued hcatalogued]
    have hresolvable : response.Resolvable ↔ (collectItems items).map itemIdentity = [] ∨
        ∃ validated, validateItems ((collectItems items).map itemIdentity) = .ok validated := by
      simp [CatalogResponse.Resolvable, hidentities]
    have hacceptable : (∃ items', Except.ok (ε := String) items = .ok items' ∧ Acceptable items') ↔
        Acceptable items := by
      simp
    rw [hresolvable, hacceptable, acceptable_iff hcatalogued, validateItems_collected_iff,
      List.map_eq_nil_iff]
    by_cases hnil : collectItems items = []
    · simp [hnil]
    · simp only [hnil, false_or, ne_eq, not_false_eq_true, true_and]
      exact ⟨fun ⟨hids, hcount, hnodup⟩ => ⟨hcount, hids, hnodup⟩,
        fun ⟨hcount, hids, hnodup⟩ => ⟨hids, hcount, hnodup⟩⟩

/-- A search response with one game. -/
theorem discovery_resolvable_one :
    CatalogResponse.Resolvable (.browse (some [{ id := "1", type := "game", rest := () }])) := by
  have hproxy : FromProxy (.browse (some [{ id := "1", type := "game", rest := () }])) :=
    .browse (show IsBucket .games _ by simp [IsBucket, bucketType])
  refine (discovery_resolvable_iff _ hproxy).mpr ⟨_, rfl, by decide, ?_, ?_⟩
  · intro item hitem
    rw [List.mem_singleton.mp hitem]
    exact ⟨by decide, by decide, by decide⟩
  · intro item hitem other hother _ _
    rw [List.mem_singleton.mp hitem, List.mem_singleton.mp hother]

/-- The page of a browse route whose provider has failed. -/
theorem failed_browse_not_resolvable :
    ¬ ∀ response : CatalogResponse Unit, FromProxy response → response.Resolvable := by
  intro h
  obtain ⟨items, hitems, -⟩ := (h (.browse none) .failed)
  exact nomatch hitems

end Denn.Web
