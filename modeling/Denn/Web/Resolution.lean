import Denn.Content.Item
import Denn.Core.Except
import Denn.Core.OrderedMap
import Denn.Core.Text
import Denn.Proxy.Homepage

/-!
# Catalog identities

The web server asks Core for the identities of the items of a catalog response, writes them into the
items, and keeps of the homepage what Core calls safe. An item and a category carry more data, which
goes through unchanged.
-/

namespace Denn.Web

open Core
open Homepage (Bucket)

/-! ### Content types -/

inductive ContentType where
  | movie
  | tvShow
  | season
  | game
  | album
  | book
  | person
  deriving DecidableEq

/-- The content types of Core are all but one. -/
def ContentType.ofCore : Denn.ContentType → ContentType
  | .movie => movie
  | .tvShow => tvShow
  | .season => season
  | .game => game
  | .album => album
  | .book => book

def ContentType.value : ContentType → String
  | movie => "MOVIE"
  | tvShow => "TV_SHOW"
  | season => "SEASON"
  | game => "GAME"
  | album => "ALBUM"
  | book => "BOOK"
  | person => "PERSON"

/-- `sourceApi` of `CONTENT_TYPE_DEFINITIONS`. -/
def ContentType.sourceApi : ContentType → SourceAPI
  | movie | tvShow | season | person => .tmdb
  | game => .igdb
  | album => .spotify
  | book => .openlibrary

/-- `CONTENT_TYPE_ALIASES`. -/
def contentTypeAliases : List (String × ContentType) :=
  [("album", .album), ("albums", .album), ("book", .book), ("books", .book), ("game", .game),
    ("games", .game), ("movie", .movie), ("movies", .movie), ("music", .album),
    ("person", .person), ("people", .person), ("season", .season), ("seasons", .season),
    ("tv", .tvShow), ("tv-show", .tvShow), ("tv-shows", .tvShow), ("tv_show", .tvShow)]

/-- The names of `Object.prototype` that are lower case, and that every object answers to. -/
def inheritedNames : List String := ["constructor", "__proto__"]

/-- The lower case of a character, as far as it is in one of the names above. The Kelvin sign is the only
    one outside ASCII whose lower case is. -/
def lowerChar (c : Char) : Char :=
  if 'A' ≤ c ∧ c ≤ 'Z' then Char.ofNat (c.toNat + 32)
  else if c.toNat = 0x212A then 'k'
  else c

def toLowerCase (text : String) : String := String.ofList (text.toList.map lowerChar)

/-- What is found in the record of the aliases. -/
inductive Alias where
  | contentType (contentType : ContentType)
  | inherited
  deriving DecidableEq

def normalizeContentType (type : String) : Option Alias :=
  match contentTypeAliases.lookup (toLowerCase type) with
  | some contentType => some (.contentType contentType)
  | none => if toLowerCase type ∈ inheritedNames then some .inherited else none

/-- `getSourceApi`, which normalizes the type once more. -/
def getSourceApi (contentType : ContentType) : SourceAPI :=
  match normalizeContentType contentType.value with
  | some (.contentType normalized) => normalized.sourceApi
  | _ => .tmdb

/-- The type of an item that is resolved. -/
def resolvableType (type : String) : Option Alias :=
  (normalizeContentType type).filter (· ≠ .contentType .person)

/-! ### Responses -/

structure ModerationSummary where
  status : String
  classification : Option String
  deriving DecidableEq

/-- An item, with the text of its id. -/
structure SearchItem (β : Type) where
  id : String
  type : String
  dennId : Option ℕ := none
  moderation : Option ModerationSummary := none
  rest : β
  deriving DecidableEq

structure CategoryResponse (β γ : Type) where
  results : List (SearchItem β)
  rest : γ

/-- A homepage or multi-search response. -/
abbrev CategoriesResponse (β γ : Type) := Bucket → CategoryResponse β γ

/-- The categories in the order of their names, in which a response has them. -/
def categoryOrder : List Bucket := [.albums, .books, .games, .movies, .tvShows]

variable {β γ : Type}

def CategoriesResponse.items (response : CategoriesResponse β γ) : List (SearchItem β) :=
  categoryOrder.flatMap fun bucket => (response bucket).results

def mapResponseItems (response : CategoriesResponse β γ) (mapItem : SearchItem β → SearchItem β) :
    CategoriesResponse β γ :=
  fun bucket => { response bucket with results := (response bucket).results.map mapItem }

def identityKey (externalId contentType : String) : String := contentType ++ ":" ++ externalId

def SearchItem.rawKey (item : SearchItem β) : String := identityKey item.id item.type

/-- `collectItems`, of the items of a response. -/
def collectItems (items : List (SearchItem β)) : List (SearchItem β) :=
  (OrderedMap.ofList (items.map fun item => (item.rawKey, item))).values

/-! ### Identities -/

structure ContentIdentity where
  sourceApi : SourceAPI
  externalId : String
  contentType : ContentType
  deriving DecidableEq

/-- An identity as Core answers it, under one of its own content types. -/
structure ResolvedContentIdentity where
  id : ℕ
  sourceApi : SourceAPI
  externalId : String
  contentType : Denn.ContentType
  moderation : Option ModerationSummary := none
  deriving DecidableEq

/-- The identity of an item. `getSourceApi` has no text to normalize in what is inherited. -/
def contentIdentity (item : SearchItem β) : Alias → Except String ContentIdentity
  | .contentType contentType =>
    .ok { sourceApi := getSourceApi contentType, externalId := item.id, contentType }
  | .inherited => .error "type.toLowerCase is not a function"

/-- `collectContentIdentities`, of the items of a response. -/
def collectContentIdentities (items : List (SearchItem β)) : Except String (List ContentIdentity) :=
  ((collectItems items).filterMap fun item => (resolvableType item.type).map (item, ·)).mapM
    fun entry => contentIdentity entry.1 entry.2

def ResolvedContentIdentity.key (resolved : ResolvedContentIdentity) : String :=
  identityKey resolved.externalId resolved.contentType.value

/-- What a map under the keys of the identities has for an item. -/
def lookupItem {ρ : Type} (m : OrderedMap String ρ) (item : SearchItem β) : Option ρ :=
  match resolvableType item.type with
  | some (.contentType contentType) => m.get? (identityKey item.id contentType.value)
  | _ => none

def applyResolvedContentIds (response : CategoriesResponse β γ)
    (resolved : List ResolvedContentIdentity) : CategoriesResponse β γ :=
  let ids := OrderedMap.ofList (resolved.map fun r => (r.key, r.id))
  mapResponseItems response fun item => { item with dennId := lookupItem ids item }

def attachModerationSummaries (response : CategoriesResponse β γ)
    (resolved : List ResolvedContentIdentity) : CategoriesResponse β γ :=
  let summaries := OrderedMap.ofList (resolved.map fun r => (r.key, r.moderation))
  mapResponseItems response fun item => { item with moderation := (lookupItem summaries item).join }

def isCurrentSafeModeration (moderation : Option ModerationSummary) : Bool :=
  moderation.any fun m => m.status = "complete" && m.classification = some "safe"

def keepOnlyCurrentSafeHomepageItems (response : CategoriesResponse β γ)
    (resolved : List ResolvedContentIdentity) : CategoriesResponse β γ :=
  let withModeration := attachModerationSummaries response resolved
  fun bucket => { withModeration bucket with
    results := (withModeration bucket).results.filter fun item =>
      isCurrentSafeModeration item.moderation }

/-! ### Requests -/

inductive ModerationMode where
  | keepOnlyCurrentSafe
  | annotate
  deriving DecidableEq

/-- What Core answers to a request for identities. -/
inductive ResolveAnswer where
  | failed (status : ℕ)
  | resolved (results : List ResolvedContentIdentity)

/-- `resolveCatalogContentIds`, of a response with categories. -/
def resolveCatalogContentIds (response : CategoriesResponse β γ) (moderation : Option ModerationMode)
    (answer : ResolveAnswer) : Except String (CategoriesResponse β γ) := do
  let items ← collectContentIdentities (CategoriesResponse.items response)
  if items = [] then return response
  match answer with
  | .failed status =>
    throw ("Catalog identity resolution failed (" ++ toString status ++ ")")
  | .resolved resolved =>
    let resolvedResponse := applyResolvedContentIds response resolved
    match moderation with
    | some .keepOnlyCurrentSafe => return keepOnlyCurrentSafeHomepageItems resolvedResponse resolved
    | some .annotate => return attachModerationSummaries resolvedResponse resolved
    | none => return resolvedResponse

def resolveHomepageContentIds (response : CategoriesResponse β γ) (answer : ResolveAnswer)
    (moderationVisibilityEnabled : Bool) : Except String (CategoriesResponse β γ) :=
  resolveCatalogContentIds response
    (if moderationVisibilityEnabled then some .keepOnlyCurrentSafe else none) answer

/-! ### Keys -/

lemma ContentType.ofCore_ne_person (contentType : Denn.ContentType) :
    ContentType.ofCore contentType ≠ .person := by
  cases contentType <;> decide

lemma ContentType.ofCore_injective : Function.Injective ContentType.ofCore := by
  intro a b h
  cases a <;> cases b <;> first | rfl | exact absurd h (by decide)

lemma ContentType.value_ofCore (contentType : Denn.ContentType) :
    (ContentType.ofCore contentType).value = contentType.value := by
  cases contentType <;> rfl

lemma ContentType.value_injective : Function.Injective ContentType.value := by
  intro a b h
  cases a <;> cases b <;> first | rfl | exact absurd h (by decide)

lemma ContentType.colon_notMem_value (contentType : ContentType) :
    ':' ∉ contentType.value.toList := by
  cases contentType <;> decide

/-- A key says the content type and the id. -/
lemma identityKey_eq_iff {externalId externalId' : String} {contentType contentType' : ContentType} :
    identityKey externalId contentType.value = identityKey externalId' contentType'.value ↔
      contentType = contentType' ∧ externalId = externalId' := by
  rw [identityKey, identityKey, ← String.toList_inj]
  simp only [String.toList_append, List.append_assoc]
  change contentType.value.toList ++ ':' :: externalId.toList
    = contentType'.value.toList ++ ':' :: externalId'.toList ↔ _
  rw [append_cons_inj contentType.colon_notMem_value contentType'.colon_notMem_value,
    String.toList_inj, String.toList_inj, ContentType.value_injective.eq_iff]

/-! ### Collected items -/

variable {items : List (SearchItem β)} {item : SearchItem β}
  {response : CategoriesResponse β γ} {resolved : List ResolvedContentIdentity}

/-- Of the items with one raw key the last one is collected. -/
lemma mem_collectItems : item ∈ collectItems items ↔
    ∃ front rest, items = front ++ item :: rest ∧ ∀ other ∈ rest, other.rawKey ≠ item.rawKey := by
  simp only [collectItems, OrderedMap.mem_values, OrderedMap.get?_ofList, OrderedMap.isLast_map,
    exists_eq_left']

/-- Some item of a type that is resolved is the last one of its raw key. -/
def HasResolvable (items : List (SearchItem β)) : Prop :=
  ∃ front item rest, items = front ++ item :: rest ∧ (resolvableType item.type).isSome = true ∧
    ∀ other ∈ rest, other.rawKey ≠ item.rawKey

lemma hasResolvable_iff :
    HasResolvable items ↔ ∃ item ∈ collectItems items, (resolvableType item.type).isSome = true := by
  simp only [HasResolvable, mem_collectItems]
  constructor
  · rintro ⟨front, item, rest, heq, htype, hrest⟩
    exact ⟨item, ⟨front, rest, heq, hrest⟩, htype⟩
  · rintro ⟨item, ⟨front, rest, heq, hrest⟩, htype⟩
    exact ⟨front, item, rest, heq, htype, hrest⟩

lemma collectItems_ne_nil (h : items ≠ []) : collectItems items ≠ [] := by
  obtain ⟨front, item, rfl⟩ := List.eq_nil_or_concat' items |>.resolve_left h
  exact List.ne_nil_of_mem (mem_collectItems.mpr ⟨front, [], rfl, nofun⟩)

lemma collectContentIdentities_eq_nil_iff :
    collectContentIdentities items = .ok [] ↔ ¬ HasResolvable items := by
  rw [collectContentIdentities, mapM_eq_ok_iff, List.forall₂_nil_right_iff, hasResolvable_iff,
    List.filterMap_eq_nil_iff]
  simp

/-! ### Resolutions -/

namespace ResolvedContentIdentity

/-- Core has resolved the id of the item under its normalized type. -/
def names (r : ResolvedContentIdentity) (item : SearchItem β) : Bool :=
  r.externalId = item.id
    && normalizeContentType item.type = some (.contentType (.ofCore r.contentType))

lemma resolvableType_of_names {r : ResolvedContentIdentity} (h : r.names item = true) :
    resolvableType item.type = some (.contentType (.ofCore r.contentType)) := by
  simp only [names, Bool.and_eq_true, decide_eq_true_eq] at h
  rw [resolvableType, h.2, Option.filter_some, if_pos]
  exact decide_eq_true fun hperson =>
    ContentType.ofCore_ne_person r.contentType (Alias.contentType.inj hperson)

lemma key_of_names {r : ResolvedContentIdentity} (h : r.names item = true) :
    r.key = identityKey item.id (ContentType.ofCore r.contentType).value := by
  simp only [names, Bool.and_eq_true, decide_eq_true_eq] at h
  rw [key, h.1, ContentType.value_ofCore]

end ResolvedContentIdentity

/-- The last resolution under the key of an item. -/
def resolve (resolved : List ResolvedContentIdentity) (item : SearchItem β) :
    Option ResolvedContentIdentity :=
  lookupItem (.ofList (resolved.map fun r => (r.key, r))) item

lemma lookupItem_eq {ρ : Type} (g : ResolvedContentIdentity → ρ) (item : SearchItem β) :
    lookupItem (.ofList (resolved.map fun r => (r.key, g r))) item
      = (resolve resolved item).map g := by
  have hentries : (resolved.map fun r => (r.key, g r))
      = (resolved.map fun r => (r.key, r)).map fun entry => (entry.1, g entry.2) := by
    rw [List.map_map]
    rfl
  rw [resolve, lookupItem, lookupItem]
  split
  · rw [hentries, OrderedMap.get?_ofList_map]
  · rfl

lemma mem_of_resolve {r : ResolvedContentIdentity} (h : resolve resolved item = some r) :
    r ∈ resolved ∧ r.names item = true := by
  rw [resolve, lookupItem] at h
  split at h
  · rename_i contentType htype
    have hmem := (OrderedMap.get?_ofList.mp h).mem
    obtain ⟨r', hr', heq⟩ := List.mem_map.mp hmem
    obtain ⟨hkey, rfl⟩ := Prod.mk.inj heq
    rw [ResolvedContentIdentity.key, ← ContentType.value_ofCore, identityKey_eq_iff] at hkey
    obtain ⟨rfl, hid⟩ := hkey
    refine ⟨hr', ?_⟩
    simp only [ResolvedContentIdentity.names, Bool.and_eq_true, decide_eq_true_eq]
    exact ⟨hid, (Option.filter_eq_some_iff.mp htype).1⟩
  · exact nomatch h

lemma exists_resolve {r : ResolvedContentIdentity} (hmem : r ∈ resolved)
    (hnames : r.names item = true) : ∃ r', resolve resolved item = some r' := by
  refine Option.ne_none_iff_exists'.mp fun hnone => ?_
  rw [resolve, lookupItem, r.resolvableType_of_names hnames] at hnone
  exact OrderedMap.get?_ofList_eq_none.mp hnone _ (List.mem_map_of_mem hmem)
    (r.key_of_names hnames)

/-! ### The homepage -/

/-- Core has resolved the item as safe. -/
def isResolvedSafe (resolved : List ResolvedContentIdentity) (item : SearchItem β) : Bool :=
  resolved.any fun r => r.names item && isCurrentSafeModeration r.moderation

/-- The item as it is shown under a safe resolution. -/
def ShownAs (resolved : List ResolvedContentIdentity) (item shown : SearchItem β) : Prop :=
  ∃ r ∈ resolved, r.names item = true ∧ isCurrentSafeModeration r.moderation = true ∧
    shown = { item with dennId := some r.id, moderation := r.moderation }

/-- The items of a category that are safe are shown, in their order, and no others. -/
def ShowsSafe (resolved : List ResolvedContentIdentity) (upstream shown : List (SearchItem β)) :
    Prop :=
  List.Forall₂ (ShownAs resolved) (upstream.filter (isResolvedSafe resolved)) shown

/-- The resolutions of one identity have one summary. -/
def SummariesAgree (resolved : List ResolvedContentIdentity) : Prop :=
  ∀ r ∈ resolved, ∀ r' ∈ resolved, r.externalId = r'.externalId → r.contentType = r'.contentType →
    r.moderation = r'.moderation

/-- The item with what its last resolution says. -/
def stamp (resolved : List ResolvedContentIdentity) (item : SearchItem β) : SearchItem β :=
  { item with
    dennId := (resolve resolved item).map (·.id)
    moderation := (resolve resolved item).bind (·.moderation) }

lemma attachModerationSummaries_results (bucket : Bucket) :
    (attachModerationSummaries (applyResolvedContentIds response resolved) resolved bucket).results
      = (response bucket).results.map (stamp resolved) := by
  simp only [attachModerationSummaries, applyResolvedContentIds, mapResponseItems, List.map_map,
    lookupItem_eq]
  refine List.map_congr_left fun item _ => ?_
  -- The second lookup does not see the id that has been written.
  have hjoin : ∀ r : Option ResolvedContentIdentity, (r.map (·.moderation)).join
      = r.bind (·.moderation) := by
    rintro (_ | r) <;> rfl
  exact congrArg (fun moderation => ({ item with
    dennId := (resolve resolved item).map ResolvedContentIdentity.id
    moderation } : SearchItem β)) (hjoin (resolve resolved item))

lemma isCurrentSafe_stamp (h : SummariesAgree resolved) (item : SearchItem β) :
    isCurrentSafeModeration (stamp resolved item).moderation = isResolvedSafe resolved item := by
  rw [Bool.eq_iff_iff, isResolvedSafe, List.any_eq_true]
  constructor
  · intro hsafe
    cases hresolve : resolve resolved item with
    | none => simp [stamp, hresolve, isCurrentSafeModeration] at hsafe
    | some r =>
      obtain ⟨hmem, hnames⟩ := mem_of_resolve hresolve
      simp only [stamp, hresolve, Option.bind_some] at hsafe
      exact ⟨r, hmem, by rw [hnames, hsafe, Bool.and_self]⟩
  · rintro ⟨r, hmem, hr⟩
    obtain ⟨hnames, hsafe⟩ := Bool.and_eq_true_iff.mp hr
    obtain ⟨last, hlast⟩ := exists_resolve hmem hnames
    obtain ⟨hmem', hnames'⟩ := mem_of_resolve hlast
    -- The last resolution has the same identity, and so the same summary.
    have hid : r.externalId = last.externalId := by
      simp only [ResolvedContentIdentity.names, Bool.and_eq_true, decide_eq_true_eq] at hnames hnames'
      exact hnames.1.trans hnames'.1.symm
    have htype : r.contentType = last.contentType := by
      have hofCore := (r.resolvableType_of_names hnames).symm.trans
        (last.resolvableType_of_names hnames')
      exact ContentType.ofCore_injective (Alias.contentType.inj (Option.some.inj hofCore))
    simp only [stamp, hlast, Option.bind_some]
    rw [← h r hmem last hmem' hid htype]
    exact hsafe

/-- What the filters of the homepage show. -/
lemma keepOnlyCurrentSafe_showsSafe (h : SummariesAgree resolved) (bucket : Bucket) :
    ShowsSafe resolved (response bucket).results
      (keepOnlyCurrentSafeHomepageItems (applyResolvedContentIds response resolved) resolved
        bucket).results := by
  have hresults : (keepOnlyCurrentSafeHomepageItems (applyResolvedContentIds response resolved)
      resolved bucket).results
      = ((response bucket).results.filter (isResolvedSafe resolved)).map (stamp resolved) := by
    rw [keepOnlyCurrentSafeHomepageItems]
    simp only [attachModerationSummaries_results, List.filter_map]
    congr 1
    exact List.filter_congr fun item _ => isCurrentSafe_stamp h item
  rw [hresults, ShowsSafe, List.forall₂_map_right_iff, List.forall₂_same]
  intro item hitem
  have hsafe := (List.mem_filter.mp hitem).2
  rw [← isCurrentSafe_stamp h] at hsafe
  cases hresolve : resolve resolved item with
  | none => simp [stamp, hresolve, isCurrentSafeModeration] at hsafe
  | some r =>
    obtain ⟨hmem, hnames⟩ := mem_of_resolve hresolve
    simp only [stamp, hresolve, Option.map_some, Option.bind_some] at hsafe ⊢
    exact ⟨r, hmem, hnames, hsafe, rfl⟩

/-- A category that shows all of its items has Core's word for each of them. -/
lemma resolvable_of_showsSafe {upstream : List (SearchItem β)}
    (h : ShowsSafe resolved upstream upstream) (hitem : item ∈ upstream) :
    (resolvableType item.type).isSome = true := by
  have hall : upstream.filter (isResolvedSafe resolved) = upstream :=
    List.filter_sublist.eq_of_length h.length_eq
  obtain ⟨r, -, hr⟩ := List.any_eq_true.mp (List.filter_eq_self.mp hall item hitem)
  rw [r.resolvableType_of_names (Bool.and_eq_true_iff.mp hr).1]
  rfl

lemma mem_items : item ∈ response.items ↔ ∃ bucket, item ∈ (response bucket).results := by
  rw [CategoriesResponse.items, List.mem_flatMap]
  constructor
  · rintro ⟨bucket, -, hitem⟩
    exact ⟨bucket, hitem⟩
  · rintro ⟨bucket, hitem⟩
    exact ⟨bucket, by cases bucket <;> decide, hitem⟩

/-- The homepage shows the safe items of each category and no others, exactly if it has no items or
    some item of a type that is resolved. -/
theorem homepage_shows_safe_iff (response : CategoriesResponse β γ)
    (resolved : List ResolvedContentIdentity) (h : SummariesAgree resolved) :
    (∀ result, resolveHomepageContentIds response (.resolved resolved) true = .ok result →
      ∀ bucket, ShowsSafe resolved (response bucket).results (result bucket).results) ↔
    response.items = [] ∨ HasResolvable response.items := by
  constructor
  · intro hshows
    refine or_iff_not_imp_right.mpr fun hnone => ?_
    by_contra hitems
    have hresult : resolveHomepageContentIds response (.resolved resolved) true = .ok response := by
      rw [resolveHomepageContentIds, resolveCatalogContentIds,
        collectContentIdentities_eq_nil_iff.mpr hnone]
      rfl
    obtain ⟨item, hitem⟩ := List.exists_mem_of_ne_nil _ (collectItems_ne_nil hitems)
    obtain ⟨front, rest, heq, -⟩ := mem_collectItems.mp hitem
    obtain ⟨bucket, hbucket⟩ := mem_items.mp (heq ▸ List.mem_append_right _ List.mem_cons_self)
    exact hnone (hasResolvable_iff.mpr
      ⟨item, hitem, resolvable_of_showsSafe (hshows response hresult bucket) hbucket⟩)
  · intro hcondition result hresult bucket
    rw [resolveHomepageContentIds, resolveCatalogContentIds] at hresult
    obtain ⟨identities, hidentities, hresult⟩ := bind_eq_ok hresult
    by_cases hnil : identities = []
    · subst hnil
      rw [if_pos rfl] at hresult
      obtain rfl := Except.ok.inj hresult
      have hitems := hcondition.resolve_right (collectContentIdentities_eq_nil_iff.mp hidentities)
      have hempty : (response bucket).results = [] := List.eq_nil_iff_forall_not_mem.mpr
        fun item hitem => List.not_mem_nil (hitems ▸ mem_items.mpr ⟨bucket, hitem⟩)
      rw [hempty]
      exact .nil
    · rw [if_neg hnil] at hresult
      obtain rfl := Except.ok.inj hresult
      exact keepOnlyCurrentSafe_showsSafe h bucket

/-- A category with its items, in a response that has no other. -/
def onlyMovies (items : List (SearchItem Unit)) : CategoriesResponse Unit Unit
  | .movies => ⟨items, ()⟩
  | _ => ⟨[], ()⟩

/-- A homepage with a movie that Core calls safe. -/
theorem homepage_shows_safe_one :
    let response := onlyMovies [{ id := "1", type := "movie", rest := () }]
    let resolved : List ResolvedContentIdentity :=
      [⟨7, .tmdb, "1", .movie, some ⟨"complete", some "safe"⟩⟩]
    SummariesAgree resolved ∧
      ∀ result, resolveHomepageContentIds response (.resolved resolved) true = .ok result →
        ∀ bucket, ShowsSafe resolved (response bucket).results (result bucket).results := by
  intro response resolved
  have hagree : SummariesAgree resolved := by
    intro r hr r' hr' _ _
    rw [List.mem_singleton.mp hr, List.mem_singleton.mp hr']
  exact ⟨hagree, (homepage_shows_safe_iff response resolved hagree).mpr
    (.inr ⟨[], _, [], rfl, by decide, nofun⟩)⟩

/-- A homepage with a person only is returned as it came. -/
theorem lone_person_shown :
    ¬ ∀ (response : CategoriesResponse Unit Unit) (resolved : List ResolvedContentIdentity),
      SummariesAgree resolved →
        ∀ result, resolveHomepageContentIds response (.resolved resolved) true = .ok result →
          ∀ bucket, ShowsSafe resolved (response bucket).results (result bucket).results := by
  intro h
  have hshown := h (onlyMovies [{ id := "1", type := "PERSON", rest := () }]) [] nofun _ rfl .movies
  exact absurd hshown.length_eq (by decide)

end Denn.Web
