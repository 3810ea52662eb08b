import Denn.Core.Text
import Denn.Proxy.AggregateKeys

/-!
# Separation of the aggregates' keys

Every part of a key is read off it, one separator after the other, for any country: the country of the
homepage is at the end of its key, that of the browse page is before a fixed ending, and that of the
multi-search before the last separator. The stale key of the homepage alone has its suffix right after
the country.
-/

namespace Denn.Proxy

open Denn.Core Denn.CacheKey

variable {toLower toUpper : Char → Char}

/-! ### Parts of the keys -/

lemma separator_notMem_itoa (i : ℤ) : ':' ∉ (itoa i).toList := notMem_itoa (by decide) (by decide) i

lemma separator_notMem_hashPrefix (text : String) : ':' ∉ (hashPrefix text).toList := by
  intro h
  rw [hashPrefix, String.toList_ofList] at h
  exact absurd (Sha256.mem_hexDigits_of_mem_hexdigest (List.mem_of_mem_take h)) (by decide)

namespace AggregateType

lemma mem_all (t : AggregateType) : t ∈ all := by
  cases t <;> decide

/-- A name is not empty and has no separator. -/
lemma name_plain (t : AggregateType) :
    t.name.toList ≠ [] ∧ ':' ∉ t.name.toList ∧ ',' ∉ t.name.toList :=
  (by decide : ∀ t ∈ all, t.name.toList ≠ [] ∧ ':' ∉ t.name.toList ∧ ',' ∉ t.name.toList) t t.mem_all

lemma name_injective : Function.Injective name := by
  intro t t' h
  exact (by decide : ∀ t ∈ all, ∀ t' ∈ all, t.name = t'.name → t = t') t t.mem_all t' t'.mem_all h

end AggregateType

lemma BrowseMode.name_injective : Function.Injective BrowseMode.name := by
  intro mode mode' h
  cases mode <;> cases mode' <;> first | rfl | exact absurd h (by decide)

lemma BrowseMode.separator_notMem_name (mode : BrowseMode) : ':' ∉ mode.name.toList := by
  cases mode <;> decide

lemma separator_notMem_adultPolicy (allowAdult : Bool) :
    ':' ∉ (Tmdb.adultPolicy allowAdult).toList := by
  cases allowAdult <;> decide

lemma adultPolicy_injective : Function.Injective Tmdb.adultPolicy := by
  intro allow allow' h
  cases allow <;> cases allow' <;> first | rfl | exact absurd h (by decide)

/-! ### Sets of types -/

/-- The names in the order of the key. -/
def sortedNames (types : List AggregateType) : List (List Char) :=
  ((types.map (·.name)).mergeSort).map String.toList

lemma mem_sortedNames {types : List AggregateType} {t : AggregateType} :
    t.name.toList ∈ sortedNames types ↔ t ∈ types := by
  rw [sortedNames, List.mem_map_of_injective fun _ _ => String.toList_inj.mp, List.mem_mergeSort,
    List.mem_map_of_injective AggregateType.name_injective]

lemma exists_of_mem_sortedNames {types : List AggregateType} {text : List Char}
    (h : text ∈ sortedNames types) : ∃ t : AggregateType, t.name.toList = text := by
  obtain ⟨name, hname, rfl⟩ := List.mem_map.mp h
  obtain ⟨t, -, rfl⟩ := List.mem_map.mp (List.mem_mergeSort.mp hname)
  exact ⟨t, rfl⟩

lemma toList_typeNames (types : List AggregateType) :
    (typeNames types).toList = [','].intercalate (sortedNames types) := by
  rw [typeNames, String.toList_intercalate, sortedNames]
  rfl

lemma splitOn_typeNames {types : List AggregateType} (hne : types ≠ []) :
    (typeNames types).toList.splitOn ',' = sortedNames types := by
  rw [toList_typeNames]
  refine List.splitOn_intercalate _ (fun text htext => ?_) ?_
  · obtain ⟨t, rfl⟩ := exists_of_mem_sortedNames htext
    exact t.name_plain.2.2
  · intro hnil
    have hlength := congrArg List.length hnil
    simp only [sortedNames, List.length_map, List.length_mergeSort, List.length_nil] at hlength
    exact hne (List.length_eq_zero_iff.mp hlength)

/-- The types are read off the joined names. -/
lemma mem_splitOn_typeNames {types : List AggregateType} {t : AggregateType} :
    t.name.toList ∈ (typeNames types).toList.splitOn ',' ↔ t ∈ types := by
  by_cases hne : types = []
  · subst hne
    refine iff_of_false (fun h => ?_) List.not_mem_nil
    have hempty : (typeNames []).toList = [] := by simp [toList_typeNames, sortedNames]
    rw [hempty, List.splitOn_nil, List.mem_singleton] at h
    exact t.name_plain.1 h
  · rw [splitOn_typeNames hne, mem_sortedNames]

lemma mem_iff_of_typeNames {types types' : List AggregateType} (h : typeNames types = typeNames types')
    (t : AggregateType) : t ∈ types ↔ t ∈ types' := by
  rw [← mem_splitOn_typeNames, h, mem_splitOn_typeNames]

lemma separator_notMem_typeNames (types : List AggregateType) : ':' ∉ (typeNames types).toList := by
  intro h
  rw [toList_typeNames] at h
  rcases mem_intercalate_singleton h with hcomma | ⟨text, htext, hc⟩
  · exact absurd hcomma (by decide)
  · obtain ⟨t, rfl⟩ := exists_of_mem_sortedNames htext
    exact t.name_plain.2.1 hc

/-! ### Fresh keys -/

lemma toList_homepageCacheKey {request : Homepage.Request} (h : request.country ≠ "") :
    (Homepage.homepageCacheKey request).toList =
      "homepage:v3:adult-exclude:future-24h:p".toList ++ ((itoa request.page).toList ++
        (":l".toList ++ ((itoa request.limit).toList ++
          (":c".toList ++ request.country.toList)))) := by
  unfold Homepage.homepageCacheKey itoa
  rw [if_neg h]
  simp only [String.toList_append, ← List.append_assoc]

lemma toList_browseCacheKey (query : BrowseQuery) :
    (browseCacheKey toLower query).toList =
      "browse:v1:".toList ++ (query.type.name.toList ++ (":".toList ++ (query.mode.name.toList ++
        (":q".toList ++ ((hashPrefix (normalizeSearchCacheKey toLower query.query)).toList ++
          (":p".toList ++ ((itoa query.page).toList ++
            (":c".toList ++ (query.country.toList ++ ":policy-v1".toList))))))))) := by
  unfold browseCacheKey
  simp only [String.toList_append, ← List.append_assoc]

lemma toList_multiSearchCacheKey (query : SearchQuery) :
    (multiSearchCacheKey toLower toUpper query).toList =
      "search:v3:adult-".toList ++ ((Tmdb.adultPolicy query.allowAdult).toList ++
        (":future-24h:q".toList ++
          ((hashPrefix (normalizeSearchCacheKey toLower query.query)).toList ++
            (":p".toList ++ ((itoa query.page).toList ++ (":l".toList ++
              ((itoa query.limit).toList ++ (":c".toList ++ ((upper toUpper query.country).toList ++
                (":t".toList ++ (typeNames query.types).toList)))))))))) := by
  unfold multiSearchCacheKey
  simp only [String.toList_append, ← List.append_assoc]

/-- A key that may have a suffix says the page, the limit, and the country with the suffix. -/
lemma homepageCacheKey_append_iff {request request' : Homepage.Request} (h : request.country ≠ "")
    (h' : request'.country ≠ "") (suffix : String) :
    Homepage.homepageCacheKey request ++ suffix = Homepage.homepageCacheKey request' ↔
      request.page = request'.page ∧ request.limit = request'.limit ∧
        request.country ++ suffix = request'.country := by
  rw [← String.toList_inj, String.toList_append, toList_homepageCacheKey h, toList_homepageCacheKey h']
  simp only [List.append_assoc]
  rw [List.append_cancel_left_eq,
    append_append_inj (by decide) (separator_notMem_itoa _) (separator_notMem_itoa _),
    append_append_inj (by decide) (separator_notMem_itoa _) (separator_notMem_itoa _),
    ← String.toList_append, String.toList_inj, String.toList_inj, String.toList_inj,
    itoa_injective.eq_iff, itoa_injective.eq_iff]

lemma browseCacheKey_eq_iff {query query' : BrowseQuery} :
    browseCacheKey toLower query = browseCacheKey toLower query' ↔
      query.type = query'.type ∧ query.mode = query'.mode ∧
        hashPrefix (normalizeSearchCacheKey toLower query.query)
          = hashPrefix (normalizeSearchCacheKey toLower query'.query) ∧
        query.page = query'.page ∧ query.country = query'.country := by
  rw [← String.toList_inj, toList_browseCacheKey, toList_browseCacheKey, List.append_cancel_left_eq,
    append_append_inj (by decide) query.type.name_plain.2.1 query'.type.name_plain.2.1,
    append_append_inj (by decide) query.mode.separator_notMem_name query'.mode.separator_notMem_name,
    append_append_inj (by decide) (separator_notMem_hashPrefix _) (separator_notMem_hashPrefix _),
    append_append_inj (by decide) (separator_notMem_itoa _) (separator_notMem_itoa _),
    List.append_cancel_right_eq]
  simp only [String.toList_inj, AggregateType.name_injective.eq_iff, BrowseMode.name_injective.eq_iff,
    itoa_injective.eq_iff]

lemma multiSearchCacheKey_eq_iff {query query' : SearchQuery} :
    multiSearchCacheKey toLower toUpper query = multiSearchCacheKey toLower toUpper query' ↔
      query.allowAdult = query'.allowAdult ∧
        hashPrefix (normalizeSearchCacheKey toLower query.query)
          = hashPrefix (normalizeSearchCacheKey toLower query'.query) ∧
        query.page = query'.page ∧ query.limit = query'.limit ∧
        upper toUpper query.country = upper toUpper query'.country ∧
        typeNames query.types = typeNames query'.types := by
  have hlast : ":t".toList = ':' :: "t".toList := by decide
  have htypes : ∀ types, ':' ∉ "t".toList ++ (typeNames types).toList := by
    intro types h
    rcases List.mem_append.mp h with h | h
    · exact absurd h (by decide)
    · exact separator_notMem_typeNames types h
  rw [← String.toList_inj, toList_multiSearchCacheKey, toList_multiSearchCacheKey,
    List.append_cancel_left_eq,
    append_append_inj (by decide) (separator_notMem_adultPolicy _) (separator_notMem_adultPolicy _),
    append_append_inj (by decide) (separator_notMem_hashPrefix _) (separator_notMem_hashPrefix _),
    append_append_inj (by decide) (separator_notMem_itoa _) (separator_notMem_itoa _),
    append_append_inj (by decide) (separator_notMem_itoa _) (separator_notMem_itoa _), hlast, append_append_inj_right (htypes _) (htypes _)]
  simp only [String.toList_inj, adultPolicy_injective.eq_iff, itoa_injective.eq_iff]

/-! ### Keys of all handlers -/

namespace AggregateQuery

/-- The requests ask for one response, up to the folding of the country and of the search text. -/
def SameResponse (toLower toUpper : Char → Char) : AggregateQuery → AggregateQuery → Prop
  | .homepage request, .homepage request' =>
    request.page = request'.page ∧ request.limit = request'.limit ∧
      request.country = request'.country
  | .browse query, .browse query' =>
    query.type = query'.type ∧ query.mode = query'.mode ∧
      normalizeSearchCacheKey toLower query.query = normalizeSearchCacheKey toLower query'.query ∧
      query.page = query'.page ∧ query.country = query'.country
  | .search query, .search query' =>
    query.allowAdult = query'.allowAdult ∧
      normalizeSearchCacheKey toLower query.query = normalizeSearchCacheKey toLower query'.query ∧
      query.page = query'.page ∧ query.limit = query'.limit ∧
      upper toUpper query.country = upper toUpper query'.country ∧
      ∀ t, t ∈ query.types ↔ t ∈ query'.types
  | _, _ => False

/-- The two search texts do not collide in their digests. -/
def DigestsDiffer (toLower : Char → Char) (query query' : AggregateQuery) : Prop :=
  hashPrefix (query.text toLower) = hashPrefix (query'.text toLower) →
    query.text toLower = query'.text toLower

/-- One fresh key has one response, and no stale key is a fresh one. -/
def Separate (toLower toUpper : Char → Char) (query query' : AggregateQuery) : Prop :=
  (query.freshKey toLower toUpper = query'.freshKey toLower toUpper →
    query.SameResponse toLower toUpper query') ∧
  query.staleKey toLower ≠ some (query'.freshKey toLower toUpper)

/-- Two requests for one homepage, the second for the country of the first with the suffix of the stale
    keys. -/
def StaleCountry : AggregateQuery → AggregateQuery → Prop
  | .homepage request, .homepage request' =>
    request.page = request'.page ∧ request.limit = request'.limit ∧
      request.country ++ ":stale" = request'.country
  | _, _ => False

/-- The first letter of a key tells its handler. -/
def initial : AggregateQuery → Char
  | .homepage _ => 'h'
  | .browse _ => 'b'
  | .search _ => 's'

variable (toLower toUpper) in
lemma head?_freshKey (query : AggregateQuery) :
    (query.freshKey toLower toUpper).toList.head? = some query.initial := by
  cases query with
  | homepage request =>
    unfold freshKey Homepage.homepageCacheKey
    simp only [String.toList_append, List.append_assoc]
    rfl
  | browse query =>
    rw [freshKey, toList_browseCacheKey]
    rfl
  | search query =>
    rw [freshKey, toList_multiSearchCacheKey]
    rfl

lemma initial_eq_of_freshKey {query query' : AggregateQuery}
    (h : query.freshKey toLower toUpper = query'.freshKey toLower toUpper) :
    query.initial = query'.initial := by
  have hhead := query.head?_freshKey toLower toUpper
  rw [h, head?_freshKey] at hhead
  exact (Option.some.inj hhead).symm

variable (toUpper) in
/-- A stale key is the fresh one with a suffix. -/
lemma staleKey_eq_some {query : AggregateQuery} {key : String} (h : query.staleKey toLower = some key) :
    key = query.freshKey toLower toUpper ++ ":stale" := by
  cases query with
  | homepage request => exact (Option.some.inj h).symm
  | browse query => exact (Option.some.inj h).symm
  | search query => exact nomatch h

lemma initial_eq_of_staleKey {query query' : AggregateQuery}
    (h : query.staleKey toLower = some (query'.freshKey toLower toUpper)) :
    query.initial = query'.initial := by
  have hhead := query'.head?_freshKey toLower toUpper
  rw [staleKey_eq_some toUpper h, String.toList_append, List.head?_append,
    head?_freshKey] at hhead
  exact Option.some.inj hhead

/-- The ending of a fresh key of the browse page is not that of a stale one. -/
lemma browseStaleCacheKey_ne (query query' : BrowseQuery) :
    browseStaleCacheKey (browseCacheKey toLower query) ≠ browseCacheKey toLower query' := by
  intro h
  have hstale : (browseStaleCacheKey (browseCacheKey toLower query)).toList.getLast? = some 'e' := by
    rw [browseStaleCacheKey, String.toList_append, List.getLast?_append]
    rfl
  have hfresh : (browseCacheKey toLower query').toList.getLast? = some '1' := by
    unfold browseCacheKey
    rw [String.toList_append, List.getLast?_append]
    rfl
  rw [h, hfresh] at hstale
  exact absurd hstale (by decide)

lemma separate_homepage_iff {request request' : Homepage.Request} (h : request.country ≠ "")
    (h' : request'.country ≠ "") :
    (homepage request).Separate toLower toUpper (homepage request') ↔
      ¬ (homepage request).StaleCountry (homepage request') := by
  have hfresh : (homepage request).freshKey toLower toUpper
      = (homepage request').freshKey toLower toUpper →
      (homepage request).SameResponse toLower toUpper (homepage request') := by
    intro heq
    have hiff := homepageCacheKey_append_iff h h' ""
    rw [String.append_empty, String.append_empty] at hiff
    exact hiff.mp heq
  have hstale : (homepage request).staleKey toLower
      = some ((homepage request').freshKey toLower toUpper) ↔
      (homepage request).StaleCountry (homepage request') :=
    (Option.some_inj).trans (homepageCacheKey_append_iff h h' ":stale")
  rw [Separate, ne_eq, hstale]
  exact and_iff_right hfresh

lemma separate_browse {query query' : BrowseQuery}
    (hdigests : (browse query).DigestsDiffer toLower (browse query')) :
    (browse query).Separate toLower toUpper (browse query') := by
  refine ⟨fun heq => ?_, fun heq => browseStaleCacheKey_ne query query' (Option.some.inj heq)⟩
  obtain ⟨htype, hmode, hhash, hrest⟩ := browseCacheKey_eq_iff.mp heq
  exact ⟨htype, hmode, hdigests hhash, hrest⟩

lemma separate_search {query query' : SearchQuery}
    (hdigests : (search query).DigestsDiffer toLower (search query')) :
    (search query).Separate toLower toUpper (search query') := by
  refine ⟨fun heq => ?_, nofun⟩
  obtain ⟨hadult, hhash, hpage, hlimit, hcountry, htypes⟩ := multiSearchCacheKey_eq_iff.mp heq
  exact ⟨hadult, hdigests hhash, hpage, hlimit, hcountry, mem_iff_of_typeNames htypes⟩

lemma separate_of_initial {query query' : AggregateQuery} (h : query.initial ≠ query'.initial) :
    query.Separate toLower toUpper query' :=
  ⟨fun heq => absurd (initial_eq_of_freshKey heq) h, fun heq => h (initial_eq_of_staleKey heq)⟩

/-- A handler reads a country off every request for the homepage. -/
lemma country_ne_empty {request : AggregateRequest} {homepageRequest : Homepage.Request}
    (h : request.parse toLower toUpper = .ok (homepage homepageRequest)) :
    homepageRequest.country ≠ "" := by
  cases request with
  | homepage request =>
    obtain rfl : request.parse = homepageRequest := by
      simpa [AggregateRequest.parse] using h
    unfold Homepage.Request.parse
    simp only
    split_ifs with hempty
    · decide
    · exact hempty
  | browse request =>
    simp only [AggregateRequest.parse] at h
    cases hparse : request.parse toLower toUpper <;> simp [hparse, Except.map] at h
  | search request =>
    simp only [AggregateRequest.parse] at h
    cases hparse : request.parse toLower <;> simp [hparse, Except.map] at h

end AggregateQuery

open AggregateQuery in
/-- The keys of two requests are separate, whatever their headers say, unless the second asks for the
    homepage of the first one's country with the suffix of the stale keys. -/
theorem aggregate_keys_separate_iff {request request' : AggregateRequest}
    {query query' : AggregateQuery} (hparse : request.parse toLower toUpper = .ok query)
    (hparse' : request'.parse toLower toUpper = .ok query')
    (hdigests : query.DigestsDiffer toLower query') :
    query.Separate toLower toUpper query' ↔ ¬ query.StaleCountry query' := by
  cases query with
  | homepage homepageRequest =>
    cases query' with
    | homepage homepageRequest' =>
      exact separate_homepage_iff (country_ne_empty hparse) (country_ne_empty hparse')
    | _ => exact iff_of_true (separate_of_initial (by simp [initial])) id
  | browse browseQuery =>
    cases query' with
    | browse browseQuery' => exact iff_of_true (separate_browse hdigests) id
    | _ => exact iff_of_true (separate_of_initial (by simp [initial])) id
  | search searchQuery =>
    cases query' with
    | search searchQuery' => exact iff_of_true (separate_search hdigests) id
    | _ => exact iff_of_true (separate_of_initial (by simp [initial])) id

/-- A search on the browse page, by a client without a country. -/
def browseSearch (text : String) : AggregateRequest := .browse { type := "movies", q := text }

def browseSearchQuery (text : String) : AggregateQuery :=
  .browse { type := .movies, mode := .search, query := text, page := 1, country := "US" }

/-- Two searches on the browse page. -/
theorem browse_keys_separate :
    (browseSearchQuery "Dune").Separate Char.toLower Char.toUpper (browseSearchQuery "Solaris") :=
  (@aggregate_keys_separate_iff Char.toLower Char.toUpper (browseSearch "Dune")
    (browseSearch "Solaris") _ _ rfl rfl fun h => absurd h (by decide +kernel)).mpr id

/-- The stale key of the homepage for one country is the fresh one for another. -/
theorem stale_key_is_fresh :
    ¬ ∀ (request request' : AggregateRequest) (query query' : AggregateQuery),
      request.parse Char.toLower Char.toUpper = .ok query →
        request'.parse Char.toLower Char.toUpper = .ok query' →
          query.DigestsDiffer Char.toLower query' →
            query.Separate Char.toLower Char.toUpper query' := by
  intro h
  have hseparate := h (.homepage { country := "US" }) (.homepage { country := "US:stale" }) _ _ rfl rfl
    fun _ => rfl
  exact hseparate.2 rfl

end Denn.Proxy
