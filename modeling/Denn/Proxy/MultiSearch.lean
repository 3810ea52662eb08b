import Denn.Core.ReadThrough
import Denn.Proxy.AggregateKeySeparation
import Denn.Proxy.Browse

/-!
# Multi-search

The handler behind `/search`: a bucket for each type that is asked for, searched at the same time, and
the response kept for a minute. Requests come in any order, and the cache may fail at any time.
-/

namespace Denn.Proxy.MultiSearch

open Denn.Core Denn.CacheKey Denn.Proxy.Browse

/-! ### Buckets -/

structure ContentResult where
  metadata : Option PaginationMetadata := none
  results : List SearchItem := []
  error : Option String := none

def successResult (result : FetchResult) : ContentResult where
  metadata := some result.metadata
  results := result.items

def errorResult (message : String) : ContentResult where
  error := some message

/-- What the providers answer, and the errors that the services end with instead. -/
structure SearchUpstream where
  failure : AggregateType → Option String
  services : BrowseUpstream

-- `unicode.ToLower` and `unicode.ToUpper`.
variable (toLower toUpper : Char → Char)

/-- What the service of a bucket finds. -/
def fetchOne (services : BrowseUpstream) (now : Instant) (query : SearchQuery) :
    AggregateType → FetchResult
  | .movies => tmdbResult (searchMoviesWithAdult services.tmdb now query.query query.page.toNat
      query.limit.toNat query.allowAdult)
  | .tvShows => tmdbResult (searchTVShowsWithAdult services.tmdb now query.query query.page.toNat
      query.limit.toNat query.allowAdult)
  | .games => multiSearchGames services.igdb now query.query query.page query.limit
  | .albums => pagedResult (searchAlbums toLower services now query.query query.page query.limit)
  | .books => pagedResult (searchBooks services now query.query query.page query.limit)

def searchOne (upstream : SearchUpstream) (now : Instant) (query : SearchQuery) (t : AggregateType) :
    ContentResult :=
  match upstream.failure t with
  | some message => errorResult message
  | none => successResult (fetchOne toLower upstream.services now query t)

/-- Every bucket has its slot, and its own clock. -/
def searchAll (upstream : SearchUpstream) (instants : AggregateType → Instant) (query : SearchQuery) :
    Table AggregateType ContentResult :=
  let slots := query.types.map fun t => (t, searchOne toLower upstream (instants t) query t)
  slots.foldl (fun results slot => results.set slot.1 slot.2) .empty

abbrev Response := Table String ContentResult

/-- The response that `Search` marshals. -/
def search (upstream : SearchUpstream) (instants : AggregateType → Instant) (query : SearchQuery) :
    Response :=
  let results := searchAll toLower upstream instants query
  query.types.foldl (fun response t => response.set t.name ((results.get? t).getD {})) .empty

/-! ### The handler -/

def searchCacheTTL : ℕ := 60 * 10 ^ 9

/-- `Search`. Requests that cannot be read do not come to the cache; responses can always be marshalled. -/
def cachedSearches : ReadThrough SearchRequest Unit String Response Response where
  key request _ := (request.parse toLower).toOption.map (multiSearchCacheKey toLower toUpper)
  ttl _ := searchCacheTTL
  encode := some
  decode := some

/-- The response is the one that a request gets from what the providers answer, asked until then. -/
def Answers (Provided : SearchUpstream → Prop) (now : ℕ) (request : SearchRequest)
    (response : Response) : Prop :=
  ∃ query upstream instants, request.parse toLower = .ok query ∧ Provided upstream ∧
    (∀ t, instants t ≤ (now : Instant)) ∧ response = search toLower upstream instants query

variable {toLower toUpper} {Provided : SearchUpstream → Prop} {upstream : SearchUpstream} {instants : AggregateType → Instant}
  {query query' : SearchQuery}

/-! ### Responses -/

lemma get?_searchAll (t : AggregateType) :
    (searchAll toLower upstream instants query).get? t =
      if t ∈ query.types then some (searchOne toLower upstream (instants t) query t) else none := by
  rw [searchAll, List.foldl_map]
  refine (Table.get?_assign (fun t => some (searchOne toLower upstream (instants t) query t)) .empty
    query.types t).trans ?_
  simp

/-- Entries under the names of types, of which no two are equal. -/
lemma get?_foldl_set (response : Response) (types : List AggregateType)
    (f : AggregateType → ContentResult) {name : String} {result : ContentResult} :
    (types.foldl (fun response t => response.set t.name (f t)) response).get? name = some result ↔
      (∃ t ∈ types, t.name = name ∧ f t = result) ∨
        (∀ t ∈ types, t.name ≠ name) ∧ response.get? name = some result := by
  induction types generalizing response with
  | nil => simp
  | cons t types ih =>
    rw [List.foldl_cons, ih, Table.get?_set]
    by_cases hname : t.name = name
    · subst hname
      have hinj : ∀ t' ∈ types, t'.name = t.name → t' = t :=
        fun t' _ h => AggregateType.name_injective h
      grind
    · grind

lemma get?_search {name : String} {result : ContentResult} :
    (search toLower upstream instants query).get? name = some result ↔
      ∃ t ∈ query.types, t.name = name ∧
        searchOne toLower upstream (instants t) query t = result := by
  rw [search, get?_foldl_set]
  simp only [Table.get?_empty, reduceCtorEq, and_false, or_false]
  refine exists_congr fun t => and_congr_right fun ht => ?_
  rw [get?_searchAll, if_pos ht, Option.getD_some]

/-- The requests have one key, but for their texts, which have one digest. -/
structure SameSearch (toLower : Char → Char) (query query' : SearchQuery) : Prop where
  allowAdult : query.allowAdult = query'.allowAdult
  digest : hashPrefix (normalizeSearchCacheKey toLower query.query)
    = hashPrefix (normalizeSearchCacheKey toLower query'.query)
  page : query.page = query'.page
  limit : query.limit = query'.limit
  types : ∀ t, t ∈ query.types ↔ t ∈ query'.types

lemma sameSearch_of_key
    (h : multiSearchCacheKey toLower toUpper query = multiSearchCacheKey toLower toUpper query') :
    SameSearch toLower query query' := by
  obtain ⟨hadult, hdigest, hpage, hlimit, -, htypes⟩ := multiSearchCacheKey_eq_iff.mp h
  exact ⟨hadult, hdigest, hpage, hlimit, mem_iff_of_typeNames htypes⟩

lemma allReleased_fetchOne (services : BrowseUpstream) (now : Instant) (query : SearchQuery)
    (t : AggregateType) : AllReleased now (fetchOne toLower services now query t).items := by
  cases t with
  | movies | tvShows => exact allReleased_listResults _ _ _ _ _
  | games | albums | books => exact allReleased_filter _ _

/-- What a bucket of a response says. -/
structure BucketAnswer (now : Instant) (result : ContentResult) : Prop where
  whole : result.error = none ∧ result.metadata.isSome ∨
    result.error.isSome ∧ result.metadata = none ∧ result.results = []
  released : AllReleased now result.results

lemma bucketAnswer_searchOne {now later : Instant} (h : now ≤ later) (t : AggregateType) :
    BucketAnswer later (searchOne toLower upstream now query t) := by
  rw [searchOne]
  split
  · exact ⟨.inr ⟨rfl, rfl, rfl⟩, nofun⟩
  · exact ⟨.inl ⟨rfl, rfl⟩, (allReleased_fetchOne _ _ _ _).lasts h⟩

/-- Without adult titles, the bucket of films shows films that are not flagged. -/
lemma fromCleanRows_movies (h : query.allowAdult = false) {now : Instant} :
    FromCleanRows mapSearchItemMovie
      (upstream.services.tmdb.searchMoviesWithAdult query.query query.page.toNat false)
      (searchOne toLower upstream now query .movies).results := by
  rw [searchOne]
  split
  · exact fromCleanRows_nil _ _
  · simp only [successResult, fetchOne, h]
    exact fromCleanRows_listResults _ _ _ _

lemma fromCleanRows_tvShows (h : query.allowAdult = false) {now : Instant} :
    FromCleanRows mapSearchItemTV
      (upstream.services.tmdb.searchTVShowsWithAdult query.query query.page.toNat false)
      (searchOne toLower upstream now query .tvShows).results := by
  rw [searchOne]
  split
  · exact fromCleanRows_nil _ _
  · simp only [successResult, fetchOne, h]
    exact fromCleanRows_listResults _ _ _ _

/-! ### Every answer -/

/-- What the answer to a query says: the buckets that were asked for, of released titles, and of rows
    that are not flagged if the query excludes those that are. -/
structure SearchAnswer (toLower : Char → Char) (Provided : SearchUpstream → Prop)
    (query : SearchQuery) (now : Instant) (response : Response) : Prop where
  buckets : ∀ name, (response.get? name).isSome ↔ ∃ t ∈ query.types, t.name = name
  answers : ∀ name result, response.get? name = some result → BucketAnswer now result
  clean : query.allowAdult = false → ∃ upstream text, Provided upstream ∧
    hashPrefix (normalizeSearchCacheKey toLower text)
      = hashPrefix (normalizeSearchCacheKey toLower query.query) ∧
    (∀ result, response.get? AggregateType.movies.name = some result →
      FromCleanRows mapSearchItemMovie
        (upstream.services.tmdb.searchMoviesWithAdult text query.page.toNat false) result.results) ∧
    (∀ result, response.get? AggregateType.tvShows.name = some result →
      FromCleanRows mapSearchItemTV
        (upstream.services.tmdb.searchTVShowsWithAdult text query.page.toNat false) result.results)

lemma get?_search_name {t : AggregateType} {result : ContentResult}
    (h : (search toLower upstream instants query).get? t.name = some result) :
    searchOne toLower upstream (instants t) query t = result := by
  obtain ⟨t', -, hname, hresult⟩ := get?_search.mp h
  rwa [AggregateType.name_injective hname] at hresult

/-- The response to one query answers any query with its key. -/
lemma searchAnswer_of_same {now : Instant} (h : SameSearch toLower query query')
    (hprovided : Provided upstream) (hinstants : ∀ t, instants t ≤ now) :
    SearchAnswer toLower Provided query now (search toLower upstream instants query') where
  buckets name := by
    simp only [Option.isSome_iff_exists, get?_search, h.types]
    constructor
    · rintro ⟨result, t, ht, hname, -⟩
      exact ⟨t, ht, hname⟩
    · rintro ⟨t, ht, hname⟩
      exact ⟨_, t, ht, hname, rfl⟩
  answers name result hresult := by
    obtain ⟨t, -, -, rfl⟩ := get?_search.mp hresult
    exact bucketAnswer_searchOne (hinstants t) t
  clean hadult := by
    have hadult' : query'.allowAdult = false := h.allowAdult.symm.trans hadult
    refine ⟨upstream, query'.query, hprovided, h.digest.symm, ?_, ?_⟩ <;>
      intro result hresult <;> rw [← get?_search_name hresult, h.page]
    · exact fromCleanRows_movies hadult'
    · exact fromCleanRows_tvShows hadult'

/-- Whoever searched before, and whatever the cache did: an answer has exactly the buckets that its
    request asks for, none of them half failed, and shows no title before its release. -/
theorem search_answered {ι : Type*} [DecidableEq ι]
    {s : ReadState ι SearchRequest String Response Response}
    (h : (ReadState.system (cachedSearches toLower toUpper)).ReachableUnder
      (ReadState.Computes (Answers toLower Provided)) s)
    {i : ι} {caller : ReadCaller SearchRequest String Response}
    (hcaller : s.callers.get? i = some caller) {response : Response}
    (hfinished : caller.phase = .finished response) :
    ∃ query, caller.request.parse toLower = .ok query ∧
      SearchAnswer toLower Provided query s.now response := by
  have hlasts : ∀ t t' request response, t ≤ t' →
      Answers toLower Provided t request response → Answers toLower Provided t' request response := by
    rintro t t' request response hle
      ⟨query, upstream, instants, hquery, hprovided, hinstants, hresponse⟩
    exact ⟨query, upstream, instants, hquery, hprovided,
      fun type => (hinstants type).trans (Int.ofNat_le.mpr hle), hresponse⟩
  obtain ⟨request, choice', hkey, query', upstream, instants, hquery', hprovided, hinstants, rfl⟩ :=
    ReadState.answered hlasts (fun _ _ h => h.symm) h hcaller hfinished
  obtain ⟨choice, hown⟩ := ReadState.exists_choice h.reachable hcaller
  cases hquery : caller.request.parse toLower with
  | error message => simp [cachedSearches, hquery, Except.toOption] at hown
  | ok query =>
    refine ⟨query, rfl, searchAnswer_of_same ?_ hprovided hinstants⟩
    simp only [cachedSearches, hquery, hquery', Except.toOption, Option.map_some,
      Option.some.injEq] at hown hkey
    exact sameSearch_of_key (hown.trans hkey.symm)

/-- The providers know one film, and a later one that is flagged. -/
def someUpstream : SearchUpstream where
  failure t := if t = .games then some "provider authentication failed" else none
  services := { chartUpstream ⟨[], by decide⟩ with
    tmdb := TmdbClient.ofRows fun _ =>
      [{ id := 1, title := "Up", releaseDate := "2009-05-28" },
        { id := 2, adult := true, title := "Up", releaseDate := "2009-05-28" }] }

def filmsRequest : SearchRequest where
  q := " Up"
  types := "movies,games"

def filmsQuery : SearchQuery := ⟨"Up", 1, 20, "US", [.movies, .games], false⟩

theorem search_answered_films : ∃ s caller response query,
    (ReadState.system (ι := ℕ) (cachedSearches Char.toLower Char.toUpper)).ReachableUnder
        (ReadState.Computes (Answers Char.toLower (· = someUpstream))) s ∧
      s.callers.get? 0 = some caller ∧ caller.phase = .finished response ∧
      caller.request.parse Char.toLower = .ok query ∧
      SearchAnswer Char.toLower (· = someUpstream) query s.now response := by
  have hparse : filmsRequest.parse Char.toLower = .ok filmsQuery := by rfl
  have hkey : (cachedSearches Char.toLower Char.toUpper).key filmsRequest ()
      = some (multiSearchCacheKey Char.toLower Char.toUpper filmsQuery) := by
    simp [cachedSearches, hparse, Except.toOption]
  have hanswers : Answers Char.toLower (· = someUpstream) 0 filmsRequest
      (search Char.toLower someUpstream (fun _ => 0) filmsQuery) :=
    ⟨filmsQuery, someUpstream, fun _ => 0, hparse, rfl, fun _ => le_rfl, rfl⟩
  obtain ⟨s, caller, hs, hcaller, -, hfinished⟩ :=
    ReadState.exists_answered (i := 0) (s := {}) (.initial rfl) rfl hkey hanswers
  obtain ⟨query, hquery, hanswer⟩ := search_answered hs hcaller hfinished
  exact ⟨s, caller, _, query, hs, hcaller, hfinished, hquery, hanswer⟩

end Denn.Proxy.MultiSearch
