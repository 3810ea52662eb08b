import Denn.Proxy.AggregateKeys
import Denn.Proxy.FlightContext
import Denn.Proxy.GamePages
import Mathlib.Tactic.Linarith

/-!
# Browse

The handler behind `/browse`: fifteen listings, each of which is mapped and filtered by a method of its
own. A response is served when it has been computed, or later from the cache.
-/

namespace Denn.Proxy.Browse

open Denn.Core

/-! ### Albums and books -/

structure SpotifyAlbum where
  id : String
  name : String := ""
  albumType : String := "album"
  releaseDate : String := ""
  images : List String := []
  artists : List String := []

def areDigits (chars : List Char) : Bool := chars.all fun c => (asciiDigit c).isSome

def normalizeReleaseDate (date : String) : Option String :=
  match date.toList with
  | [y₁, y₂, y₃, y₄, '-', m₁, m₂, '-', d₁, d₂] =>
    if areDigits [y₁, y₂, y₃, y₄, m₁, m₂, d₁, d₂] then some date else none
  | [y₁, y₂, y₃, y₄, '-', m₁, m₂] =>
    if areDigits [y₁, y₂, y₃, y₄, m₁, m₂] then some (date ++ "-01") else none
  | [y₁, y₂, y₃, y₄] => if areDigits [y₁, y₂, y₃, y₄] then some (date ++ "-01-01") else none
  | _ => none

/-- `mapArtists` and `mapAuthors`: those that have a name. -/
def mapNames (type : String) (names : List String) : List Author :=
  (names.filter (· ≠ "")).map fun name => { name, type }

/-- `MapSearchItem` of an album. -/
def mapSearchItemAlbum (item : SpotifyAlbum) : SearchItem where
  id := item.id
  type := "album"
  title := item.name
  authors := mapNames "artist" item.artists
  imageUrl := item.images.head?
  releaseDate := normalizeReleaseDate item.releaseDate

structure OlDoc where
  key : String
  title : String := ""
  authorName : List String := []
  coverI : Option ℤ := none
  firstPublishYear : Option ℤ := none
  firstSentence : List String := []

/-- What is behind the last slash. -/
def extractID (key : String) : String :=
  String.ofList (key.toList.reverse.takeWhile (· ≠ '/')).reverse

def coversURL : String := "https://covers.openlibrary.org"

def buildCoverURL (coverID : ℤ) (size : String) : String :=
  coversURL ++ "/b/id/" ++ itoa coverID ++ "-" ++ size ++ ".jpg"

/-- `MapSearchItem` of a book. -/
def mapSearchItemBook (doc : OlDoc) : SearchItem where
  id := extractID doc.key
  type := "book"
  title := doc.title
  originalTitle := some doc.title
  authors := mapNames "author" doc.authorName
  imageUrl := doc.coverI.map (buildCoverURL · "L")
  releaseDate := doc.firstPublishYear.map itoa
  description := doc.firstSentence.head?.filter (· ≠ "")

/-! ### Upstream -/

structure SpotifySearchResponse where
  items : List SpotifyAlbum
  total : ℤ

structure OlSearchResponse where
  docs : List OlDoc
  numFound : ℤ

/-- What the providers answer, or the error that the one call of a request ends with. -/
structure BrowseUpstream where
  failure : Option RequestError := none
  tmdb : TmdbClient
  getRecentMovies : ℕ → String → TmdbSearchResponse
  getRecentTVShows : ℕ → String → TmdbSearchResponse
  igdb : IgdbClient
  searchAlbums : String → ℤ → ℤ → SpotifySearchResponse
  charts : Slice SpotifyAlbum
  searchBooks : String → ℤ → ℤ → OlSearchResponse
  getTrendingBooks : Slice OlDoc
  getRecentBooks : ℤ → ℤ → OlSearchResponse

/-- `Format("2006-01-02")`. -/
def formatDate (now : Instant) : String :=
  let date := civilDate (now / day)
  appendInt date.1 4 ++ "-" ++ appendInt date.2.1 2 ++ "-" ++ appendInt date.2.2 2

def getRecentMovies (upstream : BrowseUpstream) (now : Instant) (page limit : ℕ) : SearchResult :=
  listResults mapSearchItemMovie false now limit (upstream.getRecentMovies page (formatDate now))

def getRecentTVShows (upstream : BrowseUpstream) (now : Instant) (page limit : ℕ) : SearchResult :=
  listResults mapSearchItemTV false now limit (upstream.getRecentTVShows page (formatDate now))

def spotifySearchMaxLimit : ℤ := 10

-- `unicode.ToLower` and `unicode.ToUpper`.
variable (toLower toUpper : Char → Char)

def searchAlbums (upstream : BrowseUpstream) (now : Instant) (query : String) (page limit : ℤ) :
    PagedItems :=
  let limit := if spotifySearchMaxLimit < limit then spotifySearchMaxLimit else limit
  let data := upstream.searchAlbums query limit (pageOffset page limit)
  let albums := data.items.filter fun album => lower toLower album.albumType ≠ "single"
  { page := page
    totalPages := totalPagesOf data.total limit
    totalResults := data.total
    results := filterEligibleSearchItems now (albums.map mapSearchItemAlbum) }

/-- The body of `SearchBooks` and `GetRecentBooks`. -/
def listBooks (data : OlSearchResponse) (now : Instant) (page limit : ℤ) : PagedItems where
  page := page
  totalPages := totalPagesOf data.numFound limit
  totalResults := data.numFound
  results := filterEligibleSearchItems now (data.docs.map mapSearchItemBook)

def searchBooks (upstream : BrowseUpstream) (now : Instant) (query : String) (page limit : ℤ) :
    PagedItems :=
  listBooks (upstream.searchBooks query page limit) now page limit

def getRecentBooks (upstream : BrowseUpstream) (now : Instant) (page limit : ℤ) : PagedItems :=
  listBooks (upstream.getRecentBooks page limit) now page limit

/-! ### The handler -/

def tmdbResult (result : SearchResult) : FetchResult where
  items := result.results
  metadata := ⟨result.page, result.totalPages, result.totalResults⟩

/-- `spotifyResult` and `booksResult`. -/
def pagedResult (result : PagedItems) : FetchResult where
  items := result.results
  metadata := ⟨result.page, result.totalPages, result.totalResults⟩

/-- `fetch`, if the call of the provider succeeds. -/
def browseFetch (upstream : BrowseUpstream) (now : Instant) (query : BrowseQuery) :
    Except Panic FetchResult :=
  let page := query.page.toNat
  let size := browsePageSize.toNat
  match query.type, query.mode with
  | .movies, .search =>
    .ok (tmdbResult (searchMoviesWithAdult upstream.tmdb now query.query page size false))
  | .movies, .recent => .ok (tmdbResult (getRecentMovies upstream now page size))
  | .movies, .popular => .ok (tmdbResult (getPopularMovies upstream.tmdb now page size))
  | .tvShows, .search =>
    .ok (tmdbResult (searchTVShowsWithAdult upstream.tmdb now query.query page size false))
  | .tvShows, .recent => .ok (tmdbResult (getRecentTVShows upstream now page size))
  | .tvShows, .popular => .ok (tmdbResult (getPopularTVShows upstream.tmdb now page size))
  | .games, .search => .ok (browseGames upstream.igdb now (.search query.query) query.page)
  | .games, .recent => .ok (browseGames upstream.igdb now .recent query.page)
  | .games, .popular => .ok (browseGames upstream.igdb now .popular query.page)
  | .albums, .search =>
    .ok (pagedResult (searchAlbums toLower upstream now query.query query.page browsePageSize))
  | .albums, .recent =>
    (getRecentAlbums mapSearchItemAlbum now SpotifyAlbum.releaseDate upstream.charts query.page
      browsePageSize).map pagedResult
  | .albums, .popular =>
    (getTrendingAlbums mapSearchItemAlbum upstream.charts query.page browsePageSize).map pagedResult
  | .books, .search =>
    .ok (pagedResult (searchBooks upstream now query.query query.page browsePageSize))
  | .books, .recent => .ok (pagedResult (getRecentBooks upstream now query.page browsePageSize))
  | .books, .popular =>
    (getTrendingBooks mapSearchItemBook now upstream.getTrendingBooks query.page browsePageSize).map
      pagedResult

/-- The results are null if they have not been set. -/
structure BrowseResponse where
  type : AggregateType
  mode : BrowseMode
  status : String
  results : Option (List SearchItem)
  metadata : PaginationMetadata
  error : Option String := none

/-- The metadata of a failed call. -/
def failedMetadata (query : BrowseQuery) : PaginationMetadata :=
  if query.type = .games then (gamesResult [] query.page).metadata else ⟨0, 0, 0⟩

/-- The response that `computeAndCache` marshals. -/
def browseCompute (upstream : BrowseUpstream) (now : Instant) (query : BrowseQuery) :
    Except Panic BrowseResponse :=
  match upstream.failure with
  | some err => .ok
    { type := query.type
      mode := query.mode
      status := "degraded"
      results := none
      metadata := failedMetadata query
      error := some (browseErrorCode err) }
  | none => do
    let result ← browseFetch toLower upstream now query
    return { type := query.type
             mode := query.mode
             status := if result.items.isEmpty then "empty" else "complete"
             results := some result.items
             metadata := result.metadata }

/-- The flight that a request waits for ends, or the request's budget does. -/
inductive BrowseFlight where
  | finished (upstream : BrowseUpstream)
  | late (err : RequestError)

/-- The response of `Browse` to a query without a cached one. -/
def browse (now : Instant) (query : BrowseQuery) : BrowseFlight → Except Panic BrowseResponse
  | .finished upstream => browseCompute toLower upstream now query
  | .late err => .ok
    { type := query.type
      mode := query.mode
      status := "degraded"
      results := some []
      metadata := ⟨query.page, 0, 0⟩
      error := some (browseErrorCode err) }

/-! ### Released items -/

/-- All of the items may be shown. -/
def AllReleased (now : Instant) (items : List SearchItem) : Prop :=
  ∀ item ∈ items, isGeneralReleaseEligible now item.releaseDate = true

variable {toLower toUpper} {now later : Instant} {items items' : List SearchItem}
  {upstream : BrowseUpstream} {query : BrowseQuery}

/-- What may be shown may be shown later. -/
lemma isGeneralReleaseEligible_later (h : now ≤ later) {releaseDate : Option String}
    (heligible : isGeneralReleaseEligible now releaseDate = true) :
    isGeneralReleaseEligible later releaseDate = true := by
  rw [isGeneralReleaseEligible] at heligible ⊢
  cases hdate : parseReleaseDate releaseDate with
  | none =>
    simp [hdate] at heligible
  | some releaseAt =>
    simp only [hdate, decide_eq_true_eq] at heligible ⊢
    exact heligible.trans (by linarith)

lemma AllReleased.lasts (h : AllReleased now items) (htime : now ≤ later) :
    AllReleased later items :=
  fun item hitem => isGeneralReleaseEligible_later htime (h item hitem)

lemma AllReleased.subset (h : AllReleased now items) (hsubset : items' ⊆ items) :
    AllReleased now items' :=
  fun item hitem => h item (hsubset hitem)

lemma allReleased_filter (now : Instant) (items : List SearchItem) :
    AllReleased now (filterEligibleSearchItems now items) :=
  fun _ hitem => (List.mem_filter.mp hitem).2

lemma pageSlice_subset {α : Type} {elements page : List α} {offset limit : ℤ}
    (h : pageSlice elements offset limit = .ok page) : page ⊆ elements := by
  have hslice : ∀ {low high : ℤ}, sliceOf elements low high = .ok page → page ⊆ elements := by
    intro low high hslice
    rw [sliceOf] at hslice
    split_ifs at hslice
    obtain rfl := Except.ok.inj hslice
    exact List.Subset.trans (List.take_subset _ _) (List.drop_subset _ _)
  rw [pageSlice] at h
  split_ifs at h
  · obtain rfl := Except.ok.inj h
    exact List.nil_subset _
  · exact hslice h
  · exact hslice h

lemma allReleased_listResults (mapItem : TmdbSearchResult → SearchItem) (allowAdult : Bool)
    (now : Instant) (limit : ℕ) (data : TmdbSearchResponse) :
    AllReleased now (listResults mapItem allowAdult now limit data).results := by
  simp only [listResults]
  split_ifs
  · exact (allReleased_filter now _).subset (List.take_subset _ _)
  · exact allReleased_filter now _

lemma allReleased_browseGames (client : IgdbClient) (now : Instant) (listing : GameListing)
    (page : ℤ) : AllReleased now (browseGames client now listing page).items := by
  have hfetch : AllReleased now
      (listing.fetch client now gamesFetchSize (pageOffset page browsePageSize)) := by
    cases listing <;> exact allReleased_filter now _
  simp only [browseGames, gamesResult]
  split_ifs
  · exact hfetch.subset (List.take_subset _ _)
  · exact hfetch

lemma allReleased_getRecentAlbums {albums : Slice SpotifyAlbum} {page limit : ℤ}
    {result : PagedItems}
    (h : getRecentAlbums mapSearchItemAlbum now SpotifyAlbum.releaseDate albums page limit
      = .ok result) : AllReleased now result.results := by
  rw [getRecentAlbums_eq] at h
  obtain ⟨results, hresults, h⟩ := bind_eq_ok h
  rw [← Except.ok.inj h]
  exact (allReleased_filter now _).subset (pageSlice_subset hresults)

lemma allReleased_getTrendingBooks {docs : Slice OlDoc} {page limit : ℤ} {result : PagedItems}
    (h : getTrendingBooks mapSearchItemBook now docs page limit = .ok result) :
    AllReleased now result.results := by
  obtain ⟨results, hresults, h⟩ := bind_eq_ok h
  rw [← Except.ok.inj h]
  exact (allReleased_filter now _).subset (pageSlice_subset hresults)

/-- Each of the methods but one filters its items. -/
lemma allReleased_browseFetch {result : FetchResult}
    (h : browseFetch toLower upstream now query = .ok result)
    (hquery : query.type ≠ .albums ∨ query.mode ≠ .popular) : AllReleased now result.items := by
  obtain ⟨type, mode, text, page, country⟩ := query
  cases type with
  | movies => cases mode <;> cases h <;> exact allReleased_listResults _ _ _ _ _
  | tvShows => cases mode <;> cases h <;> exact allReleased_listResults _ _ _ _ _
  | games => cases mode <;> cases h <;> exact allReleased_browseGames _ _ _ _
  | albums =>
    cases mode with
    | popular => exact absurd hquery (by simp)
    | recent =>
      obtain ⟨recent, hrecent, rfl⟩ := map_eq_ok h
      exact allReleased_getRecentAlbums hrecent
    | search =>
      cases h
      exact allReleased_filter now _
  | books =>
    cases mode with
    | popular =>
      obtain ⟨trending, htrending, rfl⟩ := map_eq_ok h
      exact allReleased_getTrendingBooks htrending
    | recent =>
      cases h
      exact allReleased_filter now _
    | search =>
      cases h
      exact allReleased_filter now _

/-! ### Rows without the adult flag -/

/-- The response of TMDB that a query for movies is answered from. -/
def movieData (upstream : BrowseUpstream) (now : Instant) (query : BrowseQuery) :
    TmdbSearchResponse :=
  match query.mode with
  | .search => upstream.tmdb.searchMoviesWithAdult query.query query.page.toNat false
  | .recent => upstream.getRecentMovies query.page.toNat (formatDate now)
  | .popular => upstream.tmdb.getPopularMovies query.page.toNat

def tvShowData (upstream : BrowseUpstream) (now : Instant) (query : BrowseQuery) :
    TmdbSearchResponse :=
  match query.mode with
  | .search => upstream.tmdb.searchTVShowsWithAdult query.query query.page.toNat false
  | .recent => upstream.getRecentTVShows query.page.toNat (formatDate now)
  | .popular => upstream.tmdb.getPopularTVShows query.page.toNat

/-- The items are those of rows, none of which is flagged adult. -/
def FromCleanRows (mapItem : TmdbSearchResult → SearchItem) (data : TmdbSearchResponse)
    (items : List SearchItem) : Prop :=
  ∃ rows : List TmdbSearchResult, rows.Sublist data.results ∧ (∀ r ∈ rows, r.adult = false) ∧
    items = rows.map mapItem

lemma fromCleanRows_nil (mapItem : TmdbSearchResult → SearchItem) (data : TmdbSearchResponse) :
    FromCleanRows mapItem data [] :=
  ⟨[], List.nil_sublist _, by simp, rfl⟩

lemma fromCleanRows_listResults (mapItem : TmdbSearchResult → SearchItem) (now : Instant)
    (limit : ℕ) (data : TmdbSearchResponse) :
    FromCleanRows mapItem data (listResults mapItem false now limit data).results := by
  let clean := data.results.filter fun r => !(r.adult && !false)
  let eligible := clean.filter fun r => isGeneralReleaseEligible now (mapItem r).releaseDate
  have hitems : filterEligibleSearchItems now (clean.map mapItem) = eligible.map mapItem :=
    List.filter_map
  have hsublist : eligible.Sublist data.results :=
    List.filter_sublist.trans List.filter_sublist
  have hadult : ∀ r ∈ eligible, r.adult = false := by
    intro r hr
    have hclean := (List.mem_filter.mp (List.mem_filter.mp hr).1).2
    simpa using hclean
  have hresults : (listResults mapItem false now limit data).results
      = if limit < (eligible.map mapItem).length then (eligible.map mapItem).take limit
        else eligible.map mapItem := by
    rw [← hitems]
    rfl
  rw [hresults]
  split_ifs
  · exact ⟨eligible.take limit, (List.take_sublist _ _).trans hsublist,
      fun r hr => hadult r (List.take_subset _ _ hr), (List.map_take ..).symm⟩
  · exact ⟨eligible, hsublist, hadult, rfl⟩

lemma fromCleanRows_movies {result : FetchResult}
    (h : browseFetch toLower upstream now query = .ok result) (htype : query.type = .movies) :
    FromCleanRows mapSearchItemMovie (movieData upstream now query) result.items := by
  obtain ⟨type, mode, text, page, country⟩ := query
  obtain rfl : type = .movies := htype
  cases mode <;> cases h <;> exact fromCleanRows_listResults _ _ _ _

lemma fromCleanRows_tvShows {result : FetchResult}
    (h : browseFetch toLower upstream now query = .ok result) (htype : query.type = .tvShows) :
    FromCleanRows mapSearchItemTV (tvShowData upstream now query) result.items := by
  obtain ⟨type, mode, text, page, country⟩ := query
  obtain rfl : type = .tvShows := htype
  cases mode <;> cases h <;> exact fromCleanRows_listResults _ _ _ _

/-! ### Browse shows released items -/

/-- What a response shows that has been computed at one time and is served at another. -/
structure ShowsReleased (query : BrowseQuery) (flight : BrowseFlight) (computedAt servedAt : Instant)
    (items : List SearchItem) : Prop where
  released : AllReleased servedAt items
  movies : ∀ upstream, flight = .finished upstream → query.type = .movies →
    FromCleanRows mapSearchItemMovie (movieData upstream computedAt query) items
  tvShows : ∀ upstream, flight = .finished upstream → query.type = .tvShows →
    FromCleanRows mapSearchItemTV (tvShowData upstream computedAt query) items

lemma showsReleased_nil (query : BrowseQuery) (flight : BrowseFlight)
    (computedAt servedAt : Instant) : ShowsReleased query flight computedAt servedAt [] :=
  ⟨nofun, fun _ _ _ => fromCleanRows_nil _ _, fun _ _ _ => fromCleanRows_nil _ _⟩

/-- The albums on the page of the chart, if there is one, may be shown. -/
def ChartReleased (flight : BrowseFlight) (page : ℤ) (servedAt : Instant) : Prop :=
  ∀ upstream, flight = .finished upstream → upstream.failure = none →
    AllReleased servedAt
      ((pageElements upstream.charts.val page browsePageSize).map mapSearchItemAlbum)

lemma parse_page_bounds {request : BrowseRequest}
    (h : request.parse toLower toUpper = .ok query) : 1 ≤ query.page ∧ query.page ≤ 100 := by
  unfold BrowseRequest.parse at h
  obtain ⟨type, -, h⟩ := bind_eq_ok h
  obtain ⟨sortMode, -, h⟩ := bind_eq_ok h
  obtain ⟨page, hpage, h⟩ := bind_eq_ok h
  have hbounds : 1 ≤ page ∧ page ≤ 100 := by
    rw [parsePage] at hpage
    split_ifs at hpage with hblank hrange
    · obtain rfl := Except.ok.inj hpage
      exact ⟨le_rfl, by decide⟩
    · obtain rfl := Except.ok.inj hpage
      omega
  by_cases hlong : 80 < (CacheKey.trimSpace request.q).length
  · rw [if_pos hlong] at h
    exact nomatch h
  · rw [if_neg hlong] at h
    rw [← Except.ok.inj h]
    exact hbounds

lemma getTrendingAlbums_results (albums : Slice SpotifyAlbum) {page : ℤ} (hlow : 1 ≤ page)
    (hhigh : page ≤ 100) :
    ∃ result, getTrendingAlbums mapSearchItemAlbum albums page browsePageSize = .ok result ∧
      result.results = (pageElements albums.val page browsePageSize).map mapSearchItemAlbum := by
  have hslice := (pageSlice_pageOffset_iff hlow
    (show 0 < browsePageSize by decide) (show browsePageSize ≤ maxInt by decide) albums.2).mpr
    (.inl (by rw [browsePageSize, maxInt]; omega))
  rw [getTrendingAlbums, clientGetTrendingAlbums, hslice]
  exact ⟨_, rfl, rfl⟩

/-- The chart of popular albums is served as the provider ranks it. -/
lemma browse_popularAlbums (toLower : Char → Char) (now : Instant) (htype : query.type = .albums)
    (hmode : query.mode = .popular) (hlow : 1 ≤ query.page) (hhigh : query.page ≤ 100) (hcall : upstream.failure = none) :
    ∃ response, browse toLower now query (.finished upstream) = .ok response ∧
      response.results.getD []
        = (pageElements upstream.charts.val query.page browsePageSize).map mapSearchItemAlbum := by
  obtain ⟨result, hresult, hitems⟩ :=
    getTrendingAlbums_results upstream.charts hlow hhigh
  have hfetch : browseFetch toLower upstream now query = .ok (pagedResult result) := by
    obtain ⟨type, mode, text, page, country⟩ := query
    obtain rfl : type = .albums := htype
    obtain rfl : mode = .popular := hmode
    simp only [browseFetch, hresult, Except.map]
  rw [← hitems]
  unfold browse browseCompute
  simp only [hcall, hfetch]
  exact ⟨_, rfl, rfl⟩

/-- What a computed response shows is what has been fetched, if anything has. -/
lemma browse_results {flight : BrowseFlight} {response : BrowseResponse}
    (h : browse toLower now query flight = .ok response) :
    response.results.getD [] = [] ∨
      ∃ upstream result, flight = .finished upstream ∧ upstream.failure = none ∧
        browseFetch toLower upstream now query = .ok result ∧
        response.results.getD [] = result.items := by
  cases flight with
  | late err =>
    rw [← Except.ok.inj h]
    exact .inl rfl
  | finished upstream =>
    unfold browse browseCompute at h
    cases hcall : upstream.failure with
    | some err =>
      simp only [hcall] at h
      rw [← Except.ok.inj h]
      exact .inl rfl
    | none =>
      simp only [hcall] at h
      obtain ⟨result, hfetch, h⟩ := bind_eq_ok h
      rw [← Except.ok.inj h]
      exact .inr ⟨upstream, result, rfl, hcall, hfetch, rfl⟩

lemma showsReleased_fetch {result : FetchResult} {computedAt servedAt : Instant}
    (hfetch : browseFetch toLower upstream computedAt query = .ok result)
    (hreleased : AllReleased servedAt result.items) :
    ShowsReleased query (.finished upstream) computedAt servedAt result.items where
  released := hreleased
  movies := by
    intro upstream' hflight htype
    cases hflight
    exact fromCleanRows_movies hfetch htype
  tvShows := by
    intro upstream' hflight htype
    cases hflight
    exact fromCleanRows_tvShows hfetch htype

/-- A response shows only released items, now and for as long as it is cached, unless it is a page of
the chart of popular albums: that page has to be one of released albums. -/
theorem browse_shows_released_iff (request : BrowseRequest) (query : BrowseQuery)
    (hquery : request.parse toLower toUpper = .ok query) (flight : BrowseFlight)
    (computedAt servedAt : Instant) (htime : computedAt ≤ servedAt) :
    (∀ response, browse toLower computedAt query flight = .ok response →
      ShowsReleased query flight computedAt servedAt (response.results.getD [])) ↔
    query.type ≠ .albums ∨ query.mode ≠ .popular ∨
      ChartReleased flight query.page servedAt := by
  obtain ⟨hlow, hhigh⟩ := parse_page_bounds hquery
  constructor
  · intro h
    by_cases htype : query.type = .albums
    · by_cases hmode : query.mode = .popular
      · refine .inr (.inr fun upstream hflight hcall => ?_)
        subst hflight
        obtain ⟨response, hresponse, hitems⟩ :=
          browse_popularAlbums toLower computedAt htype hmode hlow hhigh hcall
        rw [← hitems]
        exact (h response hresponse).released
      · exact .inr (.inl hmode)
    · exact .inl htype
  · intro hchart response hresponse
    obtain hempty | ⟨upstream, result, rfl, hcall, hfetch, hitems⟩ := browse_results hresponse
    · rw [hempty]
      exact showsReleased_nil query flight computedAt servedAt
    · rw [hitems]
      refine showsReleased_fetch hfetch ?_
      by_cases hfiltered : query.type ≠ .albums ∨ query.mode ≠ .popular
      · exact (allReleased_browseFetch hfetch hfiltered).lasts htime
      · obtain ⟨htype, hmode⟩ := not_or.mp hfiltered
        rw [not_ne_iff] at htype hmode
        obtain ⟨response', hresponse', hitems'⟩ :=
          browse_popularAlbums toLower computedAt htype hmode hlow hhigh hcall
        obtain rfl := Except.ok.inj (hresponse.symm.trans hresponse')
        rw [← hitems, hitems']
        have hreleased := (hchart.resolve_left (not_not.mpr htype)).resolve_left (not_not.mpr hmode)
        exact hreleased upstream rfl hcall

/-- Providers that have nothing but a chart. -/
def chartUpstream (albums : Slice SpotifyAlbum) : BrowseUpstream where
  tmdb := ⟨fun _ => ⟨1, 0, 0, []⟩, fun _ => ⟨1, 0, 0, []⟩, fun _ _ _ => ⟨1, 0, 0, []⟩,
    fun _ _ _ => ⟨1, 0, 0, []⟩⟩
  getRecentMovies _ _ := ⟨1, 0, 0, []⟩
  getRecentTVShows _ _ := ⟨1, 0, 0, []⟩
  igdb := ⟨fun _ _ _ => [], fun _ _ => [], fun _ _ _ => []⟩
  searchAlbums _ _ _ := ⟨[], 0⟩
  charts := albums
  searchBooks _ _ _ := ⟨[], 0⟩
  getTrendingBooks := ⟨[], by decide⟩
  getRecentBooks _ _ := ⟨[], 0⟩

/-- An album that is on the chart two days before it is released. -/
def announcedAlbum : SpotifyAlbum where
  id := "4aawyAB9vmqN3uQ7FjRGTy"
  name := "Global Warming"
  releaseDate := "1970-01-03"
  artists := ["Pitbull"]

def albumsRequest (sort : String) : BrowseRequest where
  type := "albums"
  sort := sort

def albumsQuery (mode : BrowseMode) : BrowseQuery where
  type := .albums
  mode := mode
  query := ""
  page := 1
  country := "US"

/-- The recent albums leave out what the popular ones show. -/
theorem browse_shows_released_recent :
    (∀ response,
      browse id 0 (albumsQuery .recent)
        (.finished (chartUpstream ⟨[announcedAlbum], by decide⟩)) = .ok response →
      ShowsReleased (albumsQuery .recent)
        (.finished (chartUpstream ⟨[announcedAlbum], by decide⟩)) 0 day
        (response.results.getD [])) ↔
    (albumsQuery .recent).type ≠ .albums ∨ (albumsQuery .recent).mode ≠ .popular ∨
      ChartReleased (.finished (chartUpstream ⟨[announcedAlbum], by decide⟩)) 1 day :=
  @browse_shows_released_iff id id (albumsRequest "recent")
    (albumsQuery .recent) rfl _ 0 day (by decide)

/-- An album that is not released yet is shown among the popular ones. -/
theorem unreleased_album_shown :
    (albumsRequest "popular").parse id id = .ok (albumsQuery .popular) ∧
    ∃ response,
      browse id 0 (albumsQuery .popular)
        (.finished (chartUpstream ⟨[announcedAlbum], by decide⟩)) = .ok response ∧
      response.results.getD [] = [mapSearchItemAlbum announcedAlbum] ∧
      isGeneralReleaseEligible 0 (mapSearchItemAlbum announcedAlbum).releaseDate = false :=
  ⟨rfl, _, rfl, by decide, by decide⟩

end Denn.Proxy.Browse
