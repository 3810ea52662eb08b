import Denn.Core.Window
import Denn.Proxy.TmdbShow

/-!
# Listings of TMDB

The popular titles and the searches: a page of the caller is a page of TMDB, of 20 rows, without the
rows that the filters drop, and is cut to the caller's limit. The pages that are reported are TMDB's.
-/

namespace Denn.Proxy

open Denn.Core

structure TmdbSearchResult where
  id : ℤ
  adult : Bool := false
  title : String := ""
  name : String := ""
  originalTitle : String := ""
  originalName : String := ""
  overview : String := ""
  posterPath : Option String := none
  releaseDate : String := ""
  firstAirDate : String := ""

structure TmdbSearchResponse where
  page : ℕ
  totalPages : ℕ
  totalResults : ℕ
  results : List TmdbSearchResult

structure SearchResult where
  page : ℕ
  totalPages : ℕ
  totalResults : ℕ
  results : List SearchItem

def mapSearchItemMovie (r : TmdbSearchResult) : SearchItem where
  id := itoa r.id
  type := "movie"
  title := r.title
  originalTitle := strPtr r.originalTitle
  description := strPtr r.overview
  imageUrl := buildImageURLPtr r.posterPath posterSizeStandard
  releaseDate := strPtr r.releaseDate

def mapSearchItemTV (r : TmdbSearchResult) : SearchItem where
  id := itoa r.id
  type := "tv_show"
  title := if r.name = "" then r.title else r.name
  originalTitle := strPtr (if r.originalName = "" then r.originalTitle else r.originalName)
  description := strPtr r.overview
  imageUrl := buildImageURLPtr r.posterPath posterSizeStandard
  releaseDate := strPtr (if r.firstAirDate = "" then r.releaseDate else r.firstAirDate)

/-- The body that the searches and the popular titles share. -/
def listResults (mapItem : TmdbSearchResult → SearchItem) (allowAdult : Bool) (now : Instant)
    (limit : ℕ) (data : TmdbSearchResponse) : SearchResult :=
  let items := (data.results.filter fun r => !(r.adult && !allowAdult)).map mapItem
  let items := filterEligibleSearchItems now items
  { page := data.page
    totalPages := data.totalPages
    totalResults := data.totalResults
    results := if limit < items.length then items.take limit else items }

/-! ### The service -/

/-- The responses of TMDB that the listings read. -/
structure TmdbClient where
  getPopularMovies : ℕ → TmdbSearchResponse
  getPopularTVShows : ℕ → TmdbSearchResponse
  searchMoviesWithAdult : String → ℕ → Bool → TmdbSearchResponse
  searchTVShowsWithAdult : String → ℕ → Bool → TmdbSearchResponse

def getPopularMovies (client : TmdbClient) (now : Instant) (page limit : ℕ) : SearchResult :=
  listResults mapSearchItemMovie false now limit (client.getPopularMovies page)

def getPopularTVShows (client : TmdbClient) (now : Instant) (page limit : ℕ) : SearchResult :=
  listResults mapSearchItemTV false now limit (client.getPopularTVShows page)

def searchMoviesWithAdult (client : TmdbClient) (now : Instant) (query : String) (page limit : ℕ)
    (allowAdult : Bool) : SearchResult :=
  listResults mapSearchItemMovie allowAdult now limit
    (client.searchMoviesWithAdult query page allowAdult)

def searchTVShowsWithAdult (client : TmdbClient) (now : Instant) (query : String) (page limit : ℕ)
    (allowAdult : Bool) : SearchResult :=
  listResults mapSearchItemTV allowAdult now limit
    (client.searchTVShowsWithAdult query page allowAdult)

/-- A listing that a caller pages through. -/
inductive TmdbListing where
  | popularMovies
  | popularTVShows
  | searchMovies (query : String) (allowAdult : Bool)
  | searchTVShows (query : String) (allowAdult : Bool)

namespace TmdbListing

/-- A page of the listing. -/
def get (client : TmdbClient) (now : Instant) (page limit : ℕ) : TmdbListing → SearchResult
  | popularMovies => getPopularMovies client now page limit
  | popularTVShows => getPopularTVShows client now page limit
  | searchMovies query allowAdult => searchMoviesWithAdult client now query page limit allowAdult
  | searchTVShows query allowAdult => searchTVShowsWithAdult client now query page limit allowAdult

def allowAdult : TmdbListing → Bool
  | popularMovies | popularTVShows => false
  | searchMovies _ allowAdult | searchTVShows _ allowAdult => allowAdult

def mapItem : TmdbListing → TmdbSearchResult → SearchItem
  | popularMovies | searchMovies _ _ => mapSearchItemMovie
  | popularTVShows | searchTVShows _ _ => mapSearchItemTV

/-- A row passes the adult filter and the release filter. -/
def passes (listing : TmdbListing) (now : Instant) (r : TmdbSearchResult) : Bool :=
  (!r.adult || listing.allowAdult) && isGeneralReleaseEligible now (listing.mapItem r).releaseDate

/-- The items of the rows that pass. -/
def eligibleItems (listing : TmdbListing) (now : Instant) (rows : List TmdbSearchResult) :
    List SearchItem :=
  (rows.filter (listing.passes now)).map listing.mapItem

end TmdbListing

/-! ### Fixed listings -/

def tmdbPageSize : ℕ := 20

/-- The response with a page of a fixed listing. -/
def respond (rows : List TmdbSearchResult) (page : ℕ) : TmdbSearchResponse where
  page := page
  totalPages := pageCount tmdbPageSize rows.length
  totalResults := rows.length
  results := window tmdbPageSize page rows

/-- A client for which every listing is fixed. -/
def TmdbClient.ofRows (rows : TmdbListing → List TmdbSearchResult) : TmdbClient where
  getPopularMovies := respond (rows .popularMovies)
  getPopularTVShows := respond (rows .popularTVShows)
  searchMoviesWithAdult query page allowAdult := respond (rows (.searchMovies query allowAdult)) page
  searchTVShowsWithAdult query page allowAdult :=
    respond (rows (.searchTVShows query allowAdult)) page

variable {rows : TmdbListing → List TmdbSearchResult} {listing : TmdbListing} {now : Instant}
  {limit : ℕ}

/-- What a caller reads in the pages from the first to the last that is reported. -/
def shownItems (rows : TmdbListing → List TmdbSearchResult) (listing : TmdbListing) (now : Instant)
    (limit : ℕ) : List SearchItem :=
  let client := TmdbClient.ofRows rows
  (List.range' 1 (listing.get client now 1 limit).totalPages).flatMap fun page =>
    (listing.get client now page limit).results

lemma get_ofRows (rows : TmdbListing → List TmdbSearchResult) (listing : TmdbListing)
    (now : Instant) (page limit : ℕ) :
    listing.get (.ofRows rows) now page limit
      = listResults listing.mapItem listing.allowAdult now limit (respond (rows listing) page) := by
  cases listing <;> rfl

lemma listResults_results (listing : TmdbListing) (data : TmdbSearchResponse) :
    (listResults listing.mapItem listing.allowAdult now limit data).results
      = (listing.eligibleItems now data.results).take limit := by
  have hitems : filterEligibleSearchItems now
      ((data.results.filter fun r => !(r.adult && !listing.allowAdult)).map listing.mapItem)
      = listing.eligibleItems now data.results := by
    rw [filterEligibleSearchItems, List.filter_map, List.filter_filter, TmdbListing.eligibleItems]
    congr 1
    refine List.filter_congr fun r _ => ?_
    simp [TmdbListing.passes, Bool.and_comm]
  simp only [listResults, hitems]
  split_ifs with hlimit
  · rfl
  · rw [List.take_of_length_le (not_lt.mp hlimit)]

lemma eligibleItems_flatMap_window (listing : TmdbListing) (now : Instant)
    (rows : List TmdbSearchResult) :
    ((List.range' 1 (pageCount tmdbPageSize rows.length)).flatMap fun page =>
      listing.eligibleItems now (window tmdbPageSize page rows)) = listing.eligibleItems now rows := by
  have hall := flatMap_window_pageCount (show 0 < tmdbPageSize by decide) rows
  conv_rhs => rw [← hall]
  simp only [TmdbListing.eligibleItems, List.filter_flatMap, List.map_flatMap]

/-- The pages of a listing show every row that passes the filters once exactly if no page of TMDB has
    more such rows than the limit. -/
theorem pages_reach_every_row_iff (rows : TmdbListing → List TmdbSearchResult)
    (listing : TmdbListing) (now : Instant) (limit : ℕ) :
    (shownItems rows listing now limit).Perm (listing.eligibleItems now (rows listing)) ↔
      ∀ page ∈ List.range' 1 (pageCount tmdbPageSize (rows listing).length),
        ((window tmdbPageSize page (rows listing)).filter (listing.passes now)).length ≤ limit := by
  have hshown : shownItems rows listing now limit
      = (List.range' 1 (pageCount tmdbPageSize (rows listing).length)).flatMap fun page =>
          (listing.eligibleItems now (window tmdbPageSize page (rows listing))).take limit := by
    simp only [shownItems, get_ofRows, listResults_results]
    rfl
  rw [hshown, ← eligibleItems_flatMap_window, flatMap_take_perm_iff]
  simp [TmdbListing.eligibleItems]

/-- A limit of a page of TMDB or more loses no row. -/
theorem pages_reach_every_row_of_le (rows : TmdbListing → List TmdbSearchResult)
    (listing : TmdbListing) (now : Instant) (hlimit : tmdbPageSize ≤ limit) :
    (shownItems rows listing now limit).Perm (listing.eligibleItems now (rows listing)) := by
  rw [pages_reach_every_row_iff]
  intro page _
  calc ((window tmdbPageSize page (rows listing)).filter (listing.passes now)).length
      ≤ (window tmdbPageSize page (rows listing)).length := List.length_filter_le _ _
    _ ≤ tmdbPageSize := length_window_le _ _ _
    _ ≤ limit := hlimit

/-- Two movies that have been released. -/
def twoMovies (_ : TmdbListing) : List TmdbSearchResult :=
  [{ id := 1, title := "A", releaseDate := "1970-01-01" },
    { id := 2, title := "B", releaseDate := "1970-01-01" }]

/-- With a limit of one, the second of two movies is on no page. -/
theorem second_movie_unreachable :
    ¬ ∀ (rows : TmdbListing → List TmdbSearchResult) (listing : TmdbListing) (now : Instant)
      (limit : ℕ), 1 ≤ limit → limit ≤ 50 →
        (shownItems rows listing now limit).Perm (listing.eligibleItems now (rows listing)) := by
  intro h
  have hlength := (h twoMovies .popularMovies 0 1 (by decide) (by decide)).length_eq
  exact absurd hlength (by decide)

end Denn.Proxy
