import Denn.Proxy.Pagination

/-!
# Pages of games

IGDB reports no total. Browse fetches one row more than a page shows, and multi-search takes a full page
for a sign of another one; both count the rows that are left after the filters.
-/

namespace Denn.Proxy

open Denn.Core

/-! ### Rows of IGDB -/

structure IgdbImage where
  url : String := ""
  imageId : String := ""

structure IgdbInvolvedCompany where
  developer : Bool
  companyName : String

structure IgdbGame where
  id : ℤ
  name : String := ""
  summary : String := ""
  storyline : String := ""
  cover : IgdbImage := {}
  firstReleaseDate : ℤ := 0
  platforms : List ℤ := []
  involvedCompanies : List IgdbInvolvedCompany := []

/-- The year, the month and the day that are a number of days after 1970-01-01. Years are counted from
    March, in cycles of 400. -/
def civilDate (days : ℤ) : ℤ × ℤ × ℤ :=
  let shifted := days + 719468
  let cycle := shifted / 146097
  let dayOfCycle := shifted % 146097
  let yearOfCycle :=
    (dayOfCycle - dayOfCycle / 1460 + dayOfCycle / 36524 - dayOfCycle / 146096) / 365
  let dayOfYear := dayOfCycle - (365 * yearOfCycle + yearOfCycle / 4 - yearOfCycle / 100)
  let month := (5 * dayOfYear + 2) / 153
  let dayOfMonth := dayOfYear - (153 * month + 2) / 5 + 1
  let year := yearOfCycle + 400 * cycle
  if month < 10 then (year, month + 3, dayOfMonth) else (year + 1, month - 9, dayOfMonth)

/-- A number with zeros in front up to a width. -/
def appendInt (n : ℤ) (width : ℕ) : String :=
  (if n < 0 then "-" else "") ++ String.ofList (n.natAbs.repr.toList.leftpad width '0')

def formatReleaseDate (timestamp : ℤ) : Option String :=
  if timestamp = 0 then none
  else
    let date := civilDate (timestamp / 86400)
    some (appendInt date.1 4 ++ "-" ++ appendInt date.2.1 2 ++ "-" ++ appendInt date.2.2 2)

example : formatReleaseDate 951782400 = some "2000-02-29" := by decide

def buildDescription (summary storyline : String) : Option String :=
  if summary = "" && storyline = "" then none
  else if summary ≠ "" && storyline ≠ "" then some (summary ++ "\n\n" ++ storyline)
  else if summary ≠ "" then some summary
  else some storyline

def getImageURL (img : IgdbImage) : Option String :=
  if img.url ≠ "" then
    if img.imageId ≠ "" then
      some ("https://images.igdb.com/igdb/image/upload/t_cover_big/" ++ img.imageId ++ ".jpg")
    else some ("https:" ++ img.url)
  else none

def extractAuthors (companies : List IgdbInvolvedCompany) : List Author :=
  (companies.filter fun c => c.developer && c.companyName ≠ "").map fun c =>
    { name := c.companyName, type := "developer" }

/-- `MapSearchItem` of a game. -/
def mapSearchItemGame (game : IgdbGame) : SearchItem where
  id := itoa game.id
  type := "game"
  title := game.name
  description := buildDescription game.summary game.storyline
  imageUrl := getImageURL game.cover
  releaseDate := formatReleaseDate game.firstReleaseDate
  authors := extractAuthors game.involvedCompanies

/-! ### The service -/

structure IgdbClient where
  searchGames : String → ℤ → ℤ → List IgdbGame
  getPopularGames : ℤ → ℤ → List IgdbGame
  getRecentGames : ℤ → ℤ → Instant → List IgdbGame

/-- A game that runs in web browsers only. -/
def isBrowserOnly (item : IgdbGame) : Bool := item.platforms = [82]

def searchGames (client : IgdbClient) (now : Instant) (query : String) (limit offset : ℤ) :
    List SearchItem :=
  filterEligibleSearchItems now ((client.searchGames query limit offset).map mapSearchItemGame)

/-- The body of `GetPopularGames` and `GetRecentGames`. -/
def listGames (now : Instant) (data : List IgdbGame) : List SearchItem :=
  filterEligibleSearchItems now ((data.filter fun item => !isBrowserOnly item).map mapSearchItemGame)

def getPopularGames (client : IgdbClient) (now : Instant) (limit offset : ℤ) : List SearchItem :=
  listGames now (client.getPopularGames limit offset)

def getRecentGames (client : IgdbClient) (now : Instant) (limit offset : ℤ) : List SearchItem :=
  listGames now (client.getRecentGames limit offset now)

/-- A listing of games in browse: its query or its sort mode. -/
inductive GameListing where
  | search (query : String)
  | popular
  | recent

namespace GameListing

def fetch (client : IgdbClient) (now : Instant) (limit offset : ℤ) : GameListing → List SearchItem
  | search query => searchGames client now query limit offset
  | popular => getPopularGames client now limit offset
  | recent => getRecentGames client now limit offset

/-- A row passes the filters of the listing. -/
def eligible (now : Instant) (item : IgdbGame) : GameListing → Bool
  | search _ => isGeneralReleaseEligible now (mapSearchItemGame item).releaseDate
  | popular | recent =>
    isGeneralReleaseEligible now (mapSearchItemGame item).releaseDate && !isBrowserOnly item

/-- The items of the rows that pass. -/
def items (listing : GameListing) (now : Instant) (rows : List IgdbGame) : List SearchItem :=
  (rows.filter fun item => listing.eligible now item).map mapSearchItemGame

end GameListing

/-! ### Pages -/

structure PaginationMetadata where
  page : ℤ
  totalPages : ℤ
  totalResults : ℤ

structure FetchResult where
  items : List SearchItem
  metadata : PaginationMetadata

def browsePageSize : ℤ := 24

def gamesFetchSize : ℤ := browsePageSize + 1

def maxPage : ℕ := 100

def gamesResult (items : List SearchItem) (page : ℤ) : FetchResult :=
  let hasMore := browsePageSize < items.length
  let items := if hasMore then items.take browsePageSize.toNat else items
  let total := (page - 1) * browsePageSize + items.length
  let totalPages := if items.isEmpty && page = 1 then 0 else page
  { items := items
    metadata :=
      { page := page
        totalPages := if hasMore then page + 1 else totalPages
        totalResults := if hasMore then total + 1 else total } }

/-- `fetch` of the browse handler, for games. -/
def browseGames (client : IgdbClient) (now : Instant) (listing : GameListing) (page : ℤ) :
    FetchResult :=
  gamesResult (listing.fetch client now gamesFetchSize (pageOffset page browsePageSize)) page

/-- `searchGames` of the multi-search handler. -/
def multiSearchGames (client : IgdbClient) (now : Instant) (query : String) (page limit : ℤ) :
    FetchResult :=
  let offset := pageOffset page limit
  let results := searchGames client now query limit offset
  { items := results
    metadata :=
      { page := page
        totalPages := if limit ≤ results.length then wrap (page + 1) else page
        totalResults := wrap (offset + results.length) } }

/-! ### Fixed catalogues -/

/-- A client for which every listing is fixed. -/
def IgdbClient.ofRows (rows : GameListing → Slice IgdbGame) : IgdbClient where
  searchGames query limit offset := elementsFrom (rows (.search query)).val offset limit
  getPopularGames limit offset := elementsFrom (rows .popular).val offset limit
  getRecentGames limit offset _ := elementsFrom (rows .recent).val offset limit

variable {rows : GameListing → Slice IgdbGame} {listing : GameListing} {now : Instant}

lemma fetch_ofRows (rows : GameListing → Slice IgdbGame) (listing : GameListing) (now : Instant)
    (limit offset : ℤ) :
    listing.fetch (.ofRows rows) now limit offset
      = listing.items now (elementsFrom (rows listing).val offset limit) := by
  cases listing with
  | search query =>
    simp only [GameListing.fetch, searchGames, filterEligibleSearchItems, List.filter_map]
    rfl
  | popular =>
    simp only [GameListing.fetch, getPopularGames, listGames, filterEligibleSearchItems,
      List.filter_map, List.filter_filter]
    rfl
  | recent =>
    simp only [GameListing.fetch, getRecentGames, listGames, filterEligibleSearchItems,
      List.filter_map, List.filter_filter]
    rfl

lemma items_append (listing : GameListing) (now : Instant) (l l' : List IgdbGame) :
    listing.items now (l ++ l') = listing.items now l ++ listing.items now l' := by
  rw [GameListing.items, List.filter_append, List.map_append]
  rfl

lemma length_items_le (listing : GameListing) (now : Instant) (l : List IgdbGame) :
    (listing.items now l).length ≤ l.length := by
  rw [GameListing.items, List.length_map]
  exact List.length_filter_le _ _

/-- All the rows pass if none is lost. -/
lemma length_items_eq_iff {l : List IgdbGame} :
    (listing.items now l).length = l.length ↔ ∀ item ∈ l, listing.eligible now item = true := by
  rw [GameListing.items, List.length_map, List.length_filter_eq_length_iff]

/-! ### What the pages show -/

/-- What the pages from the first to the last of some show. -/
def shownGames (rows : GameListing → Slice IgdbGame) (listing : GameListing) (now : Instant)
    (pages : ℕ) : List SearchItem :=
  (List.range' 1 pages).flatMap fun page : ℕ => (browseGames (.ofRows rows) now listing page).items

/-- Up to every page in range, the pages show the eligible ones of their rows, once and in order, and
    the page reports a next one if an eligible row comes after it. -/
def BrowsePagesExact (rows : GameListing → Slice IgdbGame) (listing : GameListing) (now : Instant) :
    Prop :=
  ∀ page : ℕ, 1 ≤ page → page ≤ maxPage →
    shownGames rows listing now page = listing.items now ((rows listing).val.take (page * 24)) ∧
    (listing.items now ((rows listing).val.drop (page * 24)) ≠ [] →
      page < (browseGames (.ofRows rows) now listing page).metadata.totalPages)

/-- No eligible row remains after a page, or the filters drop none of the rows that it fetches. -/
def PageSettled (listing : GameListing) (now : Instant) (rows : List IgdbGame)
    (start fetched stop : ℕ) : Prop :=
  listing.items now (rows.drop stop) = [] ∨
    ∀ item ∈ (rows.drop start).take fetched, listing.eligible now item = true

/-- The rows that browse fetches for a page: those of the page and the next one. -/
lemma fetched_rows (l : List IgdbGame) {page : ℕ} (h : 1 ≤ page) :
    (l.drop ((page - 1) * 24)).take 25 = window 24 page l ++ (l.drop (page * 24)).take 1 := by
  have hstop : (page - 1) * 24 + 24 = page * 24 := by omega
  rw [show 25 = 24 + 1 from rfl, List.take_add, List.drop_drop, hstop]
  rfl

lemma browseGames_ofRows {page : ℕ} (h : 1 ≤ page) (h' : page ≤ maxPage) :
    browseGames (.ofRows rows) now listing page
      = gamesResult (listing.items now (((rows listing).val.drop ((page - 1) * 24)).take 25)) page := by
  have hoffset : pageOffset page browsePageSize = (page - 1 : ℤ) * 24 := by
    rw [maxPage] at h'
    exact wrap_of_le (by rw [browsePageSize]; omega) (by rw [browsePageSize, maxInt]; omega)
  have hstart : ((page - 1 : ℤ) * 24).toNat = (page - 1) * 24 := by omega
  rw [browseGames, fetch_ofRows, hoffset, elementsFrom, hstart]
  rfl

/-- The cut of `gamesResult`, and its next page. -/
lemma gamesResult_items (items : List SearchItem) (page : ℤ) :
    (gamesResult items page).items = items.take 24 := by
  by_cases hmore : (24 : ℤ) < items.length
  · simp [gamesResult, browsePageSize, hmore]
  · simp only [gamesResult, browsePageSize, hmore, if_false]
    rw [List.take_of_length_le (by omega)]

lemma lt_totalPages_gamesResult {items : List SearchItem} {page : ℤ} (h : 0 < page) :
    page < (gamesResult items page).metadata.totalPages ↔ 24 < items.length := by
  simp only [gamesResult, browsePageSize]
  split_ifs <;> omega

/-- A page with an eligible row after it reports another one exactly if neither its rows nor the next
    one are dropped. -/
lemma next_page_iff {page : ℕ} (h : 1 ≤ page) (h' : page ≤ maxPage) :
    (listing.items now ((rows listing).val.drop (page * 24)) ≠ [] →
      page < (browseGames (.ofRows rows) now listing page).metadata.totalPages) ↔
    PageSettled listing now (rows listing).val ((page - 1) * 24) 25 (page * 24) := by
  rw [browseGames_ofRows h h', lt_totalPages_gamesResult (by omega), PageSettled,
    ← or_iff_not_imp_left, ← length_items_eq_iff]
  refine or_congr_right' fun hremains => ?_
  have hlong : page * 24 < (rows listing).val.length := by
    by_contra hshort
    exact hremains (by rw [List.drop_of_length_le (by omega)]; rfl)
  have hlength : (((rows listing).val.drop ((page - 1) * 24)).take 25).length = 25 := by
    rw [List.length_take, List.length_drop]
    omega
  have hle := length_items_le listing now (((rows listing).val.drop ((page - 1) * 24)).take 25)
  omega

/-- A page that is settled shows the eligible ones of its own rows. -/
lemma items_of_settled {page : ℕ} (h : 1 ≤ page) (h' : page ≤ maxPage)
    (hsettled : PageSettled listing now (rows listing).val ((page - 1) * 24) 25 (page * 24)) :
    (browseGames (.ofRows rows) now listing page).items
      = listing.items now (window 24 page (rows listing).val) := by
  have hwindow := length_window_le 24 page (rows listing).val
  have hitems := length_items_le listing now (window 24 page (rows listing).val)
  rw [browseGames_ofRows h h', gamesResult_items, fetched_rows _ h, items_append]
  rcases hsettled with hlast | hfull
  · have hnext : listing.items now (((rows listing).val.drop (page * 24)).take 1) = [] := by
      rw [← List.take_append_drop 1 ((rows listing).val.drop (page * 24)), items_append] at hlast
      exact (List.append_eq_nil_iff.mp hlast).1
    rw [hnext, List.append_nil, List.take_of_length_le (by omega)]
  · rw [fetched_rows _ h] at hfull
    have hall : (listing.items now (window 24 page (rows listing).val)).length
        = (window 24 page (rows listing).val).length :=
      length_items_eq_iff.mpr fun item hitem => hfull item (List.mem_append_left _ hitem)
    by_cases hshort : (rows listing).val.length ≤ page * 24
    · have hnext : listing.items now (((rows listing).val.drop (page * 24)).take 1) = [] := by
        rw [List.drop_of_length_le hshort]
        rfl
      rw [hnext, List.append_nil, List.take_of_length_le (by omega)]
    · have hwhole : (window 24 page (rows listing).val).length = 24 := by
        rw [window, List.length_take, List.length_drop]
        omega
      rw [List.take_left' (hall.trans hwhole)]

lemma shownGames_of_settled {pages : ℕ} (hpages : pages ≤ maxPage)
    (hsettled : ∀ page, 1 ≤ page → page ≤ maxPage →
      PageSettled listing now (rows listing).val ((page - 1) * 24) 25 (page * 24)) :
    shownGames rows listing now pages
      = listing.items now ((rows listing).val.take (pages * 24)) := by
  have hpage : ∀ page ∈ List.range' 1 pages,
      (browseGames (.ofRows rows) now listing page).items
        = listing.items now (window 24 page (rows listing).val) := by
    intro page hmem
    obtain ⟨hlow, hhigh⟩ := List.mem_range'_1.mp hmem
    exact items_of_settled hlow (by omega) (hsettled page hlow (by omega))
  rw [shownGames, List.flatMap_congr hpage, ← flatMap_window]
  simp only [GameListing.items, List.filter_flatMap, List.map_flatMap]

/-- Browse shows the eligible rows page by page exactly if every page is settled. -/
lemma browsePagesExact_iff (rows : GameListing → Slice IgdbGame) (listing : GameListing)
    (now : Instant) :
    BrowsePagesExact rows listing now ↔ ∀ page : ℕ, 1 ≤ page → page ≤ maxPage →
      PageSettled listing now (rows listing).val ((page - 1) * 24) 25 (page * 24) := by
  constructor
  · intro hexact page h h'
    exact (next_page_iff h h').mp (hexact page h h').2
  · intro hsettled page h h'
    exact ⟨shownGames_of_settled h' hsettled, (next_page_iff h h').mpr (hsettled page h h')⟩

/-! ### Multi-search -/

/-- A page of multi-search reports another one whenever an eligible row comes after it. -/
def SearchPageReported (rows : GameListing → Slice IgdbGame) (query : String) (now : Instant)
    (page limit : ℤ) : Prop :=
  (GameListing.search query).items now
      ((rows (.search query)).val.drop (page * limit).toNat) ≠ [] →
    page < (multiSearchGames (.ofRows rows) now query page limit).metadata.totalPages

lemma searchPageReported_iff (rows : GameListing → Slice IgdbGame) (query : String) (now : Instant)
    {page limit : ℤ} (hpage : 1 ≤ page) (hlimit : 0 < limit) (hlimit' : limit ≤ 50) :
    SearchPageReported rows query now page limit ↔
      PageSettled (.search query) now (rows (.search query)).val ((page - 1) * limit).toNat
        limit.toNat (page * limit).toNat := by
  rw [SearchPageReported, PageSettled, ← or_iff_not_imp_left, ← length_items_eq_iff]
  refine or_congr_right' fun hremains => ?_
  have hrows := (rows (.search query)).2
  have hstop : (page - 1) * limit + limit = page * limit := by ring
  have hstart : 0 ≤ (page - 1) * limit := Int.mul_nonneg (by omega) hlimit.le
  have hle : page ≤ page * limit := by nlinarith
  have hlong : page * limit < (rows (.search query)).val.length := by
    by_contra hshort
    exact hremains (by rw [List.drop_of_length_le (by omega)]; rfl)
  have hoffset : pageOffset page limit = (page - 1) * limit := wrap_of_le hstart (by omega)
  have hnext : wrap (page + 1) = page + 1 := wrap_of_le (by omega) (by omega)
  have hresults : searchGames (.ofRows rows) now query limit (pageOffset page limit)
      = (GameListing.search query).items now
          (((rows (.search query)).val.drop ((page - 1) * limit).toNat).take limit.toNat) := by
    rw [hoffset]
    exact fetch_ofRows rows (.search query) now limit _
  have hlength : (((rows (.search query)).val.drop ((page - 1) * limit).toNat).take
      limit.toNat).length = limit.toNat := by
    rw [List.length_take, List.length_drop]
    omega
  have hitems := length_items_le (.search query) now
    (((rows (.search query)).val.drop ((page - 1) * limit).toNat).take limit.toNat)
  simp only [multiSearchGames, hresults, hnext]
  split_ifs <;> omega

/-- For every fixed catalogue: browse shows its eligible rows page by page, and reports the pages that
    hold more of them, exactly if every page is settled; and a page of multi-search reports the next one
    as it should exactly if it is settled. -/
theorem game_pages_iff (rows : GameListing → Slice IgdbGame) (now : Instant) :
    (∀ listing, BrowsePagesExact rows listing now ↔ ∀ page : ℕ, 1 ≤ page → page ≤ maxPage →
      PageSettled listing now (rows listing).val ((page - 1) * 24) 25 (page * 24)) ∧
    ∀ (query : String) (rawPage rawLimit : Option String),
      let page := (parsePagination rawPage rawLimit).1
      let limit := (parsePagination rawPage rawLimit).2
      SearchPageReported rows query now page limit ↔
        PageSettled (.search query) now (rows (.search query)).val ((page - 1) * limit).toNat
          limit.toNat (page * limit).toNat := by
  refine ⟨fun listing => browsePagesExact_iff rows listing now, fun query rawPage rawLimit => ?_⟩
  have hlimit := limit_bounds rawPage rawLimit
  exact searchPageReported_iff rows query now (one_le_page rawPage rawLimit) (by omega) hlimit.2

/-- A game that was released in 1970, and one without a date. -/
def releasedGame (id : ℤ) : IgdbGame := { id := id, name := "A", firstReleaseDate := 86400 }

def undatedGame : IgdbGame := { id := 0, name := "B" }

/-- A catalogue whose first row has no date, with a page and a half of games after it. -/
def undatedFirst (_ : GameListing) : Slice IgdbGame :=
  ⟨undatedGame :: (List.range 36).map fun i : ℕ => releasedGame (i + 1), by decide⟩

/-- The first row after the first page is shown on both pages, and the second page is not reported. -/
theorem undated_row_hides_page :
    ¬ ∀ (rows : GameListing → Slice IgdbGame) (listing : GameListing) (now : Instant),
      BrowsePagesExact rows listing now := by
  intro h
  have hreported := (h undatedFirst .popular (2 * day) 1 (by decide) (by decide)).2
  exact absurd (hreported (by decide)) (by decide)

end Denn.Proxy
