import Denn.Proxy.TmdbListing
import Mathlib.Data.List.Sort

/-!
# Offsets of pages

`ParsePagination` bounds the limit but not the page, and the offset of a page is computed in 64 bits:
each of the routines slices where the offset may have wrapped around. The mappers of the items are
parameters.
-/

namespace Denn.Proxy

open Denn.Core

/-! ### The query -/

def defaultPage : ℤ := 1

def defaultLimit : ℤ := 20

def maxLimit : ℤ := 50

/-- `ParsePagination` of the query values, which may be absent. -/
def parsePagination (rawPage rawLimit : Option String) : ℤ × ℤ :=
  let page := atoi (rawPage.getD "1")
  let page := if page < 1 then defaultPage else page
  let limit := atoi (rawLimit.getD "20")
  let limit := if limit < 1 then defaultLimit else limit
  let limit := if maxLimit < limit then maxLimit else limit
  (page, limit)

lemma one_le_page (rawPage rawLimit : Option String) : 1 ≤ (parsePagination rawPage rawLimit).1 := by
  simp only [parsePagination, defaultPage]
  split_ifs <;> omega

lemma limit_bounds (rawPage rawLimit : Option String) :
    1 ≤ (parsePagination rawPage rawLimit).2 ∧ (parsePagination rawPage rawLimit).2 ≤ 50 := by
  simp only [parsePagination, defaultLimit, maxLimit]
  split_ifs <;> omega

/-- `(page - 1) * limit`. -/
def pageOffset (page limit : ℤ) : ℤ := wrap ((page - 1) * limit)

/-- `(total + limit - 1) / limit`, if there is anything. -/
def totalPagesOf (total limit : ℤ) : ℤ :=
  if 0 < total && 0 < limit then Int.tdiv (wrap (total + limit - 1)) limit else 0

/-! ### Books and albums -/

structure PagedItems where
  page : ℤ
  totalPages : ℤ
  totalResults : ℤ
  results : List SearchItem

section

variable {δ : Type} (mapSearchItem : δ → SearchItem) (now : Instant)

/-- The items that `GetTrendingBooks` slices. -/
def bookItems (docs : Slice δ) : List SearchItem :=
  filterEligibleSearchItems now (docs.val.map mapSearchItem)

def getTrendingBooks (docs : Slice δ) (page limit : ℤ) : Except Panic PagedItems := do
  let items := bookItems mapSearchItem now docs
  let total : ℤ := items.length
  let results ← pageSlice items (pageOffset page limit) limit
  return { page := page
           totalPages := totalPagesOf total limit
           totalResults := total
           results := results }

/-- A page of the chart, with the number of albums in it. -/
structure ChartAlbumsPage (δ : Type) where
  items : List δ
  total : ℤ
  limit : ℤ
  offset : ℤ

/-- `GetTrendingAlbums` of the client. -/
def clientGetTrendingAlbums (albums : Slice δ) (limit offset : ℤ) :
    Except Panic (ChartAlbumsPage δ) := do
  let items ← pageSlice albums.val offset limit
  return { items := items, total := albums.val.length, limit := limit, offset := offset }

/-- `GetTrendingAlbums` of the service. -/
def getTrendingAlbums (albums : Slice δ) (page limit : ℤ) : Except Panic PagedItems := do
  let data ← clientGetTrendingAlbums albums limit (pageOffset page limit)
  return { page := page
           totalPages := totalPagesOf data.total limit
           totalResults := data.total
           results := data.items.map mapSearchItem }

variable (releaseDate : δ → String)

/-- `sort.SliceStable` by release date, the latest first. -/
def sortByReleaseDate (albums : List δ) : List δ :=
  albums.insertionSort fun a b => releaseDate b ≤ releaseDate a

def chartFeedLimit : ℤ := 100

/-- The items that `GetRecentAlbums` slices: of the first albums of the chart. -/
def recentItems (albums : Slice δ) : List SearchItem :=
  filterEligibleSearchItems now
    ((sortByReleaseDate releaseDate (elementsFrom albums.val 0 chartFeedLimit)).map mapSearchItem)

def getRecentAlbums (albums : Slice δ) (page limit : ℤ) : Except Panic PagedItems := do
  let data ← clientGetTrendingAlbums albums chartFeedLimit 0
  let items := filterEligibleSearchItems now
    ((sortByReleaseDate releaseDate data.items).map mapSearchItem)
  let total : ℤ := items.length
  let results ← pageSlice items (pageOffset page limit) limit
  return { page := page
           totalPages := totalPagesOf total limit
           totalResults := total
           results := results }

end

/-! ### Trending games -/

structure Platform where
  name : String
  imageUrl : Option String := none
  deriving DecidableEq

structure PlayTime where
  hastily : ℤ
  normally : ℤ
  completely : ℤ
  deriving DecidableEq

structure GameDuration where
  source : String
  status : String
  hastilySeconds : Option ℤ := none
  normallySeconds : Option ℤ := none
  completelySeconds : Option ℤ := none
  sampleCount : ℤ := 0
  deriving DecidableEq

/-- The fields of a game that a card shows, its platforms and how long it takes. -/
structure Game where
  id : String
  contentType : String
  title : String
  description : Option String := none
  imageUrl : Option String := none
  releaseDate : Option String := none
  authors : List Author := []
  platforms : List Platform := []
  playTime : Option PlayTime := none
  duration : Option GameDuration := none
  deriving DecidableEq

structure ScoredGame (σ : Type) where
  game : Game
  score : σ

def Game.toSearchItem (game : Game) : SearchItem where
  id := game.id
  type := game.contentType
  title := game.title
  description := game.description
  imageUrl := game.imageUrl
  releaseDate := game.releaseDate
  authors := game.authors

section

variable {σ : Type} [Zero σ] [LE σ] [DecidableLE σ]

/-- The games with a score. -/
def scoredOnly (subset : List (ScoredGame σ)) : List Game :=
  (subset.filter fun s => !(s.score ≤ 0)).map (·.game)

def paginateScored (scored : Slice (ScoredGame σ)) (limit offset : ℤ) : Except Panic (List Game) :=
  (pageSlice scored.val offset limit).map scoredOnly

def paginateAndMap (scored : Slice (ScoredGame σ)) (limit offset : ℤ) :
    Except Panic (List SearchItem) :=
  (pageSlice scored.val offset limit).map fun subset => (scoredOnly subset).map Game.toSearchItem

end

/-! ### Totality -/

/-- The end of the page is an `int`, or the list ends before the offset that is computed. -/
def PageInRange (length : ℕ) (page limit : ℤ) : Prop :=
  page * limit ≤ maxInt ∨ length ≤ pageOffset page limit

/-- The elements of a page, by their indices. -/
def pageElements {α : Type} (items : List α) (page limit : ℤ) : List α :=
  elementsFrom items ((page - 1) * limit) limit

variable {α : Type} {items : List α} {page limit : ℤ}

lemma pageSlice_pageOffset_iff (hpage : 1 ≤ page) (hlimit : 0 < limit) (hlimit' : limit ≤ maxInt)
    (hlength : (items.length : ℤ) ≤ maxInt) :
    pageSlice items (pageOffset page limit) limit = .ok (pageElements items page limit) ↔
      PageInRange items.length page limit := by
  have hstart : 0 ≤ (page - 1) * limit := Int.mul_nonneg (by omega) hlimit.le
  have hend : (page - 1) * limit + limit = page * limit := by ring
  rw [pageOffset, pageElements, pageSlice_wrap_iff hstart hlimit hlimit' hlength, hend]
  rfl

/-- A result that only carries the elements is right exactly if they are. -/
lemma exists_return_iff {ε β : Type} {x : Except ε α} {f : α → β} {g : β → α}
    (hg : ∀ a, g (f a) = a) {a : α} :
    (∃ b, (do let a ← x; return f a) = Except.ok b ∧ g b = a) ↔ x = .ok a := by
  cases x with
  | error e => exact ⟨fun ⟨_, h, _⟩ => (nomatch h), nofun⟩
  | ok a' =>
    constructor
    · rintro ⟨b, hb, rfl⟩
      rw [← Except.ok.inj hb, hg]
    · intro h
      obtain rfl := Except.ok.inj h
      exact ⟨f a', rfl, hg a'⟩

/-- A page whose elements are filtered is also right if the filter drops all that a wrapped offset
    reads. -/
lemma map_pageSlice_iff {β : Type} {f : List α → List β} (hf : f [] = []) (hpage : 1 ≤ page)
    (hlimit : 0 < limit) (hlimit' : limit ≤ maxInt) (hlength : (items.length : ℤ) ≤ maxInt) :
    (pageSlice items (pageOffset page limit) limit).map f
        = .ok (f (pageElements items page limit)) ↔
      PageInRange items.length page limit ∨
        0 ≤ pageOffset page limit ∧ pageOffset page limit + limit ≤ maxInt ∧
          f (elementsFrom items (pageOffset page limit) limit) = [] := by
  by_cases hrange : PageInRange items.length page limit
  · rw [(pageSlice_pageOffset_iff hpage hlimit hlimit' hlength).mpr hrange]
    exact ⟨fun _ => .inl hrange, fun _ => rfl⟩
  · obtain ⟨hend, hpast⟩ := not_or.mp hrange
    have hoffset : pageOffset page limit ≤ maxInt := wrap_le _
    rw [pageSlice_eq hoffset hlimit hlimit' hlength, if_neg hpast]
    split_ifs with hbounds
    · have hstart : (items.length : ℤ) ≤ (page - 1) * limit := by
        have hmul : (page - 1) * limit = page * limit - limit := by ring
        have hend' := hbounds.2
        rw [pageOffset, hmul, wrap] at hend'
        rw [hmul]
        rw [maxInt] at *
        omega
      have hempty : pageElements items page limit = [] := elementsFrom_of_le hstart
      rw [hempty, hf]
      simp [Except.map, hrange, hbounds]
    · constructor
      · intro h
        cases h
      · rintro (h | ⟨hlow, hhigh, -⟩)
        · exact absurd h hrange
        · exact absurd ⟨hlow, hhigh⟩ hbounds

section

variable {δ σ : Type} [Zero σ] [LE σ] [DecidableLE σ] {mapSearchItem : δ → SearchItem}
  {now : Instant} {releaseDate : δ → String}

/-- A page of scored games is right also if no game has a score that is read at a wrapped offset. -/
def ScoredPageInRange (scored : List (ScoredGame σ)) (page limit : ℤ) : Prop :=
  PageInRange scored.length page limit ∨
    0 ≤ pageOffset page limit ∧ pageOffset page limit + limit ≤ maxInt ∧
      scoredOnly (elementsFrom scored (pageOffset page limit) limit) = []

lemma length_bookItems_le (docs : Slice δ) :
    ((bookItems mapSearchItem now docs).length : ℤ) ≤ maxInt := by
  have hfilter := List.length_filter_le
    (fun item : SearchItem => isGeneralReleaseEligible now item.releaseDate)
    (docs.val.map mapSearchItem)
  have hdocs := docs.2
  rw [List.length_map] at hfilter
  rw [bookItems, filterEligibleSearchItems]
  omega

lemma length_recentItems_le (albums : Slice δ) :
    ((recentItems mapSearchItem now releaseDate albums).length : ℤ) ≤ maxInt := by
  have hfilter := List.length_filter_le
    (fun item : SearchItem => isGeneralReleaseEligible now item.releaseDate)
    ((sortByReleaseDate releaseDate (elementsFrom albums.val 0 chartFeedLimit)).map mapSearchItem)
  have halbums := albums.2
  rw [List.length_map, sortByReleaseDate, List.length_insertionSort] at hfilter
  have htake : (elementsFrom albums.val 0 chartFeedLimit).length ≤ albums.val.length := by
    simp [elementsFrom]
  rw [recentItems, filterEligibleSearchItems, sortByReleaseDate]
  omega

lemma getRecentAlbums_eq (albums : Slice δ) (page limit : ℤ) :
    getRecentAlbums mapSearchItem now releaseDate albums page limit = (do
      let items := recentItems mapSearchItem now releaseDate albums
      let results ← pageSlice items (pageOffset page limit) limit
      return ⟨page, totalPagesOf items.length limit, items.length, results⟩) := by
  have hdata : clientGetTrendingAlbums albums chartFeedLimit 0
      = .ok ⟨elementsFrom albums.val 0 chartFeedLimit, albums.val.length, chartFeedLimit, 0⟩ := by
    rw [clientGetTrendingAlbums,
      pageSlice_of_le le_rfl (by decide) (show 0 + chartFeedLimit ≤ maxInt by decide) albums.2]
    rfl
  rw [getRecentAlbums, hdata]
  rfl

/-- For the page and the limit of any query, each of the routines returns the elements of the page,
    less the games without a score, exactly if the page is in range. -/
theorem pagination_total_iff (mapSearchItem : δ → SearchItem) (now : Instant)
    (releaseDate : δ → String) (rawPage rawLimit : Option String) :
    let page := (parsePagination rawPage rawLimit).1
    let limit := (parsePagination rawPage rawLimit).2
    (∀ docs : Slice δ,
      (∃ result, getTrendingBooks mapSearchItem now docs page limit = .ok result ∧
        result.results = pageElements (bookItems mapSearchItem now docs) page limit) ↔
      PageInRange (bookItems mapSearchItem now docs).length page limit) ∧
    (∀ albums : Slice δ,
      (∃ result, getRecentAlbums mapSearchItem now releaseDate albums page limit = .ok result ∧
        result.results
          = pageElements (recentItems mapSearchItem now releaseDate albums) page limit) ↔
      PageInRange (recentItems mapSearchItem now releaseDate albums).length page limit) ∧
    (∀ albums : Slice δ,
      (∃ result, clientGetTrendingAlbums albums limit (pageOffset page limit) = .ok result ∧
        result.items = pageElements albums.val page limit) ↔
      PageInRange albums.val.length page limit) ∧
    ∀ scored : Slice (ScoredGame σ),
      (paginateScored scored limit (pageOffset page limit)
          = .ok (scoredOnly (pageElements scored.val page limit)) ↔
        ScoredPageInRange scored.val page limit) ∧
      (paginateAndMap scored limit (pageOffset page limit)
          = .ok ((scoredOnly (pageElements scored.val page limit)).map Game.toSearchItem) ↔
        ScoredPageInRange scored.val page limit) := by
  intro page limit
  have hpage : 1 ≤ page := one_le_page rawPage rawLimit
  have hlimit : 0 < limit := (limit_bounds rawPage rawLimit).1
  have hlimit' : limit ≤ 50 := (limit_bounds rawPage rawLimit).2
  clear_value page limit
  have hmax : limit ≤ maxInt := by rw [maxInt]; omega
  refine ⟨fun docs => ?_, fun albums => ?_, fun albums => ?_, fun scored => ⟨?_, ?_⟩⟩
  · rw [← pageSlice_pageOffset_iff hpage hlimit hmax (length_bookItems_le docs)]
    exact exists_return_iff fun _ => rfl
  · rw [← pageSlice_pageOffset_iff hpage hlimit hmax (length_recentItems_le albums),
      getRecentAlbums_eq]
    exact exists_return_iff fun _ => rfl
  · rw [← pageSlice_pageOffset_iff hpage hlimit hmax albums.2]
    exact exists_return_iff fun _ => rfl
  · exact map_pageSlice_iff rfl hpage hlimit hmax scored.2
  · have h := map_pageSlice_iff (f := fun l => (scoredOnly l).map Game.toSearchItem) rfl hpage hlimit
      hmax scored.2
    simp only [List.map_eq_nil_iff] at h
    exact h

/-- The largest page of a chart with one album panics: its offset wraps around to a negative one. -/
theorem last_page_panics :
    ¬ ∀ (rawPage rawLimit : Option String) (albums : Slice String),
      let page := (parsePagination rawPage rawLimit).1
      let limit := (parsePagination rawPage rawLimit).2
      ∃ result, clientGetTrendingAlbums albums limit (pageOffset page limit) = .ok result ∧
        result.items = pageElements albums.val page limit := by
  intro h
  obtain ⟨result, hresult, -⟩ := h (some "9223372036854775807") none ⟨["album"], by decide⟩
  exact nomatch hresult

end

end Denn.Proxy
