import Denn.Core.OrderedMap
import Denn.Core.Ranking
import Denn.Core.Rounding
import Denn.Core.Window
import Denn.Proxy.Circuit
import Denn.Proxy.GamePages

/-!
# Trending games

The games of two popularity lists are fetched in batches, which append to one list as they complete; the
list is sorted by a score, and a page is cut from it. Double precision numbers are rationals that each
operation rounds.
-/

namespace Denn.Proxy

open Denn.Core

/-! ### Rows of IGDB -/

structure IgdbPlatform where
  id : ℤ
  name : String
  logoImageId : String := ""

structure IgdbTimeToBeat where
  gameId : ℤ
  hastily : ℤ := 0
  normally : ℤ := 0
  completely : ℤ := 0
  count : ℤ := 0

/-- A row with the names of its platforms and the time that it takes to beat the game. -/
structure IgdbGameDetail extends IgdbGame where
  platformDetails : List IgdbPlatform := []
  timeToBeats : Option IgdbTimeToBeat := none
  timeToBeatError : Bool := false

structure IgdbPopularityPrimitive where
  gameId : ℤ
  value : ℚ

def buildIgdbImageURL (imageId size : String) : Option String :=
  if imageId = "" then none
  else some ("https://images.igdb.com/igdb/image/upload" ++ "/t_" ++ size ++ "/" ++ imageId ++ ".jpg")

/-- The match of `/([^/]+)\.jpg$`, if there is one. -/
def extractImageID (url : String) : String :=
  let segment := (url.toList.reverse.takeWhile (· ≠ '/')).reverse
  let stem := segment.take (segment.length - 4)
  if segment.length < url.length && segment.drop (segment.length - 4) = ".jpg".toList && stem ≠ []
  then String.ofList stem else ""

def getImageIDFromCover (cover : IgdbImage) : String :=
  if cover.imageId ≠ "" then cover.imageId else extractImageID cover.url

def getPlatformLogo (logoImageId : String) : Option String :=
  if logoImageId ≠ "" then
    some ("https://images.igdb.com/igdb/image/upload/t_thumb/" ++ logoImageId ++ ".jpg")
  else none

def extractPlatforms (platforms : List IgdbPlatform) : List Platform :=
  platforms.map fun p => { name := p.name, imageUrl := getPlatformLogo p.logoImageId }

def extractPlayTime (timeToBeat : Option IgdbTimeToBeat) : Option PlayTime :=
  timeToBeat.map fun t => ⟨t.hastily, t.normally, t.completely⟩

def maxGameDurationSeconds : ℤ := 3000 * 60 * 60

def normalizeGameDurationSeconds (value : ℤ) : Option ℤ :=
  if value ≤ 0 ∨ maxGameDurationSeconds < value then none else some value

/-- The durations that are set do not decrease. -/
def hasOrderedGameDurations (values : List (Option ℤ)) : Bool :=
  decide ((values.filterMap id).IsChain (· ≤ ·))

def extractDuration (timeToBeat : Option IgdbTimeToBeat) (failed : Bool) : GameDuration :=
  let duration : GameDuration := { source := "igdb", status := "no_data" }
  if failed then { duration with status := "error" }
  else match timeToBeat with
    | none => duration
    | some t =>
      let hastily := normalizeGameDurationSeconds t.hastily
      let normally := normalizeGameDurationSeconds t.normally
      let completely := normalizeGameDurationSeconds t.completely
      let ordered := hasOrderedGameDurations [hastily, normally, completely]
      let hastily := if ordered then hastily else none
      let completely := if ordered then completely else none
      { source := "igdb"
        status := if hastily.isSome || normally.isSome || completely.isSome then "matched"
          else "no_data"
        hastilySeconds := hastily
        normallySeconds := normally
        completelySeconds := completely
        sampleCount := if 0 < t.count then t.count else 0 }

def mapGame (item : IgdbGameDetail) : Game where
  id := itoa item.id
  contentType := "game"
  title := item.name
  description := buildDescription item.summary item.storyline
  imageUrl := buildIgdbImageURL (getImageIDFromCover item.cover) "720p"
  releaseDate := formatReleaseDate item.firstReleaseDate
  authors := extractAuthors item.involvedCompanies
  platforms := extractPlatforms item.platformDetails
  playTime := extractPlayTime item.timeToBeats
  duration := some (extractDuration item.timeToBeats item.timeToBeatError)

/-! ### Upstream -/

/-- The answers of IGDB, which are the same whenever they are asked for. -/
structure TrendingUpstream where
  getPopularityPrimitives : ℤ → ℤ → Except RequestError (List IgdbPopularityPrimitive)
  getBulkGamePreviews : List ℤ → Except RequestError (List IgdbGameDetail)
  getGameTimeToBeats : List ℤ → Except RequestError (List IgdbTimeToBeat)

def enrichTimeToBeats (upstream : TrendingUpstream) (data : List IgdbGameDetail) :
    List IgdbGameDetail :=
  if data.isEmpty then data
  else match upstream.getGameTimeToBeats (data.map fun item => item.id) with
    | .error _ => data.map fun item => { item with timeToBeatError := true }
    | .ok times =>
      let byGameID := OrderedMap.ofList (times.map fun t => (t.gameId, t))
      data.map fun item => { item with timeToBeats := byGameID.get? item.id }

def batchSize : ℕ := 5

/-- The slices of the identifiers that are fetched at once. -/
def bulkBatches (ids : List ℤ) : List (List ℤ) :=
  (List.range ((ids.length + batchSize - 1) / batchSize)).map fun i =>
    (ids.drop (i * batchSize)).take batchSize

structure BulkResult where
  games : List Game := []
  errors : List RequestError := []

/-- What a batch does under the lock when it has been fetched. -/
def BulkResult.complete (upstream : TrendingUpstream) (result : BulkResult) (batch : List ℤ) :
    BulkResult :=
  match upstream.getBulkGamePreviews batch with
  | .error err => { result with errors := result.errors ++ [err] }
  | .ok data =>
    { result with games := result.games ++ (enrichTimeToBeats upstream data).map mapGame }

/-- `bulkGames`, with the batches in the order in which they complete. -/
def bulkGames (upstream : TrendingUpstream) (order : List (List ℤ)) : BulkResult :=
  order.foldl (BulkResult.complete upstream) {}

/-! ### Scores -/

def weightWantToPlay : ℚ := toBinary64 (7 / 10)

def weightVisits : ℚ := toBinary64 (3 / 10)

def maxRecencyBoost : ℚ := 4

def populationTypeVisits : ℤ := 1

def populationTypeWantToPlay : ℤ := 2

abbrev PopularityMap := OrderedMap ℤ ℚ

def findMax (m : PopularityMap) : ℚ := m.values.foldl max 1

/-- The number of whole days between two midnights; the constants are rounded when they are used. -/
def calculateRecencyMultiplier (releaseDate : Option String) (now : Instant) : ℚ :=
  match releaseDate.bind parseFullDate with
  | none => 1
  | some t =>
    if now < t then 0
    else
      let daysOld := now / day - t / day
      if daysOld < 30 then maxRecencyBoost
      else if daysOld < 60 then toBinary64 (maxRecencyBoost * (8 / 10))
      else if daysOld < 90 then toBinary64 (maxRecencyBoost * (6 / 10))
      else if daysOld < 180 then toBinary64 (maxRecencyBoost * (4 / 10))
      else if daysOld < 365 then toBinary64 (maxRecencyBoost * (2 / 10))
      else 1

/-- The share of the maximum. -/
def normalizedValue (m : PopularityMap) (id : ℤ) : ℚ :=
  match m.get? id with
  | some v => if 0 < findMax m then toBinary64 (v / findMax m) else 0
  | none => 0

def calculateSingleGameScore (game : Game) (wantMap visitsMap : PopularityMap) (now : Instant) : ℚ :=
  let valWant := normalizedValue wantMap (atoi game.id)
  let valVisits := normalizedValue visitsMap (atoi game.id)
  let baseScore :=
    if 0 < valWant ∧ 0 < valVisits then
      toBinary64 (toBinary64 (weightWantToPlay * valWant) + toBinary64 (weightVisits * valVisits))
    else if 0 < valWant then valWant
    else if 0 < valVisits then valVisits
    else 0
  toBinary64 (baseScore * calculateRecencyMultiplier game.releaseDate now)

/-- `sort.Slice` by the score, the highest first: it promises nothing about the order of games with the
same score. -/
structure SortSlice where
  sort : List (ScoredGame ℚ) → List (ScoredGame ℚ)
  ranks : ∀ games, Ranks ScoredGame.score games (sort games)

def calculateScores (sortSlice : SortSlice) (games : List Game) (wantMap visitsMap : PopularityMap)
    (now : Instant) : List (ScoredGame ℚ) :=
  sortSlice.sort
    (games.map fun game => ⟨game, calculateSingleGameScore game wantMap visitsMap now⟩)

/-! ### The service -/

def popularityMap (primitives : List IgdbPopularityPrimitive) : PopularityMap :=
  .ofList (primitives.map fun p => (p.gameId, p.value))

def fetchLimit (limit : ℤ) : ℤ := min (wrap (limit * 4)) 500

def fetchTrendingPrimitives (upstream : TrendingUpstream) (limit : ℤ) :
    Except RequestError (PopularityMap × PopularityMap) := do
  let wantToPlay ← upstream.getPopularityPrimitives populationTypeWantToPlay (fetchLimit limit)
  let visits := upstream.getPopularityPrimitives populationTypeVisits (fetchLimit limit)
  return (popularityMap wantToPlay, popularityMap (visits.toOption.getD []))

/-- The identifiers that `resolveGameDetails` fetches, in ascending order. -/
def trendingIds (wantMap visitsMap : PopularityMap) : List ℤ :=
  ((wantMap.entries ++ visitsMap.entries).map Prod.fst).dedup.insertionSort (· ≤ ·)

/-- A game that runs in web browsers only. -/
def Game.isBrowserOnly (game : Game) : Bool := game.platforms.map (·.name) = ["Web browser"]

def filterTrending (now : Instant) (games : List Game) : List Game :=
  games.filter fun g => !g.isBrowserOnly && isGeneralReleaseEligible now g.releaseDate

/-- A request fails, or slices out of bounds. -/
inductive TrendingFailure where
  | failed (err : RequestError)
  | panicked (panic : Panic)
  deriving DecidableEq

/-- `GetTrendingGamesDetail`, with the batches in the order in which they complete. -/
def getTrendingGamesDetail (upstream : TrendingUpstream) (sortSlice : SortSlice) (now : Instant)
    (limit offset : ℤ) (order : List (List ℤ)) : Except TrendingFailure (List Game) :=
  match fetchTrendingPrimitives upstream limit with
  | .error err => .error (.failed err)
  | .ok (wantMap, visitsMap) =>
    let result := bulkGames upstream order
    if result.errors ≠ [] ∧ result.games = [] then .error (.failed result.errors.flatten)
    else
      let scored := calculateScores sortSlice (filterTrending now result.games) wantMap visitsMap now
      ((pageSlice scored offset limit).map scoredOnly).mapError .panicked

/-! ### Batches in any order -/

variable {upstream : TrendingUpstream} {sortSlice : SortSlice} {now : Instant} {limit offset : ℤ}
  {wantMap visitsMap : PopularityMap} {order order' : List (List ℤ)} {games : List Game}

/-- The batches of the games on either list. -/
def trendingBatches (wantMap visitsMap : PopularityMap) : List (List ℤ) :=
  bulkBatches (trendingIds wantMap visitsMap)

/-- Every batch of the order succeeds. -/
def AllAnswered (upstream : TrendingUpstream) (order : List (List ℤ)) : Prop :=
  ∀ batch ∈ order, ∃ data, upstream.getBulkGamePreviews batch = .ok data

/-- The games that a batch appends. -/
def batchGames (upstream : TrendingUpstream) (batch : List ℤ) : List Game :=
  (enrichTimeToBeats upstream ((upstream.getBulkGamePreviews batch).toOption.getD [])).map mapGame

lemma bulkGames_eq (h : AllAnswered upstream order) :
    bulkGames upstream order = ⟨order.flatMap (batchGames upstream), []⟩ := by
  have hfold : ∀ games, order.foldl (BulkResult.complete upstream) ⟨games, []⟩
      = ⟨games ++ order.flatMap (batchGames upstream), []⟩ := by
    induction order with
    | nil => simp
    | cons batch order ih =>
      intro games
      obtain ⟨hbatch, horder⟩ := List.forall_mem_cons.mp h
      obtain ⟨data, hdata⟩ := hbatch
      have hcomplete : BulkResult.complete upstream ⟨games, []⟩ batch
          = ⟨games ++ batchGames upstream batch, []⟩ := by
        simp only [BulkResult.complete, batchGames, hdata]
        rfl
      rw [List.foldl_cons, hcomplete, ih horder, List.flatMap_cons, List.append_assoc]
  exact hfold []

/-- The games that are scored if the batches complete in some order. -/
def eligibleGames (upstream : TrendingUpstream) (now : Instant) (order : List (List ℤ)) :
    List Game :=
  filterTrending now (bulkGames upstream order).games

lemma AllAnswered.perm (h : AllAnswered upstream order) (hperm : order'.Perm order) :
    AllAnswered upstream order' :=
  fun batch hbatch => h batch (hperm.subset hbatch)

/-- The order in which the batches complete permutes the games. -/
lemma eligibleGames_perm (now : Instant) (h : AllAnswered upstream order)
    (hperm : order'.Perm order) :
    (eligibleGames upstream now order').Perm (eligibleGames upstream now order) := by
  rw [eligibleGames, eligibleGames, bulkGames_eq h, bulkGames_eq (h.perm hperm)]
  exact (hperm.flatMap_right _).filter _

/-! ### Pages of the ranking -/

def withScore (wantMap visitsMap : PopularityMap) (now : Instant) (game : Game) : ScoredGame ℚ :=
  ⟨game, calculateSingleGameScore game wantMap visitsMap now⟩

/-- The score of a game in a request. -/
def trendingScore (wantMap visitsMap : PopularityMap) (now : Instant) (game : Game) : ℚ :=
  calculateSingleGameScore game wantMap visitsMap now

lemma getTrendingGamesDetail_eq (hmaps : fetchTrendingPrimitives upstream limit
      = .ok (wantMap, visitsMap)) (h : AllAnswered upstream order) :
    getTrendingGamesDetail upstream sortSlice now limit offset order
      = ((pageSlice (sortSlice.sort ((eligibleGames upstream now order).map
          (withScore wantMap visitsMap now))) offset limit).map scoredOnly).mapError .panicked := by
  unfold getTrendingGamesDetail
  simp only [hmaps, eligibleGames, bulkGames_eq h]
  rfl

lemma map_game_withScore (wantMap visitsMap : PopularityMap) (now : Instant) (games : List Game) :
    (games.map (withScore wantMap visitsMap now)).map (·.game) = games := by
  rw [List.map_map]
  exact List.map_id games

/-- The sort yields a ranking of the games. -/
lemma exists_ranking (sortSlice : SortSlice) (wantMap visitsMap : PopularityMap) (now : Instant)
    (games : List Game) :
    ∃ ranking, Ranks (trendingScore wantMap visitsMap now) games ranking ∧
      sortSlice.sort (games.map (withScore wantMap visitsMap now))
        = ranking.map (withScore wantMap visitsMap now) := by
  have hranks := sortSlice.ranks (games.map (withScore wantMap visitsMap now))
  set sorted := sortSlice.sort (games.map (withScore wantMap visitsMap now))
  have hscores : sorted = (sorted.map (·.game)).map (withScore wantMap visitsMap now) := by
    rw [List.map_map]
    refine (List.map_id sorted).symm.trans (List.map_congr_left fun s hs => ?_)
    obtain ⟨game, -, rfl⟩ := List.mem_map.mp (hranks.perm.subset hs)
    rfl
  refine ⟨sorted.map (·.game), ⟨?_, ?_⟩, hscores⟩
  · have hperm := hranks.perm.map (·.game)
    rwa [map_game_withScore] at hperm
  · have hsorted := hranks.sorted
    rw [hscores, List.pairwise_map] at hsorted
    exact hsorted

lemma scoredOnly_map (games : List Game) :
    scoredOnly (games.map (withScore wantMap visitsMap now))
      = above (trendingScore wantMap visitsMap now) 0 games := by
  rw [scoredOnly, List.filter_map, map_game_withScore, above]
  refine List.filter_congr fun game _ => ?_
  by_cases hscore : calculateSingleGameScore game wantMap visitsMap now ≤ 0
  · simp [withScore, trendingScore, hscore, not_lt.mpr hscore]
  · simp [withScore, trendingScore, hscore, not_le.mp hscore]

/-- What is shown of an interval of a ranking. -/
lemma scoredOnly_page {ranking : List Game}
    (h : Ranks (trendingScore wantMap visitsMap now) games ranking) (start size : ℕ) :
    scoredOnly (((ranking.map (withScore wantMap visitsMap now)).drop start).take size)
      = ((above (trendingScore wantMap visitsMap now) 0 ranking).drop start).take size := by
  rw [← List.map_drop, ← List.map_take, scoredOnly_map, h.above_page]

/-- Whether a page is out of bounds depends on the length of the list only. -/
lemma pageSlice_congr {ys zs : List (ScoredGame ℚ)} (hlength : ys.length = zs.length)
    (h : ∀ start size, scoredOnly ((ys.drop start).take size) = scoredOnly ((zs.drop start).take size))
    (offset limit : ℤ) :
    (pageSlice ys offset limit).map scoredOnly = (pageSlice zs offset limit).map scoredOnly := by
  have hslice : ∀ low high, (sliceOf ys low high).map scoredOnly
      = (sliceOf zs low high).map scoredOnly := by
    intro low high
    rw [sliceOf, sliceOf, hlength]
    split_ifs
    · exact congrArg Except.ok (h _ _)
    · rfl
  simp only [pageSlice, hlength]
  split_ifs
  · rfl
  · exact hslice _ _
  · exact hslice _ _

/-! ### Scheduling -/

/-- The pages do not depend on the order in which the batches complete, and those of as many requests
as it takes show every eligible game with a score once, by its score. -/
structure TrendingSettled (upstream : TrendingUpstream) (sortSlice : SortSlice) (now : Instant)
    (limit : ℤ) (wantMap visitsMap : PopularityMap) : Prop where
  same : ∀ offset order order', order.Perm (trendingBatches wantMap visitsMap) →
    order'.Perm (trendingBatches wantMap visitsMap) →
    getTrendingGamesDetail upstream sortSlice now limit offset order
      = getTrendingGamesDetail upstream sortSlice now limit offset order'
  complete : ∀ (orders : ℕ → List (List ℤ)) (count : ℕ),
    (∀ k, (orders k).Perm (trendingBatches wantMap visitsMap)) →
    (eligibleGames upstream now (trendingBatches wantMap visitsMap)).length ≤ count * limit →
    count * limit ≤ maxInt →
    ∃ pages : ℕ → List Game,
      (∀ k < count,
        getTrendingGamesDetail upstream sortSlice now limit (k * limit) (orders k) = .ok (pages k)) ∧
      ((List.range count).flatMap pages).Perm
        (above (trendingScore wantMap visitsMap now) 0
          (eligibleGames upstream now (trendingBatches wantMap visitsMap))) ∧
      ((List.range count).flatMap pages).Pairwise fun a b =>
        trendingScore wantMap visitsMap now b ≤ trendingScore wantMap visitsMap now a

/-- The eligible games come in one order whichever the order of the batches. -/
def OneOrder (upstream : TrendingUpstream) (now : Instant) (wantMap visitsMap : PopularityMap) : Prop :=
  ∀ order order', order.Perm (trendingBatches wantMap visitsMap) →
    order'.Perm (trendingBatches wantMap visitsMap) →
    eligibleGames upstream now order = eligibleGames upstream now order'

/-- What a request shows of a ranking. -/
lemma exists_shown (sortSlice : SortSlice) (now : Instant)
    (hmaps : fetchTrendingPrimitives upstream limit = .ok (wantMap, visitsMap))
    (h : AllAnswered upstream order) :
    ∃ ranking, Ranks (trendingScore wantMap visitsMap now) (eligibleGames upstream now order) ranking ∧
      ∀ offset, getTrendingGamesDetail upstream sortSlice now limit offset order
        = ((pageSlice (ranking.map (withScore wantMap visitsMap now)) offset limit).map
            scoredOnly).mapError .panicked := by
  obtain ⟨ranking, hranks, hsort⟩ :=
    exists_ranking sortSlice wantMap visitsMap now (eligibleGames upstream now order)
  refine ⟨ranking, hranks, fun offset => ?_⟩
  rw [getTrendingGamesDetail_eq hmaps h, hsort]

/-- A page whose end is an `int` shows an interval of the games with a score. -/
lemma shown_page {ranking : List Game}
    (hranks : Ranks (trendingScore wantMap visitsMap now) games ranking) (hlimit : 1 ≤ limit)
    (hslice : (games.length : ℤ) ≤ maxInt) (hoffset : 0 ≤ offset) (hend : offset + limit ≤ maxInt) :
    (pageSlice (ranking.map (withScore wantMap visitsMap now)) offset limit).map scoredOnly
      = .ok (((above (trendingScore wantMap visitsMap now) 0 ranking).drop offset.toNat).take
          limit.toNat) := by
  have hlength : ((ranking.map (withScore wantMap visitsMap now)).length : ℤ) ≤ maxInt := by
    rw [List.length_map, hranks.perm.length_eq]
    exact hslice
  rw [pageSlice_of_le hoffset (by omega) hend hlength, ← scoredOnly_page hranks]
  rfl

/-- All the pages of one list of games with a score. -/
lemma flatMap_pages {shown : List Game} {count : ℕ} (hlimit : 1 ≤ limit)
    (hcount : (shown.length : ℤ) ≤ count * limit) :
    ((List.range count).flatMap fun k : ℕ => (shown.drop ((k : ℤ) * limit).toNat).take limit.toNat)
      = shown := by
  obtain ⟨size, rfl⟩ := Int.eq_ofNat_of_zero_le (by omega : 0 ≤ limit)
  have hwindows := flatMap_window size count shown
  rw [List.take_of_length_le (by exact_mod_cast hcount), List.range'_eq_map_range,
    List.flatMap_map] at hwindows
  refine (List.flatMap_congr fun k _ => ?_).trans hwindows
  have hstart : ((k : ℤ) * size).toNat = (1 + k - 1) * size := by
    rw [Nat.add_sub_cancel_left]
    exact_mod_cast Int.toNat_natCast (k * size)
  rw [hstart, window]
  rfl

/-- A sort that ranks two lists of games in two given ways. -/
lemma exists_sortSlice {xs ys xs' ys' : List (ScoredGame ℚ)} (hxs : Ranks ScoredGame.score xs ys)
    (hxs' : Ranks ScoredGame.score xs' ys') (hne : xs ≠ xs') :
    ∃ sortSlice : SortSlice, sortSlice.sort xs = ys ∧ sortSlice.sort xs' = ys' := by
  classical
  refine ⟨⟨fun games => if games = xs then ys else if games = xs' then ys'
    else games.insertionSort fun a b => b.score ≤ a.score, fun games => ?_⟩, ?_, ?_⟩
  · split_ifs with hleft hright
    · exact hleft ▸ hxs
    · exact hright ▸ hxs'
    · exact ranks_insertionSort ScoredGame.score games
  · exact if_pos rfl
  · simp only [hne.symm, if_false, if_true]

lemma ranks_withScore {ranking : List Game}
    (h : Ranks (trendingScore wantMap visitsMap now) games ranking) :
    Ranks ScoredGame.score (games.map (withScore wantMap visitsMap now))
      (ranking.map (withScore wantMap visitsMap now)) :=
  ⟨h.perm.map _, List.pairwise_map.mpr h.sorted⟩

/-- Without ties, or with one order of the games, every request cuts its page from one list. -/
lemma exists_shown_of_settled (sortSlice : SortSlice)
    (hmaps : fetchTrendingPrimitives upstream limit = .ok (wantMap, visitsMap))
    (hanswered : AllAnswered upstream (trendingBatches wantMap visitsMap))
    (hcondition : OneOrder upstream now wantMap visitsMap ∨
      TiesEqual (trendingScore wantMap visitsMap now) 0
        (eligibleGames upstream now (trendingBatches wantMap visitsMap))) :
    ∃ ranking,
      Ranks (trendingScore wantMap visitsMap now)
        (eligibleGames upstream now (trendingBatches wantMap visitsMap)) ranking ∧
      ∀ order, order.Perm (trendingBatches wantMap visitsMap) → ∀ offset,
        getTrendingGamesDetail upstream sortSlice now limit offset order
          = ((pageSlice (ranking.map (withScore wantMap visitsMap now)) offset limit).map
              scoredOnly).mapError .panicked := by
  obtain ⟨ranking, hranks, hshown⟩ := exists_shown sortSlice now hmaps hanswered
  refine ⟨ranking, hranks, fun order horder offset => ?_⟩
  obtain ⟨ranking', hranks', hshown'⟩ :=
    exists_shown sortSlice now hmaps (hanswered.perm horder)
  rcases hcondition with hone | hties
  · rw [getTrendingGamesDetail_eq hmaps (hanswered.perm horder), hone order _ horder (.refl _),
      ← getTrendingGamesDetail_eq hmaps hanswered, hshown]
  · have hperm := hranks'.perm_left (eligibleGames_perm now hanswered horder)
    have habove := hperm.above_eq hranks hties
    rw [hshown', pageSlice_congr _ fun start size => ?_]
    · rw [List.length_map, List.length_map, hperm.perm.length_eq, hranks.perm.length_eq]
    · rw [scoredOnly_page hperm, scoredOnly_page hranks, habove]

lemma trendingSettled_of
    (hmaps : fetchTrendingPrimitives upstream limit = .ok (wantMap, visitsMap))
    (hanswered : AllAnswered upstream (trendingBatches wantMap visitsMap)) (hlimit : 1 ≤ limit)
    (hslice : ((eligibleGames upstream now (trendingBatches wantMap visitsMap)).length : ℤ) ≤ maxInt)
    (hcondition : OneOrder upstream now wantMap visitsMap ∨
      TiesEqual (trendingScore wantMap visitsMap now) 0
        (eligibleGames upstream now (trendingBatches wantMap visitsMap))) :
    TrendingSettled upstream sortSlice now limit wantMap visitsMap := by
  obtain ⟨ranking, hranks, hshown⟩ :=
    exists_shown_of_settled sortSlice hmaps hanswered hcondition
  refine ⟨fun offset order order' horder horder' => ?_, fun orders count horders hcount hend => ?_⟩
  · rw [hshown order horder, hshown order' horder']
  · let shown := above (trendingScore wantMap visitsMap now) 0 ranking
    have hlength : (shown.length : ℤ) ≤ count * limit := by
      have hfilter : shown.length ≤ ranking.length := List.length_filter_le _ _
      rw [hranks.perm.length_eq] at hfilter
      exact le_trans (by exact_mod_cast hfilter) hcount
    have hpages := flatMap_pages hlimit hlength
    refine ⟨fun k => (shown.drop ((k : ℤ) * limit).toNat).take limit.toNat, fun k hk => ?_, ?_, ?_⟩
    · have hstart : (0 : ℤ) ≤ k * limit := Int.mul_nonneg (Int.natCast_nonneg k) (by omega)
      have hstop : (k : ℤ) * limit + limit ≤ maxInt := by
        have hle : ((k : ℤ) + 1) * limit ≤ count * limit :=
          Int.mul_le_mul_of_nonneg_right (by exact_mod_cast hk) (by omega)
        rw [add_mul, one_mul] at hle
        exact hle.trans hend
      rw [hshown _ (horders k), shown_page hranks hlimit hslice hstart hstop]
      rfl
    · rw [hpages]
      exact hranks.above.perm
    · rw [hpages]
      exact hranks.above.sorted

/-- The page that a game stands on shows it at its place. -/
lemma getElem?_page {front back : List Game} (game : Game) {start size : ℕ}
    (hstart : start ≤ front.length) (hsize : front.length < start + size) :
    (((front ++ game :: back).drop start).take size)[front.length - start]? = some game := by
  rw [List.getElem?_take_of_lt (by omega), List.getElem?_drop, Nat.add_sub_cancel' hstart]
  simp

/-- Two orders of the games and a tie are enough for a sort that lets a page depend on the order. -/
lemma oneOrder_or_tiesEqual
    (hmaps : fetchTrendingPrimitives upstream limit = .ok (wantMap, visitsMap))
    (hanswered : AllAnswered upstream (trendingBatches wantMap visitsMap)) (hlimit : 1 ≤ limit)
    (hlimit' : limit ≤ maxInt)
    (hslice : ((eligibleGames upstream now (trendingBatches wantMap visitsMap)).length : ℤ) ≤ maxInt)
    (h : ∀ sortSlice, TrendingSettled upstream sortSlice now limit wantMap visitsMap) :
    OneOrder upstream now wantMap visitsMap ∨
      TiesEqual (trendingScore wantMap visitsMap now) 0
        (eligibleGames upstream now (trendingBatches wantMap visitsMap)) := by
  by_contra hneither
  obtain ⟨hone, hties⟩ := not_or.mp hneither
  simp only [OneOrder, TiesEqual, not_forall] at hone hties
  obtain ⟨order, order', horder, horder', hne⟩ := hone
  obtain ⟨a, ha, b, hb, hpositive, htie, hab⟩ := hties
  obtain ⟨front, back, hfront, hranks, hranks'⟩ := exists_ranks_swapped ha hb hab htie
  have hleft := hranks.perm_left (eligibleGames_perm now hanswered horder).symm
  have hright := hranks'.perm_left (eligibleGames_perm now hanswered horder').symm
  obtain ⟨sortSlice, hsort, hsort'⟩ :
      ∃ sortSlice : SortSlice,
        sortSlice.sort ((eligibleGames upstream now order).map (withScore wantMap visitsMap now))
          = (front ++ a :: b :: back).map (withScore wantMap visitsMap now) ∧
        sortSlice.sort ((eligibleGames upstream now order').map (withScore wantMap visitsMap now))
          = (front ++ b :: a :: back).map (withScore wantMap visitsMap now) := by
    refine exists_sortSlice (ranks_withScore hleft) (ranks_withScore hright) fun heq => hne ?_
    have hgames := congrArg (List.map (·.game)) heq
    rwa [map_game_withScore, map_game_withScore] at hgames
  have hlength : (front.length : ℤ) + 1 ≤ maxInt := by
    have hle := hranks.perm.length_eq
    rw [List.length_append, List.length_cons] at hle
    omega
  -- the page that ends with the first game of the tie
  let offset : ℤ := max (front.length + 1 - limit) 0
  have hoffset : 0 ≤ offset := le_max_right _ _
  have hend : offset + limit ≤ maxInt := by omega
  have hshown : ∀ c d, trendingScore wantMap visitsMap now c = trendingScore wantMap visitsMap now a →
      above (trendingScore wantMap visitsMap now) 0 (front ++ c :: d :: back)
        = front ++ c :: above (trendingScore wantMap visitsMap now) 0 (d :: back) := by
    intro c d hc
    have hkeep : above (trendingScore wantMap visitsMap now) 0 front = front :=
      List.filter_eq_self.mpr fun e he => by simpa using hpositive.trans (hfront e he)
    rw [above, List.filter_append, ← above, hkeep, List.filter_cons_of_pos (by simpa [hc])]
    rfl
  have hsame := (h sortSlice).same offset order order' horder horder'
  rw [getTrendingGamesDetail_eq hmaps (hanswered.perm horder),
    getTrendingGamesDetail_eq hmaps (hanswered.perm horder'), hsort, hsort',
    shown_page hranks hlimit hslice hoffset hend, shown_page hranks' hlimit hslice hoffset hend,
    hshown a b rfl, hshown b a htie.symm] at hsame
  have hpages := congrArg (fun page : List Game => page[front.length - offset.toNat]?)
    (Except.ok.inj hsame)
  have hstart : offset.toNat ≤ front.length := by omega
  have hsize : front.length < offset.toNat + limit.toNat := by omega
  simp only [getElem?_page a hstart hsize, getElem?_page b hstart hsize] at hpages
  exact hab (Option.some.inj hpages)

/-- If all batches succeed, the pages do not depend on the order in which they complete and together
show every eligible game with a score once, by its score, exactly if no two different games tie with a
score or the games come in one order anyway. -/
theorem trending_settled_iff (upstream : TrendingUpstream) (now : Instant) (limit : ℤ)
    (hlimit : 1 ≤ limit) (hlimit' : limit ≤ maxInt) (wantMap visitsMap : PopularityMap)
    (hmaps : fetchTrendingPrimitives upstream limit = .ok (wantMap, visitsMap))
    (hanswered : AllAnswered upstream (trendingBatches wantMap visitsMap))
    (hslice : ((eligibleGames upstream now (trendingBatches wantMap visitsMap)).length : ℤ) ≤ maxInt) :
    (∀ sortSlice, TrendingSettled upstream sortSlice now limit wantMap visitsMap) ↔
    OneOrder upstream now wantMap visitsMap ∨
      TiesEqual (trendingScore wantMap visitsMap now) 0
        (eligibleGames upstream now (trendingBatches wantMap visitsMap)) :=
  ⟨oneOrder_or_tiesEqual hmaps hanswered hlimit hlimit' hslice,
    fun hcondition _ => trendingSettled_of hmaps hanswered hlimit hslice hcondition⟩

/-- A sort that keeps the order of games with the same score, as `sort.Slice` does with a short list. -/
def stableSort : SortSlice where
  sort games := games.insertionSort fun a b => b.score ≤ a.score
  ranks := ranks_insertionSort ScoredGame.score

/-- Six games that are wanted equally, all of them old. -/
def tiedUpstream : TrendingUpstream where
  getPopularityPrimitives type _ :=
    .ok (if type = populationTypeWantToPlay then [1, 2, 3, 4, 5, 6].map fun id => ⟨id, 1⟩ else [])
  getBulkGamePreviews ids := .ok (ids.map fun id => { id, firstReleaseDate := 86400 })
  getGameTimeToBeats _ := .ok []

def tiedPrimitives : PopularityMap := popularityMap ([1, 2, 3, 4, 5, 6].map fun id => ⟨id, 1⟩)

/-- The pages of the tied games depend on a tie and on the order of their two batches. -/
theorem trending_settled_tied :
    (∀ sortSlice, TrendingSettled tiedUpstream sortSlice (1000 * day) 3 tiedPrimitives
      (popularityMap [])) ↔
    OneOrder tiedUpstream (1000 * day) tiedPrimitives (popularityMap []) ∨
      TiesEqual (trendingScore tiedPrimitives (popularityMap []) (1000 * day)) 0
        (eligibleGames tiedUpstream (1000 * day)
          (trendingBatches tiedPrimitives (popularityMap []))) :=
  trending_settled_iff tiedUpstream (1000 * day) 3 (by decide) (by decide) tiedPrimitives
    (popularityMap []) rfl (fun _ _ => ⟨_, rfl⟩) (by decide +kernel)

/-- The first page starts with the batch that completes first. -/
theorem trending_order_shown :
    fetchTrendingPrimitives tiedUpstream 1 = .ok (tiedPrimitives, popularityMap []) ∧
    trendingBatches tiedPrimitives (popularityMap []) = [[1, 2, 3, 4, 5], [6]] ∧
    AllAnswered tiedUpstream [[1, 2, 3, 4, 5], [6]] ∧
    ((getTrendingGamesDetail tiedUpstream stableSort (1000 * day) 1 0
      [[1, 2, 3, 4, 5], [6]]).toOption.map (·.map (·.id))) = some ["1"] ∧
    ((getTrendingGamesDetail tiedUpstream stableSort (1000 * day) 1 0
      [[6], [1, 2, 3, 4, 5]]).toOption.map (·.map (·.id))) = some ["6"] :=
  ⟨rfl, by decide +kernel, fun _ _ => ⟨_, rfl⟩, by decide +kernel, by decide +kernel⟩

end Denn.Proxy
