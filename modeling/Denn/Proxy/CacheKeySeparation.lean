import Denn.Proxy.CacheKey

/-!
# Which calls share a cache entry

The key of a call is the filled template of its cache type. It does not depend on the order of the
arguments exactly when its free text contains no placeholder that is still to be replaced, and then
the parts of the key between its colons determine what the call sends upstream, but for the two
kinds of details and the two kinds of bulk requests.
-/

namespace Denn.CacheKey

open Denn.Core

variable (toLower : Char → Char)

/-! ### The condition -/

/-- The text contains the placeholder of none of the arguments. -/
def lacks (text : String) (names : List String) : Bool :=
  names.all fun name => !decide (placeholder name.toList <:+: text.toList)

/-- The free text of the call leaves the other arguments of its template alone. -/
def Call.orderSafe : Call → Bool
  | .tmdb (.searchMoviesWithAdult query _ _) | .tmdb (.searchTVShowsWithAdult query _ _) =>
    lacks (normalizeSearchCacheKey toLower query) ["page", "adult"]
  | .tmdb (.getMovieDetails _ append) | .tmdb (.getTVDetails _ append) => lacks append ["id"]
  | .tmdb (.getRecentMovies _ until_) | .tmdb (.getRecentTVShows _ until_) => lacks until_ ["page"]
  | .spotify (.searchAlbums query _ _) =>
    lacks (normalizeSearchCacheKey toLower query) ["limit", "offset"]
  | .igdb (.searchGames query _ _) =>
    lacks (normalizeSearchCacheKey toLower query) ["limit", "offset", "body_hash"]
  | _ => true

/-- The calls have one key and different upstream requests: details of a film and of a series, or
    the two bulk requests for games, should the hashes of their bodies collide. -/
def clash : Call → Call → Bool
  | .tmdb (.getMovieDetails id append), .tmdb (.getTVDetails id' append')
  | .tmdb (.getTVDetails id append), .tmdb (.getMovieDetails id' append') =>
    id = id' && append = append'
  | .igdb (.getBulkGames ids), .igdb (.getBulkGamePreviews ids')
  | .igdb (.getBulkGamePreviews ids), .igdb (.getBulkGames ids') =>
    !ids.isEmpty && ids = ids' && Igdb.hashBody (Igdb.bulkBody Igdb.detailFields ids)
      = Igdb.hashBody (Igdb.bulkBody Igdb.defaultFields ids)
  | _, _ => false

/-- Each call has one key, and a key that both have stands for one upstream request. -/
structure Separated (a b : Call) : Prop where
  left : ∀ key key', a.HasKey toLower key → a.HasKey toLower key' → key = key'
  right : ∀ key key', b.HasKey toLower key → b.HasKey toLower key' → key = key'
  upstream : ∀ key, a.HasKey toLower key → b.HasKey toLower key →
    a.upstream toLower = b.upstream toLower

/-! ### Values -/

/-- The text of a value that neither opens a placeholder nor separates pieces. -/
structure Plain (text : String) : Prop where
  noBrace : '{' ∉ text.toList
  noSeparator : ':' ∉ text.toList

lemma plain_itoa (i : ℤ) : Plain (itoa i) :=
  ⟨notMem_itoa (by decide) (by decide) i, notMem_itoa (by decide) (by decide) i⟩

lemma plain_joinInts (ids : List ℤ) : Plain (joinInts ids) :=
  ⟨notMem_joinInts (by decide) (by decide) (by decide) ids,
    notMem_joinInts (by decide) (by decide) (by decide) ids⟩

lemma plain_adultPolicy (allowAdult : Bool) : Plain (Tmdb.adultPolicy allowAdult) := by
  cases allowAdult <;> exact ⟨by decide, by decide⟩

lemma plain_hashBody (body : String) : Plain (Igdb.hashBody body) := by
  have hmem : ∀ c, c ∈ (Igdb.hashBody body).toList → c ∈ Sha256.hexDigits := by
    intro c hc
    rw [Igdb.hashBody, md5Hex, String.toList_ofList] at hc
    exact Md5.mem_hexDigits_of_mem_hexdigest hc
  exact ⟨fun h => absurd (hmem _ h) (by decide), fun h => absurd (hmem _ h) (by decide)⟩

lemma plain_empty : Plain "" := ⟨by decide, by decide⟩

lemma plain_seasonId (tvID seasonNumber : ℤ) : Plain (itoa tvID ++ "_s" ++ itoa seasonNumber) := by
  have htv := plain_itoa tvID
  have hseason := plain_itoa seasonNumber
  constructor
  · simp [htv.noBrace, hseason.noBrace]
  · simp [htv.noSeparator, hseason.noSeparator]

/-! ### Templates -/

/-- The key templates of the clients. -/
inductive Route where
  | searchMovies
  | searchTv
  | details
  | imagesSeason
  | watchProvidersSeason
  | popularMovies
  | popularTv
  | recentMovies
  | recentTv
  | spotifySearch
  | spotifyDetails
  | igdbSearch
  | igdbDetails
  | igdbBulk
  | igdbGameTimeToBeats
  | igdbPopular
  | igdbRecent
  | igdbPopularity
  deriving DecidableEq

namespace Route

def all : List Route :=
  [.searchMovies, .searchTv, .details, .imagesSeason, .watchProvidersSeason, .popularMovies,
    .popularTv, .recentMovies, .recentTv, .spotifySearch, .spotifyDetails, .igdbSearch,
    .igdbDetails, .igdbBulk, .igdbGameTimeToBeats, .igdbPopular, .igdbRecent, .igdbPopularity]

/-- The literal pieces at the start of a template. -/
def head : Route → List (List Char)
  | searchMovies => ["tmdb".toList, "search".toList, "movies".toList]
  | searchTv => ["tmdb".toList, "search".toList, "tv".toList]
  | details => ["tmdb".toList, "details".toList]
  | imagesSeason => ["tmdb".toList, "img".toList, "season".toList]
  | watchProvidersSeason => ["tmdb".toList, "wp".toList, "season".toList]
  | popularMovies => ["tmdb".toList, "popular".toList, "movies".toList]
  | popularTv => ["tmdb".toList, "popular".toList, "tv".toList]
  | recentMovies => ["tmdb".toList, "recent".toList, "movies".toList]
  | recentTv => ["tmdb".toList, "recent".toList, "tv".toList]
  | spotifySearch => ["spotify".toList, "search".toList]
  | spotifyDetails => ["spotify".toList, "details".toList]
  | igdbSearch => ["igdb".toList, "search".toList]
  | igdbDetails => ["igdb".toList, "details".toList]
  | igdbBulk => ["igdb".toList, "bulk".toList]
  | igdbGameTimeToBeats => ["igdb".toList, "game-time-to-beats".toList]
  | igdbPopular => ["igdb".toList, "popular".toList]
  | igdbRecent => ["igdb".toList, "recent".toList]
  | igdbPopularity => ["igdb".toList, "popularity".toList]

/-- The arguments of a template. -/
def names : Route → List String
  | searchMovies | searchTv => ["query", "page", "adult"]
  | details => ["id", "append"]
  | imagesSeason | watchProvidersSeason => ["id", "season"]
  | popularMovies | popularTv => ["page"]
  | recentMovies | recentTv => ["page", "until"]
  | spotifySearch => ["query", "limit", "offset"]
  | spotifyDetails => ["album_id"]
  | igdbSearch => ["query", "limit", "offset", "body_hash"]
  | igdbDetails => ["game_id", "body_hash"]
  | igdbBulk | igdbGameTimeToBeats => ["ids_hash", "body_hash"]
  | igdbPopular => ["limit", "offset", "body_hash"]
  | igdbRecent => ["limit", "offset", "until", "body_hash"]
  | igdbPopularity => ["popularity_type", "limit", "body_hash"]

/-- The argument that is free text. -/
def freeText : Route → String
  | searchMovies | searchTv | spotifySearch | igdbSearch => "query"
  | details => "append"
  | recentMovies | recentTv => "until"
  | spotifyDetails => "album_id"
  | _ => ""

instance (name : List Char) : Decidable (IsName name) :=
  decidable_of_iff (':' ∉ name ∧ '{' ∉ name ∧ '}' ∉ name)
    ⟨fun ⟨hs, hl, hr⟩ => ⟨hs, hl, hr⟩, fun ⟨hs, hl, hr⟩ => ⟨hs, hl, hr⟩⟩

lemma mem_all (route : Route) : route ∈ all := by
  cases route <;> decide

lemma isName {route : Route} : ∀ name ∈ route.names, IsName name.toList :=
  (by decide : ∀ route ∈ all, ∀ name ∈ route.names, IsName name.toList) route route.mem_all

lemma nodup_names (route : Route) : route.names.Nodup :=
  (by decide : ∀ route ∈ all, route.names.Nodup) route route.mem_all

lemma head_ne_nil (route : Route) : route.head ≠ [] :=
  (by decide : ∀ route ∈ all, route.head ≠ []) route route.mem_all

lemma head_plain {route : Route} : ∀ piece ∈ route.head, '{' ∉ piece ∧ ':' ∉ piece :=
  (by decide : ∀ route ∈ all, ∀ piece ∈ route.head, '{' ∉ piece ∧ ':' ∉ piece) route route.mem_all

lemma head_noBrace {route : Route} : ∀ piece ∈ route.head, '{' ∉ piece :=
  fun piece hpiece => (head_plain piece hpiece).1

/-- No template starts with the literal pieces of another one. -/
lemma eq_of_head_starts {route route' : Route} (h : route.head <+: route'.head) : route = route' :=
  (by decide : ∀ route ∈ all, ∀ route' ∈ all, route.head <+: route'.head → route = route')
    route route.mem_all route' route'.mem_all h

end Route

def Call.route : Call → Route
  | .tmdb (.searchMoviesWithAdult _ _ _) => .searchMovies
  | .tmdb (.searchTVShowsWithAdult _ _ _) => .searchTv
  | .tmdb (.getMovieDetails _ _) | .tmdb (.getTVDetails _ _) | .tmdb (.getSeasonDetails _ _) =>
    .details
  | .tmdb (.getSeasonWatchProviders _ _) => .watchProvidersSeason
  | .tmdb (.getSeasonImages _ _) => .imagesSeason
  | .tmdb (.getPopularMovies _) => .popularMovies
  | .tmdb (.getPopularTVShows _) => .popularTv
  | .tmdb (.getRecentMovies _ _) => .recentMovies
  | .tmdb (.getRecentTVShows _ _) => .recentTv
  | .spotify (.searchAlbums _ _ _) => .spotifySearch
  | .spotify (.getAlbum _) => .spotifyDetails
  | .igdb (.searchGames _ _ _) => .igdbSearch
  | .igdb (.getGame _) => .igdbDetails
  | .igdb (.getBulkGames _) | .igdb (.getBulkGamePreviews _) => .igdbBulk
  | .igdb (.getGameTimeToBeats _) => .igdbGameTimeToBeats
  | .igdb (.getPopularGames _ _) => .igdbPopular
  | .igdb (.getRecentGames _ _ _) => .igdbRecent
  | .igdb (.getPopularityPrimitives _ _) => .igdbPopularity

def argChars (args : List (String × String)) : List (List Char × List Char) :=
  args.map (Prod.map String.toList String.toList)

/-- How a request fits its template: the arguments are those of the template, and only the free
    text can contain a brace or a colon. -/
structure Layout (client : CachedClient) (route : Route) (request : CachedRequest) : Prop where
  template_eq : ∃ tmpl, client.config.keyTemplates.lookup request.cacheType = some tmpl ∧
    tmpl.toList = template route.head (argChars request.cacheArgs)
  names_eq : request.cacheArgs.map Prod.fst = route.names
  plain : ∀ arg ∈ request.cacheArgs, arg.1 ≠ route.freeText → Plain arg.2

section Layout

variable {toLower}

lemma layout_tmdb (call : TmdbCall) :
    Layout Tmdb.client (Call.tmdb call).route (call.request toLower) := by
  cases call <;> refine ⟨⟨_, rfl, rfl⟩, rfl, ?_⟩ <;>
    simp [TmdbCall.request, Tmdb.searchMoviesWithAdult, Tmdb.searchTVShowsWithAdult, Tmdb.search,
      Tmdb.getMovieDetails, Tmdb.getTVDetails, Tmdb.getSeasonDetails, Tmdb.getSeasonWatchProviders,
      Tmdb.getSeasonImages, Tmdb.getPopularMovies, Tmdb.getPopularTVShows, Tmdb.getRecentMovies,
      Tmdb.getRecentTVShows, cachedGet, Call.route, Route.freeText, plain_itoa, plain_adultPolicy,
      plain_seasonId]

lemma layout_spotify (call : SpotifyCall) :
    Layout Spotify.client (Call.spotify call).route (call.request toLower) := by
  cases call <;> refine ⟨⟨_, rfl, rfl⟩, rfl, ?_⟩ <;>
    simp [SpotifyCall.request, Spotify.searchAlbums, Spotify.getAlbum, cachedGet, Call.route,
      Route.freeText, plain_itoa]

lemma layout_bulkGames {ids : List ℤ} {fields : String} {request : CachedRequest}
    (h : Igdb.bulkGames ids fields = some request) : Layout Igdb.client .igdbBulk request := by
  rw [Igdb.bulkGames] at h
  split at h
  · cases h
  · cases h
    refine ⟨⟨_, rfl, rfl⟩, rfl, ?_⟩
    simp [cachedPost, plain_joinInts, plain_hashBody]

lemma layout_igdb {call : IgdbCall} {request : CachedRequest}
    (h : call.request toLower = some request) :
    Layout Igdb.client (Call.igdb call).route request := by
  cases call with
  | getBulkGames ids => exact layout_bulkGames h
  | getBulkGamePreviews ids => exact layout_bulkGames h
  | getGameTimeToBeats ids =>
    rw [IgdbCall.request, Igdb.getGameTimeToBeats] at h
    split at h
    · cases h
    · cases h
      refine ⟨⟨_, rfl, rfl⟩, rfl, ?_⟩
      simp [cachedPost, plain_joinInts, plain_hashBody]
  | _ =>
    cases h
    refine ⟨⟨_, rfl, rfl⟩, rfl, ?_⟩
    simp [Igdb.searchGames, Igdb.getGame, Igdb.getPopularGames, Igdb.getRecentGames,
      Igdb.getPopularityPrimitives, cachedPost, Call.route, Route.freeText, plain_itoa,
      plain_hashBody]

lemma layout_of_request {call : Call} {request : CachedRequest}
    (h : call.request toLower = some request) : Layout call.client call.route request := by
  cases call with
  | tmdb call =>
    cases h
    exact layout_tmdb call
  | spotify call =>
    cases h
    exact layout_spotify call
  | igdb call => exact layout_igdb h

end Layout

/-! ### Keys are filled templates -/

lemma toList_foldl_substitute (args : List (String × String)) (text : String) :
    (args.foldl substitute text).toList = fill (argChars args) text.toList := by
  induction args generalizing text with
  | nil => rfl
  | cons arg args ih =>
    rw [List.foldl_cons, ih, substitute, String.toList_ofList]
    rfl

namespace Layout

variable {client : CachedClient} {route : Route} {request : CachedRequest}

lemma nodup (h : Layout client route request) : (request.cacheArgs.map Prod.fst).Nodup :=
  h.names_eq ▸ route.nodup_names

lemma argsForm (h : Layout client route request) : ArgsForm (argChars request.cacheArgs) := by
  have hname : ∀ arg ∈ request.cacheArgs, IsName arg.1.toList := by
    intro arg harg
    exact Route.isName arg.1 (h.names_eq ▸ List.mem_map_of_mem harg)
  have hfree : ∀ arg ∈ request.cacheArgs, '{' ∈ arg.2.toList → arg.1 = route.freeText := by
    intro arg harg hbrace
    by_contra hne
    exact (h.plain arg harg hne).noBrace hbrace
  refine ⟨?_, ?_, ?_⟩
  · intro arg harg
    obtain ⟨arg, hmem, rfl⟩ := List.mem_map.mp harg
    exact hname arg hmem
  · have hmap : (argChars request.cacheArgs).map Prod.fst
        = (request.cacheArgs.map Prod.fst).map String.toList := by
      simp [argChars]
    rw [hmap]
    exact h.nodup.map fun _ _ => String.toList_inj.mp
  · intro arg harg other hother hbrace hbrace'
    obtain ⟨arg, hmem, rfl⟩ := List.mem_map.mp harg
    obtain ⟨other, hmem', rfl⟩ := List.mem_map.mp hother
    have hfst : arg.1 = other.1 := (hfree arg hmem hbrace).trans (hfree other hmem' hbrace').symm
    rw [List.inj_on_of_nodup_map h.nodup hmem hmem' hfst]

lemma toList_key (h : Layout client route request) (order : List (String × String)) :
    (generateCacheKey client request.cacheType order).toList
      = "api:".toList ++ fill (argChars order) (template route.head (argChars request.cacheArgs)) := by
  obtain ⟨tmpl, hlookup, htmpl⟩ := h.template_eq
  rw [generateCacheKey, hlookup, String.toList_append, toList_foldl_substitute, htmpl]

lemma key_eq_iff (h : Layout client route request) (order order' : List (String × String)) :
    generateCacheKey client request.cacheType order
        = generateCacheKey client request.cacheType order' ↔
      fill (argChars order) (template route.head (argChars request.cacheArgs))
        = fill (argChars order') (template route.head (argChars request.cacheArgs)) := by
  rw [← String.toList_inj, h.toList_key, h.toList_key, List.append_cancel_left_eq]

/-- The key is one for all orders exactly when no value contains another placeholder. -/
lemma key_orderFree_iff (h : Layout client route request) :
    (∀ order order', order.Perm request.cacheArgs → order'.Perm request.cacheArgs →
        generateCacheKey client request.cacheType order
          = generateCacheKey client request.cacheType order') ↔
      PlaceholderFree (argChars request.cacheArgs) := by
  rw [← fill_order_free_iff h.argsForm Route.head_noBrace route.head_ne_nil]
  constructor
  · intro hkeys order order' horder horder'
    have hback : ∀ chars : List (List Char × List Char), chars.Perm (argChars request.cacheArgs) →
        ∃ args : List (String × String), args.Perm request.cacheArgs ∧ argChars args = chars := by
      intro chars hchars
      refine ⟨chars.map (Prod.map String.ofList String.ofList), ?_, ?_⟩
      · simpa [argChars, Function.comp_def, Prod.map] using
          hchars.map (Prod.map String.ofList String.ofList)
      · simp [argChars, Function.comp_def, Prod.map]
    obtain ⟨args, hargs, rfl⟩ := hback order horder
    obtain ⟨args', hargs', rfl⟩ := hback order' horder'
    exact (h.key_eq_iff args args').mp (hkeys args args' hargs hargs')
  · intro hfill order order' horder horder'
    exact (h.key_eq_iff order order').mpr (hfill _ _ (horder.map _) (horder'.map _))

/-- Only the free text can contain a placeholder. -/
lemma placeholderFree_iff (h : Layout client route request) :
    PlaceholderFree (argChars request.cacheArgs) ↔
      ∀ arg ∈ request.cacheArgs, arg.1 = route.freeText →
        lacks arg.2 (route.names.filter (· ≠ route.freeText)) = true := by
  simp only [lacks, List.all_eq_true, List.mem_filter, Bool.not_eq_true', decide_eq_false_iff_not,
    decide_eq_true_eq, and_imp, ← h.names_eq, List.mem_map]
  constructor
  · rintro hfree arg harg hname _ ⟨other, hother, rfl⟩ hne
    refine hfree _ (List.mem_map_of_mem harg) _ (List.mem_map_of_mem hother) fun heq => ?_
    exact hne ((String.toList_inj.mp heq).trans hname)
  · intro hlacks arg harg other hother hne
    obtain ⟨arg, hmem, rfl⟩ := List.mem_map.mp harg
    obtain ⟨other, hmem', rfl⟩ := List.mem_map.mp hother
    by_cases hname : arg.1 = route.freeText
    · refine hlacks arg hmem hname other.1 ⟨other, hmem', rfl⟩ fun heq => hne ?_
      exact congrArg String.toList (heq.trans hname.symm)
    · exact not_placeholder_occurs (h.plain arg hmem hname).noBrace

end Layout

section Safe

variable {toLower} {call : Call} {request : CachedRequest}

lemma lacks_empty (names : List String) : lacks "" names = true := by
  simp [lacks, placeholder]

/-- A template without free text is safe. -/
lemma orderSafe_iff_of_notMem (h : Layout call.client call.route request)
    (hsafe : call.orderSafe toLower = true) (hfree : call.route.freeText ∉ call.route.names) :
    call.orderSafe toLower = true ↔ PlaceholderFree (argChars request.cacheArgs) := by
  rw [h.placeholderFree_iff]
  refine iff_of_true hsafe fun arg harg hname => absurd ?_ hfree
  rw [← h.names_eq, ← hname]
  exact List.mem_map_of_mem harg

lemma orderSafe_iff (h : call.request toLower = some request) :
    call.orderSafe toLower = true ↔ PlaceholderFree (argChars request.cacheArgs) := by
  have hlayout := layout_of_request h
  cases call with
  | tmdb call =>
    cases h
    rw [hlayout.placeholderFree_iff]
    cases call <;> simp [Call.orderSafe, TmdbCall.request, Tmdb.searchMoviesWithAdult, Call.route,
      Tmdb.searchTVShowsWithAdult, Tmdb.search, Tmdb.getMovieDetails, Tmdb.getTVDetails,
      Tmdb.getSeasonDetails, Tmdb.getSeasonWatchProviders, Tmdb.getSeasonImages,
      Tmdb.getPopularMovies, Tmdb.getPopularTVShows, Tmdb.getRecentMovies, Tmdb.getRecentTVShows,
      cachedGet, Route.freeText, Route.names, lacks_empty]
  | spotify call =>
    cases h
    rw [hlayout.placeholderFree_iff]
    cases call <;> simp [Call.orderSafe, SpotifyCall.request, Spotify.searchAlbums,
      Spotify.getAlbum, cachedGet, Call.route, Route.freeText, Route.names, lacks]
  | igdb call =>
    cases call with
    | searchGames query limit offset =>
      cases h
      rw [hlayout.placeholderFree_iff]
      simp [Call.orderSafe, Igdb.searchGames, cachedPost, Call.route, Route.freeText, Route.names]
    | _ =>
      exact orderSafe_iff_of_notMem hlayout rfl (by simp [Call.route, Route.names, Route.freeText])

end Safe

/-! ### What a key determines -/

/-- The parts of a key between its colons. -/
def keyParts (route : Route) (request : CachedRequest) : List (List Char) :=
  route.head ++ request.cacheArgs.flatMap fun arg => arg.2.toList.splitOn ':'

lemma splitOn_of_plain {text : String} (h : Plain text) :
    text.toList.splitOn ':' = [text.toList] :=
  List.splitOn_eq_singleton h.noSeparator

lemma splitOn_inj {text text' : String} (h : text.toList.splitOn ':' = text'.toList.splitOn ':') :
    text = text' := by
  have hback := congrArg [':'].intercalate h
  rwa [List.intercalate_splitOn, List.intercalate_splitOn, String.toList_inj] at hback

lemma flatMap_of_plain {args : List (String × String)} (h : ∀ arg ∈ args, Plain arg.2) :
    (args.flatMap fun arg => arg.2.toList.splitOn ':') = args.map fun arg => arg.2.toList := by
  induction args with
  | nil => rfl
  | cons arg args ih =>
    rw [List.flatMap_cons, splitOn_of_plain (h arg (by simp)), List.map_cons,
      ih fun other hother => h other (by simp [hother])]
    rfl

/-- Arguments with the same names, one of them free text, are read off their parts. -/
lemma args_inj {text : String} {args args' : List (String × String)}
    (hnames : args.map Prod.fst = args'.map Prod.fst) (hnodup : (args.map Prod.fst).Nodup)
    (hplain : ∀ arg ∈ args, arg.1 ≠ text → Plain arg.2)
    (hplain' : ∀ arg ∈ args', arg.1 ≠ text → Plain arg.2)
    (h : (args.flatMap fun arg => arg.2.toList.splitOn ':')
      = args'.flatMap fun arg => arg.2.toList.splitOn ':') : args = args' := by
  induction args generalizing args' with
  | nil => exact (List.map_eq_nil_iff.mp hnames.symm).symm
  | cons arg args ih =>
    obtain ⟨arg', args', rfl⟩ := List.exists_cons_of_ne_nil
      (show args' ≠ [] by rintro rfl; simp at hnames)
    rw [List.map_cons, List.map_cons, List.cons.injEq] at hnames
    have hnodup' := hnodup
    rw [List.map_cons, List.nodup_cons] at hnodup
    have htail : ∀ other ∈ args, other.1 ≠ text → Plain other.2 := fun other hother =>
      hplain other (List.mem_cons_of_mem _ hother)
    have htail' : ∀ other ∈ args', other.1 ≠ text → Plain other.2 := fun other hother =>
      hplain' other (List.mem_cons_of_mem _ hother)
    rw [List.flatMap_cons, List.flatMap_cons] at h
    by_cases hname : arg.1 = text
    · -- the free text comes first: what follows has one part for each argument
      have hrest : ∀ other ∈ args, Plain other.2 := fun other hother =>
        htail other hother fun heq => hnodup.1
          ((heq.trans hname.symm) ▸ List.mem_map_of_mem hother)
      have hrest' : ∀ other ∈ args', Plain other.2 := fun other hother =>
        htail' other hother fun heq => hnodup.1
          ((heq.trans hname.symm) ▸ hnames.2 ▸ List.mem_map_of_mem hother)
      have hlength : args.length = args'.length := by
        rw [← List.length_map Prod.fst, hnames.2, List.length_map]
      have hparts := h
      rw [flatMap_of_plain hrest, flatMap_of_plain hrest'] at hparts
      obtain ⟨hfirst, -⟩ := List.append_inj' hparts (by simp [hlength])
      rw [hfirst] at h
      have harg : arg = arg' := Prod.ext hnames.1 (splitOn_inj hfirst)
      rw [harg, ih hnames.2 hnodup.2 htail htail' (List.append_cancel_left h)]
    · have hfirst := splitOn_of_plain (hplain arg (by simp) hname)
      have hfirst' := splitOn_of_plain (hplain' arg' (by simp) (hnames.1 ▸ hname))
      rw [hfirst, hfirst', List.singleton_append, List.singleton_append, List.cons.injEq] at h
      have harg : arg = arg' := Prod.ext hnames.1 (String.toList_inj.mp h.1)
      rw [harg, ih hnames.2 hnodup.2 htail htail' h.2]

section Keys

variable {toLower} {a b : Call} {request request' : CachedRequest}

/-- The parts of every key of a safe call. -/
lemma splitOn_key {call : Call} (h : call.request toLower = some request)
    (hsafe : call.orderSafe toLower = true) {order : List (String × String)}
    (horder : order.Perm request.cacheArgs) :
    (generateCacheKey call.client request.cacheType order).toList.splitOn ':'
      = "api".toList :: keyParts call.route request := by
  have hlayout := layout_of_request h
  have hne : call.route.head ++ (argChars request.cacheArgs).map Prod.snd ≠ [] := by
    simp [call.route.head_ne_nil]
  have hchars : (argChars order).Perm (argChars request.cacheArgs) := horder.map _
  rw [hlayout.toList_key, fill_template hlayout.argsForm ((orderSafe_iff h).mp hsafe) hchars
    Route.head_noBrace call.route.head_ne_nil]
  have hcolon : ∀ text : List Char, ("api:".toList ++ text).splitOn ':'
      = "api".toList :: text.splitOn ':' := by
    intro text
    have hnot : ':' ∉ "api".toList := by decide
    exact List.splitOn_append_cons_self_of_not_mem hnot text
  have hhead : call.route.head.flatMap (·.splitOn ':') = call.route.head := by
    calc call.route.head.flatMap (·.splitOn ':') = call.route.head.flatMap fun piece => [piece] :=
          List.flatMap_congr fun piece hpiece =>
            List.splitOn_eq_singleton (Route.head_plain piece hpiece).2
      _ = call.route.head := by simp
  rw [hcolon, splitOn_join hne, List.flatMap_append, hhead, keyParts, argChars, List.map_map,
    List.flatMap_map]
  rfl

/-- Calls that get one key have one template and the same arguments. -/
lemma args_eq_of_key_eq (h : a.request toLower = some request)
    (h' : b.request toLower = some request') (hsafe : a.orderSafe toLower = true)
    (hsafe' : b.orderSafe toLower = true) {order order' : List (String × String)}
    (horder : order.Perm request.cacheArgs) (horder' : order'.Perm request'.cacheArgs)
    (hkey : generateCacheKey a.client request.cacheType order
      = generateCacheKey b.client request'.cacheType order') :
    a.route = b.route ∧ request.cacheArgs = request'.cacheArgs := by
  have hlayout := layout_of_request h
  have hlayout' := layout_of_request h'
  have hparts : keyParts a.route request = keyParts b.route request' := by
    have hsplit := congrArg (fun key => key.toList.splitOn ':') hkey
    simp only [splitOn_key h hsafe horder, splitOn_key h' hsafe' horder', List.cons.injEq,
      true_and] at hsplit
    exact hsplit
  have hroute : a.route = b.route := by
    have hstarts : a.route.head <+: keyParts a.route request := List.prefix_append _ _
    have hstarts' : b.route.head <+: keyParts a.route request :=
      hparts ▸ List.prefix_append _ _
    rcases List.prefix_or_prefix_of_prefix hstarts hstarts' with hle | hle
    · exact Route.eq_of_head_starts hle
    · exact (Route.eq_of_head_starts hle).symm
  rw [keyParts, keyParts, hroute] at hparts
  refine ⟨hroute, args_inj (hlayout.names_eq.trans (hroute ▸ hlayout'.names_eq.symm)) hlayout.nodup
    hlayout.plain (hroute ▸ hlayout'.plain) (List.append_cancel_left hparts)⟩

end Keys

/-! ### What a call sends -/

lemma adultPolicy_injective : Function.Injective Tmdb.adultPolicy := by
  intro allowAdult allowAdult' h
  cases allowAdult <;> cases allowAdult' <;> simp [Tmdb.adultPolicy] at h ⊢

lemma underscore_notMem_itoa (i : ℤ) : '_' ∉ (itoa i).toList :=
  notMem_itoa (by decide) (by decide) i

lemma splitOn_seasonId (tvID seasonNumber : ℤ) :
    (itoa tvID ++ "_s" ++ itoa seasonNumber).toList.splitOn '_'
      = [(itoa tvID).toList, 's' :: (itoa seasonNumber).toList] := by
  have htext : (itoa tvID ++ "_s" ++ itoa seasonNumber).toList
      = (itoa tvID).toList ++ '_' :: 's' :: (itoa seasonNumber).toList := by
    simp
  have hseason : '_' ∉ 's' :: (itoa seasonNumber).toList := by
    simp [underscore_notMem_itoa]
  rw [htext, List.splitOn_append_cons_self_of_not_mem (underscore_notMem_itoa tvID),
    List.splitOn_eq_singleton hseason]

lemma seasonId_inj {tvID seasonNumber tvID' seasonNumber' : ℤ}
    (h : itoa tvID ++ "_s" ++ itoa seasonNumber = itoa tvID' ++ "_s" ++ itoa seasonNumber') :
    tvID = tvID' ∧ seasonNumber = seasonNumber' := by
  have hsplit := congrArg (fun text => text.toList.splitOn '_') h
  simp only [splitOn_seasonId, List.cons.injEq, true_and, and_true, String.toList_inj] at hsplit
  exact ⟨itoa_injective hsplit.1, itoa_injective hsplit.2⟩

/-- The id of a season is not that of a film or a series. -/
lemma seasonId_ne_itoa (tvID seasonNumber id : ℤ) :
    itoa tvID ++ "_s" ++ itoa seasonNumber ≠ itoa id := by
  intro h
  have hmem : '_' ∈ (itoa id).toList := by simp [← h]
  exact underscore_notMem_itoa id hmem

section Upstream

variable {toLower}

/-- Calls with one template and the same arguments are one call up to the search text. -/
lemma normalize_eq_tmdb {a b : TmdbCall} (hroute : (Call.tmdb a).route = (Call.tmdb b).route)
    (hargs : (a.request toLower).cacheArgs = (b.request toLower).cacheArgs)
    (hclash : clash (.tmdb a) (.tmdb b) = false) :
    (Call.tmdb a).normalize toLower = (Call.tmdb b).normalize toLower := by
  cases a with
  | searchMoviesWithAdult query page allowAdult =>
    cases b with
    | searchMoviesWithAdult query' page' allowAdult' =>
      simp only [TmdbCall.request, Tmdb.searchMoviesWithAdult, Tmdb.search, cachedGet,
        List.cons.injEq, Prod.mk.injEq, true_and, and_true] at hargs
      obtain ⟨hquery, hpage, hadult⟩ := hargs
      rw [Call.normalize, Call.normalize, hquery, itoa_injective hpage,
        adultPolicy_injective hadult]
    | _ => cases hroute
  | searchTVShowsWithAdult query page allowAdult =>
    cases b with
    | searchTVShowsWithAdult query' page' allowAdult' =>
      simp only [TmdbCall.request, Tmdb.searchTVShowsWithAdult, Tmdb.search, cachedGet,
        List.cons.injEq, Prod.mk.injEq, true_and, and_true] at hargs
      obtain ⟨hquery, hpage, hadult⟩ := hargs
      rw [Call.normalize, Call.normalize, hquery, itoa_injective hpage,
        adultPolicy_injective hadult]
    | _ => cases hroute
  | getMovieDetails movieID append =>
    cases b with
    | getMovieDetails movieID' append' =>
      simp only [TmdbCall.request, Tmdb.getMovieDetails, cachedGet, List.cons.injEq, Prod.mk.injEq,
        true_and, and_true] at hargs
      rw [itoa_injective hargs.1, hargs.2]
    | getTVDetails tvID append' =>
      simp only [TmdbCall.request, Tmdb.getMovieDetails, Tmdb.getTVDetails, cachedGet,
        List.cons.injEq, Prod.mk.injEq, true_and, and_true] at hargs
      simp [clash, itoa_injective hargs.1, hargs.2] at hclash
    | getSeasonDetails tvID seasonNumber =>
      simp only [TmdbCall.request, Tmdb.getMovieDetails, Tmdb.getSeasonDetails, cachedGet,
        List.cons.injEq, Prod.mk.injEq, true_and, and_true] at hargs
      exact absurd hargs.1.symm (seasonId_ne_itoa _ _ _)
    | _ => cases hroute
  | getTVDetails tvID append =>
    cases b with
    | getTVDetails tvID' append' =>
      simp only [TmdbCall.request, Tmdb.getTVDetails, cachedGet, List.cons.injEq, Prod.mk.injEq,
        true_and, and_true] at hargs
      rw [itoa_injective hargs.1, hargs.2]
    | getMovieDetails movieID append' =>
      simp only [TmdbCall.request, Tmdb.getMovieDetails, Tmdb.getTVDetails, cachedGet,
        List.cons.injEq, Prod.mk.injEq, true_and, and_true] at hargs
      simp [clash, itoa_injective hargs.1, hargs.2] at hclash
    | getSeasonDetails tvID' seasonNumber =>
      simp only [TmdbCall.request, Tmdb.getTVDetails, Tmdb.getSeasonDetails, cachedGet,
        List.cons.injEq, Prod.mk.injEq, true_and, and_true] at hargs
      exact absurd hargs.1.symm (seasonId_ne_itoa _ _ _)
    | _ => cases hroute
  | getSeasonDetails tvID seasonNumber =>
    cases b with
    | getSeasonDetails tvID' seasonNumber' =>
      simp only [TmdbCall.request, Tmdb.getSeasonDetails, cachedGet, List.cons.injEq,
        Prod.mk.injEq, true_and, and_true] at hargs
      obtain ⟨rfl, rfl⟩ := seasonId_inj hargs
      rfl
    | getMovieDetails movieID append =>
      simp only [TmdbCall.request, Tmdb.getMovieDetails, Tmdb.getSeasonDetails, cachedGet,
        List.cons.injEq, Prod.mk.injEq, true_and, and_true] at hargs
      exact absurd hargs.1 (seasonId_ne_itoa _ _ _)
    | getTVDetails tvID' append =>
      simp only [TmdbCall.request, Tmdb.getTVDetails, Tmdb.getSeasonDetails, cachedGet,
        List.cons.injEq, Prod.mk.injEq, true_and, and_true] at hargs
      exact absurd hargs.1 (seasonId_ne_itoa _ _ _)
    | _ => cases hroute
  | getSeasonWatchProviders tvID seasonNumber =>
    cases b with
    | getSeasonWatchProviders tvID' seasonNumber' =>
      simp only [TmdbCall.request, Tmdb.getSeasonWatchProviders, cachedGet, List.cons.injEq,
        Prod.mk.injEq, true_and, and_true] at hargs
      rw [itoa_injective hargs.1, itoa_injective hargs.2]
    | _ => cases hroute
  | getSeasonImages tvID seasonNumber =>
    cases b with
    | getSeasonImages tvID' seasonNumber' =>
      simp only [TmdbCall.request, Tmdb.getSeasonImages, cachedGet, List.cons.injEq, Prod.mk.injEq,
        true_and, and_true] at hargs
      rw [itoa_injective hargs.1, itoa_injective hargs.2]
    | _ => cases hroute
  | getPopularMovies page =>
    cases b with
    | getPopularMovies page' =>
      simp only [TmdbCall.request, Tmdb.getPopularMovies, cachedGet, List.cons.injEq,
        Prod.mk.injEq, true_and, and_true] at hargs
      rw [itoa_injective hargs]
    | _ => cases hroute
  | getPopularTVShows page =>
    cases b with
    | getPopularTVShows page' =>
      simp only [TmdbCall.request, Tmdb.getPopularTVShows, cachedGet, List.cons.injEq,
        Prod.mk.injEq, true_and, and_true] at hargs
      rw [itoa_injective hargs]
    | _ => cases hroute
  | getRecentMovies page until_ =>
    cases b with
    | getRecentMovies page' until_' =>
      simp only [TmdbCall.request, Tmdb.getRecentMovies, cachedGet, List.cons.injEq,
        Prod.mk.injEq, true_and, and_true] at hargs
      rw [itoa_injective hargs.1, hargs.2]
    | _ => cases hroute
  | getRecentTVShows page until_ =>
    cases b with
    | getRecentTVShows page' until_' =>
      simp only [TmdbCall.request, Tmdb.getRecentTVShows, cachedGet, List.cons.injEq,
        Prod.mk.injEq, true_and, and_true] at hargs
      rw [itoa_injective hargs.1, hargs.2]
    | _ => cases hroute

lemma normalize_eq_spotify {a b : SpotifyCall}
    (hroute : (Call.spotify a).route = (Call.spotify b).route)
    (hargs : (a.request toLower).cacheArgs = (b.request toLower).cacheArgs) :
    (Call.spotify a).normalize toLower = (Call.spotify b).normalize toLower := by
  cases a with
  | searchAlbums query limit offset =>
    cases b with
    | searchAlbums query' limit' offset' =>
      simp only [SpotifyCall.request, Spotify.searchAlbums, cachedGet, List.cons.injEq,
        Prod.mk.injEq, true_and, and_true] at hargs
      obtain ⟨hquery, hlimit, hoffset⟩ := hargs
      rw [Call.normalize, Call.normalize, hquery, itoa_injective hlimit, itoa_injective hoffset]
    | getAlbum => cases hroute
  | getAlbum albumID =>
    cases b with
    | getAlbum albumID' =>
      simp only [SpotifyCall.request, Spotify.getAlbum, cachedGet, List.cons.injEq, Prod.mk.injEq,
        true_and, and_true] at hargs
      rw [hargs]
    | searchAlbums => cases hroute

lemma bulkGames_eq_some {ids : List ℤ} {fields : String} {request : CachedRequest}
    (h : Igdb.bulkGames ids fields = some request) :
    ids ≠ [] ∧ request.cacheArgs
      = [("ids_hash", joinInts ids), ("body_hash", Igdb.hashBody (Igdb.bulkBody fields ids))] := by
  rw [Igdb.bulkGames] at h
  split at h
  · cases h
  · rename_i hne
    cases h
    exact ⟨by simpa using hne, rfl⟩

lemma getGameTimeToBeats_eq_some {ids : List ℤ} {request : CachedRequest}
    (h : Igdb.getGameTimeToBeats ids = some request) :
    ids ≠ [] ∧ ∃ hash, request.cacheArgs = [("ids_hash", joinInts ids), ("body_hash", hash)] := by
  rw [Igdb.getGameTimeToBeats] at h
  split at h
  · cases h
  · rename_i hne
    cases h
    exact ⟨by simpa using hne, _, rfl⟩

/-- The arguments of the two bulk requests differ in the hash of the body only. -/
lemma bulkGames_args {ids ids' : List ℤ} {fields fields' : String}
    {request request' : CachedRequest} (h : Igdb.bulkGames ids fields = some request)
    (h' : Igdb.bulkGames ids' fields' = some request')
    (hargs : request.cacheArgs = request'.cacheArgs) :
    ids ≠ [] ∧ ids = ids' ∧ Igdb.hashBody (Igdb.bulkBody fields ids)
      = Igdb.hashBody (Igdb.bulkBody fields' ids') := by
  obtain ⟨hne, heq⟩ := bulkGames_eq_some h
  obtain ⟨hne', heq'⟩ := bulkGames_eq_some h'
  rw [heq, heq'] at hargs
  simp only [List.cons.injEq, Prod.mk.injEq, true_and, and_true] at hargs
  exact ⟨hne, joinInts_inj hne hne' hargs.1, hargs.2⟩

lemma normalize_eq_igdb {a b : IgdbCall} {request request' : CachedRequest}
    (h : a.request toLower = some request) (h' : b.request toLower = some request')
    (hroute : (Call.igdb a).route = (Call.igdb b).route)
    (hargs : request.cacheArgs = request'.cacheArgs)
    (hclash : clash (.igdb a) (.igdb b) = false) :
    (Call.igdb a).normalize toLower = (Call.igdb b).normalize toLower := by
  cases a with
  | searchGames query limit offset =>
    cases b with
    | searchGames query' limit' offset' =>
      cases h
      cases h'
      simp only [Igdb.searchGames, cachedPost, List.cons.injEq, Prod.mk.injEq, true_and, and_true]
        at hargs
      obtain ⟨hquery, hlimit, hoffset, -⟩ := hargs
      rw [Call.normalize, Call.normalize, hquery, itoa_injective hlimit, itoa_injective hoffset]
    | _ => cases hroute
  | getGame id =>
    cases b with
    | getGame id' =>
      cases h
      cases h'
      simp only [Igdb.getGame, cachedPost, List.cons.injEq, Prod.mk.injEq, true_and, and_true]
        at hargs
      rw [itoa_injective hargs.1]
    | _ => cases hroute
  | getBulkGames ids =>
    cases b with
    | getBulkGames ids' =>
      obtain ⟨-, rfl, -⟩ := bulkGames_args h h' hargs
      rfl
    | getBulkGamePreviews ids' =>
      obtain ⟨hne, rfl, hhash⟩ := bulkGames_args h h' hargs
      simp [clash, hne, hhash] at hclash
    | _ => cases hroute
  | getBulkGamePreviews ids =>
    cases b with
    | getBulkGamePreviews ids' =>
      obtain ⟨-, rfl, -⟩ := bulkGames_args h h' hargs
      rfl
    | getBulkGames ids' =>
      obtain ⟨hne, rfl, hhash⟩ := bulkGames_args h h' hargs
      simp [clash, hne, hhash] at hclash
    | _ => cases hroute
  | getGameTimeToBeats ids =>
    cases b with
    | getGameTimeToBeats ids' =>
      obtain ⟨hne, hash, heq⟩ := getGameTimeToBeats_eq_some h
      obtain ⟨hne', hash', heq'⟩ := getGameTimeToBeats_eq_some h'
      rw [heq, heq'] at hargs
      simp only [List.cons.injEq, Prod.mk.injEq, true_and, and_true] at hargs
      rw [joinInts_inj hne hne' hargs.1]
    | _ => cases hroute
  | getPopularGames limit offset =>
    cases b with
    | getPopularGames limit' offset' =>
      cases h
      cases h'
      simp only [Igdb.getPopularGames, cachedPost, List.cons.injEq, Prod.mk.injEq, true_and,
        and_true] at hargs
      obtain ⟨hlimit, hoffset, -⟩ := hargs
      rw [itoa_injective hlimit, itoa_injective hoffset]
    | _ => cases hroute
  | getRecentGames limit offset unix =>
    cases b with
    | getRecentGames limit' offset' unix' =>
      cases h
      cases h'
      simp only [Igdb.getRecentGames, cachedPost, List.cons.injEq, Prod.mk.injEq, true_and,
        and_true] at hargs
      obtain ⟨hlimit, hoffset, hunix, -⟩ := hargs
      rw [itoa_injective hlimit, itoa_injective hoffset, itoa_injective hunix]
    | _ => cases hroute
  | getPopularityPrimitives popularityType limit =>
    cases b with
    | getPopularityPrimitives popularityType' limit' =>
      cases h
      cases h'
      simp only [Igdb.getPopularityPrimitives, cachedPost, List.cons.injEq, Prod.mk.injEq, true_and,
        and_true] at hargs
      obtain ⟨htype, hlimit, -⟩ := hargs
      rw [itoa_injective htype, itoa_injective hlimit]
    | _ => cases hroute

lemma normalize_eq {a b : Call} {request request' : CachedRequest}
    (h : a.request toLower = some request) (h' : b.request toLower = some request')
    (hroute : a.route = b.route) (hargs : request.cacheArgs = request'.cacheArgs)
    (hclash : clash a b = false) : a.normalize toLower = b.normalize toLower := by
  cases a with
  | tmdb a =>
    cases b with
    | tmdb b =>
      cases h
      cases h'
      exact normalize_eq_tmdb hroute hargs hclash
    | spotify b => cases a <;> cases b <;> cases hroute
    | igdb b => cases a <;> cases b <;> cases hroute
  | spotify a =>
    cases b with
    | spotify b =>
      cases h
      cases h'
      exact normalize_eq_spotify hroute hargs
    | tmdb b => cases a <;> cases b <;> cases hroute
    | igdb b => cases a <;> cases b <;> cases hroute
  | igdb a =>
    cases b with
    | igdb b => exact normalize_eq_igdb h h' hroute hargs hclash
    | tmdb b => cases a <;> cases b <;> cases hroute
    | spotify b => cases a <;> cases b <;> cases hroute

end Upstream

/-! ### The condition is needed -/

section Clash

variable {toLower}

lemma details_upstream_ne (id : ℤ) (append : String) :
    (Call.tmdb (.getMovieDetails id append)).upstream toLower
      ≠ (Call.tmdb (.getTVDetails id append)).upstream toLower := by
  intro h
  have hendpoint := congrArg (Option.map fun upstream => upstream.endpoint.toList.head?) h
  simp [Call.upstream, Call.normalize, Call.request, TmdbCall.request, Tmdb.getMovieDetails,
    Tmdb.getTVDetails, cachedGet] at hendpoint

lemma bulkBody_ne (ids : List ℤ) :
    Igdb.bulkBody Igdb.detailFields ids ≠ Igdb.bulkBody Igdb.defaultFields ids := by
  intro h
  have hchars := congrArg String.toList h
  simp only [Igdb.bulkBody, Igdb.detailFields, String.toList_append, List.append_assoc,
    List.append_cancel_left_eq] at hchars
  have hhead := congrArg List.head? hchars
  simp at hhead

lemma bulk_upstream_ne {ids : List ℤ} (hne : ids ≠ []) :
    (Call.igdb (.getBulkGames ids)).upstream toLower
      ≠ (Call.igdb (.getBulkGamePreviews ids)).upstream toLower := by
  intro h
  have hbody := congrArg (Option.map fun upstream => upstream.body) h
  simp [Call.upstream, Call.normalize, Call.request, IgdbCall.request, Igdb.getBulkGames,
    Igdb.getBulkGamePreviews, Igdb.bulkGames, hne, cachedPost, bulkBody_ne] at hbody

/-- The two kinds of details of one id are kept under one key. -/
lemma details_share_key (id : ℤ) (append : String) :
    ∃ key, (Call.tmdb (.getMovieDetails id append)).HasKey toLower key ∧
      (Call.tmdb (.getTVDetails id append)).HasKey toLower key :=
  ⟨_, ⟨_, rfl, _, .refl _, rfl⟩, ⟨_, rfl, _, .refl _, rfl⟩⟩

lemma bulk_share_key {ids : List ℤ} (hne : ids ≠ [])
    (hhash : Igdb.hashBody (Igdb.bulkBody Igdb.detailFields ids)
      = Igdb.hashBody (Igdb.bulkBody Igdb.defaultFields ids)) :
    ∃ key, (Call.igdb (.getBulkGames ids)).HasKey toLower key ∧
      (Call.igdb (.getBulkGamePreviews ids)).HasKey toLower key := by
  have hsome : ∀ fields, Igdb.bulkGames ids fields = some (cachedPost "games" "api_igdb_bulk"
      (Igdb.bulkBody fields ids) [] [("ids_hash", joinInts ids),
        ("body_hash", Igdb.hashBody (Igdb.bulkBody fields ids))]) := by
    intro fields
    simp [Igdb.bulkGames, hne]
  refine ⟨_, ⟨_, hsome _, _, .refl _, rfl⟩, ⟨_, hsome _, _, .refl _, ?_⟩⟩
  simp only [cachedPost, hhash]
  rfl

/-- Two calls that clash share a key, for different requests. -/
lemma shared_key_of_clash {a b : Call} (h : clash a b = true) :
    (∃ key, a.HasKey toLower key ∧ b.HasKey toLower key) ∧
      a.upstream toLower ≠ b.upstream toLower := by
  rw [clash.eq_def] at h
  split at h
  · simp only [Bool.and_eq_true, decide_eq_true_eq] at h
    obtain ⟨rfl, rfl⟩ := h
    exact ⟨details_share_key _ _, details_upstream_ne _ _⟩
  · simp only [Bool.and_eq_true, decide_eq_true_eq] at h
    obtain ⟨rfl, rfl⟩ := h
    obtain ⟨key, hmovie, htv⟩ := @details_share_key toLower _ _
    exact ⟨⟨key, htv, hmovie⟩, (details_upstream_ne _ _).symm⟩
  · simp only [Bool.and_eq_true, decide_eq_true_eq, Bool.not_eq_true', List.isEmpty_eq_false_iff]
      at h
    obtain ⟨⟨hne, rfl⟩, hhash⟩ := h
    exact ⟨bulk_share_key hne hhash, bulk_upstream_ne hne⟩
  · simp only [Bool.and_eq_true, decide_eq_true_eq, Bool.not_eq_true', List.isEmpty_eq_false_iff]
      at h
    obtain ⟨⟨hne, rfl⟩, hhash⟩ := h
    obtain ⟨key, hgames, hpreviews⟩ := @bulk_share_key toLower _ hne hhash
    exact ⟨⟨key, hpreviews, hgames⟩, (bulk_upstream_ne hne).symm⟩
  · cases h

end Clash

/-! ### Separation -/

section Separation

variable {toLower}

lemma orderSafe_of_request_eq_none {call : Call} (h : call.request toLower = none) :
    call.orderSafe toLower = true := by
  cases call with
  | tmdb call => cases h
  | spotify call => cases h
  | igdb call =>
    cases call with
    | searchGames => cases h
    | _ => rfl

/-- A call has one key, whatever the order of its arguments, exactly when its free text is safe. -/
lemma one_key_iff {call : Call} :
    (∀ key key', call.HasKey toLower key → call.HasKey toLower key' → key = key') ↔
      call.orderSafe toLower = true := by
  cases h : call.request toLower with
  | none =>
    refine iff_of_true ?_ (orderSafe_of_request_eq_none h)
    rintro key key' ⟨request, hrequest, -⟩
    rw [h] at hrequest
    cases hrequest
  | some request =>
    rw [orderSafe_iff h, ← (layout_of_request h).key_orderFree_iff]
    constructor
    · intro hkeys order order' horder horder'
      exact hkeys _ _ ⟨request, h, order, horder, rfl⟩ ⟨request, h, order', horder', rfl⟩
    · rintro hfree key key' ⟨request', hrequest, order, horder, rfl⟩
        ⟨request'', hrequest', order', horder', rfl⟩
      obtain rfl : request = request' := Option.some.inj (h.symm.trans hrequest)
      obtain rfl : request = request'' := Option.some.inj (h.symm.trans hrequest')
      exact hfree order order' horder horder'

end Separation

/-- Two calls keep their cache entries apart exactly when neither puts a placeholder of another
    argument into its key and they are not of the kinds that are filed under one template. -/
theorem separated_iff (a b : Call) :
    Separated toLower a b ↔
      a.orderSafe toLower = true ∧ b.orderSafe toLower = true ∧ clash a b = false := by
  constructor
  · intro h
    refine ⟨one_key_iff.mp h.left, one_key_iff.mp h.right, ?_⟩
    by_contra hclash
    obtain ⟨⟨key, ha, hb⟩, hne⟩ := @shared_key_of_clash toLower a b
      (Bool.not_eq_false _ ▸ hclash)
    exact hne (h.upstream key ha hb)
  · rintro ⟨ha, hb, hclash⟩
    refine ⟨one_key_iff.mpr ha, one_key_iff.mpr hb, ?_⟩
    rintro key ⟨request, hrequest, order, horder, rfl⟩ ⟨request', hrequest', order', horder', hkey⟩
    obtain ⟨hroute, hargs⟩ := args_eq_of_key_eq hrequest hrequest' ha hb horder horder' hkey.symm
    rw [Call.upstream, Call.upstream, normalize_eq hrequest hrequest' hroute hargs hclash]

/-- The details of the film 1399 and those of the series 1399 are kept in one cache entry. -/
theorem movie_and_series_share_entry :
    ¬ Separated Char.toLower (.tmdb (.getMovieDetails 1399 "")) (.tmdb (.getTVDetails 1399 "")) := by
  intro h
  obtain ⟨key, hmovie, htv⟩ := @details_share_key Char.toLower 1399 ""
  exact details_upstream_ne 1399 "" (h.upstream key hmovie htv)

end Denn.CacheKey
