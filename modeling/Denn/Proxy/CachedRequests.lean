import Denn.Core.ReadThrough
import Denn.Proxy.CacheKeySeparation

/-!
# Requests through the cache of the provider clients

`CachedRequest` of the TMDB, Spotify and IGDB clients over one cache, with the calls interleaved in
any way, any failures of the cache, and the arguments of a key iterated in any order.
-/

namespace Denn.CacheKey

open Denn.Core

/-! ### Lifetimes -/

def hour : ℕ := 60 * 60

def searchTTL : ℕ := 24 * hour

def detailTTL : ℕ := 48 * hour

def albumDetailTTL : ℕ := 7 * 24 * hour

def catalogueTTL : ℕ := 24 * hour

def mediaTTL : ℕ := 7 * 24 * hour

def defaultCacheTTL : ℕ := hour

def Tmdb.ttls : List (String × ℕ) := [
  ("search_movies", searchTTL),
  ("search_tv", searchTTL),
  ("details", detailTTL),
  ("images_season", mediaTTL),
  ("watch_providers_season", mediaTTL),
  ("popular_movies", catalogueTTL),
  ("popular_tv", catalogueTTL),
  ("recent_movies", catalogueTTL),
  ("recent_tv", catalogueTTL)]

def Spotify.ttls : List (String × ℕ) := [
  ("spotify_search", searchTTL),
  ("spotify_details", albumDetailTTL)]

def Igdb.ttls : List (String × ℕ) := [
  ("api_igdb_search", searchTTL),
  ("api_igdb_details", detailTTL),
  ("api_igdb_bulk", detailTTL),
  ("api_igdb_game_time_to_beats", detailTTL),
  ("api_igdb_popular", catalogueTTL),
  ("api_igdb_recent", catalogueTTL),
  ("api_igdb_popularity", catalogueTTL)]

def getCacheTTL (ttls : List (String × ℕ)) (cacheType : String) : ℕ :=
  (ttls.lookup cacheType).getD defaultCacheTTL

def Call.ttls : Call → List (String × ℕ)
  | .tmdb _ => Tmdb.ttls
  | .spotify _ => Spotify.ttls
  | .igdb _ => Igdb.ttls

/-! ### Cached requests -/

structure Response (β : Type*) where
  data : β
  statusCode : ℕ

structure CachedEntry (β : Type*) where
  data : β
  statusCode : ℕ

variable (toLower : Char → Char)

def Call.ttl (call : Call) : ℕ :=
  (call.request toLower).elim 0 fun request => getCacheTTL call.ttls request.cacheType

/-- The key of a call whose arguments are iterated in the order. -/
def Call.cacheKey (call : Call) (order : List (String × String)) : Option String :=
  (call.request toLower).bind fun request =>
    if order.isPerm request.cacheArgs then
      some (generateCacheKey call.client request.cacheType order)
    else none

variable (ε β : Type*)

/-- `CachedRequest`. A client returns an error, or a response whose body is JSON, so that its entry can
    be marshalled. -/
def cachedRequests : ReadThrough Call (List (String × String)) String (CachedEntry β)
    (Except ε (Response β)) where
  key := Call.cacheKey toLower
  ttl := Call.ttl toLower
  encode
    | .ok resp => if resp.statusCode = 200 then some ⟨resp.data, resp.statusCode⟩ else none
    | .error _ => none
  decode entry := some (.ok ⟨entry.data, entry.statusCode⟩)

variable {toLower ε β}

lemma cacheKey_eq_some_iff {call : Call} {order : List (String × String)} {key : String} :
    call.cacheKey toLower order = some key ↔ ∃ request, call.request toLower = some request ∧
      order.Perm request.cacheArgs ∧ generateCacheKey call.client request.cacheType order = key := by
  simp [Call.cacheKey, Option.bind_eq_some_iff, List.isPerm_iff]

lemma hasKey_iff {call : Call} {key : String} :
    call.HasKey toLower key ↔ ∃ order, call.cacheKey toLower order = some key := by
  simp only [cacheKey_eq_some_iff, Call.HasKey]
  constructor
  · rintro ⟨request, hrequest, order, horder, hkey⟩
    exact ⟨order, request, hrequest, horder, hkey⟩
  · rintro ⟨order, request, hrequest, horder, hkey⟩
    exact ⟨request, hrequest, order, horder, hkey⟩

def Route.ttl : Route → ℕ
  | searchMovies | searchTv | spotifySearch | igdbSearch => searchTTL
  | details | igdbDetails | igdbBulk | igdbGameTimeToBeats => detailTTL
  | imagesSeason | watchProvidersSeason => mediaTTL
  | spotifyDetails => albumDetailTTL
  | _ => catalogueTTL

/-- The lifetime depends on the template of the key only. -/
lemma ttl_eq_route {call : Call} {request : CachedRequest} (h : call.request toLower = some request) :
    call.ttl toLower = call.route.ttl := by
  rw [Call.ttl, h, Option.elim_some]
  cases call with
  | tmdb call =>
    cases h
    cases call <;> rfl
  | spotify call =>
    cases h
    cases call <;> rfl
  | igdb call =>
    cases call with
    | getBulkGames ids | getBulkGamePreviews ids | getGameTimeToBeats ids =>
      simp only [Call.request, IgdbCall.request, Igdb.getBulkGames, Igdb.getBulkGamePreviews,
        Igdb.bulkGames, Igdb.getGameTimeToBeats, Option.ite_none_left_eq_some] at h
      obtain ⟨-, h⟩ := h
      cases h
      rfl
    | _ =>
      cases h
      rfl

/-! ### Answers -/

variable {ι : Type*} [DecidableEq ι]
  {s : ReadState ι Call String (CachedEntry β) (Except ε (Response β))} {i j : ι}
  {caller writer : ReadCaller Call String (Except ε (Response β))}

/-- Calls that share a key have one template, and one lifetime. -/
lemma ttl_eq_of_hasKey {a b : Call} {key : String} (ha : a.HasKey toLower key)
    (hb : b.HasKey toLower key) (hsafe : a.orderSafe toLower = true)
    (hsafe' : b.orderSafe toLower = true) : a.ttl toLower = b.ttl toLower := by
  obtain ⟨request, hrequest, order, horder, rfl⟩ := ha
  obtain ⟨request', hrequest', order', horder', hkey⟩ := hb
  have hroute :=
    (args_eq_of_key_eq hrequest hrequest' hsafe hsafe' horder horder' hkey.symm).1
  rw [ttl_eq_route hrequest, ttl_eq_route hrequest', hroute]

lemma uniform_cachedRequests : ReadState.Uniform (cachedRequests toLower ε β)
    fun call => call.orderSafe toLower = true where
  ttl _ _ _ _ _ hsafe hsafe' hkey hkey' :=
    ttl_eq_of_hasKey (hasKey_iff.mpr ⟨_, hkey⟩) (hasKey_iff.mpr ⟨_, hkey'⟩) hsafe hsafe'
  decode _ _ _ := rfl

/-- While the cache works, and the free text of no call contains a placeholder, a call goes to the
    provider only when what was stored earlier for a call that shares a key with it has expired. -/
theorem requested_after_expiry (h : (ReadState.system (cachedRequests toLower ε β)).ReachableUnder
      (ReadState.Unfailing fun call => call.orderSafe toLower = true) s)
    (hcaller : s.callers.get? i = some caller) (hrequested : caller.computed.isSome)
    (hwriter : s.callers.get? j = some writer) {key : String}
    (hkey : caller.request.HasKey toLower key) (hkey' : writer.request.HasKey toLower key)
    {storedAt readAt : ℕ} (hstored : writer.storedAt = some storedAt)
    (hread : caller.readAt = some readAt) (hlt : storedAt < readAt) :
    storedAt + writer.request.ttl toLower ≤ readAt := by
  have hfresh := ReadState.fresh uniform_cachedRequests h
  have hone : caller.key = key := one_key_iff.mpr (hfresh.good i caller hcaller) _ _
    (hasKey_iff.mpr (ReadState.exists_choice h.reachable hcaller)) hkey
  have hone' : writer.key = key := one_key_iff.mpr (hfresh.good j writer hwriter) _ _
    (hasKey_iff.mpr (ReadState.exists_choice h.reachable hwriter)) hkey'
  exact ReadState.computed_after_expiry uniform_cachedRequests h hcaller (.inr hrequested) hwriter
    (hone'.trans hone.symm) hstored hread hlt

/-- An album, and after a week the same one. -/
def albumAfterExpiry : List (ReadEvent ℕ Call (List (String × String)) String
    (Except String (Response String))) :=
  [.start 0 (.spotify (.getAlbum "a")) [("album_id", "a")],
    .read 0 false, .compute 0 (.ok ⟨"[]", 200⟩), .store 0 false, .elapse albumDetailTTL,
    .start 1 (.spotify (.getAlbum "a")) [("album_id", "a")],
    .read 1 false, .compute 1 (.ok ⟨"[]", 200⟩)]

theorem requested_after_expiry_album : ∃ s caller writer,
    (ReadState.system (ι := ℕ) (cachedRequests Char.toLower String String)).ReachableUnder
        (ReadState.Unfailing fun call => call.orderSafe Char.toLower = true) s ∧
      s.callers.get? 1 = some caller ∧ s.callers.get? 0 = some writer ∧ caller.computed.isSome ∧
      caller.readAt = some albumDetailTTL ∧ writer.storedAt = some 0 ∧
      0 + writer.request.ttl Char.toLower ≤ albumDetailTTL := by
  obtain ⟨s, hs, hobserved⟩ := TransitionSystem.exists_reachableUnder_of_replay
    (ReadState.system (ι := ℕ) (cachedRequests Char.toLower String String))
    (ReadState.Unfailing fun call => call.orderSafe Char.toLower = true)
    (fun s => (s.callers.get? 1).any fun caller => (s.callers.get? 0).any fun writer =>
      caller.computed.isSome && caller.key == writer.key && caller.readAt == some albumDetailTTL &&
        writer.storedAt == some 0)
    albumAfterExpiry (.initial rfl) (by decide +kernel)
  obtain ⟨caller, hcaller, hobserved⟩ := (Option.any_eq_true ..).mp hobserved
  obtain ⟨writer, hwriter, hobserved⟩ := (Option.any_eq_true ..).mp hobserved
  simp only [Bool.and_eq_true, beq_iff_eq] at hobserved
  obtain ⟨⟨⟨hcomputed, hkey⟩, hread⟩, hstored⟩ := hobserved
  have hhas := hasKey_iff.mpr (ReadState.exists_choice hs.reachable hcaller)
  have hhas' := hasKey_iff.mpr (ReadState.exists_choice hs.reachable hwriter)
  exact ⟨s, caller, writer, hs, hcaller, hwriter, hcomputed, hread, hstored,
    requested_after_expiry hs hcaller hcomputed hwriter hhas (hkey ▸ hhas') hstored hread
      (by decide)⟩

end Denn.CacheKey
