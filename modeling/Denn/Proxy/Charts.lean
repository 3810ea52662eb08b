import Denn.Core.Expiring
import Denn.Core.Json
import Denn.Core.Transition
import Mathlib.Data.List.Nodup

/-!
# The album charts

The albums of the public charts are kept in two entries of the cache: one of a day, and one of two
weeks that is read when the charts cannot be fetched. The calls come one after the other; the context
of a call ends before any of its operations, and from then on the operations fail. Times are numbers
of seconds.
-/

namespace Denn.Proxy

open Denn.Core

def chartsKey : String := "api:spotify:charts:albums"

def chartsStaleKey : String := "api:spotify:charts:albums:stale"

/-- `CatalogueTTL`. -/
def chartsTTL : ℕ := 24 * 3600

def chartsStaleTTL : ℕ := 14 * 24 * 3600

/-! ### Charts -/

/-- `AlbumMetadata`, with the names of the artists. -/
structure ChartAlbumMetadata where
  albumURI : String
  albumName : String
  displayImageURI : String := ""
  releaseDate : String := ""
  artists : List String := []

/-- The entries of each chart. -/
abbrev ChartsResponse := List (List ChartAlbumMetadata)

structure ChartImage where
  url : String
  height : ℤ
  width : ℤ
  deriving DecidableEq

/-- `chartAlbum`, with the names of the artists and the address at Spotify. -/
structure ChartAlbum where
  id : String
  name : String
  albumType : String
  totalTracks : ℤ := 0
  releaseDate : String
  images : List ChartImage := []
  artists : List String := []
  spotify : String
  deriving DecidableEq

/-- `strings.CutPrefix`. -/
def cutPrefix (text start : String) : Option String :=
  if start.toList <+: text.toList then
    some (String.ofList (text.toList.drop start.toList.length))
  else none

/-- The id of an entry that is shown. -/
def ChartAlbumMetadata.albumID? (entry : ChartAlbumMetadata) : Option String :=
  (cutPrefix entry.albumURI "spotify:album:").filter fun albumID =>
    albumID ≠ "" && entry.albumName ≠ ""

def ChartAlbumMetadata.album (entry : ChartAlbumMetadata) (albumID : String) : ChartAlbum where
  id := albumID
  name := entry.albumName
  albumType := "album"
  releaseDate := entry.releaseDate
  images :=
    if entry.displayImageURI = "" then []
    else [⟨entry.displayImageURI, 640, 640⟩, ⟨entry.displayImageURI, 300, 300⟩,
      ⟨entry.displayImageURI, 64, 64⟩]
  artists := entry.artists.filter (· ≠ "")
  spotify := "https://open.spotify.com/album/" ++ albumID

/-- The variables of the loop. -/
structure ChartLoop where
  seen : List String := []
  albums : List ChartAlbum := []

def ChartLoop.add (loop : ChartLoop) (entry : ChartAlbumMetadata) : ChartLoop :=
  match entry.albumID? with
  | none => loop
  | some albumID =>
    if albumID ∈ loop.seen then loop
    else ⟨albumID :: loop.seen, loop.albums ++ [entry.album albumID]⟩

def parseChartAlbums (data : ChartsResponse) : Except String (List ChartAlbum) :=
  let albums := (data.foldl (fun loop view => List.foldl ChartLoop.add loop view) {}).albums
  if albums = [] then .error "charts response contains no valid album entries" else .ok albums

/-- What the chart service answers: the request fails, or there is a response, whose body may be no
    chart. -/
inductive ChartsReply where
  | failed (err : String)
  | response (statusCode : ℕ) (data : Except String ChartsResponse)

def fetchAndParseCharts : ChartsReply → Except String (List ChartAlbum)
  | .failed err => .error ("charts request: " ++ err)
  | .response statusCode data =>
    if statusCode ≠ 200 then .error ("charts API error (status " ++ toString statusCode ++ ")")
    else
      match data with
      | .error err => .error ("decode charts response: " ++ err)
      | .ok chartsData => parseChartAlbums chartsData

/-! ### Entries of the cache -/

/-- A list without elements is nil. -/
def marshalList {α : Type} (marshal : α → Json) : List α → Json
  | [] => .null
  | elements => .arr (elements.map marshal)

def ChartImage.marshal (image : ChartImage) : Json :=
  .obj [("url", .str image.url), ("height", .int image.height), ("width", .int image.width)]

/-- An artist, of whom there is the name only. -/
def marshalName (name : String) : Json := .obj [("name", .str name)]

def ChartAlbum.marshal (album : ChartAlbum) : Json :=
  .obj [("id", .str album.id), ("name", .str album.name), ("album_type", .str album.albumType),
    ("total_tracks", .int album.totalTracks), ("release_date", .str album.releaseDate),
    ("images", marshalList ChartImage.marshal album.images),
    ("artists", marshalList marshalName album.artists),
    ("external_urls", .obj [("spotify", .str album.spotify)])]

def unmarshalString : Json → Option String
  | .null => some ""
  | .str text => some text
  | _ => none

def unmarshalInt : Json → Option ℤ
  | .null => some 0
  | .int n => some n
  | _ => none

def unmarshalList {α : Type} (unmarshal : Json → Option α) : Json → Option (List α)
  | .null => some []
  | .arr values => values.mapM unmarshal
  | _ => none

/-- A structure, from an object or from null. -/
def unmarshalObject {α : Type} (unmarshal : Json → Option α) : Json → Option α
  | .null => unmarshal (.obj [])
  | .obj fields => unmarshal (.obj fields)
  | _ => none

def ChartImage.unmarshal : Json → Option ChartImage :=
  unmarshalObject fun value => do
    return { url := ← unmarshalString (value.get "url")
             height := ← unmarshalInt (value.get "height")
             width := ← unmarshalInt (value.get "width") }

def unmarshalName : Json → Option String :=
  unmarshalObject fun artist => unmarshalString (artist.get "name")

def ChartAlbum.unmarshal : Json → Option ChartAlbum :=
  unmarshalObject fun value => do
    return { id := ← unmarshalString (value.get "id")
             name := ← unmarshalString (value.get "name")
             albumType := ← unmarshalString (value.get "album_type")
             totalTracks := ← unmarshalInt (value.get "total_tracks")
             releaseDate := ← unmarshalString (value.get "release_date")
             images := ← unmarshalList ChartImage.unmarshal (value.get "images")
             artists := ← unmarshalList unmarshalName (value.get "artists")
             spotify := ← unmarshalObject (fun urls => unmarshalString (urls.get "spotify"))
               (value.get "external_urls") }

section

variable {α : Type} {marshal : α → Json} {unmarshal : Json → Option α}

lemma mapM_marshal (h : ∀ a, unmarshal (marshal a) = some a) (elements : List α) :
    (elements.map marshal).mapM unmarshal = some elements := by
  induction elements with
  | nil => rfl
  | cons a elements ih => simp [h, ih]

/-- What is stored is read back. -/
lemma unmarshalList_marshalList (h : ∀ a, unmarshal (marshal a) = some a) (elements : List α) :
    unmarshalList unmarshal (marshalList marshal elements) = some elements := by
  cases elements with
  | nil => rfl
  | cons a elements => exact mapM_marshal h (a :: elements)

end

lemma ChartImage.unmarshal_marshal (image : ChartImage) :
    ChartImage.unmarshal image.marshal = some image := rfl

lemma unmarshalName_marshalName (name : String) : unmarshalName (marshalName name) = some name := rfl

lemma ChartAlbum.unmarshal_marshal (album : ChartAlbum) :
    ChartAlbum.unmarshal album.marshal = some album := by
  have himages := unmarshalList_marshalList ChartImage.unmarshal_marshal album.images
  have hartists : unmarshalList unmarshalName (marshalList marshalName album.artists)
      = some album.artists := unmarshalList_marshalList unmarshalName_marshalName album.artists
  simp [ChartAlbum.unmarshal, ChartAlbum.marshal, unmarshalObject, Json.get, List.lookup_cons,
    unmarshalString, unmarshalInt, himages, hartists]

/-! ### Calls -/

/-- A call of `getChartAlbums`. The context is alive for a number of operations, or for all of them; the
    fetch and the first write of the cache take time. -/
structure ChartCall where
  context : Option ℕ := none
  reply : ChartsReply
  fetchTime : ℕ := 0
  storeTime : ℕ := 0

/-- The operations of a call, in their order: the read of the fresh entry, the fetch, the read of the
    stale entry or the write of the fresh one, and the write of the stale one. -/
inductive ChartOperation where
  | readFresh
  | fetch
  | afterFetch
  | writeStale

def ChartOperation.number : ChartOperation → ℕ
  | .readFresh => 0
  | .fetch => 1
  | .afterFetch => 2
  | .writeStale => 3

/-- The context is alive when the operation takes place. -/
def ChartCall.alive (call : ChartCall) (operation : ChartOperation) : Bool :=
  call.context.all (operation.number < ·)

/-- The charts that a call has stored, and when. -/
structure StoredChart where
  albums : List ChartAlbum
  storedAt : ℕ
  deriving DecidableEq

/-- `stored` is kept for the statements only: the chart of the last write of the fresh entry. -/
structure ChartState where
  now : ℕ := 0
  cache : ExpiringCache String Json := .empty
  stored : Option StoredChart := none

namespace ChartState

/-- `Get` of the cache and the decoding of what it returns. -/
def getCachedChartAlbums (s : ChartState) (alive : Bool) (key : String) : Option (List ChartAlbum) :=
  if alive then
    ((s.cache.get s.now key).bind (unmarshalList ChartAlbum.unmarshal)).filter (· ≠ [])
  else none

def elapse (s : ChartState) (duration : ℕ) : ChartState := { s with now := s.now + duration }

/-- `Set` of the cache. -/
def setCached (s : ChartState) (alive : Bool) (key : String) (albums : List ChartAlbum) (ttl : ℕ) :
    ChartState :=
  if alive then
    { s with cache := s.cache.set s.now key (marshalList ChartAlbum.marshal albums) ttl }
  else s

/-- The writes of a chart that has been fetched. -/
def store (s : ChartState) (call : ChartCall) (albums : List ChartAlbum) : ChartState :=
  let fresh := s.setCached (call.alive .afterFetch) chartsKey albums chartsTTL
  let fresh :=
    if call.alive .afterFetch then { fresh with stored := some ⟨albums, s.now⟩ } else fresh
  (fresh.elapse call.storeTime).setCached (call.alive .writeStale) chartsStaleKey albums chartsStaleTTL

def getChartAlbums (s : ChartState) (call : ChartCall) :
    ChartState × Except String (List ChartAlbum) :=
  match s.getCachedChartAlbums (call.alive .readFresh) chartsKey with
  | some albums => (s, .ok albums)
  | none =>
    let s := s.elapse call.fetchTime
    match fetchAndParseCharts call.reply with
    | .error err =>
      match s.getCachedChartAlbums (call.alive .afterFetch) chartsStaleKey with
      | some stale => (s, .ok stale)
      | none => (s, .error err)
    | .ok albums => (s.store call albums, .ok albums)

end ChartState

inductive ChartEvent where
  | tick (duration : ℕ)
  | call (call : ChartCall)

/-- A request fails if its context has ended. -/
def ChartCall.possible (call : ChartCall) : Bool :=
  call.alive .fetch ||
    match call.reply with
    | .failed _ => true
    | .response _ _ => false

def ChartState.step (s : ChartState) : ChartEvent → Option ChartState
  | .tick duration => some (s.elapse duration)
  | .call call => if call.possible then some (s.getChartAlbums call).1 else none

/-- The calls of all processes, over an empty cache. -/
def chartSystem : TransitionSystem ChartState ChartEvent where
  initial s := s = {}
  step s event := s.step event

/-! ### Good charts -/

/-- A chart as `parseChartAlbums` accepts it. -/
structure IsGoodChart (albums : List ChartAlbum) : Prop where
  ne_nil : albums ≠ []
  nodup : (albums.map (·.id)).Nodup

/-- The ids of the albums are different, and have been seen. -/
structure ChartLoop.Sound (loop : ChartLoop) : Prop where
  nodup : (loop.albums.map (·.id)).Nodup
  seen : ∀ album ∈ loop.albums, album.id ∈ loop.seen

lemma ChartLoop.Sound.start : ChartLoop.Sound {} where
  nodup := List.nodup_nil
  seen _ halbum := absurd halbum List.not_mem_nil

lemma ChartLoop.Sound.add {loop : ChartLoop} (h : loop.Sound) (entry : ChartAlbumMetadata) :
    (loop.add entry).Sound := by
  rw [ChartLoop.add]
  split
  · exact h
  · rename_i albumID _
    split_ifs with hseen
    · exact h
    refine ⟨?_, fun album halbum => ?_⟩
    · rw [List.map_append, List.map_singleton, List.nodup_append_comm, List.singleton_append,
        List.nodup_cons]
      refine ⟨fun hmem => ?_, h.nodup⟩
      obtain ⟨album, halbum, hid⟩ := List.mem_map.mp hmem
      exact hseen ((show album.id = albumID from hid) ▸ h.seen album halbum)
    · rcases List.mem_append.mp halbum with hold | hnew
      · exact List.mem_cons_of_mem _ (h.seen album hold)
      · rw [List.mem_singleton.mp hnew]
        exact List.mem_cons_self

lemma ChartLoop.Sound.foldl {loop : ChartLoop} (h : loop.Sound) (data : ChartsResponse) :
    (data.foldl (fun loop view => List.foldl ChartLoop.add loop view) loop).Sound := by
  induction data generalizing loop with
  | nil => exact h
  | cons view data ih =>
    refine ih ?_
    induction view generalizing loop with
    | nil => exact h
    | cons entry view ih => exact ih (h.add entry)

lemma isGoodChart_of_parse {data : ChartsResponse} {albums : List ChartAlbum}
    (h : parseChartAlbums data = .ok albums) : IsGoodChart albums := by
  simp only [parseChartAlbums] at h
  split_ifs at h with hnil
  obtain rfl := Except.ok.inj h
  exact ⟨hnil, (ChartLoop.Sound.start.foldl data).nodup⟩

/-- Errors, other responses than 200, and malformed or empty charts are no charts. -/
lemma isGoodChart_of_fetch {reply : ChartsReply} {albums : List ChartAlbum}
    (h : fetchAndParseCharts reply = .ok albums) : IsGoodChart albums := by
  cases reply with
  | failed err => exact nomatch h
  | response statusCode data =>
    simp only [fetchAndParseCharts] at h
    split_ifs at h
    cases data with
    | error err => exact nomatch h
    | ok chartsData => exact isGoodChart_of_parse h

/-! ### The two entries -/

namespace ChartState

variable {s : ChartState} {call : ChartCall} {albums : List ChartAlbum}

lemma getCachedChartAlbums_of_get (hgood : IsGoodChart albums) {key : String}
    (h : s.cache.get s.now key = some (marshalList ChartAlbum.marshal albums)) :
    s.getCachedChartAlbums true key = some albums := by
  rw [getCachedChartAlbums, if_pos rfl, h, Option.bind_some,
    unmarshalList_marshalList ChartAlbum.unmarshal_marshal, Option.filter_some,
    if_pos (decide_eq_true hgood.ne_nil)]

/-- The stale entry is the last chart that was stored, for its lifetime, and the fresh entry is the same
    chart. -/
structure Coherent (s : ChartState) : Prop where
  good : ∀ stored, s.stored = some stored → IsGoodChart stored.albums
  fresh : ∀ entry, s.cache.entries.get? chartsKey = some entry →
    ∃ stored, s.stored = some stored ∧ entry.value = marshalList ChartAlbum.marshal stored.albums
  stale : ∀ stored, s.stored = some stored →
    ∃ entry, s.cache.entries.get? chartsStaleKey = some entry ∧
      entry.value = marshalList ChartAlbum.marshal stored.albums ∧
      stored.storedAt + chartsStaleTTL ≤ entry.expiresAt

lemma Coherent.elapse (h : s.Coherent) (duration : ℕ) : (s.elapse duration).Coherent :=
  ⟨h.good, h.fresh, h.stale⟩

lemma Coherent.eq_of_fresh (h : s.Coherent) {alive : Bool}
    (hcached : s.getCachedChartAlbums alive chartsKey = some albums) :
    ∃ stored, s.stored = some stored ∧ albums = stored.albums := by
  rw [getCachedChartAlbums] at hcached
  split_ifs at hcached
  obtain ⟨hbind, -⟩ := Option.filter_eq_some_iff.mp hcached
  obtain ⟨value, hvalue, hdecoded⟩ := Option.bind_eq_some_iff.mp hbind
  obtain ⟨entry, hentry, -, rfl⟩ := ExpiringCache.get_eq_some.mp hvalue
  obtain ⟨stored, hstored, heq⟩ := h.fresh entry hentry
  rw [heq, unmarshalList_marshalList ChartAlbum.unmarshal_marshal] at hdecoded
  exact ⟨stored, hstored, (Option.some.inj hdecoded).symm⟩

lemma Coherent.stale_eq (h : s.Coherent) {stored : StoredChart} (hstored : s.stored = some stored)
    (hlife : s.now < stored.storedAt + chartsStaleTTL) :
    s.getCachedChartAlbums true chartsStaleKey = some stored.albums := by
  obtain ⟨entry, hentry, hvalue, hexpires⟩ := h.stale stored hstored
  refine getCachedChartAlbums_of_get (h.good stored hstored) (ExpiringCache.get_eq_some.mpr ?_)
  exact ⟨entry, hentry, by omega, hvalue⟩

lemma alive_afterFetch (h : call.alive .writeStale = true) : call.alive .afterFetch = true := by
  simp only [ChartCall.alive, Option.all_eq_true] at h ⊢
  intro n hn
  have hlater : 3 < n := of_decide_eq_true (h n hn)
  exact decide_eq_true (show 2 < n by omega)

/-- Both writes of a call whose context lasts. -/
lemma store_eq (halive : call.alive .writeStale = true) :
    s.store call albums =
      { now := s.now + call.storeTime
        cache := (s.cache.set s.now chartsKey (marshalList ChartAlbum.marshal albums) chartsTTL).set
          (s.now + call.storeTime) chartsStaleKey (marshalList ChartAlbum.marshal albums)
          chartsStaleTTL
        stored := some ⟨albums, s.now⟩ } := by
  simp only [store, setCached, halive, alive_afterFetch halive, if_true, elapse]

lemma Coherent.store (hgood : IsGoodChart albums) (halive : call.alive .writeStale = true) :
    (s.store call albums).Coherent := by
  rw [store_eq halive]
  refine ⟨fun stored hstored => ?_, fun entry hentry => ?_, fun stored hstored => ?_⟩
  · rw [← Option.some.inj hstored]
    exact hgood
  · rw [ExpiringCache.set, Table.get?_set_ne _ _ (show chartsKey ≠ chartsStaleKey by decide),
      ExpiringCache.set, Table.get?_set_self] at hentry
    rw [← Option.some.inj hentry]
    exact ⟨_, rfl, rfl⟩
  · rw [← Option.some.inj hstored]
    refine ⟨_, Table.get?_set_self .., rfl, ?_⟩
    change s.now + chartsStaleTTL ≤ s.now + call.storeTime + chartsStaleTTL
    omega

/-! ### The last good chart -/

/-- The call returns the chart that was stored last, while its stale lifetime lasts. -/
def ServesLastGood (s : ChartState) (call : ChartCall) : Prop :=
  ∀ stored, (s.getChartAlbums call).1.stored = some stored →
    (s.getChartAlbums call).1.now < stored.storedAt + chartsStaleTTL →
    (s.getChartAlbums call).2 = .ok stored.albums ∧ IsGoodChart stored.albums

/-- The context is alive for the last operation of the call, unless it would read a stale entry that is
    not there. -/
def contextLasts (s : ChartState) (call : ChartCall) : Bool :=
  (s.getCachedChartAlbums (call.alive .readFresh) chartsKey).isSome ||
    match fetchAndParseCharts call.reply with
    | .ok _ => call.alive .writeStale
    | .error _ => call.alive .afterFetch ||
      ((s.elapse call.fetchTime).getCachedChartAlbums true chartsStaleKey).isNone

lemma Coherent.afterCall (h : s.Coherent) (hok : s.contextLasts call = true) :
    (s.getChartAlbums call).1.Coherent ∧ s.ServesLastGood call := by
  rw [ServesLastGood]
  cases hfresh : s.getCachedChartAlbums (call.alive .readFresh) chartsKey with
  | some albums =>
    simp only [getChartAlbums, hfresh]
    refine ⟨h, fun stored hstored _ => ⟨?_, h.good stored hstored⟩⟩
    obtain ⟨stored', hstored', rfl⟩ := h.eq_of_fresh hfresh
    rw [Option.some.inj (hstored.symm.trans hstored')]
  | none =>
    simp only [contextLasts, hfresh, Option.isSome_none, Bool.false_or] at hok
    cases hfetch : fetchAndParseCharts call.reply with
    | ok albums =>
      simp only [hfetch] at hok
      have hgood := isGoodChart_of_fetch hfetch
      simp only [getChartAlbums, hfresh, hfetch]
      refine ⟨Coherent.store hgood hok, fun stored hstored _ => ?_⟩
      rw [store_eq hok] at hstored
      rw [← Option.some.inj hstored]
      exact ⟨rfl, hgood⟩
    | error err =>
      simp only [hfetch, Bool.or_eq_true, Option.isNone_iff_eq_none] at hok
      have helapsed := h.elapse call.fetchTime
      cases hstale : (s.elapse call.fetchTime).getCachedChartAlbums (call.alive .afterFetch)
          chartsStaleKey with
      | some stale =>
        simp only [getChartAlbums, hfresh, hfetch, hstale]
        refine ⟨helapsed, fun stored hstored hlife => ⟨?_, h.good stored hstored⟩⟩
        have halive : call.alive .afterFetch = true := by
          by_contra hdead
          rw [getCachedChartAlbums, if_neg hdead] at hstale
          exact nomatch hstale
        rw [halive, helapsed.stale_eq hstored hlife] at hstale
        rw [← Option.some.inj hstale]
      | none =>
        simp only [getChartAlbums, hfresh, hfetch, hstale]
        refine ⟨helapsed, fun stored hstored hlife => ?_⟩
        -- A chart that is still kept would have been read.
        have hkept := helapsed.stale_eq hstored hlife
        rcases hok with halive | hgone
        · rw [halive, hkept] at hstale
          exact nomatch hstale
        · rw [hkept] at hgone
          exact nomatch hgone

/-- The context of the call, if there is one, lasts. -/
def lasting (s : ChartState) : ChartEvent → Bool
  | .tick _ => true
  | .call call => s.contextLasts call

end ChartState

/-- In every run of calls whose contexts last, a call returns the last good chart that was stored, for two
    weeks. -/
theorem last_good_chart_served {s : ChartState} {call : ChartCall}
    (hs : chartSystem.ReachableUnder (fun s event => s.lasting event = true) s)
    (hok : s.contextLasts call = true) : s.ServesLastGood call := by
  have hcoherent : s.Coherent := by
    refine hs.invariant ?_ fun s event s' h hlasting hstep => ?_
    · rintro s rfl
      exact ⟨nofun, fun entry hentry => by simp [ExpiringCache.empty] at hentry, nofun⟩
    · cases event with
      | tick duration =>
        obtain rfl := Option.some.inj hstep
        exact h.elapse duration
      | call call =>
        change (if call.possible then some (s.getChartAlbums call).1 else none) = some s' at hstep
        split_ifs at hstep
        obtain rfl := Option.some.inj hstep
        exact (h.afterCall hlasting).1
  exact (hcoherent.afterCall hok).2

/-- A chart with one album. -/
def oneAlbum : ChartsReply :=
  .response 200 (.ok [[{ albumURI := "spotify:album:1", albumName := "A" }]])

/-- The chart of the day before is served when the charts cannot be fetched. -/
theorem last_good_chart_served_stale :
    ∃ (s : ChartState) (stored : StoredChart), s.stored = some stored ∧
      s.cache.get s.now chartsKey = none ∧ s.ServesLastGood { reply := .failed "timeout" } := by
  obtain ⟨s, hs, hstate⟩ := TransitionSystem.exists_reachableUnder_of_replay chartSystem
    (fun s event => s.lasting event = true)
    (fun s => s.stored.isSome && (s.cache.get s.now chartsKey).isNone &&
      s.contextLasts { reply := .failed "timeout" })
    [.call { reply := oneAlbum }, .tick 86400] (.initial rfl) (by decide)
  simp only [Bool.and_eq_true, Option.isNone_iff_eq_none] at hstate
  obtain ⟨⟨hstored, hfresh⟩, hok⟩ := hstate
  obtain ⟨stored, hstored⟩ := Option.isSome_iff_exists.mp hstored
  exact ⟨s, stored, hstored, hfresh, last_good_chart_served hs hok⟩

/-- A fetch that uses up the deadline of its call leaves no time to read the stale entry. -/
theorem spent_deadline_hides_chart :
    ¬ ∀ (s : ChartState) (call : ChartCall), chartSystem.Reachable s → call.possible = true →
      s.ServesLastGood call := by
  intro h
  let late : ChartCall := { context := some 2, reply := .failed "context deadline exceeded" }
  obtain ⟨s, hs, hstate⟩ := TransitionSystem.exists_reachableUnder_of_replay chartSystem
    (fun _ _ => True)
    (fun s => (s.getChartAlbums late).1.stored.any (fun stored =>
        (s.getChartAlbums late).1.now < stored.storedAt + chartsStaleTTL) &&
      (s.getChartAlbums late).2.toOption.isNone)
    [.call { reply := oneAlbum }, .tick 86400] (.initial rfl) (by decide)
  simp only [Bool.and_eq_true, Option.isNone_iff_eq_none] at hstate
  obtain ⟨hany, hfailed⟩ := hstate
  obtain ⟨stored, hstored, hlife⟩ := (Option.any_eq_true ..).mp hany
  obtain ⟨hresult, -⟩ := h s late hs rfl stored hstored (of_decide_eq_true hlife)
  rw [hresult] at hfailed
  exact nomatch hfailed

end Denn.Proxy
