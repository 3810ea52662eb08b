import Denn.Core.Chunks
import Denn.Proxy.BulkHandlers
import Denn.Store.Isolation

/-!
# The bulk requests of the core at the proxy

The core asks for a batch twenty external ids at a time, and the bulk endpoints of the proxy read those
ids back, fetch them side by side and answer with what they have. A caller gets for an item what was
written to the slot of its own external id, however the goroutines of its request ran.
-/

namespace Denn

open Denn.Core Denn.Proxy.Bulk

variable {ι ω Payload : Type}

/-! ### Answers of the endpoints -/

/-- An object of a response. -/
def toObject (idOf : Payload → String) (payload : Payload) : ProxyObject Payload :=
  ⟨some (.text (idOf payload)), payload⟩

/-- The `ids` of a request. -/
def idsParam (chunk : List String) : String := ",".intercalate chunk

/-- How an endpoint that fetches each id on its own has answered the requests of the core: by a run of
    its service for the ids that it has read. A request without a run has failed, or was refused. -/
structure SlotServing [Inhabited ι] (e : Endpoint ι) (idOf : Payload → String)
    (fetch : Proxy.Instant → ι → ω → Result ι Payload)
    (bulk : List String → Option (List (ProxyObject Payload))) where
  run : List String → Option (State ι Payload)
  bulk_eq : ∀ chunk, bulk chunk = (run chunk).map fun s => s.response.map (toObject idOf)
  served : ∀ chunk s, run chunk = some s → ∃ ids, e.requestedIDs (idsParam chunk) = .ok ids ∧
    (system fetch ids).ReachableUnder (NamesItsId e.idText idOf fetch ids) s ∧ s.returned = true

/-- The same for `/games/bulk`, whose batches of five have completed in some order. -/
structure GamesServing (toResponse : Proxy.Game → Payload)
    (bulk : List String → Option (List (ProxyObject Payload))) where
  order : List String → Option (List (List ℤ))
  upstream : List String → Proxy.TrendingUpstream
  bulk_eq : ∀ chunk, bulk chunk = (order chunk).bind fun order =>
    (gamesResponse (upstream chunk) order).map fun games =>
      games.map fun game => ⟨some (.text game.id), toResponse game⟩
  served : ∀ chunk batches, order chunk = some batches →
    ∃ ids, games.requestedIDs (idsParam chunk) = .ok ids ∧ batches.Perm (Proxy.bulkBatches ids)

/-- How the proxy has answered the bulk requests of a fetch. -/
structure Serving (idOf : Payload → String) (releaseDate : Payload → Option String)
    (toResponse : Proxy.Game → Payload) (proxy : Proxy Payload) (country : Option String) where
  movies : SlotServing Proxy.Bulk.movies idOf bulkMovies (proxy.bulk "/movies/bulk" · country)
  tvShows : SlotServing Proxy.Bulk.tvShows idOf bulkTVShows (proxy.bulk "/tv-shows/bulk" · country)
  games : GamesServing toResponse (proxy.bulk "/games/bulk" · none)
  albums : SlotServing Proxy.Bulk.albums idOf (bulkAlbums releaseDate) (proxy.bulk "/albums/bulk" · none)
  books : SlotServing Proxy.Bulk.books idOf (bulkBooks releaseDate) (proxy.bulk "/books/bulk" · none)

/-! ### What the answers hold for an external id -/

section

variable [Inhabited ι] {e : Endpoint ι} {idOf : Payload → String}
  {fetch : Proxy.Instant → ι → ω → Result ι Payload}
  {bulk : List String → Option (List (ProxyObject Payload))}

/-- One of the requests was read, and the slot of the external id has the payload. -/
def SlotServing.Delivers (serving : SlotServing e idOf fetch bulk) (externalIds : List String)
    (externalId : String) (payload : Payload) : Prop :=
  ∃ chunk ∈ externalIds.toChunks 20, ∃ ids s i id, e.requestedIDs (idsParam chunk) = .ok ids ∧
    serving.run chunk = some s ∧ ids[i]? = some id ∧ e.idText id = externalId ∧
    s.slot i = some payload

end

/-- A request for the external id that was answered before its context ended has delivered something, or
    has an error for that id. -/
def SlotServing.Accounts [Inhabited ι] {e : Endpoint ι} {idOf : Payload → String}
    {fetch : Proxy.Instant → ι → ω → Result ι Payload}
    {bulk : List String → Option (List (ProxyObject Payload))}
    (serving : SlotServing e idOf fetch bulk) (externalIds : List String) (externalId : String) : Prop :=
  ∀ chunk ∈ externalIds.toChunks 20, externalId ∈ chunk →
    ∀ s, serving.run chunk = some s → s.contextEnded = false →
      (∃ payload, serving.Delivers externalIds externalId payload) ∨
        ∃ result ∈ s.results, e.idText result.id = externalId ∧ result.error ≠ ""

/-- One of the requests was read, all its batches of five succeeded, and one of them has the game. -/
def GamesServing.Delivers {toResponse : Proxy.Game → Payload}
    {bulk : List String → Option (List (ProxyObject Payload))} (serving : GamesServing toResponse bulk)
    (externalIds : List String) (externalId : String) (payload : Payload) : Prop :=
  ∃ chunk ∈ externalIds.toChunks 20, ∃ ids, games.requestedIDs (idsParam chunk) = .ok ids ∧
    (serving.order chunk).isSome = true ∧
    Proxy.AllAnswered (serving.upstream chunk) (Proxy.bulkBatches ids) ∧
    ∃ batch ∈ Proxy.bulkBatches ids, ∃ game ∈ Proxy.batchGames (serving.upstream chunk) batch,
      game.id = externalId ∧ toResponse game = payload

section

variable {proxy : Proxy Payload} {path : String} {country : Option String}
  {key : ProxyObject Payload → Option String}

/-- What is found for an external id is what any of the answers has for it. -/
lemma find_eq_some_iff (hkey : KeyOfId key) {externalIds : List String} {externalId : String}
    {payload : Payload} : proxy.find path country key externalIds externalId = some payload ↔
      ∃ chunk ∈ externalIds.toChunks 20, ∃ objects, proxy.bulk path chunk country = some objects ∧
        ∃ object ∈ objects, key object = some externalId ∧ object.payload = payload := by
  have hmem : ∀ object, object ∈ proxy.bulkAll path externalIds country ↔
      ∃ chunk ∈ externalIds.toChunks 20, ∃ objects, proxy.bulk path chunk country = some objects ∧
        object ∈ objects := by
    intro object
    rw [Proxy.bulkAll, List.mem_flatMap]
    refine exists_congr fun chunk => and_congr_right fun _ => ?_
    cases proxy.bulk path chunk country with
    | none => simp
    | some objects => simp
  constructor
  · intro h
    obtain ⟨object, hlast, rfl⟩ := Option.map_eq_some_iff.mp h
    obtain ⟨hobject, hid⟩ := mem_of_lastWithKey hlast
    obtain ⟨chunk, hchunk, objects, hbulk, hin⟩ := (hmem object).mp hobject
    exact ⟨chunk, hchunk, objects, hbulk, object, hin, hid, rfl⟩
  · rintro ⟨chunk, hchunk, objects, hbulk, object, hobject, hid, rfl⟩
    have hnamed : proxy.Names path country key externalIds externalId :=
      ⟨chunk, hchunk, objects, hbulk, object, hobject, hid⟩
    obtain ⟨payload, hfind⟩ := Option.isSome_iff_exists.mp (isSome_find_iff.mpr hnamed)
    obtain ⟨other, hlast, rfl⟩ := Option.map_eq_some_iff.mp hfind
    obtain ⟨hother, hotherid⟩ := mem_of_lastWithKey hlast
    obtain ⟨chunk', -, objects', hbulk', hin⟩ := (hmem other).mp hother
    -- an object is the proxy's only one of its id
    have hstr := hkey object externalId hid
    have hsome : object.id.isSome = true := by
      rw [← Option.isSome_map (f := ProviderId.str), hstr, Option.isSome_some]
    rw [hfind, proxy.consistent path country chunk chunk' objects objects' hbulk hbulk' object hobject
      other hin hsome (hstr.trans (hkey other externalId hotherid).symm)]

/-- A key of an object whose id is a text. -/
def KeyOfText (key : ProxyObject Payload → Option String) : Prop :=
  ∀ idOf payload externalId, key (toObject idOf payload) = some externalId ↔
    idOf payload = externalId ∧ externalId ≠ ""

lemma keyOfText_numericKey : KeyOfText (@ProxyObject.numericKey Payload) := by
  intro idOf payload externalId
  rw [ProxyObject.numericKey, toObject, Option.map_eq_some_iff]
  constructor
  · rintro ⟨id, hid, rfl⟩
    obtain ⟨heq, htruthy⟩ := Option.filter_eq_some_iff.mp hid
    obtain rfl := Option.some.inj heq
    exact ⟨rfl, of_decide_eq_true htruthy⟩
  · rintro ⟨rfl, hne⟩
    exact ⟨_, Option.filter_eq_some_iff.mpr ⟨rfl, decide_eq_true hne⟩, rfl⟩

end

section

variable [Inhabited ι] {e : Endpoint ι} {idOf : Payload → String}
  {fetch : Proxy.Instant → ι → ω → Result ι Payload} {proxy : Proxy Payload} {path : String}
  {country : Option String} {key : ProxyObject Payload → Option String}

lemma SlotServing.find_eq_some_iff (serving : SlotServing e idOf fetch (proxy.bulk path · country))
    (hkey : KeyOfId key) (htext : KeyOfText key) {externalIds : List String} {externalId : String}
    {payload : Payload} : proxy.find path country key externalIds externalId = some payload ↔
      serving.Delivers externalIds externalId payload := by
  rw [Denn.find_eq_some_iff hkey]
  refine exists_congr fun chunk => and_congr_right fun _ => ?_
  have hbulk : proxy.bulk path chunk country
      = (serving.run chunk).map fun s => s.response.map (toObject idOf) := serving.bulk_eq chunk
  constructor
  · rintro ⟨objects, hobjects, object, hobject, hid, rfl⟩
    rw [hbulk] at hobjects
    obtain ⟨s, hrun, rfl⟩ := Option.map_eq_some_iff.mp hobjects
    obtain ⟨payload, hpayload, rfl⟩ := List.mem_map.mp hobject
    obtain ⟨i, hslot⟩ := State.mem_response.mp hpayload
    obtain ⟨ids, hids, hreachable, -⟩ := serving.served chunk s hrun
    obtain ⟨id, hi, hname⟩ := slotsNamed_of_reachable hreachable i payload hslot
    obtain ⟨hidOf, -⟩ := (htext idOf payload externalId).mp hid
    exact ⟨ids, s, i, id, hids, hrun, hi, hname.symm.trans hidOf, hslot⟩
  · rintro ⟨ids, s, i, id, hids, hrun, hi, rfl, hslot⟩
    obtain ⟨ids', hids', hreachable, -⟩ := serving.served chunk s hrun
    obtain rfl : ids = ids' := Except.ok.inj (hids.symm.trans hids')
    obtain ⟨id', hi', hname⟩ := slotsNamed_of_reachable hreachable i payload hslot
    obtain rfl : id = id' := Option.some.inj (hi.symm.trans hi')
    have hne : e.idText id ≠ "" :=
      e.text_ne_empty _ _ (parse_of_requestedIDs hids) id (List.mem_of_getElem? hi)
    refine ⟨_, by rw [hbulk, hrun, Option.map_some], toObject idOf payload, ?_, ?_, rfl⟩
    · exact List.mem_map_of_mem (State.mem_response.mpr ⟨i, hslot⟩)
    · exact (htext idOf payload _).mpr ⟨hname, hne⟩

end

section

variable {toResponse : Proxy.Game → Payload} {proxy : Proxy Payload}

/-- The identifier of a fetched game is a number. -/
lemma id_ne_empty_of_mem_batchGames {upstream : Proxy.TrendingUpstream} {batch : List ℤ}
    {game : Proxy.Game} (h : game ∈ Proxy.batchGames upstream batch) : game.id ≠ "" := by
  rw [Proxy.batchGames] at h
  obtain ⟨item, -, rfl⟩ := List.mem_map.mp h
  exact (isPiece_itoa item.id).ne_empty

lemma GamesServing.find_eq_some_iff
    (serving : GamesServing toResponse (proxy.bulk "/games/bulk" · none))
    {externalIds : List String} {externalId : String} {payload : Payload} :
    proxy.find "/games/bulk" none ProxyObject.numericKey externalIds externalId = some payload ↔
      serving.Delivers externalIds externalId payload := by
  rw [Denn.find_eq_some_iff keyOfId_numericKey]
  refine exists_congr fun chunk => and_congr_right fun _ => ?_
  have hbulk := serving.bulk_eq chunk
  have hkey : ∀ game : Proxy.Game, ProxyObject.numericKey ⟨some (.text game.id), toResponse game⟩
      = some externalId ↔ game.id = externalId ∧ externalId ≠ "" :=
    fun game => keyOfText_numericKey (fun _ => game.id) (toResponse game) externalId
  constructor
  · rintro ⟨objects, hobjects, object, hobject, hid, rfl⟩
    rw [hbulk] at hobjects
    obtain ⟨order, horder, hgames⟩ := Option.bind_eq_some_iff.mp hobjects
    obtain ⟨found, hfound, rfl⟩ := Option.map_eq_some_iff.mp hgames
    obtain ⟨hall, rfl⟩ := gamesResponse_eq_some.mp hfound
    obtain ⟨ids, hids, hperm⟩ := serving.served chunk order horder
    obtain ⟨game, hgame, rfl⟩ := List.mem_map.mp hobject
    obtain ⟨batch, hbatch, hin⟩ := List.mem_flatMap.mp hgame
    exact ⟨ids, hids, by rw [horder]; rfl, hall.perm hperm.symm, batch, hperm.subset hbatch, game, hin,
      ((hkey game).mp hid).1, rfl⟩
  · rintro ⟨ids, hids, hsome, hall, batch, hbatch, game, hgame, rfl, rfl⟩
    obtain ⟨order, horder⟩ := Option.isSome_iff_exists.mp hsome
    obtain ⟨ids', hids', hperm⟩ := serving.served chunk order horder
    obtain rfl : ids = ids' := Except.ok.inj (hids.symm.trans hids')
    have hfound := gamesResponse_eq_some.mpr ⟨hall.perm hperm, rfl⟩
    refine ⟨_, by rw [hbulk, horder, Option.bind_some, hfound, Option.map_some], _,
      List.mem_map_of_mem (List.mem_flatMap.mpr ⟨batch, hperm.symm.subset hbatch, hgame⟩), ?_, rfl⟩
    exact (hkey game).mpr ⟨rfl, id_ne_empty_of_mem_batchGames hgame⟩

end

/-! ### A batch -/

section

variable {idOf : Payload → String} {releaseDate : Payload → Option String}
  {toResponse : Proxy.Game → Payload} {proxy : Proxy Payload} {country : Option String} {batch : Batch}
  {item : FetchItem}

/-- The answers hold a payload for an item: in the slot of its external id, or in a batch of games. -/
def Serving.Delivers (serving : Serving idOf releaseDate toResponse proxy country) (batch : Batch)
    (item : FetchItem) (payload : Payload) : Prop :=
  match item.contentType with
  | .movie => serving.movies.Delivers (batch.ids .movie) item.externalId payload
  | .tvShow => serving.tvShows.Delivers (batch.ids .tvShow) item.externalId payload
  | .season => proxy.findSeason country item.externalId = some payload
  | .game => serving.games.Delivers (batch.ids .game) item.externalId payload
  | .album => serving.albums.Delivers (batch.ids .album) item.externalId payload
  | .book => serving.books.Delivers (batch.ids .book) item.externalId payload

/-- Every external id is the name of an id of the endpoint. -/
def NamesIds (e : Endpoint ι) (externalIds : List String) : Prop :=
  ∀ externalId ∈ externalIds, ∃ id, e.IsId id ∧ e.idText id = externalId

/-- The endpoint reads each request as the ids that its external ids name, place by place. -/
def ReadsAll (e : Endpoint ι) (externalIds : List String) : Prop :=
  ∀ chunk ∈ externalIds.toChunks 20, ∃ ids, e.requestedIDs (idsParam chunk) = .ok ids ∧
    ids.map e.idText = chunk

/-- If the external ids of the item's type are names, its requests are read, and the answered ones account
    for the item. -/
def Serving.Accounts (serving : Serving idOf releaseDate toResponse proxy country) (batch : Batch)
    (item : FetchItem) : Prop :=
  match item.contentType with
  | .movie => NamesIds Proxy.Bulk.movies (batch.ids .movie) →
    ReadsAll Proxy.Bulk.movies (batch.ids .movie) ∧
      serving.movies.Accounts (batch.ids .movie) item.externalId
  | .tvShow => NamesIds Proxy.Bulk.tvShows (batch.ids .tvShow) →
    ReadsAll Proxy.Bulk.tvShows (batch.ids .tvShow) ∧
      serving.tvShows.Accounts (batch.ids .tvShow) item.externalId
  | .season => True
  | .game => NamesIds Proxy.Bulk.games (batch.ids .game) → ReadsAll Proxy.Bulk.games (batch.ids .game)
  | .album => NamesIds Proxy.Bulk.albums (batch.ids .album) →
    ReadsAll Proxy.Bulk.albums (batch.ids .album) ∧
      serving.albums.Accounts (batch.ids .album) item.externalId
  | .book => NamesIds Proxy.Bulk.books (batch.ids .book) →
    ReadsAll Proxy.Bulk.books (batch.ids .book) ∧
      serving.books.Accounts (batch.ids .book) item.externalId

lemma readsAll_of_namesIds {e : Endpoint ι} {externalIds : List String} (hlimit : 20 ≤ e.maxBulkIDs)
    (h : NamesIds e externalIds) : ReadsAll e externalIds := by
  intro chunk hchunk
  have hchunking := isChunking_toChunks (by decide : 0 < 20) externalIds
  have hsubset := subset_of_mem_toChunks (by decide) hchunk
  have hids : ∃ ids : List ι, ids.map e.idText = chunk ∧ ∀ id ∈ ids, e.IsId id := by
    have hnames : ∀ externalId ∈ chunk, ∃ id, e.IsId id ∧ e.idText id = externalId :=
      fun externalId hmem => h externalId (hsubset hmem)
    clear hchunk hsubset
    induction chunk with
    | nil => exact ⟨[], rfl, nofun⟩
    | cons externalId chunk ih =>
      obtain ⟨⟨id, hid, rfl⟩, hrest⟩ := List.forall_mem_cons.mp hnames
      obtain ⟨ids, rfl, hall⟩ := ih hrest
      exact ⟨id :: ids, rfl, List.forall_mem_cons.mpr ⟨hid, hall⟩⟩
  obtain ⟨ids, rfl, hall⟩ := hids
  have hne : ids ≠ [] := by
    rintro rfl
    exact hchunking.ne_nil _ hchunk rfl
  have hle : ids.length ≤ 20 := by simpa using hchunking.length_le _ hchunk
  exact ⟨ids, requestedIDs_join hne (hle.trans hlimit) hall, rfl⟩

lemma SlotServing.accounts [Inhabited ι] {e : Endpoint ι}
    {fetch : Proxy.Instant → ι → ω → Result ι Payload}
    {bulk : List String → Option (List (ProxyObject Payload))}
    (serving : SlotServing e idOf fetch bulk) (hfetch : FetchAccounts fetch) {externalIds : List String}
    (hreads : ReadsAll e externalIds) (externalId : String) :
    serving.Accounts externalIds externalId := by
  intro chunk hchunk hmem s hrun hended
  obtain ⟨ids, hids, hnames⟩ := hreads chunk hchunk
  obtain ⟨ids', hids', hreachable, hreturned⟩ := serving.served chunk s hrun
  obtain rfl : ids = ids' := Except.ok.inj (hids.symm.trans hids')
  obtain ⟨hlength, hnext, hslots⟩ := accountsForStarted hfetch ids s hreachable.reachable hreturned
  -- the place of the external id in the request is the place of its id in the service
  rw [← hnames] at hmem
  obtain ⟨id, hid, rfl⟩ := List.mem_map.mp hmem
  obtain ⟨i, hi⟩ := List.mem_iff_getElem?.mp hid
  obtain ⟨result, hresult, haccounts⟩ := hslots i id hi
  have hlt : i < s.next := by
    rw [hnext hended]
    exact (List.getElem?_eq_some_iff.mp hi).1
  rw [if_pos hlt] at haccounts
  cases hdata : result.data with
  | some payload =>
    have hslot : s.slot i = some payload := by rw [State.slot, hresult, Option.bind_some, hdata]
    exact .inl ⟨payload, chunk, hchunk, ids, s, i, id, hids, hrun, hi, rfl, hslot⟩
  | none =>
    refine .inr ⟨result, List.mem_of_getElem? hresult, by rw [haccounts.id_eq], ?_⟩
    rcases haccounts.data_or_error with ⟨hsome, -⟩ | ⟨herror, -⟩
    · rw [hdata] at hsome
      exact Bool.noConfusion hsome
    · exact herror

lemma Serving.accounts (serving : Serving idOf releaseDate toResponse proxy country) :
    serving.Accounts batch item := by
  unfold Serving.Accounts
  cases item.contentType with
  | season => trivial
  | game => exact readsAll_of_namesIds (by decide)
  | movie =>
    intro hnames
    have hreads := readsAll_of_namesIds (by decide) hnames
    exact ⟨hreads, serving.movies.accounts (fun _ => accounts_bulkMovies _) hreads _⟩
  | tvShow =>
    intro hnames
    have hreads := readsAll_of_namesIds (by decide) hnames
    exact ⟨hreads, serving.tvShows.accounts (fun _ => accounts_bulkTVShows _) hreads _⟩
  | album =>
    intro hnames
    have hreads := readsAll_of_namesIds (by decide) hnames
    exact ⟨hreads, serving.albums.accounts (fun _ => accounts_bulkAlbums _ _) hreads _⟩
  | book =>
    intro hnames
    have hreads := readsAll_of_namesIds (by decide) hnames
    exact ⟨hreads, serving.books.accounts (fun _ => accounts_bulkBooks _ _) hreads _⟩

end

/-! ### One movie -/

end Denn
