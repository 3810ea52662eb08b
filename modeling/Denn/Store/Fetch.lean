import Denn.Store.Reconstruct
import Denn.Store.Refresh

/-!
# The bulk fetch

`fetch_bulk_source_data` answers from the local rows first. The other items go to the proxy, whose
payloads are stored and reconstructed again; where it has none, a stale row is served. What the
proxy answers, which mappers fail and what a guard permits is an argument of the call.
-/

namespace Denn

open Core

/-- A call of `fetch_bulk_source_data`. A failure of the proxy is a payload that is `none`. -/
structure FetchCall where
  items : List ItemId
  countryCode : Option String := none
  staleWhileRevalidate : Bool := false
  guard : Option (ItemId → Bool) := none
  proxy : ItemId → Option DetailPayload
  fails : ItemId → Bool := fun _ => false

def FetchCall.permits (call : FetchCall) (item : ItemId) : Bool := call.guard.all (· item)

/-- Which branch of the call a payload comes from. -/
inductive Origin where
  | fresh
  | stale
  | fallback
  | rebuilt
  deriving DecidableEq, Repr

/-- A payload in the result: a reconstructed one, or the proxy's own. -/
inductive FetchedPayload where
  | fromRows (origin : Origin) (payload : LocalPayload)
  | raw (payload : DetailPayload)

structure FetchState where
  store : LocalStore
  results : Table ItemId FetchedPayload
  persisted : List ItemId

namespace LocalStore

variable (config : StoreConfig) (s : LocalStore) (call : FetchCall)

/-- `_hydrate_details`: the items that exist. -/
def hydrate (items : List ItemId) : List ItemId :=
  items.filter fun item => (s.items.get? item).isSome

/-- One list of `_classify`. -/
def classified (state : LocalState) : List ItemId :=
  (s.hydrate call.items).filter fun item => s.classify config item = state

/-- The items that are fetched from the proxy. -/
def needsProxy : List ItemId :=
  s.classified config call .missing ++ s.classified config call .incomplete
    ++ if call.staleWhileRevalidate then [] else s.classified config call .stale

/-- `_persist`: a mapper that raises leaves the rows as they are. The instance was read before the
    call, and caches the row of a show that it creates. -/
def persist (before : LocalStore) (item : ItemId) (payload : DetailPayload) : LocalStore :=
  if call.fails item then s
  else
    (s.upsertDetail config
      { item := item
        payload := payload
        cachedTvShow := some ((before.showTitle item).or (s.showTitle item))
        requestCountry := call.countryCode }).getD s

/-- The local payload that stands in for one of the proxy, for the stale and the incomplete items. -/
def fallback (item : ItemId) : Option LocalPayload :=
  if s.classify config item = .stale ∨ s.classify config item = .incomplete then
    (s.fromLocal item).map LocalPayload.markStale
  else none

/-- One item of the loop over the proxy's results. -/
def fetchItem (before : LocalStore) (state : FetchState) (item : ItemId) : FetchState :=
  match call.proxy item with
  | some payload =>
    if call.permits item then
      { state with
        store := state.store.persist config call before item payload
        persisted := state.persisted ++ [item] }
    else state
  | none =>
    { state with
      results := state.results.assign
        (fun item => (before.fallback config item).map (.fromRows .fallback)) [item] }

/-- What a persisted item is answered with: its rows, or the proxy's payload if it has none. -/
def rebuild (item : ItemId) : Option FetchedPayload :=
  match s.fromLocal item with
  | some rebuilt => some (.fromRows .rebuilt rebuilt)
  | none => (call.proxy item).map .raw

/-- The answers that need no proxy. -/
def localResults : Table ItemId FetchedPayload :=
  let fresh := Table.empty.assign (fun item => (s.fromLocal item).map (.fromRows .fresh))
    (s.classified config call .fresh)
  if call.staleWhileRevalidate then
    fresh.assign (fun item => (s.fromLocal item).map fun payload => .fromRows .stale payload.markStale)
      (s.classified config call .stale)
  else fresh

/-- The loop over the proxy's results. -/
def fetchLoop : FetchState :=
  (s.needsProxy config call).foldl (fetchItem config call s) ⟨s, s.localResults config call, []⟩

/-- `fetch_bulk_source_data`: the store after the call, and the result. -/
def fetchBulkSourceData : LocalStore × Table ItemId FetchedPayload :=
  let state := s.fetchLoop config call
  (state.store, state.results.assign (state.store.rebuild call) state.persisted)

/-! ### What a call stores -/

/-- The proxy's payload for `source` is stored, and has text for the item. -/
def storesFor (item source : ItemId) : Bool :=
  call.permits source && !call.fails source && (call.proxy source).any fun payload =>
    (s.items.get? source).any fun sourceRow => payload.isAccepted sourceRow.contentType
      && (source = item || (s.items.get? item).any fun row =>
        row.key ∈ payload.nestedKeys sourceRow)

/-- The call stores a new payload for the item. -/
def stores (item : ItemId) : Bool := (s.needsProxy config call).any (s.storesFor call item)

variable {config s call} {s' before : LocalStore} {item source : ItemId}
  {row sourceRow : ContentItem} {payload : DetailPayload}

/-- What persisting payloads keeps. -/
structure Persists (s s' : LocalStore) : Prop where
  invariant : StoreInvariant s'
  extending : Extends s s'
  clock : s'.clock = s.clock

lemma Persists.trans {s'' : LocalStore} (h : Persists s s') (h' : Persists s' s'') :
    Persists s s'' :=
  ⟨h'.invariant, h.extending.trans h'.extending, h'.clock.trans h.clock⟩

lemma persists_persist (hI : StoreInvariant s) (before : LocalStore) (source : ItemId)
    (payload : DetailPayload) : Persists s (s.persist config call before source payload) := by
  unfold persist
  split_ifs
  · exact ⟨hI, .rfl s, rfl⟩
  · cases hupsert : s.upsertDetail config
      { item := source, payload := payload
        cachedTvShow := some ((before.showTitle source).or (s.showTitle source))
        requestCountry := call.countryCode } with
    | none => exact ⟨hI, .rfl s, rfl⟩
    | some s' =>
      have hwrites := upsertDetail_writes hI hupsert
      exact ⟨hI.writes hwrites, Writes.extends hI hwrites, hwrites.clock_eq⟩

/-- A payload that a mapper stores refreshes the rows that it has text for. -/
lemma persist_refreshes (hI : StoreInvariant s) (before : LocalStore)
    (hrow : s.items.get? item = some row) (hsource : s.items.get? source = some sourceRow) :
    RefreshesIff s (s.persist config call before source payload) item
      (call.fails source = false ∧ payload.isAccepted sourceRow.contentType = true ∧
        (source = item ∨ row.key ∈ payload.nestedKeys sourceRow)) := by
  let request : Upsert :=
    { item := source, payload := payload
      cachedTvShow := some ((before.showTitle source).or (s.showTitle source))
      requestCountry := call.countryCode }
  have hisSome : (s.upsertDetail config request).isSome
      = payload.isAccepted sourceRow.contentType := isSome_upsertDetail hsource
  unfold persist
  cases hfails : call.fails source with
  | true => exact (RefreshesIff.rfl s item).congr (by simp)
  | false =>
    rw [if_neg Bool.false_ne_true]
    cases hupsert : s.upsertDetail config request with
    | none =>
      rw [hupsert] at hisSome
      exact (RefreshesIff.rfl s item).congr (by simp [← hisSome])
    | some s' =>
      rw [hupsert] at hisSome
      exact (upsertDetail_refreshes hI hsource hupsert hrow).congr
        (by simp [← hisSome, request])

/-! ### The loop -/

/-- One item of the loop stores its payload, or nothing. -/
lemma fetchItem_store (state : FetchState) :
    (fetchItem config call before state source).store = match call.proxy source with
      | some payload =>
        if call.permits source then state.store.persist config call before source payload
        else state.store
      | none => state.store := by
  unfold fetchItem
  cases call.proxy source with
  | none => rfl
  | some payload =>
    simp only
    split_ifs <;> rfl

lemma persists_fetchItem {state : FetchState} (hI : StoreInvariant state.store) :
    Persists state.store (fetchItem config call before state source).store := by
  rw [fetchItem_store]
  cases call.proxy source with
  | none => exact ⟨hI, .rfl _, rfl⟩
  | some payload =>
    simp only
    split_ifs
    · exact persists_persist hI before source payload
    · exact ⟨hI, .rfl _, rfl⟩

/-- One item of the loop refreshes the rows that its payload is stored for. -/
lemma fetchItem_refreshes {state : FetchState} (hpersists : Persists before state.store)
    (hrow : before.items.get? item = some row)
    (hsource : before.items.get? source = some sourceRow) :
    RefreshesIff state.store (fetchItem config call before state source).store item
      (before.storesFor call item source = true) := by
  obtain ⟨row', hrow', hkey⟩ := hpersists.extending.key item row hrow
  obtain ⟨sourceRow', hsource', hsourceKey⟩ := hpersists.extending.key source sourceRow hsource
  have htype : sourceRow'.contentType = sourceRow.contentType :=
    congrArg (fun key => key.2.2) hsourceKey
  rw [fetchItem_store, storesFor, hrow, hsource]
  cases hproxy : call.proxy source with
  | none => exact (RefreshesIff.rfl _ item).congr (by simp)
  | some payload =>
    cases hpermits : call.permits source with
    | false => exact (RefreshesIff.rfl _ item).congr (by simp)
    | true =>
      refine (persist_refreshes hpersists.invariant before hrow' hsource').congr ?_
      rw [htype, hkey, nestedKeys_congr hsourceKey]
      simp

/-- The loop refreshes the rows that one of its payloads is stored for. -/
lemma foldl_fetchItem_refreshes (hrow : before.items.get? item = some row) {items : List ItemId}
    (hitems : ∀ source ∈ items, (before.items.get? source).isSome) {state : FetchState}
    (hpersists : Persists before state.store) :
    Persists before (items.foldl (fetchItem config call before) state).store ∧
    RefreshesIff state.store (items.foldl (fetchItem config call before) state).store item
      (items.any (before.storesFor call item) = true) := by
  induction items generalizing state with
  | nil => exact ⟨hpersists, (RefreshesIff.rfl _ item).congr (by simp)⟩
  | cons source items ih =>
    obtain ⟨sourceRow, hsource⟩ := Option.isSome_iff_exists.mp (hitems source List.mem_cons_self)
    have hstep : Persists state.store (fetchItem config call before state source).store :=
      persists_fetchItem hpersists.invariant
    obtain ⟨hend, hrest⟩ := ih (fun source' hmem => hitems source' (List.mem_cons_of_mem _ hmem))
      (hpersists.trans hstep)
    refine ⟨hend, ((fetchItem_refreshes hpersists hrow hsource).trans hrest ?_).congr ?_⟩
    · exact hend.clock.trans (hpersists.trans hstep).clock.symm
    · rw [List.any_cons, Bool.or_eq_true]

lemma mem_hydrate {items : List ItemId} :
    item ∈ s.hydrate items ↔ item ∈ items ∧ (s.items.get? item).isSome := by
  rw [hydrate, List.mem_filter]

lemma mem_classified {state : LocalState} :
    item ∈ s.classified config call state ↔
      item ∈ s.hydrate call.items ∧ s.classify config item = state := by
  rw [classified, List.mem_filter, decide_eq_true_eq]

lemma mem_needsProxy :
    item ∈ s.needsProxy config call ↔ item ∈ s.hydrate call.items ∧
      (s.classify config item = .missing ∨ s.classify config item = .incomplete ∨
        s.classify config item = .stale ∧ call.staleWhileRevalidate = false) := by
  rw [needsProxy, List.mem_append, List.mem_append, mem_classified, mem_classified]
  cases call.staleWhileRevalidate with
  | true => simp [and_or_left]
  | false => simp [mem_classified, and_or_left, or_assoc]

/-- A call refreshes the rows that it stores a payload for. -/
theorem fetchBulkSourceData_refreshes (config : StoreConfig) (call : FetchCall)
    (hI : StoreInvariant s) (hrow : s.items.get? item = some row) :
    Persists s (s.fetchBulkSourceData config call).1 ∧
    RefreshesIff s (s.fetchBulkSourceData config call).1 item
      (s.stores config call item = true) :=
  foldl_fetchItem_refreshes hrow
    (fun _ hmem => (mem_hydrate.mp (mem_needsProxy.mp hmem).1).2) ⟨hI, .rfl s, rfl⟩

/-- The upserts of a call are those of the store. -/
lemma reachable_fetchItem {state : FetchState}
    (h : (localStoreSystem config).Reachable state.store) :
    (localStoreSystem config).Reachable (fetchItem config call before state source).store := by
  rw [fetchItem_store]
  cases call.proxy source with
  | none => exact h
  | some payload =>
    simp only [persist]
    split_ifs with hpermits hfails
    · exact h
    · let request : Upsert :=
        { item := source, payload := payload
          cachedTvShow := some ((before.showTitle source).or (state.store.showTitle source))
          requestCountry := call.countryCode }
      cases hupsert : state.store.upsertDetail config request with
      | none => exact h
      | some s' =>
        have hstep : (localStoreSystem config).step state.store (.upsert request) = some s' :=
          hupsert
        exact .step h trivial hstep
    · exact h

theorem reachable_fetchBulkSourceData (h : (localStoreSystem config).Reachable s) :
    (localStoreSystem config).Reachable (s.fetchBulkSourceData config call).1 := by
  have hloop : ∀ (items : List ItemId) (state : FetchState),
      (localStoreSystem config).Reachable state.store →
      (localStoreSystem config).Reachable
        (items.foldl (fetchItem config call s) state).store := by
    intro items
    induction items with
    | nil => exact fun _ hstate => hstate
    | cons source items ih => exact fun state hstate => ih _ (reachable_fetchItem hstate)
  exact hloop _ _ h

/-! ### The result -/

lemma get?_results_fetchItem (state : FetchState) :
    (fetchItem config call before state source).results.get? item
      = if item = source ∧ call.proxy item = none then
          ((before.fallback config item).map (.fromRows .fallback)).or (state.results.get? item)
        else state.results.get? item := by
  unfold fetchItem
  cases hproxy : call.proxy source with
  | none =>
    simp only [Table.get?_assign, List.mem_singleton]
    by_cases hitem : item = source
    · subst hitem
      simp [hproxy]
    · simp [hitem]
  | some payload =>
    have hnot : ¬ (item = source ∧ call.proxy item = none) := by
      rintro ⟨rfl, hnone⟩
      rw [hproxy] at hnone
      cases hnone
    rw [if_neg hnot]
    simp only
    split_ifs <;> rfl

lemma get?_results_foldl (items : List ItemId) (state : FetchState) :
    (items.foldl (fetchItem config call before) state).results.get? item
      = if item ∈ items ∧ call.proxy item = none then
          ((before.fallback config item).map (.fromRows .fallback)).or (state.results.get? item)
        else state.results.get? item := by
  induction items generalizing state with
  | nil => simp
  | cons source items ih =>
    rw [List.foldl_cons, ih, get?_results_fetchItem]
    by_cases hproxy : call.proxy item = none
    · by_cases hitem : item = source
      · subst hitem
        cases before.fallback config item <;> simp [hproxy]
      · simp [hproxy, hitem]
    · simp [hproxy]

lemma mem_persisted_foldl (items : List ItemId) (state : FetchState) :
    item ∈ (items.foldl (fetchItem config call before) state).persisted ↔
      item ∈ state.persisted ∨
        item ∈ items ∧ (call.proxy item).isSome ∧ call.permits item = true := by
  induction items generalizing state with
  | nil => simp
  | cons source items ih =>
    have hstep : item ∈ (fetchItem config call before state source).persisted ↔
        item ∈ state.persisted ∨ item = source ∧ (call.proxy item).isSome ∧
          call.permits item = true := by
      unfold fetchItem
      cases hproxy : call.proxy source with
      | none =>
        refine (or_iff_left ?_).symm
        rintro ⟨rfl, hsome, -⟩
        rw [hproxy] at hsome
        cases hsome
      | some payload =>
        cases hpermits : call.permits source with
        | false =>
          refine (or_iff_left ?_).symm
          rintro ⟨rfl, -, htrue⟩
          rw [hpermits] at htrue
          cases htrue
        | true =>
          simp only [if_true, List.mem_append, List.mem_singleton]
          refine or_congr_right ⟨?_, And.left⟩
          rintro rfl
          exact ⟨rfl, by rw [hproxy]; rfl, hpermits⟩
    rw [List.foldl_cons, ih, hstep, List.mem_cons, or_and_right, or_assoc]

/-- How an item is answered by a call, by the branch that it takes. -/
inductive Answered (config : StoreConfig) (s : LocalStore) (call : FetchCall) (item : ItemId) :
    Option FetchedPayload → Prop
  | absent (hitem : item ∉ s.hydrate call.items) : Answered config s call item none
  | fresh (hitem : item ∈ s.hydrate call.items) (hclass : s.classify config item = .fresh) :
      Answered config s call item ((s.fromLocal item).map (.fromRows .fresh))
  | stale (hitem : item ∈ s.hydrate call.items) (hclass : s.classify config item = .stale)
      (hserve : call.staleWhileRevalidate = true) :
      Answered config s call item
        ((s.fromLocal item).map fun payload => .fromRows .stale payload.markStale)
  | fallback (hitem : item ∈ s.needsProxy config call) (hproxy : call.proxy item = none) :
      Answered config s call item ((s.fallback config item).map (.fromRows .fallback))
  | refused (hitem : item ∈ s.needsProxy config call) (hproxy : (call.proxy item).isSome)
      (hpermits : call.permits item = false) : Answered config s call item none
  | rebuilt (hitem : item ∈ s.needsProxy config call) (hproxy : (call.proxy item).isSome)
      (hpermits : call.permits item = true) :
      Answered config s call item ((s.fetchBulkSourceData config call).1.rebuild call item)

lemma get?_localResults : (s.localResults config call).get? item
    = if item ∈ s.classified config call .fresh then (s.fromLocal item).map (.fromRows .fresh)
      else if item ∈ s.classified config call .stale ∧ call.staleWhileRevalidate = true then
        (s.fromLocal item).map fun payload => .fromRows .stale payload.markStale
      else none := by
  have hdisjoint : item ∈ s.classified config call .fresh →
      item ∉ s.classified config call .stale := by
    intro hfresh hstale
    have hclass := (mem_classified.mp hfresh).2
    rw [(mem_classified.mp hstale).2] at hclass
    cases hclass
  unfold localResults
  cases hserve : call.staleWhileRevalidate with
  | false =>
    simp only [Bool.false_eq_true, if_false, Table.get?_assign, Table.get?_empty, Option.or_none,
      and_false]
  | true =>
    simp only [if_true, Table.get?_assign, Table.get?_empty, Option.or_none, and_true]
    by_cases hfresh : item ∈ s.classified config call .fresh
    · rw [if_neg (hdisjoint hfresh), if_pos hfresh, if_pos hfresh]
    · simp only [hfresh, if_false, Option.or_none]

/-- What the proxy has to answer is not answered from the rows before. -/
lemma get?_localResults_of_needsProxy (hneeds : item ∈ s.needsProxy config call) :
    (s.localResults config call).get? item = none := by
  rw [get?_localResults, if_neg, if_neg]
  · rintro ⟨hstale, hserve⟩
    have hclass := (mem_classified.mp hstale).2
    simp [mem_needsProxy, hclass, hserve] at hneeds
  · intro hfresh
    have hclass := (mem_classified.mp hfresh).2
    simp [mem_needsProxy, hclass] at hneeds

lemma mem_persisted_fetchLoop : item ∈ (s.fetchLoop config call).persisted ↔
    item ∈ s.needsProxy config call ∧ (call.proxy item).isSome ∧ call.permits item = true := by
  rw [fetchLoop, mem_persisted_foldl]
  simp

/-- The answers are those of the loop, with the persisted items rebuilt. -/
lemma get?_fetchBulkSourceData : (s.fetchBulkSourceData config call).2.get? item
    = if item ∈ (s.fetchLoop config call).persisted then
        ((s.fetchBulkSourceData config call).1.rebuild call item).or
          ((s.fetchLoop config call).results.get? item)
      else (s.fetchLoop config call).results.get? item :=
  Table.get?_assign ..

lemma get?_results_fetchLoop : (s.fetchLoop config call).results.get? item
    = if item ∈ s.needsProxy config call ∧ call.proxy item = none then
        ((s.fallback config item).map (.fromRows .fallback)).or
          ((s.localResults config call).get? item)
      else (s.localResults config call).get? item :=
  get?_results_foldl ..

/-- What the proxy is not asked for is answered from the rows before. -/
lemma answer_of_notMem_needsProxy (hneeds : item ∉ s.needsProxy config call) :
    (s.fetchBulkSourceData config call).2.get? item = (s.localResults config call).get? item := by
  rw [get?_fetchBulkSourceData, if_neg fun hmem => hneeds (mem_persisted_fetchLoop.mp hmem).1,
    get?_results_fetchLoop, if_neg fun hmem => hneeds hmem.1]

/-- What the proxy is asked for is answered by its payload, or without one from the rows. -/
lemma answered_of_mem_needsProxy (hneeds : item ∈ s.needsProxy config call) :
    Answered config s call item ((s.fetchBulkSourceData config call).2.get? item) := by
  rw [get?_fetchBulkSourceData, get?_results_fetchLoop, get?_localResults_of_needsProxy hneeds,
    Option.or_none]
  cases hproxy : call.proxy item with
  | none =>
    have hnot : item ∉ (s.fetchLoop config call).persisted := by
      simp [mem_persisted_fetchLoop, hproxy]
    rw [if_neg hnot, if_pos ⟨hneeds, rfl⟩]
    exact .fallback hneeds hproxy
  | some payload =>
    have hsome : (call.proxy item).isSome := by rw [hproxy]; rfl
    cases hpermits : call.permits item with
    | false =>
      have hnot : item ∉ (s.fetchLoop config call).persisted := by
        simp [mem_persisted_fetchLoop, hpermits]
      rw [if_neg hnot, if_neg (by simp)]
      exact .refused hneeds hsome hpermits
    | true =>
      rw [if_pos (mem_persisted_fetchLoop.mpr ⟨hneeds, hsome, hpermits⟩), if_neg (by simp),
        Option.or_none]
      exact .rebuilt hneeds hsome hpermits

/-- Every item is answered by its branch. -/
theorem fetchBulkSourceData_answers :
    Answered config s call item ((s.fetchBulkSourceData config call).2.get? item) := by
  by_cases hitem : item ∈ s.hydrate call.items
  · by_cases hneeds : item ∈ s.needsProxy config call
    · exact answered_of_mem_needsProxy hneeds
    · rw [answer_of_notMem_needsProxy hneeds, get?_localResults]
      cases hclass : s.classify config item with
      | fresh =>
        rw [if_pos (mem_classified.mpr ⟨hitem, hclass⟩)]
        exact .fresh hitem hclass
      | stale =>
        have hserve : call.staleWhileRevalidate = true := by
          by_contra hserve
          exact hneeds (mem_needsProxy.mpr ⟨hitem, .inr (.inr ⟨hclass, by simpa using hserve⟩)⟩)
        rw [if_neg fun hmem => by simpa [hclass] using (mem_classified.mp hmem).2,
          if_pos ⟨mem_classified.mpr ⟨hitem, hclass⟩, hserve⟩]
        exact .stale hitem hclass hserve
      | missing => exact absurd (mem_needsProxy.mpr ⟨hitem, .inl hclass⟩) hneeds
      | incomplete => exact absurd (mem_needsProxy.mpr ⟨hitem, .inr (.inl hclass)⟩) hneeds
  · have hnone : ∀ state, item ∉ s.classified config call state :=
      fun state hmem => hitem (mem_classified.mp hmem).1
    rw [answer_of_notMem_needsProxy fun hmem => hitem (mem_needsProxy.mp hmem).1,
      get?_localResults, if_neg (hnone .fresh), if_neg fun hmem => hnone .stale hmem.1]
    exact .absent hitem

end LocalStore

end Denn
