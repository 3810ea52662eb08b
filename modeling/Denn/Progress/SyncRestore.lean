import Denn.Progress.SyncRuns

/-!
# A further synchronisation

A synchronisation that runs while no other call does. From any rows that satisfy the constraints it
creates the lists that are missing, deletes the items that no collection admits any more and inserts
those that are new, and it is not refused. So whatever concurrent calls have left behind, it makes
the lists mirror the tracking rows.
-/

namespace Denn.Sync

open Core

/-- Each collection has a list, and the list has the items that the collection admits. -/
structure Mirrors (catalog : Catalog) (rows : Rows) : Prop where
  lists : ∀ key, ∃ id, rows.get? (.list id) = some (.list key)
  items : ∀ definition ∈ dynamicCollections, ∀ list,
    rows.get? (.list list) = some (.list definition.key) → ∀ contentItem,
      (∃ id item, rows.get? (.item id) = some (.item item) ∧ item.userList = list ∧
        item.contentItem = contentItem) ↔
      isAdmitted catalog (trackingRows rows) definition contentItem = true

/-! ### How far a synchronisation has got -/

section Restoring

variable {catalog : Catalog} {base rows : Rows} {reads : Reads} {state next : SyncState}

/-- There is a list for each key, and it has been read. -/
def ListsRead (rows : Rows) (lists : Table CollectionKey ℕ) : Prop :=
  ∀ key, ∃ id, lists.get? key = some id ∧ rows.get? (.list id) = some (.list key)

/-- Everything has been read from the committed rows `base`. -/
structure Reads.Of (base rows : Rows) (reads : Reads) : Prop where
  lists : ListsRead rows reads.lists
  tracking : ∀ item, reads.tracking.get? item = (trackingRows base).get? item
  items : ∀ id item, reads.items.get? id = some item ↔
    base.get? (.item id) = some (.item item) ∧ ∃ key, reads.lists.get? key = some item.userList
  valid : reads.Valid

variable (catalog) in
/-- The items that leave the collections. -/
def Reads.allStale (reads : Reads) : List ℕ := dynamicCollections.flatMap (reads.staleItemIds catalog)

variable (catalog) in
/-- The items that enter the collections. -/
def Reads.allNew (reads : Reads) : List CollectionItem :=
  dynamicCollections.flatMap (reads.newItems catalog)

variable (catalog) in
/-- How a synchronisation has got from the committed rows to the rows that it sees now. -/
def SyncState.Restoring (base rows : Rows) : SyncState → Prop
  | .lists =>
    (∀ id, rows.get? (.list id) = base.get? (.list id)) ∧
      ∀ id, rows.get? (.item id) = base.get? (.item id)
  | .create listsByKey missing =>
    (∀ key id, listsByKey.get? key = some id ↔ base.get? (.list id) = some (.list key)) ∧
      (∀ key, key ∈ missing ∨ ∃ id, rows.get? (.list id) = some (.list key)) ∧
      ∀ id, rows.get? (.item id) = base.get? (.item id)
  | .tracking listsByKey =>
    ListsRead rows listsByKey ∧ ∀ id, rows.get? (.item id) = base.get? (.item id)
  | .items listsByKey tracked =>
    ListsRead rows listsByKey ∧ (∀ item, tracked.get? item = (trackingRows base).get? item) ∧
      ∀ id, rows.get? (.item id) = base.get? (.item id)
  | .delete reads stale new =>
    reads.Of base rows ∧ new = reads.allNew catalog ∧ (∀ id ∈ stale, id ∈ reads.allStale catalog) ∧
      (∀ id item, rows.get? (.item id) = some item → base.get? (.item id) = some item) ∧
      (∀ id, id ∉ reads.allStale catalog → rows.get? (.item id) = base.get? (.item id)) ∧
      ∀ id ∈ reads.allStale catalog, id ∉ stale → rows.get? (.item id) = none
  | .insert reads new =>
    reads.Of base rows ∧ (∀ item ∈ new, item ∈ reads.allNew catalog) ∧
      (∀ id item, rows.get? (.item id) = some (.item item) →
        base.get? (.item id) = some (.item item) ∧ id ∉ reads.allStale catalog ∨
          item ∈ reads.allNew catalog) ∧
      (∀ id item, id ∉ reads.allStale catalog → base.get? (.item id) = some item →
        rows.get? (.item id) = some item) ∧
      ∀ item ∈ reads.allNew catalog,
        item ∈ new ∨ ∃ id, rows.get? (.item id) = some (.item item)
  | _ => False

lemma ListsRead.get?_iff {lists : Table CollectionKey ℕ} (h : ListsRead rows lists)
    (hrows : ValidRows rows) {key : CollectionKey} {id : ℕ} :
    lists.get? key = some id ↔ rows.get? (.list id) = some (.list key) := by
  obtain ⟨id', hget, hrow⟩ := h key
  constructor
  · intro hid
    rw [hget, Option.some.injEq] at hid
    rwa [← hid]
  · intro hid
    rw [hget, hrows.list_unique hrow hid]

lemma ListsRead.distinctLists {lists : Table CollectionKey ℕ} (h : ListsRead rows lists)
    (hrows : ValidRows rows) : DistinctLists lists := by
  intro key key' id hkey hkey'
  rw [h.get?_iff hrows] at hkey hkey'
  rw [hkey] at hkey'
  simpa using hkey'

lemma listsRead_dynamicLists (hrows : ValidRows rows)
    (h : ∀ key, ∃ id, rows.get? (.list id) = some (.list key)) :
    ListsRead rows (dynamicLists rows) := by
  intro key
  obtain ⟨id, hid⟩ := h key
  exact ⟨id, hrows.get?_dynamicLists.mpr hid, hid⟩

/-- Rows with the same tracking rows give the same dictionary. -/
lemma get?_trackingRows_congr (hrows : ValidRows rows) (hbase : ValidRows base)
    (h : ∀ id, rows.get? (.tracking id) = base.get? (.tracking id)) (item : ItemId) :
    (trackingRows rows).get? item = (trackingRows base).get? item := by
  ext tracking
  rw [hrows.get?_trackingRows, hbase.get?_trackingRows]
  simp only [h]

/-- The rows of items that a collection does not admit. -/
lemma Reads.Valid.mem_staleItemIds (h : reads.Valid) {definition : DynamicCollectionDefinition}
    {id : ℕ} :
    id ∈ reads.staleItemIds catalog definition ↔
      ∃ item, reads.items.get? id = some item ∧
        reads.lists.get? definition.key = some item.userList ∧
        isAdmitted catalog reads.tracking definition item.contentItem = false := by
  simp only [Reads.staleItemIds, List.mem_map, List.mem_filter, Prod.exists, Table.mem_rows_iff,
    h.get?_existingItems, Bool.not_eq_true']
  constructor
  · rintro ⟨contentItem, row, ⟨⟨item, hitem, hlist, rfl, -⟩, hadmitted⟩, rfl⟩
    exact ⟨item, hitem, hlist, hadmitted⟩
  · rintro ⟨item, hitem, hlist, hadmitted⟩
    exact ⟨item.contentItem, ⟨id, item.listOrder⟩, ⟨⟨item, hitem, hlist, rfl, rfl⟩, hadmitted⟩, rfl⟩

lemma definition_unique {definition definition' : DynamicCollectionDefinition}
    (hmem : definition ∈ dynamicCollections) (hmem' : definition' ∈ dynamicCollections)
    (h : definition.key = definition'.key) : definition = definition' :=
  List.inj_on_of_nodup_map nodup_dynamicCollections hmem hmem' h

/-- When everything is inserted, the lists mirror the tracking rows. -/
lemma mirrors_of_restoring (hrows : ValidRows rows) (hbase : ValidRows base)
    (htracking : ∀ id, rows.get? (.tracking id) = base.get? (.tracking id))
    (h : (SyncState.insert reads []).Restoring catalog base rows) : Mirrors catalog rows := by
  obtain ⟨hreads, -, hsound, hkept, hinserted⟩ := h
  refine ⟨fun key => ?_, fun definition hmem list hlist contentItem => ?_⟩
  · obtain ⟨id, -, hrow⟩ := hreads.lists key
    exact ⟨id, hrow⟩
  have hget := (hreads.lists.get?_iff hrows).mpr hlist
  have hsame : ∀ definition' ∈ dynamicCollections,
      reads.lists.get? definition'.key = some list → definition' = definition := by
    intro definition' hmem' hlist'
    exact definition_unique hmem' hmem (hreads.valid.lists _ _ _ hlist' hget)
  have hadmitted : isAdmitted catalog (trackingRows rows) definition contentItem =
      isAdmitted catalog reads.tracking definition contentItem := by
    rw [isAdmitted, isAdmitted, hreads.tracking, get?_trackingRows_congr hrows hbase htracking]
  rw [hadmitted]
  constructor
  · rintro ⟨id, item, hrow, rfl, rfl⟩
    rcases hsound id item hrow with ⟨hrow, hstale⟩ | hnew
    · by_contra hnot
      refine hstale (List.mem_flatMap.mpr ⟨definition, hmem, ?_⟩)
      exact hreads.valid.mem_staleItemIds.mpr
        ⟨item, (hreads.items id item).mpr ⟨hrow, _, hget⟩, hget, by simpa using hnot⟩
    · obtain ⟨definition', hmem', hnew⟩ := List.mem_flatMap.mp hnew
      obtain ⟨hlist', hmissing, -⟩ := Reads.of_mem_newItems hnew
      obtain rfl := hsame definition' hmem' hlist'
      exact (mem_missingIds.mp hmissing).1
  · intro hadmitted
    cases hexisting : (reads.existingItems definition.key).get? contentItem with
    | some row =>
      obtain ⟨item, hitem, hlist', rfl, -⟩ := hreads.valid.get?_existingItems.mp hexisting
      have hrow := ((hreads.items _ _).mp hitem).1
      rw [hget, Option.some.injEq] at hlist'
      refine ⟨row.id, item, hkept _ _ (fun hstale => ?_) hrow, hlist'.symm, rfl⟩
      obtain ⟨definition', hmem', hstale⟩ := List.mem_flatMap.mp hstale
      obtain ⟨item', hitem', hlist'', hnot⟩ := hreads.valid.mem_staleItemIds.mp hstale
      rw [hitem, Option.some.injEq] at hitem'
      subst hitem'
      obtain rfl := hsame definition' hmem' (hlist' ▸ hlist'')
      rw [hadmitted] at hnot
      cases hnot
    | none =>
      obtain ⟨item, hnew, huserList, hcontent⟩ :=
        Reads.exists_newItem hget (mem_missingIds.mpr ⟨hadmitted, hexisting⟩)
      obtain hnil | ⟨id, hrow⟩ := hinserted item (List.mem_flatMap.mpr ⟨definition, hmem, hnew⟩)
      · cases hnil
      · exact ⟨id, item, hrow, huserList, hcontent⟩

lemma SyncState.Restoring.query (h : state.Restoring catalog base rows) (hrows : ValidRows rows)
    (hbase : ValidRows base)
    (htracking : ∀ id, rows.get? (.tracking id) = base.get? (.tracking id))
    (hquery : Queries catalog rows state next) : next.Restoring catalog base rows := by
  cases hquery with
  | finish => cases h
  | keep => cases h
  | read => cases h
  | lists =>
    obtain ⟨hlists, hitems⟩ := h
    -- a key without a list is one of those that are missing
    have hkey : ∀ key, key ∈ (dynamicCollections.map DynamicCollectionDefinition.key).filter
          (fun key => ((dynamicLists rows).get? key).isNone) ∨
        ∃ id, rows.get? (.list id) = some (.list key) := by
      intro key
      cases hget : (dynamicLists rows).get? key with
      | none =>
        obtain ⟨definition, hmem, rfl⟩ := exists_definition key
        exact .inl (List.mem_filter.mpr ⟨List.mem_map_of_mem hmem, by simp [hget]⟩)
      | some id => exact .inr ⟨id, hrows.get?_dynamicLists.mp hget⟩
    rw [SyncState.ensured]
    split_ifs with hmissing
    · refine ⟨listsRead_dynamicLists hrows fun key => (hkey key).resolve_left ?_, hitems⟩
      rw [hmissing]
      exact List.not_mem_nil
    · refine ⟨fun key id => ?_, hkey, hitems⟩
      rw [hrows.get?_dynamicLists, hlists]
  | created =>
    exact ⟨listsRead_dynamicLists hrows fun key => (h.2.1 key).resolve_left List.not_mem_nil, h.2.2⟩
  | tracking => exact ⟨h.1, get?_trackingRows_congr hrows hbase htracking, h.2⟩
  | items hitems =>
    obtain ⟨hlists, htracked, hsame⟩ := h
    refine ⟨⟨hlists, htracked, fun id item => ?_, hrows.reads (hlists.distinctLists hrows) hitems⟩,
      rfl, fun id hid => hid, fun id item hrow => ?_, fun id _ => hsame id, fun id hid hnot => ?_⟩
    · rw [hitems, get?_listItems, hsame]
    · rwa [← hsame]
    · exact absurd hid hnot
  | @skip reads stale new id hrow =>
    obtain ⟨hreads, hnew, hstale, hsound, hkept, hgone⟩ := h
    refine ⟨hreads, hnew, fun id' hmem => hstale id' (List.mem_of_mem_erase hmem), hsound, hkept,
      fun id' hid' hnot => ?_⟩
    by_cases heq : id' = id
    · rw [heq, hrow]
    · exact hgone id' hid' fun hmem => hnot ((List.mem_erase_of_ne heq).mpr hmem)
  | deleted =>
    obtain ⟨hreads, rfl, -, hsound, hkept, hgone⟩ := h
    refine ⟨hreads, fun item hmem => hmem, fun id item hrow => .inl ⟨hsound id _ hrow, ?_⟩,
      fun id item hnot hrow => (hkept id hnot).trans hrow, fun item hmem => .inl hmem⟩
    intro hstale
    rw [hgone id hstale List.not_mem_nil] at hrow
    cases hrow

lemma SyncState.Restoring.write {fresh : Bool} {k : RowKey} {row : Option Row} {rows' : Rows}
    (h : state.Restoring catalog base rows) (hwrite : Writes rows state fresh k row next)
    (hfresh : fresh = true → rows.get? k = none ∧ base.get? k = none)
    (hrows' : ∀ k', rows'.get? k' = if k' = k then row else rows.get? k') :
    next.Restoring catalog base rows' ∧
      ∀ id, rows'.get? (.tracking id) = rows.get? (.tracking id) := by
  have hother : ∀ k', k' ≠ k → rows'.get? k' = rows.get? k' := by
    intro k' hne
    rw [hrows', if_neg hne]
  cases hwrite with
  | lock huser => cases h
  | update hrow hnext => cases h
  | track hnext => cases h
  | @create listsByKey key missing id =>
    obtain ⟨hread, hkey, hitems⟩ := h
    refine ⟨⟨hread, fun key' => ?_, fun id' => ?_⟩, fun id' => hother _ (by simp)⟩
    · rcases hkey key' with hmem | ⟨id', hrow⟩
      · rcases List.mem_cons.mp hmem with rfl | hmem
        · exact .inr ⟨id, by rw [hrows', if_pos rfl]⟩
        · exact .inl hmem
      · refine .inr ⟨id', ?_⟩
        rw [hother _ fun heq => ?_, hrow]
        rw [heq, (hfresh rfl).1] at hrow
        cases hrow
    · rw [hother _ (by simp)]
      exact hitems id'
  | @delete reads stale new id hid hrow =>
    obtain ⟨⟨hlists, htracking, hitems, hvalid⟩, hnew, hstale, hsound, hkept, hgone⟩ := h
    have hitem : ∀ id', id' ≠ id → rows'.get? (.item id') = rows.get? (.item id') :=
      fun id' hne => hother _ (by simpa using hne)
    refine ⟨⟨⟨fun key => ?_, htracking, hitems, hvalid⟩, hnew,
      fun id' hmem => hstale id' (List.mem_of_mem_erase hmem), fun id' item hrow' => ?_,
      fun id' hnot => ?_, fun id' hid' hnot => ?_⟩, fun id' => hother _ (by simp)⟩
    · obtain ⟨list, hget, hlist⟩ := hlists key
      exact ⟨list, hget, (hother _ (by simp)).trans hlist⟩
    · rw [hrows'] at hrow'
      split_ifs at hrow'
      exact hsound id' item hrow'
    · rw [hitem id' fun heq => hnot (heq ▸ hstale id hid)]
      exact hkept id' hnot
    · by_cases heq : id' = id
      · rw [heq, hrows', if_pos rfl]
      · rw [hitem id' heq]
        exact hgone id' hid' fun hmem => hnot ((List.mem_erase_of_ne heq).mpr hmem)
  | @insert reads item new id =>
    obtain ⟨⟨hlists, htracking, hitems, hvalid⟩, hnew, hsound, hkept, hinserted⟩ := h
    obtain ⟨hseen, hcommitted⟩ := hfresh rfl
    refine ⟨⟨⟨fun key => ?_, htracking, hitems, hvalid⟩,
      fun item' hmem => hnew item' (List.mem_cons_of_mem _ hmem), fun id' item' hrow' => ?_,
      fun id' item' hnot hrow' => ?_, fun item' hmem => ?_⟩, fun id' => hother _ (by simp)⟩
    · obtain ⟨list, hget, hlist⟩ := hlists key
      exact ⟨list, hget, (hother _ (by simp)).trans hlist⟩
    · rw [hrows'] at hrow'
      split_ifs at hrow' with heq
      · cases hrow'
        exact .inr (hnew _ (List.mem_cons_self ..))
      · exact hsound id' item' hrow'
    · rw [hother _ fun heq => ?_]
      · exact hkept id' item' hnot hrow'
      · rw [heq, hcommitted] at hrow'
        cases hrow'
    · rcases hinserted item' hmem with hmem' | ⟨id', hrow'⟩
      · rcases List.mem_cons.mp hmem' with rfl | hmem'
        · exact .inr ⟨id, by rw [hrows', if_pos rfl]⟩
        · exact .inl hmem'
      · refine .inr ⟨id', ?_⟩
        rw [hother _ fun heq => ?_, hrow']
        rw [heq, hseen] at hrow'
        cases hrow'

/-- What has been read of rows that nobody changes stays up to date. -/
lemma SyncState.Restoring.upToDate (h : state.Restoring catalog base rows) :
    state.upToDate base = true := by
  cases state with
  | create listsByKey missing =>
    cases missing with
    | nil => rfl
    | cons key missing =>
      exact upToDate_create.mpr fun id key' hrow => (h.1 key' id).mpr hrow
  | insert reads new =>
    cases new with
    | nil => rfl
    | cons item new =>
      obtain ⟨hreads, hnew, -⟩ := h
      obtain ⟨definition, -, hmem⟩ := List.mem_flatMap.mp (hnew item (List.mem_cons_self ..))
      refine upToDate_insert.mpr fun id item' hrow hlist => (hreads.items id item').mpr ⟨hrow, ?_⟩
      exact ⟨definition.key, hlist ▸ (Reads.of_mem_newItems hmem).1⟩
  | _ => rfl

end Restoring

/-! ### One call alone -/

section Solo

variable {τ : Type*} [DecidableEq τ]

/-- A statement of one more synchronisation. -/
def OfSync (x : τ) : Action τ SyncRequest SyncChoice → Prop
  | .start y .sync => y = x
  | .start _ (.track _ _) => False
  | .run y _ => y = x

/-- The call has committed. -/
def Committed (s : SyncSession τ) (x : τ) : Prop :=
  ∃ call, s.calls.get? x = some call ∧ call.status = .committed

/-- No call runs. -/
def Settled (s : SyncSession τ) : Prop :=
  ∀ x call, s.calls.get? x = some call → call.status ≠ .running

variable (catalog : Catalog) (base₀ base : Rows) (x : τ)

/-- The call is the only one that runs, and has restored something of the committed rows `base`. -/
structure Solo (s : SyncSession τ) (state : SyncState) : Prop where
  reachable : ((syncProgram catalog).system base₀).ReachableUnder
    (fun s a => undisturbed s a = true) s
  committed : s.store.committed = base
  alone : ∀ y, y ≠ x → ∀ call, s.calls.get? y = some call → call.status ≠ .running
  tracking : ∀ id, (s.store.view x).get? (.tracking id) = base.get? (.tracking id)
  call : ∃ call, s.calls.get? x = some call ∧ call.status = .running ∧ call.state = state
  restoring : state.Restoring catalog base (s.store.view x)

/-- The call has ended without an integrity error, and if it has committed the lists mirror the
    tracking rows. -/
def Restored (s : SyncSession τ) : Prop :=
  ∃ call, s.calls.get? x = some call ∧ call.status ≠ .running ∧ call.status ≠ .failed ∧
    (call.status = .committed → Mirrors catalog s.store.committed ∧
      ∀ id, s.store.committed.get? (.tracking id) = base.get? (.tracking id))

variable {catalog base₀ base x} {s s' : SyncSession τ} {state next : SyncState}
  {choice : SyncChoice}

namespace Solo

variable (hbase₀ : ValidRows base₀) (h : Solo catalog base₀ base x s state)
include hbase₀ h

lemma consistent : s.store.Consistent Row.clash :=
  consistent_of_reachable hbase₀ h.reachable.reachable

lemma coherent : Coherent s := coherent_of_undisturbed hbase₀ h.reachable

lemma validRows : ValidRows (s.store.view x) := (h.coherent hbase₀).validRows (h.consistent hbase₀) x

lemma validBase : ValidRows base := by
  rw [← h.committed]
  exact ⟨(h.coherent hbase₀).committed, (h.consistent hbase₀).committed⟩

omit hbase₀ in
lemma undisturbed_run : undisturbed s (.run x choice) = true := by
  obtain ⟨call, hcall, -, hstate⟩ := h.call
  simp [undisturbed, hcall, hstate, h.committed, h.restoring.upToDate]

omit hbase₀ in
/-- Only this call has uncommitted writes. -/
lemma pending (y : τ) (write : RowKey × Option Row) (hmem : (y, write) ∈ s.store.pending) :
    y = x := by
  by_contra hne
  obtain ⟨call, hcall, hrunning⟩ :=
    (Program.orderly_of_reachable h.reachable.reachable).pending y write hmem
  exact h.alone y hne call hcall hrunning

omit hbase₀ in
/-- A fresh key belongs to no row. -/
lemma get?_eq_none {k : RowKey} (hk : k ∉ s.store.used) :
    (s.store.view x).get? k = none ∧ base.get? k = none := by
  have hused : Program.KeysUsed s.store :=
    Program.keysUsed_of_reachable (p := syncProgram catalog)
      (fun _ _ _ _ _ _ hnext => (writes_of_next (next_of_next hnext (by simp)).2).seen)
      h.reachable.reachable
  constructor
  · by_contra hne
    exact hk (hused.view hne)
  · by_contra hne
    rw [← h.committed] at hne
    obtain ⟨row, hrow⟩ := Option.ne_none_iff_exists'.mp hne
    exact hk (hused.committed k row hrow)

lemma query (choice : SyncChoice) (hcancel : choice.cancel = false)
    (hnext : state.next catalog choice (s.store.view x) = some (.query next)) :
    ∃ s', ((syncProgram catalog).system base₀).step s (.run x choice) = some s' ∧
      Solo catalog base₀ base x s' next := by
  obtain ⟨call, hcall, hrunning, rfl⟩ := h.call
  have hnext' : (syncProgram catalog).next call.state choice (s.store.view x) =
      some (.query next) := by
    change (if choice.cancel then _ else _) = _
    rw [hcancel, if_neg (by simp)]
    exact hnext
  have hstep := Program.step_run hcall hrunning hnext'
  refine ⟨_, hstep, .step h.reachable h.undisturbed_run hstep, h.committed, fun y hy call' hcall' => ?_,
    h.tracking, ⟨_, (Session.get?_advance x).trans (if_pos rfl), hrunning, rfl⟩, ?_⟩
  · rw [Session.get?_advance, if_neg hy] at hcall'
    exact h.alone y hy call' hcall'
  · exact h.restoring.query (h.validRows hbase₀) (h.validBase hbase₀) h.tracking
      (queries_of_next hnext)

lemma write (choice : SyncChoice) (hcancel : choice.cancel = false) {fresh : Bool} {k : RowKey} {row : Option Row}
    (hnext : state.next catalog choice (s.store.view x) = some (.write fresh k row next))
    (hfresh : fresh = true → k ∉ s.store.used) :
    ∃ s', ((syncProgram catalog).system base₀).step s (.run x choice) = some s' ∧
      Solo catalog base₀ base x s' next := by
  obtain ⟨call, hcall, hrunning, rfl⟩ := h.call
  have hnext' : (syncProgram catalog).next call.state choice (s.store.view x) =
      some (.write fresh k row next) := by
    change (if choice.cancel then _ else _) = _
    rw [hcancel, if_neg (by simp)]
    exact hnext
  have hwrite := writes_of_next hnext
  have hcurrent : call.state.upToDate s.store.committed = true := h.committed ▸ h.restoring.upToDate
  have htaken := (h.coherent hbase₀).not_taken (h.consistent hbase₀) hcall hrunning hcurrent hwrite
  have hwaits : s.store.waits Row.clash x k row = false :=
    Store.waits_eq_false_of_alone h.pending
  have hstep := (Program.step_run hcall hrunning hnext').trans
    (Program.execute_write hfresh htaken hwaits)
  have hview : ∀ k', ((s.store.put x fresh k row).view x).get? k' =
      if k' = k then row else (s.store.view x).get? k' := by
    intro k'
    rw [Store.get?_view, Store.written_put, Store.get?_view, Store.committed_put]
    by_cases hk : k' = k <;> simp [hk]
  obtain ⟨hrestoring, htracking⟩ := h.restoring.write hwrite
    (fun hf => h.get?_eq_none (hfresh hf)) hview
  refine ⟨_, hstep, .step h.reachable h.undisturbed_run hstep, h.committed, fun y hy call' hcall' => ?_,
    fun id => (htracking id).trans (h.tracking id),
    ⟨_, (Session.get?_advance x).trans (if_pos rfl), hrunning, rfl⟩, hrestoring⟩
  rw [Session.get?_advance, if_neg hy] at hcall'
  exact h.alone y hy call' hcall'

/-- What a statement of the synchronisation leads to. -/
lemma step {a : Action τ SyncRequest SyncChoice} (ha : OfSync x a)
    (hstep : ((syncProgram catalog).system base₀).step s a = some s') :
    (∃ next, Solo catalog base₀ base x s' next) ∨ Restored catalog base x s' := by
  have hreachable : ((syncProgram catalog).system base₀).ReachableUnder
      (fun s a => undisturbed s a = true) s' := by
    refine .step h.reachable ?_ hstep
    cases a with
    | start y request => rfl
    | run y choice =>
      obtain rfl : y = x := ha
      exact h.undisturbed_run
  obtain ⟨call, hcall, hrunning, rfl⟩ := h.call
  cases Program.steps_of_step hstep with
  | @start y request hnone =>
    cases request with
    | track item operation => exact ha.elim
    | sync =>
      obtain rfl : y = x := ha
      rw [hcall] at hnone
      cases hnone
  | @query y call' choice next hcall' hrunning' hnext =>
    obtain rfl : y = x := ha
    obtain rfl := Option.some.inj (hcall.symm.trans hcall')
    obtain ⟨hcancel, hnext⟩ := next_of_next hnext (by simp)
    obtain ⟨s'', hstep', hsolo⟩ := h.query hbase₀ choice hcancel hnext
    obtain rfl := Option.some.inj (hstep.symm.trans hstep')
    exact .inl ⟨next, hsolo⟩
  | @write y call' choice fresh k row next hcall' hrunning' hnext hfresh htaken hwaits =>
    obtain rfl : y = x := ha
    obtain rfl := Option.some.inj (hcall.symm.trans hcall')
    obtain ⟨hcancel, hnext⟩ := next_of_next hnext (by simp)
    obtain ⟨s'', hstep', hsolo⟩ := h.write hbase₀ choice hcancel hnext hfresh
    obtain rfl := Option.some.inj (hstep.symm.trans hstep')
    exact .inl ⟨next, hsolo⟩
  | @fail y call' choice fresh k row next hcall' hrunning' hnext htaken =>
    refine absurd rfl ((coherent_of_undisturbed hbase₀ hreachable).noFailure y
      { call' with status := .failed } ?_)
    exact (Session.get?_finish y).trans (if_pos rfl)
  | @commit y call' choice hcall' hrunning' hnext =>
    obtain rfl : y = x := ha
    obtain rfl := Option.some.inj (hcall.symm.trans hcall')
    refine .inr ⟨_, (Session.get?_finish y).trans (if_pos rfl), by simp, by simp, fun _ => ?_⟩
    have hrestoring := h.restoring
    rcases state_of_commit (next_of_next hnext (by simp)).2 with ⟨reads, hstate⟩ | hstate
    · rw [hstate] at hrestoring
      exact ⟨mirrors_of_restoring (h.validRows hbase₀) (h.validBase hbase₀) h.tracking hrestoring,
        h.tracking⟩
    · rw [hstate] at hrestoring
      cases hrestoring
  | @abort y call' choice hcall' hrunning' hnext =>
    obtain rfl : y = x := ha
    exact .inr ⟨_, (Session.get?_finish y).trans (if_pos rfl), by simp, by simp, by simp⟩

end Solo

/-! ### A run that commits -/

lemma exists_fresh {f : ℕ → RowKey} (hf : f.Injective) (used : List RowKey) : ∃ id, f id ∉ used := by
  obtain ⟨k, ⟨id, rfl⟩, hid⟩ :=
    (Set.infinite_range_of_injective hf).exists_notMem_finset used.toFinset
  exact ⟨id, by simpa using hid⟩

variable (catalog base₀ x) in
/-- The call can go on until it has committed. -/
def CanCommit (s : SyncSession τ) : Prop :=
  ∃ as s', ((syncProgram catalog).system base₀).Run s as s' ∧ (∀ a ∈ as, OfSync x a) ∧
    Committed s' x

lemma CanCommit.of_step (hstep : ((syncProgram catalog).system base₀).step s (.run x choice) = some s')
    (h : CanCommit catalog base₀ x s') : CanCommit catalog base₀ x s := by
  obtain ⟨as, s'', hrun, has, hcommitted⟩ := h
  refine ⟨as ++ [.run x choice], s'', .append (.cons .nil hstep) hrun, fun a hmem => ?_, hcommitted⟩
  rcases List.mem_append.mp hmem with hmem | hmem
  · exact has a hmem
  · rw [List.mem_singleton.mp hmem]
    rfl

namespace Solo

variable (hbase₀ : ValidRows base₀)
include hbase₀

lemma canCommit_insert {reads : Reads} {new : List CollectionItem}
    (h : Solo catalog base₀ base x s (.insert reads new)) : CanCommit catalog base₀ x s := by
  induction new generalizing s with
  | nil =>
    obtain ⟨call, hcall, hrunning, hstate⟩ := h.call
    have hnext : (syncProgram catalog).next call.state {} (s.store.view x) = some .commit := by
      rw [hstate]
      rfl
    exact ⟨[.run x {}], _, .cons .nil (Program.step_run hcall hrunning hnext), by simp [OfSync],
      _, (Session.get?_finish x).trans (if_pos rfl), rfl⟩
  | cons item new ih =>
    obtain ⟨id, hid⟩ := exists_fresh (f := RowKey.item) (fun _ _ => RowKey.item.inj) s.store.used
    obtain ⟨s', hstep, h'⟩ := h.write hbase₀ { id } rfl rfl fun _ => hid
    exact .of_step hstep (ih h')

lemma canCommit_delete {reads : Reads} {stale : List ℕ} {new : List CollectionItem}
    (h : Solo catalog base₀ base x s (.delete reads stale new)) : CanCommit catalog base₀ x s := by
  induction stale generalizing s with
  | nil =>
    obtain ⟨s', hstep, h'⟩ := h.query hbase₀ {} rfl rfl
    exact .of_step hstep (h'.canCommit_insert hbase₀)
  | cons id stale ih =>
    -- the first of the rows is deleted next, if it is still there
    have hnext : (SyncState.delete reads (id :: stale) new).next catalog { id := id }
          (s.store.view x) =
        if ((s.store.view x).get? (.item id)).isSome then
          some (.write false (.item id) none (.delete reads stale new))
        else some (.query (.delete reads stale new)) := by
      rw [SyncState.next]
      · simp
      · simp
    by_cases hrow : ((s.store.view x).get? (.item id)).isSome
    · rw [if_pos hrow] at hnext
      obtain ⟨s', hstep, h'⟩ := h.write hbase₀ { id } rfl hnext (by simp)
      exact .of_step hstep (ih h')
    · rw [if_neg hrow] at hnext
      obtain ⟨s', hstep, h'⟩ := h.query hbase₀ { id } rfl hnext
      exact .of_step hstep (ih h')

lemma canCommit_tracking {lists : Table CollectionKey ℕ}
    (h : Solo catalog base₀ base x s (.tracking lists)) : CanCommit catalog base₀ x s := by
  obtain ⟨s', hstep, h'⟩ := h.query hbase₀ {} rfl rfl
  have hlists := h'.restoring.1
  have hall : (dynamicCollections.all fun definition =>
      (lists.get? definition.key).isSome) = true := by
    refine List.all_eq_true.mpr fun definition _ => ?_
    obtain ⟨id, hget, -⟩ := hlists definition.key
    simp [hget]
  obtain ⟨s'', hstep', h''⟩ := h'.query hbase₀ {} rfl (by
    rw [SyncState.next]
    exact if_pos hall)
  exact .of_step hstep (.of_step hstep' (h''.canCommit_delete hbase₀))

lemma canCommit_create {lists : Table CollectionKey ℕ} {missing : List CollectionKey}
    (h : Solo catalog base₀ base x s (.create lists missing)) : CanCommit catalog base₀ x s := by
  induction missing generalizing s with
  | nil =>
    obtain ⟨s', hstep, h'⟩ := h.query hbase₀ {} rfl rfl
    exact .of_step hstep (h'.canCommit_tracking hbase₀)
  | cons key missing ih =>
    obtain ⟨id, hid⟩ := exists_fresh (f := RowKey.list) (fun _ _ => RowKey.list.inj) s.store.used
    obtain ⟨s', hstep, h'⟩ := h.write hbase₀ { id } rfl rfl fun _ => hid
    exact .of_step hstep (ih h')

lemma canCommit_lists (h : Solo catalog base₀ base x s .lists) : CanCommit catalog base₀ x s := by
  obtain ⟨s', hstep, h'⟩ := h.query hbase₀ {} rfl rfl
  refine .of_step hstep ?_
  rw [SyncState.ensured] at h'
  split_ifs at h'
  · exact h'.canCommit_tracking hbase₀
  · exact h'.canCommit_create hbase₀

end Solo

/-- A new call of a session in which no other runs. -/
lemma solo_start
    (hreachable : ((syncProgram catalog).system base₀).ReachableUnder
      (fun s a => undisturbed s a = true) s)
    (hsettled : Settled s) (hnone : s.calls.get? x = none) :
    ∃ s', ((syncProgram catalog).system base₀).step s (.start x .sync) = some s' ∧
      Solo catalog base₀ s.store.committed x s' .lists := by
  have hstep : ((syncProgram catalog).system base₀).step s (.start x .sync) =
      some { s with calls := s.calls.set x { request := .sync, state := .lists } } :=
    if_neg (by simp [hnone])
  have hwritten : s.store.writesOf x = [] :=
    Program.writesOf_eq_nil (Program.orderly_of_reachable hreachable.reachable) (by simp [hnone])
  have hview : s.store.view x = s.store.committed := by
    rw [Store.view, hwritten, applyWrites_nil]
  refine ⟨_, hstep, .step hreachable rfl hstep, rfl, fun y hy call hcall => ?_, fun id => ?_,
    ⟨_, Table.get?_set_self .., rfl, rfl⟩, fun id => ?_, fun id => ?_⟩
  · rw [Table.get?_set_ne _ _ hy] at hcall
    exact hsettled y call hcall
  · rw [hview]
  · rw [hview]
  · rw [hview]

/-- A call that has ended makes no further step. -/
lemma not_step_of_ended {call : Call SyncRequest SyncState SyncChoice}
    {a : Action τ SyncRequest SyncChoice} (ha : OfSync x a) (hcall : s.calls.get? x = some call)
    (hended : call.status ≠ .running) :
    ((syncProgram catalog).system base₀).step s a ≠ some s' := by
  intro hstep
  cases a with
  | start y request =>
    cases request with
    | track item operation => exact ha
    | sync =>
      obtain rfl : y = x := ha
      change (if (s.calls.get? y).isSome then none else _) = _ at hstep
      rw [hcall, if_pos (by simp)] at hstep
      cases hstep
  | run y choice =>
    obtain rfl : y = x := ha
    change (s.calls.get? y).bind _ = _ at hstep
    rw [hcall, Option.bind_some, if_neg hended] at hstep
    cases hstep

/-- Every run of a further synchronisation restores the lists, unless it is given up. -/
lemma restored_of_run (hbase₀ : ValidRows base₀)
    (hreachable : ((syncProgram catalog).system base₀).ReachableUnder
      (fun s a => undisturbed s a = true) s)
    (hsettled : Settled s) (hnone : s.calls.get? x = none)
    {as : List (Action τ SyncRequest SyncChoice)}
    (hrun : ((syncProgram catalog).system base₀).Run s as s') (has : ∀ a ∈ as, OfSync x a) :
    s' = s ∨ (∃ state, Solo catalog base₀ s.store.committed x s' state) ∨
      Restored catalog s.store.committed x s' := by
  induction hrun with
  | nil => exact .inl rfl
  | @cons s₁ s₂ as a hrun hstep ih =>
    obtain ⟨ha, has⟩ := List.forall_mem_cons.mp has
    rcases ih has with rfl | ⟨state, hsolo⟩ | ⟨call, hcall, hended, -⟩
    · cases a with
      | start y request =>
        cases request with
        | track item operation => exact ha.elim
        | sync =>
          obtain rfl : y = x := ha
          obtain ⟨s₃, hstep', hsolo⟩ := solo_start hreachable hsettled hnone
          obtain rfl := Option.some.inj (hstep.symm.trans hstep')
          exact .inr (.inl ⟨.lists, hsolo⟩)
      | run y choice =>
        obtain rfl : y = x := ha
        change (s₁.calls.get? y).bind _ = _ at hstep
        rw [hnone] at hstep
        cases hstep
    · exact .inr (hsolo.step hbase₀ ha hstep)
    · exact absurd hstep (not_step_of_ended ha hcall hended)

end Solo

/-! ### Concurrent calls -/

section

variable {τ : Type*} [DecidableEq τ]

/-- Synchronisations and tracking operations of one user do not disturb each other. -/
structure SyncTolerated (catalog : Catalog) (base : Rows) (s : SyncSession τ) : Prop where
  noFailure : ∀ x call, s.calls.get? x = some call → call.status ≠ .failed
  oneList : ∀ key id id', s.store.committed.get? (.list id) = some (.list key) →
    s.store.committed.get? (.list id') = some (.list key) → id = id'
  restores : Settled s → ∀ x, s.calls.get? x = none →
    CanCommit catalog base x s ∧
    ∀ as s', ((syncProgram catalog).system base).Run s as s' → (∀ a ∈ as, OfSync x a) →
      ∀ call, s'.calls.get? x = some call → call.status ≠ .failed ∧
        (call.status = .committed → Mirrors catalog s'.store.committed ∧
          ∀ id, s'.store.committed.get? (.tracking id) = s.store.committed.get? (.tracking id))

/-- As long as each call inserts only while its reads are up to date, no call fails, no key gets two
    lists, and one further synchronisation makes the lists mirror the tracking rows. -/
theorem sync_tolerated (catalog : Catalog) {base : Rows} (hbase : ValidRows base)
    {s : SyncSession τ} (h : ((syncProgram catalog).system base).ReachableUnder
      (fun s a => undisturbed s a = true) s) : SyncTolerated catalog base s where
  noFailure := (coherent_of_undisturbed hbase h).noFailure
  oneList key id id' hid hid' := by
    have hrows : ValidRows s.store.committed :=
      ⟨(coherent_of_undisturbed hbase h).committed,
        (consistent_of_reachable hbase h.reachable).committed⟩
    exact hrows.list_unique hid hid'
  restores hsettled x hnone := by
    constructor
    · obtain ⟨s', hstep, hsolo⟩ := solo_start h hsettled hnone
      obtain ⟨as, s'', hrun, has, hcommitted⟩ := hsolo.canCommit_lists hbase
      refine ⟨as ++ [.start x .sync], s'', .append (.cons .nil hstep) hrun, fun a hmem => ?_,
        hcommitted⟩
      rcases List.mem_append.mp hmem with hmem | hmem
      · exact has a hmem
      · rw [List.mem_singleton.mp hmem]
        rfl
    · intro as s' hrun has call hcall
      rcases restored_of_run hbase h hsettled hnone hrun has with
        rfl | ⟨state, hsolo⟩ | ⟨call', hcall', -, hfailed, hmirrors⟩
      · rw [hnone] at hcall
        cases hcall
      · obtain ⟨call', hcall', hrunning, -⟩ := hsolo.call
        obtain rfl := Option.some.inj (hcall.symm.trans hcall')
        exact ⟨by simp [hrunning], by simp [hrunning]⟩
      · obtain rfl := Option.some.inj (hcall.symm.trans hcall')
        exact ⟨hfailed, hmirrors⟩

end

/-! ### Samples -/

section Samples

def films : Catalog where
  contentType _ := .movie
  imageItem _ := none

/-- A user who tracks nothing and has no lists yet. -/
def newUser : Rows := Table.empty.set .user .user

def newSession : SyncSession ℕ where
  store := { committed := newUser, used := [.user] }
  calls := .empty
  log := []

lemma validRows_newUser : ValidRows newUser := by
  have hrows : ∀ k row, newUser.get? k = some row → k = .user ∧ row = .user := by
    intro k row hrow
    rw [newUser, Table.get?_set, Table.get?_empty] at hrow
    split_ifs at hrow with hk
    exact ⟨hk, (Option.some.inj hrow).symm⟩
  constructor
  · intro k row hrow
    obtain ⟨rfl, rfl⟩ := hrows k row hrow
    rfl
  · intro k k' row row' hrow hrow' hne
    exact absurd ((hrows k row hrow).1.trans (hrows k' row' hrow').1.symm) hne

lemma initial_newSession : newSession.Initial newUser where
  committed := rfl
  pending := rfl
  used k row hrow := by
    rw [newUser, Table.get?_set, Table.get?_empty] at hrow
    split_ifs at hrow with hk
    rw [hk]
    exact List.mem_singleton_self _
  calls := rfl
  log := rfl

/-- The statements that create the ten lists, and the next reads. -/
def creations (x : ℕ) : List (Action ℕ SyncRequest SyncChoice) :=
  (List.range 10).map (fun i => .run x { id := i }) ++ List.replicate 4 (.run x {})

/-- A film is put on the backlog, and then the lists are read. -/
def trackThenRead : List (Action ℕ SyncRequest SyncChoice) :=
  [.start 0 (.track 7 (.ensureTracking .backlog)), .start 1 .sync] ++
    List.replicate 4 (.run 0 {}) ++ creations 0 ++
    [.run 0 { id := 1 }, .run 0 { id := 2 }, .run 0 {}] ++ List.replicate 5 (.run 1 {})

/-- The lists of a new user are read twice at the same time. -/
def twoFirstReads : List (Action ℕ SyncRequest SyncChoice) :=
  [.start 0 .sync, .start 1 .sync, .run 0 {}, .run 1 {}] ++ creations 0 ++
    [.run 0 {}, .run 1 { id := 11 }]

/-- The film is in two lists when both calls have committed. -/
theorem sync_tolerated_tracked : ∃ s : SyncSession ℕ, s.log = [1, 0] ∧
    (s.store.committed.get? (.item 1)).isSome ∧ (s.store.committed.get? (.item 2)).isSome ∧
    SyncTolerated films newUser s := by
  obtain ⟨s, hs, hend⟩ := TransitionSystem.exists_reachableUnder_of_replay _ _
    (fun s : SyncSession ℕ => s.log = [1, 0] ∧ (s.store.committed.get? (.item 1)).isSome ∧
      (s.store.committed.get? (.item 2)).isSome) trackThenRead (.initial initial_newSession)
    (by decide +kernel :
      (((syncProgram films).system newUser).replay (fun s a => undisturbed s a = true) newSession
        trackThenRead).any _ = true)
  rw [decide_eq_true_eq] at hend
  exact ⟨s, hend.1, hend.2.1, hend.2.2, sync_tolerated films validRows_newUser hs⟩

/-- Without the condition on the insertions, one of two first reads fails. -/
theorem first_reads_fail : ¬ ∀ (catalog : Catalog) (base : Rows) (s : SyncSession ℕ),
    ValidRows base → ((syncProgram catalog).system base).Reachable s →
    SyncTolerated catalog base s := by
  intro h
  obtain ⟨s, hs, hfailed⟩ := TransitionSystem.exists_reachableUnder_of_replay _ _
    (fun s : SyncSession ℕ => (s.calls.get? 1).any fun call => call.status = .failed)
    twoFirstReads (.initial initial_newSession)
    (by decide +kernel :
      (((syncProgram films).system newUser).replay (fun _ _ => True) newSession
        twoFirstReads).any _ = true)
  obtain ⟨call, hcall, hstatus⟩ := (Option.any_eq_true ..).mp hfailed
  exact (h films newUser s validRows_newUser hs).noFailure 1 call hcall (by simpa using hstatus)

end Samples

end Denn.Sync
