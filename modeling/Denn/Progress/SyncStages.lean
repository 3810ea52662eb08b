import Denn.Progress.ConcurrentSync

/-!
# The statements of a synchronisation

What each statement of a call finds and what it leaves to the next one. A synchronisation inserts
only what is unlike everything that it has read, and a tracking operation keeps the lock under which
it has read its row. So a statement fails only on a row that was committed in between.
-/

namespace Denn.Sync

open Core

variable {catalog : Catalog} {rows : Rows} {choice : SyncChoice} {state next : SyncState}
  {fresh : Bool} {k : RowKey} {row : Option Row}

/-! ### Rows under the constraints -/

lemma Row.clash_comm (row row' : Row) : row.clash row' = row'.clash row := by
  cases row <;> cases row' <;> simp [Row.clash, CollectionItem.clash, eq_comm]

/-- Each row is in its table, and no two rows clash. -/
structure ValidRows (rows : Rows) : Prop where
  holds : ∀ k row, rows.get? k = some row → k.holds row = true
  unique : ∀ k k' row row', rows.get? k = some row → rows.get? k' = some row' → k ≠ k' →
    row.clash row' = false

namespace ValidRows

variable (h : ValidRows rows)
include h

lemma eq_of_clash {k k' : RowKey} {row row' : Row} (hrow : rows.get? k = some row)
    (hrow' : rows.get? k' = some row') (hclash : row.clash row' = true) : k = k' := by
  by_contra hne
  rw [h.unique k k' row row' hrow hrow' hne] at hclash
  cases hclash

lemma list_unique {id id' : ℕ} {key : CollectionKey} (hrow : rows.get? (.list id) = some (.list key))
    (hrow' : rows.get? (.list id') = some (.list key)) : id = id' :=
  RowKey.list.inj (h.eq_of_clash hrow hrow' (by simp [Row.clash]))

lemma item_unique {id id' : ℕ} {item item' : CollectionItem}
    (hrow : rows.get? (.item id) = some (.item item))
    (hrow' : rows.get? (.item id') = some (.item item')) (hclash : item.clash item' = true) :
    id = id' :=
  RowKey.item.inj (h.eq_of_clash hrow hrow' hclash)

lemma get?_dynamicLists {key : CollectionKey} {id : ℕ} :
    (dynamicLists rows).get? key = some id ↔ rows.get? (.list id) = some (.list key) := by
  rw [dynamicLists, Table.get?_collect]
  · constructor
    · rintro ⟨k, row, hrow, hf⟩
      cases k <;> cases row <;> simp only [reduceCtorEq, Option.some.injEq, Prod.mk.injEq] at hf
      obtain ⟨rfl, rfl⟩ := hf
      exact hrow
    · intro hrow
      exact ⟨.list id, .list key, hrow, rfl⟩
  · intro k k' row row' id id' hrow hrow' hf hf'
    cases k <;> cases row <;> simp only [reduceCtorEq, Option.some.injEq, Prod.mk.injEq] at hf
    cases k' <;> cases row' <;> simp only [reduceCtorEq, Option.some.injEq, Prod.mk.injEq] at hf'
    obtain ⟨rfl, rfl⟩ := hf
    obtain ⟨rfl, rfl⟩ := hf'
    rw [h.list_unique hrow hrow']

/-- A key that holds a tracking row is one of its table. -/
lemma exists_tracking_key {k : RowKey} {item : ItemId} {tracking : Tracking}
    (hrow : rows.get? k = some (.tracking item tracking)) : ∃ id, k = .tracking id := by
  have hholds := h.holds k _ hrow
  cases k <;> simp [RowKey.holds] at hholds ⊢

lemma get?_trackingRows {item : ItemId} {tracking : Tracking} :
    (trackingRows rows).get? item = some tracking ↔
      ∃ id, rows.get? (.tracking id) = some (.tracking item tracking) := by
  rw [trackingRows, Table.get?_collect]
  · constructor
    · rintro ⟨k, row, hrow, hf⟩
      cases row <;> simp only [reduceCtorEq, Option.some.injEq, Prod.mk.injEq] at hf
      obtain ⟨rfl, rfl⟩ := hf
      obtain ⟨id, rfl⟩ := h.exists_tracking_key hrow
      exact ⟨id, hrow⟩
    · rintro ⟨id, hrow⟩
      exact ⟨.tracking id, _, hrow, rfl⟩
  · intro k k' row row' tracking tracking' hrow hrow' hf hf'
    cases row <;> simp only [reduceCtorEq, Option.some.injEq, Prod.mk.injEq] at hf
    cases row' <;> simp only [reduceCtorEq, Option.some.injEq, Prod.mk.injEq] at hf'
    exact h.eq_of_clash hrow hrow' (by simp [Row.clash, hf.1, hf'.1])

lemma get?_trackingIds {item : ItemId} {id : ℕ} :
    (trackingIds rows).get? item = some id ↔
      ∃ tracking, rows.get? (.tracking id) = some (.tracking item tracking) := by
  rw [trackingIds, Table.get?_collect]
  · constructor
    · rintro ⟨k, row, hrow, hf⟩
      cases k <;> cases row <;> simp only [reduceCtorEq, Option.some.injEq, Prod.mk.injEq] at hf
      obtain ⟨rfl, rfl⟩ := hf
      exact ⟨_, hrow⟩
    · rintro ⟨tracking, hrow⟩
      exact ⟨.tracking id, _, hrow, rfl⟩
  · intro k k' row row' id id' hrow hrow' hf hf'
    cases k <;> cases row <;> simp only [reduceCtorEq, Option.some.injEq, Prod.mk.injEq] at hf
    cases k' <;> cases row' <;> simp only [reduceCtorEq, Option.some.injEq, Prod.mk.injEq] at hf'
    exact h.eq_of_clash hrow hrow' (by simp [Row.clash, hf.1, hf'.1])

end ValidRows

lemma get?_listItems {lists : Table CollectionKey ℕ} {id : ℕ} {item : CollectionItem} :
    (listItems lists rows).get? id = some item ↔
      rows.get? (.item id) = some (.item item) ∧ ∃ key, lists.get? key = some item.userList := by
  rw [listItems, Table.get?_collect]
  · constructor
    · rintro ⟨k, row, hrow, hf⟩
      cases k <;> cases row <;> simp only [reduceCtorEq] at hf
      split_ifs at hf with hany
      simp only [Option.some.injEq, Prod.mk.injEq] at hf
      obtain ⟨rfl, rfl⟩ := hf
      simpa [Table.any_eq_true_iff] using And.intro hrow hany
    · rintro ⟨hrow, key, hkey⟩
      refine ⟨.item id, .item item, hrow, if_pos ?_⟩
      exact (Table.any_eq_true_iff ..).mpr ⟨key, _, hkey, by simp⟩
  · intro k k' row row' item item' hrow hrow' hf hf'
    cases k <;> cases row <;> simp only [reduceCtorEq] at hf
    cases k' <;> cases row' <;> simp only [reduceCtorEq] at hf'
    split_ifs at hf hf'
    simp only [Option.some.injEq, Prod.mk.injEq] at hf hf'
    rw [hf.1, hf'.1]

/-! ### New items -/

/-- Distinct keys have distinct lists. -/
def DistinctLists (lists : Table CollectionKey ℕ) : Prop :=
  ∀ key key' id, lists.get? key = some id → lists.get? key' = some id → key = key'

/-- No two lists have one key, and no two items clash. -/
structure Reads.Valid (reads : Reads) : Prop where
  lists : DistinctLists reads.lists
  items : ∀ id id' item item', reads.items.get? id = some item → reads.items.get? id' = some item' →
    item.clash item' = true → id = id'

section Reads

variable {reads : Reads} {definition : DynamicCollectionDefinition} {item : CollectionItem}

lemma Reads.Valid.get?_existingItems (h : reads.Valid) {key : CollectionKey} {contentItem : ItemId}
    {row : ListItem} :
    (reads.existingItems key).get? contentItem = some row ↔
      ∃ item, reads.items.get? row.id = some item ∧ reads.lists.get? key = some item.userList ∧
        item.contentItem = contentItem ∧ item.listOrder = row.listOrder := by
  rw [Reads.existingItems, Table.get?_collect]
  · constructor
    · rintro ⟨id, item, hitem, hf⟩
      split_ifs at hf with hlist
      simp only [Option.some.injEq, Prod.mk.injEq] at hf
      obtain ⟨hcontent, rfl⟩ := hf
      exact ⟨item, hitem, hlist, hcontent, rfl⟩
    · rintro ⟨item, hitem, hlist, rfl, horder⟩
      refine ⟨row.id, item, hitem, ?_⟩
      rw [if_pos hlist, horder]
  · intro id id' item item' row row' hitem hitem' hf hf'
    split_ifs at hf hf' with hlist hlist'
    simp only [Option.some.injEq, Prod.mk.injEq] at hf hf'
    refine h.items id id' item item' hitem hitem' ?_
    rw [hlist, Option.some.injEq] at hlist'
    simp [CollectionItem.clash, hlist', hf.1, hf'.1]

/-- A new item is for a list that lacks it, behind all items of that list. -/
lemma Reads.of_mem_newItems (hmem : item ∈ reads.newItems catalog definition) :
    reads.lists.get? definition.key = some item.userList ∧
    item.contentItem ∈ missingIds catalog reads.tracking definition
      (reads.existingItems definition.key) ∧
    nextOrder (reads.existingItems definition.key) ≤ item.listOrder := by
  rw [Reads.newItems] at hmem
  cases hlist : reads.lists.get? definition.key with
  | none => simp [hlist] at hmem
  | some userList =>
    rw [hlist] at hmem
    obtain ⟨⟨contentItem, index⟩, hnew, rfl⟩ := List.mem_map.mp hmem
    refine ⟨rfl, ?_, ?_⟩
    · exact (List.mem_zipIdx' hnew).2 ▸ List.getElem_mem ..
    · simp

lemma Reads.exists_newItem {userList : ℕ} {contentItem : ItemId}
    (hlist : reads.lists.get? definition.key = some userList)
    (hmissing : contentItem ∈ missingIds catalog reads.tracking definition
      (reads.existingItems definition.key)) :
    ∃ item ∈ reads.newItems catalog definition,
      item.userList = userList ∧ item.contentItem = contentItem := by
  obtain ⟨index, hindex, hget⟩ := List.mem_iff_getElem.mp hmissing
  refine ⟨⟨userList, contentItem, nextOrder (reads.existingItems definition.key) + index⟩, ?_, rfl,
    rfl⟩
  rw [Reads.newItems, hlist]
  refine List.mem_map.mpr ⟨(contentItem, index), ?_, rfl⟩
  rw [List.mk_mem_zipIdx_iff_getElem?, List.getElem?_eq_getElem hindex, hget]

/-- No two of the new items clash, and none clashes with one that was read. -/
structure Reads.Fresh (reads : Reads) (new : List CollectionItem) : Prop where
  pairwise : new.Pairwise fun item item' => item.clash item' = false
  apart : ∀ item ∈ new, ∀ id item', reads.items.get? id = some item' → item.clash item' = false

lemma Reads.Valid.apart (h : reads.Valid) (hmem : item ∈ reads.newItems catalog definition) {id : ℕ}
    {item' : CollectionItem} (hitem' : reads.items.get? id = some item') :
    item.clash item' = false := by
  obtain ⟨hlist, hmissing, hle⟩ := Reads.of_mem_newItems hmem
  by_contra hclash
  simp only [CollectionItem.clash, Bool.not_eq_false, Bool.and_eq_true, Bool.or_eq_true,
    decide_eq_true_eq] at hclash
  obtain ⟨huserList, hclash⟩ := hclash
  have hexisting : (reads.existingItems definition.key).get? item'.contentItem =
      some ⟨id, item'.listOrder⟩ :=
    h.get?_existingItems.mpr ⟨item', hitem', huserList ▸ hlist, rfl, rfl⟩
  rcases hclash with horder | hcontent
  · have hlt := listOrder_lt_nextOrder hexisting
    simp only at hlt
    omega
  · rw [← hcontent, (mem_missingIds.mp hmissing).2] at hexisting
    cases hexisting

lemma Reads.pairwise_newItems : (reads.newItems catalog definition).Pairwise fun item item' =>
    item.clash item' = false := by
  rw [Reads.newItems]
  cases reads.lists.get? definition.key with
  | none => exact .nil
  | some userList =>
    rw [List.pairwise_map]
    have hnodup : ((missingIds catalog reads.tracking definition
        (reads.existingItems definition.key)).zipIdx.map Prod.fst).Nodup := by
      rw [List.zipIdx_map_fst]
      exact nodup_missingIds
    have hindex := List.nodup_zipIdx_map_snd (missingIds catalog reads.tracking definition
      (reads.existingItems definition.key))
    refine ((List.pairwise_map.mp hnodup).and (List.pairwise_map.mp hindex)).imp ?_
    rintro ⟨contentItem, index⟩ ⟨contentItem', index'⟩ ⟨hcontent, hne⟩
    simp only at hcontent hne
    simp [CollectionItem.clash, hcontent, hne]

lemma Reads.Valid.fresh_newItems (h : reads.Valid) :
    reads.Fresh (dynamicCollections.flatMap (reads.newItems catalog)) where
  pairwise := by
    rw [List.pairwise_flatMap]
    refine ⟨fun definition _ => Reads.pairwise_newItems, ?_⟩
    refine (List.pairwise_map.mp nodup_dynamicCollections).imp ?_
    intro definition definition' hne item hmem item' hmem'
    have hlist := (Reads.of_mem_newItems hmem).1
    have hlist' := (Reads.of_mem_newItems hmem').1
    have huserList : item.userList ≠ item'.userList := by
      intro heq
      exact hne (h.lists _ _ _ hlist (heq ▸ hlist'))
    simp [CollectionItem.clash, huserList]
  apart item hmem id item' hitem' := by
    obtain ⟨definition, -, hmem⟩ := List.mem_flatMap.mp hmem
    exact h.apart hmem hitem'

end Reads

/-! ### Statements -/

section Statements

variable (catalog) (rows)

/-- The statements that write nothing. -/
inductive Queries : SyncState → SyncState → Prop
  | finish {item : ItemId} {operation : TrackingOperation} : Queries (.locked item operation) .done
  | keep {item : ItemId} {operation : TrackingOperation} : Queries (.locked item operation) .lists
  | read {item : ItemId} {operation : TrackingOperation} {row : Option Tracking} {syncs : Bool} :
      Queries (.locked item operation) (.save item ((trackingIds rows).get? item) row syncs)
  | lists : Queries .lists (.ensured (dynamicLists rows))
  | created {lists : Table CollectionKey ℕ} :
      Queries (.create lists []) (.tracking (dynamicLists rows))
  | tracking {lists : Table CollectionKey ℕ} :
      Queries (.tracking lists) (.items lists (trackingRows rows))
  | items {reads : Reads} (hitems : reads.items = listItems reads.lists rows) :
      Queries (.items reads.lists reads.tracking)
        (.delete reads (dynamicCollections.flatMap (reads.staleItemIds catalog))
          (dynamicCollections.flatMap (reads.newItems catalog)))
  | skip {reads : Reads} {stale : List ℕ} {new : List CollectionItem} {id : ℕ}
      (hrow : rows.get? (.item id) = none) :
      Queries (.delete reads stale new) (.delete reads (stale.erase id) new)
  | deleted {reads : Reads} {new : List CollectionItem} :
      Queries (.delete reads [] new) (.insert reads new)

/-- The statements that write a row. -/
inductive Writes : SyncState → Bool → RowKey → Option Row → SyncState → Prop
  | lock {item : ItemId} {operation : TrackingOperation} (huser : rows.get? .user = some .user) :
      Writes (.called item operation) false .user (some .user) (.locked item operation)
  | update {item : ItemId} {id : ℕ} {row : Option Tracking} {syncs : Bool} {next : SyncState}
      (hrow : rows.get? (.tracking id) ≠ none) (hnext : next = .lists ∨ next = .done) :
      Writes (.save item (some id) row syncs) false (.tracking id) (row.map (.tracking item)) next
  | track {item : ItemId} {id : ℕ} {row : Tracking} {syncs : Bool} {next : SyncState}
      (hnext : next = .lists ∨ next = .done) :
      Writes (.save item none (some row) syncs) true (.tracking id) (some (.tracking item row)) next
  | create {lists : Table CollectionKey ℕ} {key : CollectionKey} {missing : List CollectionKey}
      {id : ℕ} :
      Writes (.create lists (key :: missing)) true (.list id) (some (.list key))
        (.create lists missing)
  | delete {reads : Reads} {stale : List ℕ} {new : List CollectionItem} {id : ℕ}
      (hid : id ∈ stale) (hrow : rows.get? (.item id) ≠ none) :
      Writes (.delete reads stale new) false (.item id) none (.delete reads (stale.erase id) new)
  | insert {reads : Reads} {item : CollectionItem} {new : List CollectionItem} {id : ℕ} :
      Writes (.insert reads (item :: new)) true (.item id) (some (.item item)) (.insert reads new)

end Statements

lemma queries_of_next (h : state.next catalog choice rows = some (.query next)) :
    Queries catalog rows state next := by
  cases state with
  | called item operation =>
    rw [SyncState.next] at h
    split_ifs at h <;> cases h
  | locked item operation =>
    rw [SyncState.next] at h
    cases hchange : operation.change catalog choice.now choice.rating item (trackingRows rows) <;>
      rw [hchange] at h <;> cases h
    · exact .finish
    · exact .keep
    · exact .read
    · exact .read
  | save item existing row syncs =>
    rw [SyncState.next] at h
    cases existing with
    | none => cases row <;> cases h
    | some id =>
      rw [saveStatement] at h
      split_ifs at h <;> cases h
  | lists =>
    cases h
    exact .lists
  | create lists missing =>
    cases missing <;> cases h
    exact .created
  | tracking lists =>
    cases h
    exact .tracking
  | items lists tracked =>
    rw [SyncState.next] at h
    split_ifs at h <;> cases h
    exact @Queries.items catalog rows ⟨lists, tracked, listItems lists rows⟩ rfl
  | delete reads stale new =>
    cases stale with
    | nil =>
      cases h
      exact .deleted
    | cons first stale =>
      rw [SyncState.next] at h
      · split_ifs at h with hid hrow <;> cases h
        exact .skip (by simpa using hrow)
      · simp
  | insert reads new => cases new <;> cases h
  | done => cases h

lemma writes_of_next (h : state.next catalog choice rows = some (.write fresh k row next)) :
    Writes rows state fresh k row next := by
  cases state with
  | called item operation =>
    rw [SyncState.next] at h
    split_ifs at h with hsupported <;> cases h
    exact .lock hsupported.2
  | locked item operation =>
    rw [SyncState.next] at h
    cases hchange : operation.change catalog choice.now choice.rating item (trackingRows rows) <;>
      rw [hchange] at h <;> cases h
  | save item existing row syncs =>
    have hnext : (if syncs then SyncState.lists else .done) = .lists ∨
        (if syncs then SyncState.lists else .done) = .done := by
      cases syncs <;> simp
    rw [SyncState.next] at h
    cases existing with
    | none =>
      cases row <;> cases h
      exact .track hnext
    | some id =>
      rw [saveStatement] at h
      by_cases hrow : (rows.get? (.tracking id)).isSome
      · rw [if_pos hrow] at h
        cases h
        exact .update (Option.isSome_iff_ne_none.mp hrow) hnext
      · rw [if_neg hrow] at h
        cases h
  | lists => cases h
  | create lists missing =>
    cases missing <;> cases h
    exact .create
  | tracking lists => cases h
  | items lists tracked =>
    rw [SyncState.next] at h
    split_ifs at h <;> cases h
  | delete reads stale new =>
    cases stale with
    | nil => cases h
    | cons first stale =>
      rw [SyncState.next] at h
      · split_ifs at h with hid hrow <;> cases h
        exact .delete hid (Option.isSome_iff_ne_none.mp hrow)
      · simp
  | insert reads new =>
    cases new <;> cases h
    exact .insert
  | done => cases h

lemma state_of_commit (h : state.next catalog choice rows = some .commit) :
    (∃ reads, state = .insert reads []) ∨ state = .done := by
  cases state with
  | called item operation =>
    rw [SyncState.next] at h
    split_ifs at h <;> cases h
  | locked item operation =>
    rw [SyncState.next] at h
    cases hchange : operation.change catalog choice.now choice.rating item (trackingRows rows) <;>
      rw [hchange] at h <;> cases h
  | save item existing row syncs =>
    rw [SyncState.next] at h
    cases existing with
    | none => cases row <;> cases h
    | some id =>
      rw [saveStatement] at h
      split_ifs at h <;> cases h
  | lists => cases h
  | create lists missing => cases missing <;> cases h
  | tracking lists => cases h
  | items lists tracked =>
    rw [SyncState.next] at h
    split_ifs at h <;> cases h
  | delete reads stale new =>
    cases stale with
    | nil => cases h
    | cons first stale =>
      rw [SyncState.next] at h
      · split_ifs at h <;> cases h
      · simp
  | insert reads new =>
    cases new with
    | nil => exact .inl ⟨reads, rfl⟩
    | cons item new => cases h
  | done => exact .inr rfl

lemma Writes.holds {r : Row} (h : Writes rows state fresh k (some r) next) : k.holds r = true := by
  generalize hrow : some r = row at h
  cases h with
  | @update item id row syncs next hrow' hnext =>
    obtain ⟨tracking, -, rfl⟩ := Option.map_eq_some_iff.mp hrow.symm
    rfl
  | delete => cases hrow
  | lock => cases hrow; rfl
  | track => cases hrow; rfl
  | create => cases hrow; rfl
  | insert => cases hrow; rfl

/-- A statement overwrites only a row that it sees. -/
lemma Writes.seen (h : Writes rows state false k row next) : rows.get? k ≠ none := by
  cases h with
  | lock huser => simp [huser]
  | update hrow hnext => exact hrow
  | delete hid hrow => exact hrow

/-! ### What a call holds -/

section Fits

/-- No item has been written. -/
def ItemFree (written : RowKey → Option (Option Row)) : Prop :=
  ∀ id item, written (.item id) ≠ some (some (.item item))

/-- What is known of a running call, by the committed rows and by what it has written. -/
def SyncState.Fits (committed : Rows) (written : RowKey → Option (Option Row)) : SyncState → Prop
  | .called _ _ => ∀ k, written k = none
  | .locked _ _ => written .user ≠ none ∧ ∀ k, k ≠ .user → written k = none
  | .save item existing _ _ =>
    written .user ≠ none ∧ (∀ k, k ≠ .user → written k = none) ∧
      ∀ id, existing = some id ↔
        ∃ tracking, committed.get? (.tracking id) = some (.tracking item tracking)
  | .lists => (∀ id key, written (.list id) ≠ some (some (.list key))) ∧ ItemFree written
  | .create listsByKey missing =>
    missing.Nodup ∧ (∀ key ∈ missing, listsByKey.get? key = none ∧
      ∀ id, written (.list id) ≠ some (some (.list key))) ∧ ItemFree written
  | .tracking listsByKey => DistinctLists listsByKey ∧ ItemFree written
  | .items listsByKey _ => DistinctLists listsByKey ∧ ItemFree written
  | .delete reads _ new => reads.Fresh new ∧ ItemFree written
  | .insert reads new =>
    reads.Fresh new ∧ ∀ id item, written (.item id) = some (some (.item item)) →
      ∀ item' ∈ new, item'.clash item = false
  | .done => True

variable {committed : Rows} {written : RowKey → Option (Option Row)}

/-- A call that holds the lock depends on the committed tracking rows, the others on none. -/
lemma SyncState.Fits.of_committed {committed' : Rows} (h : state.Fits committed written)
    (htracking : written .user ≠ none →
      ∀ id, committed'.get? (.tracking id) = committed.get? (.tracking id)) :
    state.Fits committed' written := by
  cases state with
  | save item existing row syncs =>
    obtain ⟨hlock, hfree, hexisting⟩ := h
    refine ⟨hlock, hfree, fun id => ?_⟩
    rw [htracking hlock]
    exact hexisting id
  | _ => exact h

lemma ValidRows.distinctLists (h : ValidRows rows) : DistinctLists (dynamicLists rows) := by
  intro key key' id hkey hkey'
  rw [h.get?_dynamicLists] at hkey hkey'
  rw [hkey] at hkey'
  simpa using hkey'

lemma ValidRows.reads (h : ValidRows rows) {reads : Reads} (hlists : DistinctLists reads.lists)
    (hitems : reads.items = listItems reads.lists rows) : reads.Valid where
  lists := hlists
  items id id' item item' hitem hitem' hclash := by
    rw [hitems, get?_listItems] at hitem hitem'
    exact h.item_unique hitem.1 hitem'.1 hclash

lemma SyncState.Fits.query (h : state.Fits committed written) (hrows : ValidRows rows)
    (hview : ∀ k, rows.get? k = (written k).getD (committed.get? k))
    (hquery : Queries catalog rows state next) : next.Fits committed written := by
  cases hquery with
  | finish => trivial
  | keep =>
    refine ⟨fun id key hwritten => ?_, fun id item hwritten => ?_⟩
    · rw [h.2 _ (by simp)] at hwritten
      cases hwritten
    · rw [h.2 _ (by simp)] at hwritten
      cases hwritten
  | read =>
    refine ⟨h.1, h.2, fun id => ?_⟩
    rw [hrows.get?_trackingIds, hview, h.2 _ (by simp), Option.getD_none]
  | lists =>
    rw [SyncState.ensured]
    split_ifs with hmissing
    · exact ⟨hrows.distinctLists, h.2⟩
    · refine ⟨nodup_dynamicCollections.filter _, fun key hkey => ?_, h.2⟩
      exact ⟨by simpa using (List.mem_filter.mp hkey).2, fun id => h.1 id key⟩
  | created => exact ⟨hrows.distinctLists, h.2.2⟩
  | tracking => exact h
  | items hitems => exact ⟨(hrows.reads h.1 hitems).fresh_newItems, h.2⟩
  | skip hrow => exact h
  | deleted => exact ⟨h.1, fun id item hwritten => absurd hwritten (h.2 id item)⟩

lemma SyncState.Fits.write {written' : RowKey → Option (Option Row)}
    (h : state.Fits committed written) (hwrite : Writes rows state fresh k row next)
    (hwritten : ∀ k', written' k' = if k' = k then some row else written k') :
    next.Fits committed written' := by
  cases hwrite with
  | lock huser =>
    refine ⟨by simp [hwritten], fun k hk => ?_⟩
    rw [hwritten, if_neg hk]
    exact h k
  | update hrow hnext =>
    rcases hnext with rfl | rfl
    · simp [SyncState.Fits, ItemFree, hwritten, h.2.1]
    · trivial
  | track hnext =>
    rcases hnext with rfl | rfl
    · simp [SyncState.Fits, ItemFree, hwritten, h.2.1]
    · trivial
  | @create lists key missing id =>
    obtain ⟨hnodup, hmissing, hitems⟩ := h
    obtain ⟨hkey, hnodup⟩ := List.nodup_cons.mp hnodup
    refine ⟨hnodup, fun key' hkey' => ?_, by simpa [ItemFree, hwritten] using hitems⟩
    obtain ⟨hnone, hold⟩ := hmissing key' (List.mem_cons_of_mem _ hkey')
    refine ⟨hnone, fun id' => ?_⟩
    rw [hwritten]
    split_ifs with hid
    · rintro heq
      cases heq
      exact hkey hkey'
    · exact hold id'
  | @delete reads stale new id hid hrow =>
    refine ⟨h.1, fun id' item => ?_⟩
    rw [hwritten]
    split_ifs
    · simp
    · exact h.2 id' item
  | @insert reads item new id =>
    obtain ⟨⟨hpairwise, hapart⟩, hold⟩ := h
    obtain ⟨hhead, htail⟩ := List.pairwise_cons.mp hpairwise
    refine ⟨⟨htail, fun item' hmem => hapart item' (List.mem_cons_of_mem _ hmem)⟩, ?_⟩
    intro id' item' hitem' item'' hmem
    rw [hwritten] at hitem'
    split_ifs at hitem' with hid
    · cases hitem'
      exact (Row.clash_comm (.item item'') (.item item)).trans (hhead item'' hmem)
    · exact hold id' item' hitem' item'' (List.mem_cons_of_mem _ hmem)

/-- A tracking row is written under the lock. -/
lemma SyncState.Fits.locked (h : state.Fits committed written) {id : ℕ}
    (hwrite : Writes rows state fresh (.tracking id) row next) : written .user ≠ none := by
  cases hwrite with
  | update hrow hnext => exact h.1
  | track hnext => exact h.1

lemma upToDate_create {listsByKey : Table CollectionKey ℕ} {key : CollectionKey}
    {missing : List CollectionKey} :
    (SyncState.create listsByKey (key :: missing)).upToDate committed = true ↔
      ∀ id key', committed.get? (.list id) = some (.list key') →
        listsByKey.get? key' = some id := by
  rw [SyncState.upToDate, Bool.not_eq_true', ← Bool.not_eq_true, Table.any_eq_true_iff]
  constructor
  · intro h id key' hrow
    by_contra hne
    exact h ⟨.list id, .list key', hrow, by simpa using hne⟩
  · rintro h ⟨k, row, hrow, hne⟩
    cases k <;> cases row <;> simp at hne
    exact hne (h _ _ hrow)

lemma upToDate_insert {reads : Reads} {item : CollectionItem} {new : List CollectionItem} :
    (SyncState.insert reads (item :: new)).upToDate committed = true ↔
      ∀ id item', committed.get? (.item id) = some (.item item') →
        item'.userList = item.userList → reads.items.get? id = some item' := by
  rw [SyncState.upToDate, Bool.not_eq_true', ← Bool.not_eq_true, Table.any_eq_true_iff]
  constructor
  · intro h id item' hrow hlist
    by_contra hne
    exact h ⟨.item id, .item item', hrow, by simpa using ⟨hlist, hne⟩⟩
  · rintro h ⟨k, row, hrow, hne⟩
    cases k <;> cases row <;> simp at hne
    exact hne.2 (h _ _ hrow hne.1)

/-- While its reads are up to date, a call writes only what clashes with no row that it sees. -/
lemma SyncState.Fits.clash_eq_false (h : state.Fits committed written) (hrows : ValidRows rows)
    (hview : ∀ k, rows.get? k = (written k).getD (committed.get? k))
    (hcurrent : state.upToDate committed = true) {r r' : Row} {k' : RowKey}
    (hwrite : Writes rows state fresh k (some r) next) (hrow' : rows.get? k' = some r')
    (hne : k' ≠ k) : r.clash r' = false := by
  have hholds := hrows.holds k' r' hrow'
  have hseen := hview k'
  rw [hrow'] at hseen
  generalize hrow : some r = row at hwrite
  cases hwrite with
  | lock huser =>
    cases hrow
    rfl
  | @update item id row syncs next hold hnext =>
    obtain ⟨tracking, -, rfl⟩ := Option.map_eq_some_iff.mp hrow.symm
    obtain ⟨-, hfree, hexisting⟩ := h
    obtain ⟨old, hcommitted⟩ := (hexisting id).mp rfl
    have hview' := hview (.tracking id)
    rw [hfree _ (by simp), Option.getD_none, hcommitted] at hview'
    -- the constraint looks at the content item alone
    have hfalse := hrows.unique _ k' (.tracking item old) r' hview' hrow' hne.symm
    cases r' <;> exact hfalse
  | delete => cases hrow
  | @track item id row syncs next hnext =>
    cases hrow
    obtain ⟨-, hfree, hexisting⟩ := h
    cases r' <;> cases k' <;> simp only [RowKey.holds, Bool.false_eq_true] at hholds <;> try rfl
    rename_i contentItem tracking id'
    rw [hfree _ (by simp), Option.getD_none] at hseen
    have hother : contentItem ≠ item := by
      rintro rfl
      have hnone := (hexisting id').mpr ⟨tracking, hseen.symm⟩
      cases hnone
    simp [Row.clash, hother.symm]
  | @create listsByKey key missing id =>
    cases hrow
    obtain ⟨-, hmissing, -⟩ := h
    obtain ⟨hnone, hwritten⟩ := hmissing key (List.mem_cons_self ..)
    cases r' <;> cases k' <;> simp only [RowKey.holds, Bool.false_eq_true] at hholds <;> try rfl
    rename_i key' id'
    have hother : key' ≠ key := by
      rintro rfl
      cases hw : written (.list id') with
      | none =>
        rw [hw, Option.getD_none] at hseen
        rw [upToDate_create.mp hcurrent id' key' hseen.symm] at hnone
        cases hnone
      | some row =>
        rw [hw, Option.getD_some] at hseen
        exact hwritten id' (hw.trans (congrArg some hseen.symm))
    simp [Row.clash, hother.symm]
  | @insert reads item new id =>
    cases hrow
    obtain ⟨⟨-, hapart⟩, hwritten⟩ := h
    cases r' <;> cases k' <;> simp only [RowKey.holds, Bool.false_eq_true] at hholds <;> try rfl
    rename_i item' id'
    by_contra hclash
    cases hw : written (.item id') with
    | none =>
      rw [hw, Option.getD_none] at hseen
      simp only [Row.clash, CollectionItem.clash, Bool.not_eq_false, Bool.and_eq_true,
        decide_eq_true_eq] at hclash
      have hread := upToDate_insert.mp hcurrent id' item' hseen.symm hclash.1.symm
      have hfalse := hapart item (List.mem_cons_self ..) id' item' hread
      simp [CollectionItem.clash, hclash] at hfalse
    | some row =>
      rw [hw, Option.getD_some] at hseen
      exact hclash (hwritten id' item' (hw.trans (congrArg some hseen.symm)) item
        (List.mem_cons_self ..))

end Fits

end Denn.Sync
