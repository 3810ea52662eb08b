import Denn.Progress.Tracking
import Mathlib.Algebra.BigOperators.Group.List.Lemmas

/-!
# Synchronising the dynamic collections

What one synchronisation leaves in each system list. A list keeps an invariant: its rows have
distinct primary keys, all below the next one, and distinct order values. With it a
synchronisation appends without touching a row that stays.
-/

namespace Denn

open Core

section Sync

variable (catalog : Catalog) (tracking : Table ItemId Tracking)
  (definition : DynamicCollectionDefinition)

/-! ### Counting tracking rows -/

/-- The tracking rows grouped by status and content type, each group with its size. -/
def trackingGroups : List ((TrackingStatus × ContentType) × ℕ) :=
  let groups := tracking.rows.map fun row => (row.2.status, catalog.contentType row.1)
  groups.dedup.map fun group => (group, groups.countP fun other => other = group)

/-- The number of tracking rows in a collection, summed over the groups it admits. -/
def collectionCounts : ℕ :=
  (((trackingGroups catalog tracking).filter fun group =>
    definition.admits group.1.1 group.1.2).map Prod.snd).sum

/-- The collection shows the item. -/
def isAdmitted (item : ItemId) : Bool :=
  (tracking.get? item).any fun row => definition.admits row.status (catalog.contentType item)

lemma isAdmitted_iff {item : ItemId} :
    isAdmitted catalog tracking definition item = true ↔
      ∃ row, tracking.get? item = some row ∧
        definition.admits row.status (catalog.contentType item) = true := by
  rw [isAdmitted, Option.any_eq_true]

lemma collectionCounts_eq_count :
    collectionCounts catalog tracking definition =
      tracking.count fun item row => definition.admits row.status (catalog.contentType item) := by
  let groups := tracking.rows.map fun row => (row.2.status, catalog.contentType row.1)
  have hsum := List.sum_map_count_dedup_filter_eq_countP
    (fun group => definition.admits group.1 group.2) groups
  have hcount : groups.countP (fun group => definition.admits group.1 group.2) =
      tracking.count fun item row =>
        definition.admits row.status (catalog.contentType item) := by
    simp only [groups, Table.rows, List.map_map, List.countP_map, Table.count]
    rfl
  rw [← hcount, ← hsum, collectionCounts, trackingGroups, List.filter_map, List.map_map]
  rfl

/-! ### One list -/

/-- The admitted items without a row, in the order in which they are appended. -/
def missingIds (current : Table ItemId ListItem) : List ItemId :=
  ((tracking.keysWhere fun item row =>
      definition.admits row.status (catalog.contentType item)).filter
    fun item => (current.get? item).isNone).insertionSort (· ≤ ·)

/-- One more than the largest order value. -/
def nextOrder (current : Table ItemId ListItem) : ℤ :=
  ((current.rows.map fun row => row.2.listOrder).max?.getD 0) + 1

/-- The row of the item appended at an index. -/
def appendedRow (current : Table ItemId ListItem) (nextId index : ℕ) : ListItem where
  id := nextId + index
  listOrder := nextOrder current + index

/-- The rows of a list after its synchronisation. -/
def syncItems (current : Table ItemId ListItem) (nextId : ℕ) : Table ItemId ListItem :=
  (missingIds catalog tracking definition current).zipIdx.foldl
    (fun items new => items.set new.1 (appendedRow current nextId new.2))
    (current.deleteWhere fun item _ => item ∉ tracking.keysWhere fun item row =>
      definition.admits row.status (catalog.contentType item))

/-- The rows of a list; a list that does not exist yet has none. -/
def DynamicLists.items (dynamicLists : DynamicLists) (key : CollectionKey) :
    Table ItemId ListItem :=
  (dynamicLists.lists.get? key).getD .empty

lemma syncCollection_eq (dynamicLists : DynamicLists) :
    syncCollection catalog tracking dynamicLists definition =
      { lists := dynamicLists.lists.set definition.key
          (syncItems catalog tracking definition (dynamicLists.items definition.key)
            dynamicLists.nextId)
        nextId := dynamicLists.nextId
          + (missingIds catalog tracking definition
              (dynamicLists.items definition.key)).length } := rfl

variable {catalog tracking definition} {current : Table ItemId ListItem} {nextId : ℕ}

lemma mem_missingIds {item : ItemId} :
    item ∈ missingIds catalog tracking definition current ↔
      isAdmitted catalog tracking definition item = true ∧ current.get? item = none := by
  rw [missingIds, List.mem_insertionSort, List.mem_filter, Table.mem_keysWhere, isAdmitted_iff,
    Option.isNone_iff_eq_none]

lemma nodup_missingIds : (missingIds catalog tracking definition current).Nodup := by
  rw [missingIds, List.Perm.nodup_iff (List.perm_insertionSort _ _)]
  exact (tracking.nodup_keys.sublist (List.filter_sublist.map _)).filter _

/-- The order values of a list lie below the next one. -/
lemma listOrder_lt_nextOrder {item : ItemId} {row : ListItem}
    (hrow : current.get? item = some row) : row.listOrder < nextOrder current := by
  have hmem : row.listOrder ∈ current.rows.map fun row => row.2.listOrder :=
    List.mem_map.mpr ⟨(item, row), (Table.mem_rows_iff ..).mpr hrow, rfl⟩
  cases hmax : (current.rows.map fun row => row.2.listOrder).max? with
  | none =>
    rw [List.max?_eq_none_iff.mp hmax] at hmem
    cases hmem
  | some largest =>
    have hle := (List.max?_eq_some_iff.mp hmax).2 _ hmem
    rw [nextOrder, hmax, Option.getD_some]
    exact Int.lt_add_one_of_le hle

/-- What a list holds after its synchronisation: the rows that stay, and an appended row for
    each new item. -/
lemma get?_syncItems (item : ItemId) :
    (syncItems catalog tracking definition current nextId).get? item =
      if isAdmitted catalog tracking definition item then
        some ((current.get? item).getD (appendedRow current nextId
          ((missingIds catalog tracking definition current).idxOf item)))
      else none := by
  have hmem : item ∈ tracking.keysWhere (fun item row =>
      definition.admits row.status (catalog.contentType item)) ↔
      isAdmitted catalog tracking definition item = true := by
    rw [Table.mem_keysWhere, isAdmitted_iff]
  rw [syncItems, Table.get?_foldl_zipIdx _ nodup_missingIds, Table.get?_deleteWhere, Nat.zero_add]
  by_cases hadmitted : isAdmitted catalog tracking definition item = true
  · cases hrow : current.get? item with
    | none => simp [mem_missingIds, hadmitted, hrow]
    | some row => simp [mem_missingIds, hadmitted, hrow, hmem.mpr hadmitted]
  · have hnot := mt hmem.mp hadmitted
    cases hrow : current.get? item <;> simp [mem_missingIds, hadmitted, hnot]

/-- A row after a synchronisation was there before, or it was appended for a new item. -/
lemma get?_syncItems_cases {item : ItemId} {row : ListItem}
    (h : (syncItems catalog tracking definition current nextId).get? item = some row) :
    current.get? item = some row ∨
      item ∈ missingIds catalog tracking definition current ∧
        row = appendedRow current nextId
          ((missingIds catalog tracking definition current).idxOf item) := by
  rw [get?_syncItems] at h
  split_ifs at h with hadmitted
  cases hrow : current.get? item with
  | none =>
    rw [hrow, Option.getD_none, Option.some.injEq] at h
    exact .inr ⟨mem_missingIds.mpr ⟨hadmitted, hrow⟩, h.symm⟩
  | some old =>
    rw [hrow, Option.getD_some] at h
    exact .inl h

/-- The invariant of one list. -/
structure ListInvariant (nextId : ℕ) (items : Table ItemId ListItem) : Prop where
  id_lt : ∀ item row, items.get? item = some row → row.id < nextId
  id_inj : ∀ item item' row row', items.get? item = some row → items.get? item' = some row' →
    row.id = row'.id → item = item'
  order_inj : ∀ item item' row row', items.get? item = some row → items.get? item' = some row' →
    row.listOrder = row'.listOrder → item = item'

lemma ListInvariant.empty : ListInvariant nextId .empty where
  id_lt _ _ h := by simp at h
  id_inj _ _ _ _ h := by simp at h
  order_inj _ _ _ _ h := by simp at h

lemma ListInvariant.mono {items : Table ItemId ListItem} (h : ListInvariant nextId items)
    {nextId' : ℕ} (hle : nextId ≤ nextId') : ListInvariant nextId' items where
  id_lt item row hrow := (h.id_lt item row hrow).trans_le hle
  id_inj := h.id_inj
  order_inj := h.order_inj

/-- Appended rows get fresh keys and order values. -/
lemma ListInvariant.syncItems (h : ListInvariant nextId current) :
    ListInvariant (nextId + (missingIds catalog tracking definition current).length)
      (Denn.syncItems catalog tracking definition current nextId) where
  id_lt item row hrow := by
    rcases get?_syncItems_cases hrow with hold | ⟨hnew, rfl⟩
    · exact (h.id_lt item row hold).trans_le (Nat.le_add_right ..)
    · exact Nat.add_lt_add_left (List.idxOf_lt_length_of_mem hnew) _
  id_inj item item' row row' hrow hrow' heq := by
    rcases get?_syncItems_cases hrow with hold | ⟨hnew, rfl⟩ <;>
    rcases get?_syncItems_cases hrow' with hold' | ⟨hnew', rfl⟩
    · exact h.id_inj item item' row row' hold hold' heq
    · have hlt := h.id_lt item row hold
      simp only [appendedRow] at heq
      omega
    · have hlt := h.id_lt item' row' hold'
      simp only [appendedRow] at heq
      omega
    · exact (List.idxOf_inj hnew).mp (Nat.add_left_cancel heq)
  order_inj item item' row row' hrow hrow' heq := by
    rcases get?_syncItems_cases hrow with hold | ⟨hnew, rfl⟩ <;>
    rcases get?_syncItems_cases hrow' with hold' | ⟨hnew', rfl⟩
    · exact h.order_inj item item' row row' hold hold' heq
    · have hlt := listOrder_lt_nextOrder hold
      simp only [appendedRow] at heq
      omega
    · have hlt := listOrder_lt_nextOrder hold'
      simp only [appendedRow] at heq
      omega
    · exact (List.idxOf_inj hnew).mp (Int.ofNat.inj (Int.add_left_cancel heq))

/-- A list that holds exactly the admitted items is left as it is. -/
lemma syncItems_of_missingIds_nil
    (hmissing : missingIds catalog tracking definition current = [])
    (hkeep : ∀ item row, current.get? item = some row →
      isAdmitted catalog tracking definition item = true) :
    Denn.syncItems catalog tracking definition current nextId = current := by
  rw [Denn.syncItems, hmissing, List.zipIdx_nil, List.foldl_nil]
  refine Table.deleteWhere_eq_self fun item row hrow => ?_
  have hadmitted := (isAdmitted_iff ..).mp (hkeep item row hrow)
  simpa using Table.mem_keysWhere.mpr hadmitted

end Sync

/-! ### All lists -/

section AllLists

variable {catalog : Catalog} {tracking : Table ItemId Tracking}

lemma nodup_dynamicCollections :
    (dynamicCollections.map DynamicCollectionDefinition.key).Nodup := by decide

lemma exists_definition (key : CollectionKey) :
    ∃ definition ∈ dynamicCollections, definition.key = key := by
  cases key <;> simp [dynamicCollections]

/-- Creating the lists that are missing adds no item. -/
lemma get?_foldl_ensure (definitions : List DynamicCollectionDefinition)
    (lists : Table CollectionKey (Table ItemId ListItem)) (key : CollectionKey) :
    (definitions.foldl
      (fun lists definition =>
        if (lists.get? definition.key).isSome then lists else lists.set definition.key .empty)
      lists).get? key =
    if key ∈ definitions.map DynamicCollectionDefinition.key then
      some ((lists.get? key).getD .empty)
    else lists.get? key := by
  induction definitions generalizing lists with
  | nil => simp
  | cons definition definitions ih =>
    rw [List.foldl_cons, ih]
    by_cases hkey : key = definition.key
    · subst hkey
      cases hlist : lists.get? definition.key <;> simp [hlist]
    · cases hlist : lists.get? definition.key <;> simp [hkey, Table.get?_set_ne _ _ hkey]

lemma get?_ensureDynamicCollections (lists : Table CollectionKey (Table ItemId ListItem))
    (key : CollectionKey) :
    (ensureDynamicCollections lists).get? key = some ((lists.get? key).getD .empty) := by
  obtain ⟨definition, hmem, rfl⟩ := exists_definition key
  rw [ensureDynamicCollections, get?_foldl_ensure, if_pos (List.mem_map_of_mem hmem)]

variable (catalog tracking) in
/-- What the loop over the definitions does: it numbers the new rows of one list after those of
    the lists before it, and leaves the lists of other definitions alone. -/
lemma foldl_syncCollection {definitions : List DynamicCollectionDefinition}
    (hnodup : (definitions.map DynamicCollectionDefinition.key).Nodup)
    (dynamicLists : DynamicLists) :
    (∀ key, key ∉ definitions.map DynamicCollectionDefinition.key →
      (definitions.foldl (syncCollection catalog tracking) dynamicLists).lists.get? key =
        dynamicLists.lists.get? key) ∧
    (definitions.foldl (syncCollection catalog tracking) dynamicLists).nextId =
      dynamicLists.nextId + (definitions.map fun definition =>
        (missingIds catalog tracking definition
          (dynamicLists.items definition.key)).length).sum ∧
    ∀ definition ∈ definitions, ∃ nextId, dynamicLists.nextId ≤ nextId ∧
      nextId + (missingIds catalog tracking definition
          (dynamicLists.items definition.key)).length ≤
        (definitions.foldl (syncCollection catalog tracking) dynamicLists).nextId ∧
      (definitions.foldl (syncCollection catalog tracking) dynamicLists).lists.get?
          definition.key =
        some (syncItems catalog tracking definition (dynamicLists.items definition.key)
          nextId) := by
  induction definitions generalizing dynamicLists with
  | nil => simp
  | cons first rest ih =>
    obtain ⟨hfirst, hrest⟩ := List.nodup_cons.mp hnodup
    -- one pass leaves the rows of every other list
    have hother : ∀ key ≠ first.key,
        (syncCollection catalog tracking dynamicLists first).lists.get? key =
          dynamicLists.lists.get? key := by
      intro key hne
      rw [syncCollection_eq, Table.get?_set_ne _ _ hne]
    have hitems : ∀ definition ∈ rest,
        (syncCollection catalog tracking dynamicLists first).items definition.key =
          dynamicLists.items definition.key := by
      intro definition hmem
      have hne : definition.key ≠ first.key := by
        rintro heq
        exact hfirst (heq ▸ List.mem_map_of_mem hmem)
      rw [DynamicLists.items, hother _ hne, DynamicLists.items]
    have hsum : (rest.map fun definition => (missingIds catalog tracking definition
        ((syncCollection catalog tracking dynamicLists first).items definition.key)).length) =
        rest.map fun definition => (missingIds catalog tracking definition
          (dynamicLists.items definition.key)).length := by
      refine List.map_congr_left fun definition hmem => ?_
      rw [hitems definition hmem]
    obtain ⟨hkeep, hnext, hlist⟩ :=
      ih hrest (syncCollection catalog tracking dynamicLists first)
    have hnextFirst : (syncCollection catalog tracking dynamicLists first).nextId =
        dynamicLists.nextId
          + (missingIds catalog tracking first (dynamicLists.items first.key)).length := rfl
    rw [hsum, hnextFirst] at hnext
    rw [List.foldl_cons]
    refine ⟨?_, ?_, ?_⟩
    · intro key hkey
      rw [List.map_cons, List.mem_cons, not_or] at hkey
      rw [hkeep key hkey.2, hother key hkey.1]
    · rw [hnext, List.map_cons, List.sum_cons, Nat.add_assoc]
    · intro definition hmem
      rcases List.mem_cons.mp hmem with rfl | hmem
      · refine ⟨dynamicLists.nextId, le_rfl, ?_, ?_⟩
        · rw [hnext]
          exact Nat.le_add_right ..
        · rw [hkeep _ hfirst, syncCollection_eq, Table.get?_set_self]
      · obtain ⟨nextId, hle, hlt, hget⟩ := hlist definition hmem
        rw [hitems definition hmem] at hlt hget
        exact ⟨nextId, (hnextFirst ▸ Nat.le_add_right ..).trans hle, hlt, hget⟩

variable (catalog) in
lemma syncDynamicCollections_spec (s : UserProgress) :
    (syncDynamicCollections catalog s).dynamicLists.nextId =
      s.dynamicLists.nextId + (dynamicCollections.map fun definition =>
        (missingIds catalog s.tracking definition
          (s.dynamicLists.items definition.key)).length).sum ∧
    ∀ definition ∈ dynamicCollections, ∃ nextId, s.dynamicLists.nextId ≤ nextId ∧
      nextId + (missingIds catalog s.tracking definition
          (s.dynamicLists.items definition.key)).length ≤
        (syncDynamicCollections catalog s).dynamicLists.nextId ∧
      (syncDynamicCollections catalog s).dynamicLists.lists.get? definition.key =
        some (syncItems catalog s.tracking definition (s.dynamicLists.items definition.key)
          nextId) := by
  have hitems : ∀ key, DynamicLists.items
      { s.dynamicLists with lists := ensureDynamicCollections s.dynamicLists.lists } key =
        s.dynamicLists.items key := by
    intro key
    rw [DynamicLists.items, get?_ensureDynamicCollections, Option.getD_some, DynamicLists.items]
  have hfold := (foldl_syncCollection catalog s.tracking nodup_dynamicCollections
    { s.dynamicLists with lists := ensureDynamicCollections s.dynamicLists.lists }).2
  simp only [hitems] at hfold
  exact hfold

/-- The invariant of all lists of a user. -/
def CollectionsInvariant (dynamicLists : DynamicLists) : Prop :=
  ∀ key, ListInvariant dynamicLists.nextId (dynamicLists.items key)

lemma CollectionsInvariant.syncDynamicCollections {s : UserProgress}
    (h : CollectionsInvariant s.dynamicLists) :
    CollectionsInvariant (Denn.syncDynamicCollections catalog s).dynamicLists := by
  intro key
  obtain ⟨definition, hmem, rfl⟩ := exists_definition key
  obtain ⟨nextId, hle, hlt, hlist⟩ :=
    (syncDynamicCollections_spec catalog s).2 definition hmem
  rw [DynamicLists.items, hlist, Option.getD_some]
  exact ((h definition.key).mono hle).syncItems.mono hlt

end AllLists

end Denn
