import Denn.Core.Serial
import Denn.Lists.Promotion

/-!
# Edits of a list, statement by statement

What the requests of the editors of one list execute: add, delete, move, reorder and apply sort. Each
reads the list, and writes later what it has computed from it.
-/

namespace Denn.Lists

open Core

/-! ### Requests -/

/-- The requests, once their bodies have been read. -/
inductive EditRequest where
  | add (contentItem : ItemId) (contextStatus : Option ContextStatus)
  | delete (pk : ListItemId)
  | move (pk : ListItemId) (position : ℤ)
  | reorder (order : List ListItemId)
  | applySort (user : UserId) (sort : List SortClause)

/-- What the database decides at a statement: the key of a row that is inserted, and the order in
    which the rows of an update are processed. -/
structure DatabaseChoice where
  id : ListItemId := 0
  scan : Scan ListItemId := .forward

/-- What a request has read and what remains of it, by its next statement. -/
inductive EditState where
  | findDuplicate (contentItem : ItemId) (contextStatus : Option ContextStatus)
  | readMaximum (contentItem : ItemId) (contextStatus : Option ContextStatus)
  | insert (contentItem : ItemId) (contextStatus : Option ContextStatus) (listOrder : ℤ)
  | added (pk : ListItemId)
  | getToDelete (pk : ListItemId)
  | delete (pk : ListItemId)
  | deleted (pk : ListItemId)
  | getToMove (pk : ListItemId) (position : ℤ)
  | count (pk : ListItemId) (position oldPos : ℤ)
  | readParking (pk : ListItemId) (position oldPos : ℤ)
  | park (pk : ListItemId) (position oldPos parking : ℤ)
  | startShift (pk : ListItemId) (position oldPos : ℤ)
  | shift (rest : List ListItemId) (pk : ListItemId) (position oldPos : ℤ)
  | readIds (order : List ListItemId)
  | readSorted (user : UserId) (sort : List SortClause)
  | startParking (ids order : List ListItemId)
  | parkRows (rest ids order : List ListItemId)
  | startPlacing (ids order : List ListItemId)
  | placeRows (rest order : List ListItemId)
  | written
  deriving DecidableEq

def EditRequest.start : EditRequest → EditState
  | .add contentItem contextStatus => .findDuplicate contentItem contextStatus
  | .delete pk => .getToDelete pk
  | .move pk position => .getToMove pk position
  | .reorder order => .readIds order
  | .applySort user sort => .readSorted user sort

/-! ### Statements -/

abbrev EditStatement := Statement ListItemId ListItem EditState

/-- The constraints `unique_list_order_per_list` and `unique_item_per_list`. -/
def sameEntry (row row' : ListItem) : Bool :=
  row.userList = row'.userList &&
    (row.listOrder = row'.listOrder || row.contentItem = row'.contentItem)

/-- The row that an insertion writes. -/
def newItem (listPk : ListId) (contentItem : ItemId) (contextStatus : Option ContextStatus)
    (listOrder : ℤ) : ListItem where
  userList := listPk
  contentItem := contentItem
  contextStatus := contextStatus
  listOrder := listOrder

/-- `instance.save(update_fields=['list_order'])`, which raises if the row is gone. -/
def saveStatement (items : ListItems) (pk : ListItemId) (order : ℤ) (next : EditState) :
    EditStatement :=
  (items.get? pk).elim .abort fun row =>
    .write false pk (some { row with listOrder := order }) next

/-- An `UPDATE` comes to a row that it has selected, and leaves out one that does not fit any more. -/
def updateStatement (items : ListItems) (pk : ListItemId) (fits : ListItem → Bool)
    (order : ListItem → ℤ) (next : EditState) : EditStatement :=
  ((items.get? pk).filter fits).elim (.query next) fun row =>
    .write false pk (some { row with listOrder := order row }) next

/-- Keys in their own order. In which order their rows are processed is up to the database. -/
def sortIds (ids : List ListItemId) : List ListItemId := ids.insertionSort (· ≤ ·)

lemma sortIds_perm (ids : List ListItemId) : (sortIds ids).Perm ids := List.perm_insertionSort _ _

/-- The rows that `id IN (…)` selects. -/
def selectIds (items : ListItems) (ids : List ListItemId) : List ListItemId :=
  ids.filter fun id => (items.get? id).isSome

section

variable {κ : Type*} [LinearOrder κ] (collate : String ↪ κ) (db : ExploreDatabase) (listPk : ListId)

/-- The next statement of a request. -/
def EditState.next (choice : DatabaseChoice) (items : ListItems) : EditState → EditStatement
  -- `ListItemCreateSerializer.create`
  | .findDuplicate contentItem contextStatus =>
    if items.any fun _ row => row.userList = listPk && row.contentItem = contentItem then .abort
    else .query (.readMaximum contentItem contextStatus)
  | .readMaximum contentItem contextStatus =>
    .query (.insert contentItem contextStatus (saveOrder listPk items 0))
  | .insert contentItem contextStatus listOrder =>
    .write true choice.id (some (newItem listPk contentItem contextStatus listOrder))
      (.added choice.id)
  | .added _ => .commit
  -- `destroy`
  | .getToDelete pk => if pk ∈ itemIds listPk items then .query (.delete pk) else .abort
  | .delete pk =>
    if (items.get? pk).isSome then .write false pk none (.deleted pk) else .query (.deleted pk)
  | .deleted _ => .commit
  -- `move`
  | .getToMove pk position =>
    if pk ∈ itemIds listPk items then .query (.count pk position (orderOf items pk)) else .abort
  | .count pk position oldPos =>
    if position < 1 ∨ (itemIds listPk items).length < position then .abort
    else if oldPos = position then .commit
    else .query (.readParking pk position oldPos)
  | .readParking pk position oldPos =>
    .query (.park pk position oldPos (saveOrder listPk items (-pk)))
  | .park pk position oldPos parking =>
    saveStatement items pk parking (.startShift pk position oldPos)
  | .startShift pk position oldPos =>
    .query (.shift (choice.scan.order (sortIds (shiftedIds listPk oldPos position items))) pk
      position oldPos)
  | .shift [] pk position _ => saveStatement items pk position .written
  | .shift (id :: rest) pk position oldPos =>
    updateStatement items id
      (fun row => row.userList = listPk ∧ Shifted oldPos position row.listOrder)
      (fun row => row.listOrder + shiftStep oldPos position) (.shift rest pk position oldPos)
  -- `reorder` and `apply_sort`
  | .readIds order =>
    if order ≠ [] ∧ (∀ id ∈ itemIds listPk items, id ∈ order) ∧
        ∀ id ∈ order, id ∈ itemIds listPk items then
      .query (.startParking (sortIds (itemIds listPk items)) order)
    else .abort
  | .readSorted user sort =>
    let ids := (sortedItems collate sort { db with items } user listPk).map (·.id)
    if ids = [] then .commit else .query (.startParking ids ids)
  | .startParking ids order =>
    .query (.parkRows (choice.scan.order (selectIds items ids)) ids order)
  | .parkRows [] ids order => .query (.startPlacing ids order)
  | .parkRows (id :: rest) ids order =>
    updateStatement items id (fun _ => true) (fun _ => -id) (.parkRows rest ids order)
  | .startPlacing ids order => .query (.placeRows (choice.scan.order (selectIds items ids)) order)
  | .placeRows [] _ => .query .written
  | .placeRows (id :: rest) order =>
    updateStatement items id (fun _ => true) (fun _ => idToPos order id) (.placeRows rest order)
  | .written => .commit

end

/-- A row that a move shifts finds its new order value free. -/
def EditState.fits (listPk : ListId) (items : ListItems) : EditState → Bool
  | .shift (id :: _) _ position oldPos => (itemIds listPk items).all fun id' =>
    id' = id || orderOf items id' ≠ orderOf items id + shiftStep oldPos position
  | _ => true

/-! ### Valid lists -/

/-- The order values of the list are distinct and positive, and no content has two items. -/
structure ValidList (listPk : ListId) (items : ListItems) : Prop where
  ordered : WellOrdered listPk items
  contents : ∀ id id' row row', items.get? id = some row → items.get? id' = some row' →
    row.userList = listPk → row'.userList = listPk → row.contentItem = row'.contentItem → id = id'

section

variable {listPk : ListId} {t view : ListItems} {pk id : ListItemId} {row : ListItem}
  {order : ListItemId → ℤ} {value position : ℤ} {contentItem : ItemId}
  {contextStatus : Option ContextStatus} {ids rest requested : List ListItemId}

namespace Reordered

lemma of_mem (h : Reordered listPk order t view) (hid : id ∈ itemIds listPk t) :
    ∃ row, view.get? id = some row ∧ row.userList = listPk ∧ row.listOrder = order id := by
  obtain ⟨row, hrow, hlist⟩ := mem_itemIds.mp hid
  refine ⟨{ row with listOrder := order id }, ?_, hlist, rfl⟩
  rw [h id, hrow, Option.map_some, if_pos hlist]

/-- Another row is given an order value. -/
lemma write (h : Reordered listPk order t view) (hid : id ∈ itemIds listPk t)
    (hrow : view.get? id = some row) :
    Reordered listPk (fun id' => if id' = id then value else order id') t
      (applyWrites view [(id, some { row with listOrder := value })]) := by
  intro id'
  rw [get?_applyWrite]
  by_cases heq : id' = id
  · subst heq
    obtain ⟨row', hrow', hlist⟩ := mem_itemIds.mp hid
    rw [h id', hrow', Option.map_some, if_pos hlist, Option.some.injEq] at hrow
    simp [hrow', hlist, ← hrow]
  · rw [if_neg heq, h id']
    simp only [heq, if_false]

/-- A new order value that no other item has can be written. -/
lemma free (hvalid : ValidList listPk t) (h : Reordered listPk order t view)
    (hid : id ∈ itemIds listPk t) (hrow : view.get? id = some row)
    (hvalue : ∀ id' ∈ itemIds listPk t, id' ≠ id → order id' ≠ value) :
    clashes sameEntry view id (some { row with listOrder := value }) = false := by
  obtain ⟨old, hold, hlist⟩ := mem_itemIds.mp hid
  rw [h id, hold, Option.map_some, if_pos hlist, Option.some.injEq] at hrow
  obtain rfl := hrow
  rw [clashes_eq_false]
  rintro r id' r' hr hr' hne
  obtain rfl := Option.some.inj hr
  rw [h id'] at hr'
  obtain ⟨old', hold', rfl⟩ := Option.map_eq_some_iff.mp hr'
  by_cases hlist' : old'.userList = listPk
  · have horder := hvalue id' (mem_itemIds.mpr ⟨old', hold', hlist'⟩) hne
    have hcontent : old.contentItem ≠ old'.contentItem := fun heq =>
      hne (hvalid.contents id' id old' old hold' hold hlist' hlist heq.symm)
    simp [sameEntry, hlist', hcontent, horder.symm]
  · simp [sameEntry, hlist, hlist', Ne.symm hlist']

end Reordered

lemma ValidList.reordered (hvalid : ValidList listPk t) (h : Reordered listPk order t view)
    (hdistinct : DistinctKeys order (itemIds listPk t))
    (hpositive : ∀ id ∈ itemIds listPk t, 0 < order id) : ValidList listPk view where
  ordered := h.wellOrdered hdistinct hpositive
  contents id id' row row' hrow hrow' hlist hlist' hcontent := by
    rw [h id] at hrow
    rw [h id'] at hrow'
    obtain ⟨old, hold, rfl⟩ := Option.map_eq_some_iff.mp hrow
    obtain ⟨old', hold', rfl⟩ := Option.map_eq_some_iff.mp hrow'
    refine hvalid.contents id id' old old' hold hold' ?_ ?_ ?_
    · split_ifs at hlist <;> assumption
    · split_ifs at hlist' <;> assumption
    · split_ifs at hcontent <;> exact hcontent

lemma mem_itemIds_set {pk : ListItemId} (hlist : row.userList = listPk) :
    id ∈ itemIds listPk (t.set pk row) ↔ id = pk ∨ id ∈ itemIds listPk t := by
  rw [mem_itemIds, mem_itemIds]
  by_cases heq : id = pk
  · subst heq
    simp [hlist]
  · simp [Table.get?_set_ne _ _ heq, heq]

lemma mem_itemIds_delete : id ∈ itemIds listPk (t.delete pk) ↔ id ∈ itemIds listPk t ∧ id ≠ pk := by
  rw [mem_itemIds, mem_itemIds]
  by_cases heq : id = pk
  · subst heq
    simp
  · simp [Table.get?_delete, heq]

lemma orderOf_set (id : ListItemId) :
    orderOf (t.set pk row) id = if id = pk then row.listOrder else orderOf t id := by
  rw [orderOf, Table.get?_set]
  split_ifs <;> rfl

lemma WellOrdered.maxOrder_nonneg (h : WellOrdered listPk t) : 0 ≤ maxOrder listPk t := by
  cases hids : itemIds listPk t with
  | nil => simp [maxOrder, hids]
  | cons id ids =>
    have hid : id ∈ itemIds listPk t := by simp [hids]
    exact (h.positive id hid).le.trans (le_maxOrder hid)

/-- A new item stands behind all others. -/
lemma ValidList.insert (hvalid : ValidList listPk t)
    (hnew : ∀ id row, t.get? id = some row → row.userList = listPk →
      row.contentItem ≠ contentItem) :
    ValidList listPk
      (t.set pk (newItem listPk contentItem contextStatus (maxOrder listPk t + 1))) := by
  have hlist : (newItem listPk contentItem contextStatus (maxOrder listPk t + 1)).userList =
      listPk := rfl
  refine ⟨⟨.of_inj nodup_itemIds fun a ha b hb heq => ?_, fun a ha => ?_⟩, ?_⟩
  · rw [mem_itemIds_set hlist] at ha hb
    rw [orderOf_set, orderOf_set] at heq
    split_ifs at heq with hapk hbpk hbpk
    · rw [hapk, hbpk]
    · exact absurd heq (Int.lt_add_one_of_le (le_maxOrder (hb.resolve_left hbpk))).ne'
    · exact absurd heq (Int.lt_add_one_of_le (le_maxOrder (ha.resolve_left hapk))).ne
    · exact hvalid.ordered.distinct.inj (ha.resolve_left hapk) (hb.resolve_left hbpk) heq
  · rw [mem_itemIds_set hlist] at ha
    rw [orderOf_set]
    split_ifs with hapk
    · exact Int.lt_add_one_of_le hvalid.ordered.maxOrder_nonneg
    · exact hvalid.ordered.positive a (ha.resolve_left hapk)
  · intro a b row row' hrow hrow' hlist hlist' hcontent
    rw [Table.get?_set] at hrow hrow'
    split_ifs at hrow hrow' with hapk hbpk hbpk
    · rw [hapk, hbpk]
    · obtain rfl := Option.some.inj hrow
      exact absurd hcontent.symm (hnew b row' hrow' hlist')
    · obtain rfl := Option.some.inj hrow'
      exact absurd hcontent (hnew a row hrow hlist)
    · exact hvalid.contents a b row row' hrow hrow' hlist hlist' hcontent

lemma ValidList.delete (hvalid : ValidList listPk t) (pk : ListItemId) :
    ValidList listPk (t.delete pk) := by
  have horder : ∀ id, id ≠ pk → orderOf (t.delete pk) id = orderOf t id := by
    intro id hne
    rw [orderOf, Table.get?_delete_ne _ hne, orderOf]
  refine ⟨⟨.of_inj nodup_itemIds fun a ha b hb heq => ?_, fun a ha => ?_⟩, ?_⟩
  · rw [mem_itemIds_delete] at ha hb
    rw [horder a ha.2, horder b hb.2] at heq
    exact hvalid.ordered.distinct.inj ha.1 hb.1 heq
  · rw [mem_itemIds_delete] at ha
    rw [horder a ha.2]
    exact hvalid.ordered.positive a ha.1
  · intro a b row row' hrow hrow' hlist hlist' hcontent
    rw [Table.get?_delete] at hrow hrow'
    split_ifs at hrow hrow'
    exact hvalid.contents a b row row' hrow hrow' hlist hlist' hcontent

lemma reordered_refl : Reordered listPk (orderOf t) t t := by
  intro id
  cases hrow : t.get? id with
  | none => rfl
  | some row =>
    rw [Option.map_some, orderOf_eq hrow]
    simp

/-! ### What a request knows when it runs alone -/

/-- A move that has passed its checks. -/
structure MoveChecked (listPk : ListId) (t : ListItems) (pk : ListItemId) (position : ℤ) :
    Prop where
  mem : pk ∈ itemIds listPk t
  low : 0 < position
  high : position ≤ maxOrder listPk t

/-- The order values while a move shifts the remaining rows. -/
def shiftingOrder (listPk : ListId) (t : ListItems) (pk : ListItemId) (position : ℤ)
    (rest : List ListItemId) (id : ListItemId) : ℤ :=
  if id = pk then maxOrder listPk t + 1
  else if id ∈ rest then orderOf t id
  else shiftOrder (orderOf t pk) position (orderOf t id)

/-- What a request that runs alone on the rows `t` knows in each state, of them and of the rows that
    it sees. -/
inductive EditProgress (listPk : ListId) (t : ListItems) : EditState → ListItems → Prop
  | findDuplicate {c : ItemId} {st : Option ContextStatus} :
      EditProgress listPk t (.findDuplicate c st) t
  | readMaximum {c : ItemId} {st : Option ContextStatus}
      (hnew : ∀ id row, t.get? id = some row → row.userList = listPk → row.contentItem ≠ c) :
      EditProgress listPk t (.readMaximum c st) t
  | insert {c : ItemId} {st : Option ContextStatus}
      (hnew : ∀ id row, t.get? id = some row → row.userList = listPk → row.contentItem ≠ c) :
      EditProgress listPk t (.insert c st (maxOrder listPk t + 1)) t
  | added {pk : ListItemId} {view : ListItems} (hfresh : t.get? pk = none)
      (hvalid : ValidList listPk view)
      (hids : ∀ id, id ∈ itemIds listPk view ↔ id = pk ∨ id ∈ itemIds listPk t) :
      EditProgress listPk t (.added pk) view
  | getToDelete {pk : ListItemId} : EditProgress listPk t (.getToDelete pk) t
  | delete {pk : ListItemId} (hpk : pk ∈ itemIds listPk t) : EditProgress listPk t (.delete pk) t
  | deleted {pk : ListItemId} {view : ListItems} (hpk : pk ∈ itemIds listPk t)
      (hvalid : ValidList listPk view)
      (hids : ∀ id, id ∈ itemIds listPk view ↔ id ∈ itemIds listPk t ∧ id ≠ pk) :
      EditProgress listPk t (.deleted pk) view
  | getToMove {pk : ListItemId} {position : ℤ} : EditProgress listPk t (.getToMove pk position) t
  | count {pk : ListItemId} {position : ℤ} (hpk : pk ∈ itemIds listPk t) :
      EditProgress listPk t (.count pk position (orderOf t pk)) t
  | readParking {pk : ListItemId} {position : ℤ} (hmove : MoveChecked listPk t pk position) :
      EditProgress listPk t (.readParking pk position (orderOf t pk)) t
  | park {pk : ListItemId} {position : ℤ} (hmove : MoveChecked listPk t pk position) :
      EditProgress listPk t (.park pk position (orderOf t pk) (maxOrder listPk t + 1)) t
  | startShift {pk : ListItemId} {position : ℤ} {view : ListItems}
      (hmove : MoveChecked listPk t pk position)
      (hview : Reordered listPk (parkedOrder t pk (maxOrder listPk t + 1)) t view) :
      EditProgress listPk t (.startShift pk position (orderOf t pk)) view
  | shift {rest : List ListItemId} {pk : ListItemId} {position : ℤ} {view : ListItems}
      (hmove : MoveChecked listPk t pk position) (hnodup : rest.Nodup)
      (hrest : ∀ id ∈ rest, id ∈ shiftedIds listPk (orderOf t pk) position t)
      (hview : Reordered listPk (shiftingOrder listPk t pk position rest) t view) :
      EditProgress listPk t (.shift rest pk position (orderOf t pk)) view
  | readIds {order : List ListItemId} : EditProgress listPk t (.readIds order) t
  | readSorted {user : UserId} {sort : List SortClause} :
      EditProgress listPk t (.readSorted user sort) t
  | startParking {ids order : List ListItemId} (hids_nodup : ids.Nodup)
      (hids : ∀ id, id ∈ ids ↔ id ∈ itemIds listPk t)
      (horder : ∀ id ∈ ids, id ∈ order) : EditProgress listPk t (.startParking ids order) t
  | parkRows {rest ids order : List ListItemId} {view : ListItems}
      (hids_nodup : ids.Nodup)
      (hids : ∀ id, id ∈ ids ↔ id ∈ itemIds listPk t) (horder : ∀ id ∈ ids, id ∈ order)
      (hnodup : rest.Nodup) (hrest : ∀ id ∈ rest, id ∈ ids)
      (hview : Reordered listPk (fun id => if id ∈ rest then orderOf t id else -id) t view) :
      EditProgress listPk t (.parkRows rest ids order) view
  | startPlacing {ids order : List ListItemId} {view : ListItems}
      (hids_nodup : ids.Nodup)
      (hids : ∀ id, id ∈ ids ↔ id ∈ itemIds listPk t) (horder : ∀ id ∈ ids, id ∈ order)
      (hview : Reordered listPk (fun id : ListItemId => -(id : ℤ)) t view) :
      EditProgress listPk t (.startPlacing ids order) view
  | placeRows {rest order : List ListItemId} {view : ListItems}
      (horder : ∀ id ∈ itemIds listPk t, id ∈ order) (hnodup : rest.Nodup)
      (hrest : ∀ id ∈ rest, id ∈ itemIds listPk t)
      (hview : Reordered listPk (fun id => if id ∈ rest then -id else idToPos order id) t view) :
      EditProgress listPk t (.placeRows rest order) view
  | written {view : ListItems} (hvalid : ValidList listPk view)
      (hids : ∀ id, id ∈ itemIds listPk view ↔ id ∈ itemIds listPk t) :
      EditProgress listPk t .written view

/-! ### Statements that follow -/

section

variable {next : EditState} {oldPos : ℤ}

lemma saveStatement_eq (hrow : view.get? pk = some row) :
    saveStatement view pk value next =
      .write false pk (some { row with listOrder := value }) next := by
  rw [saveStatement, hrow]
  rfl

lemma updateStatement_eq {fits : ListItem → Bool} {g : ListItem → ℤ}
    (hrow : view.get? pk = some row) (hfits : fits row = true) :
    updateStatement view pk fits g next =
      .write false pk (some { row with listOrder := g row }) next := by
  rw [updateStatement, hrow, Option.filter_some, if_pos hfits]
  rfl

/-- An order value can be written, and what is known afterwards follows. -/
lemma Reordered.follows {fits : Bool} {Q : Prop} (hvalid : ValidList listPk t)
    (h : Reordered listPk order t view) (hid : id ∈ itemIds listPk t)
    (hrow : view.get? id = some row)
    (hvalue : fits = true → ∀ id' ∈ itemIds listPk t, id' ≠ id → order id' ≠ value)
    (hnext : ∀ after,
      Reordered listPk (fun id' => if id' = id then value else order id') t after →
        EditProgress listPk t next after) :
    Statement.Follows sameEntry fits view (EditProgress listPk t) Q
      (.write false id (some { row with listOrder := value }) next) :=
  ⟨fun hfits => h.free hvalid hid hrow (hvalue hfits), fun _ _ => hnext _ (h.write hid hrow)⟩

lemma follows_insert {fits : Bool} {Q : Prop} (hvalid : ValidList listPk t)
    (hnew : ∀ id row, t.get? id = some row → row.userList = listPk →
      row.contentItem ≠ contentItem) :
    Statement.Follows sameEntry fits t (EditProgress listPk t) Q
      (.write true pk (some (newItem listPk contentItem contextStatus (maxOrder listPk t + 1)))
        (.added pk)) := by
  refine ⟨fun _ => clashes_eq_false.mpr ?_, fun hfresh _ => ?_⟩
  · rintro r id row hr hrow -
    obtain rfl := Option.some.inj hr
    by_cases hlist : row.userList = listPk
    · have hle := le_maxOrder (mem_itemIds.mpr ⟨row, hrow, hlist⟩)
      rw [orderOf_eq hrow] at hle
      have horder : ¬ maxOrder listPk t + 1 = row.listOrder := by omega
      simp [sameEntry, newItem, horder, Ne.symm (hnew id row hrow hlist)]
    · simp [sameEntry, newItem, Ne.symm hlist]
  · exact .added (hfresh rfl) (hvalid.insert hnew) fun id => mem_itemIds_set rfl

lemma follows_delete {fits : Bool} {Q : Prop} (hvalid : ValidList listPk t)
    (hpk : pk ∈ itemIds listPk t) :
    (if (t.get? pk).isSome then (.write false pk none (.deleted pk) : EditStatement)
      else .query (.deleted pk)).Follows sameEntry fits t (EditProgress listPk t) Q := by
  obtain ⟨row, hrow, -⟩ := mem_itemIds.mp hpk
  rw [hrow, Option.isSome_some, if_pos rfl]
  exact ⟨fun _ => rfl, fun _ _ => .deleted hpk (hvalid.delete pk) fun id => mem_itemIds_delete⟩

lemma follows_park {fits : Bool} {Q : Prop} (hvalid : ValidList listPk t)
    (h : MoveChecked listPk t pk position) :
    (saveStatement t pk (maxOrder listPk t + 1)
      (.startShift pk position (orderOf t pk))).Follows sameEntry fits t (EditProgress listPk t)
        Q := by
  obtain ⟨row, hrow, -⟩ := mem_itemIds.mp h.mem
  rw [saveStatement_eq hrow]
  refine reordered_refl.follows hvalid h.mem hrow (fun _ id hid _ => ?_) fun after hafter =>
    .startShift h hafter
  exact (Int.lt_add_one_of_le (le_maxOrder hid)).ne

lemma not_shifted_self : ¬ Shifted oldPos position oldPos := by
  unfold Shifted
  omega

lemma MoveChecked.not_shifted (h : MoveChecked listPk t pk position) :
    ¬ Shifted (orderOf t pk) position (maxOrder listPk t + 1) := by
  have hle := le_maxOrder h.mem
  have hhigh := h.high
  unfold Shifted
  omega

/-- The rows that are selected for a shift are those of the list before the move. -/
lemma MoveChecked.mem_shiftedIds_iff (h : MoveChecked listPk t pk position)
    (hview : Reordered listPk (parkedOrder t pk (maxOrder listPk t + 1)) t view) :
    id ∈ shiftedIds listPk (orderOf t pk) position view ↔
      id ∈ shiftedIds listPk (orderOf t pk) position t := by
  rw [mem_shiftedIds, mem_shiftedIds, hview.mem_itemIds_iff]
  refine and_congr_right fun hid => ?_
  rw [hview.orderOf_eq hid, parkedOrder]
  split_ifs with heq
  · rw [heq]
    exact iff_of_false h.not_shifted not_shifted_self
  · rfl

lemma follows_startShift {scan : Scan ListItemId} (h : MoveChecked listPk t pk position)
    (hview : Reordered listPk (parkedOrder t pk (maxOrder listPk t + 1)) t view) :
    EditProgress listPk t (.shift
      (scan.order (sortIds (shiftedIds listPk (orderOf t pk) position view))) pk position
      (orderOf t pk)) view := by
  have hperm := (scan.perm _).trans (sortIds_perm (shiftedIds listPk (orderOf t pk) position view))
  have hmem : ∀ id, id ∈ scan.order (sortIds (shiftedIds listPk (orderOf t pk) position view)) ↔
      id ∈ shiftedIds listPk (orderOf t pk) position t :=
    fun id => hperm.mem_iff.trans (h.mem_shiftedIds_iff hview)
  refine .shift h (hperm.nodup_iff.mpr nodup_shiftedIds) (fun id => (hmem id).mp) ?_
  refine hview.congr fun id hid => ?_
  rw [parkedOrder, shiftingOrder]
  split_ifs with heq hshifted
  · rfl
  · rfl
  · rw [hmem, mem_shiftedIds] at hshifted
    rw [shiftOrder_eq, if_neg fun h => hshifted ⟨hid, h⟩]

lemma follows_shift {Q : Prop} (hvalid : ValidList listPk t) (h : MoveChecked listPk t pk position)
    (hnodup : (id :: rest).Nodup)
    (hrest : ∀ id' ∈ id :: rest, id' ∈ shiftedIds listPk (orderOf t pk) position t)
    (hview : Reordered listPk (shiftingOrder listPk t pk position (id :: rest)) t view) :
    (updateStatement view id
      (fun row => row.userList = listPk ∧ Shifted (orderOf t pk) position row.listOrder)
      (fun row => row.listOrder + shiftStep (orderOf t pk) position)
      (.shift rest pk position (orderOf t pk))).Follows sameEntry
        ((EditState.shift (id :: rest) pk position (orderOf t pk)).fits listPk view) view
        (EditProgress listPk t) Q := by
  obtain ⟨hid, hshifted⟩ := mem_shiftedIds.mp (hrest id (List.mem_cons_self ..))
  have hpk : id ≠ pk := by
    rintro rfl
    exact not_shifted_self hshifted
  have horder : shiftingOrder listPk t pk position (id :: rest) id = orderOf t id := by
    simp [shiftingOrder, hpk]
  obtain ⟨row, hrow, hlist, hrowOrder⟩ := hview.of_mem hid
  rw [horder] at hrowOrder
  rw [updateStatement_eq hrow (by simp [hlist, hrowOrder, hshifted])]
  refine hview.follows hvalid hid hrow (fun hfits id' hid' hne => ?_) fun after hafter => ?_
  · rw [EditState.fits, List.all_eq_true] at hfits
    have hfree := hfits id' (hview.mem_itemIds_iff.mpr hid')
    rw [hview.orderOf_eq hid', hview.orderOf_eq hid, horder] at hfree
    rw [hrowOrder]
    simpa [hne] using hfree
  · obtain ⟨hnot, hnodup⟩ := List.nodup_cons.mp hnodup
    refine .shift h hnodup (fun id' hid' => hrest id' (List.mem_cons_of_mem _ hid')) ?_
    refine hafter.congr fun id' hid' => ?_
    by_cases heq : id' = id
    · subst heq
      simp [shiftingOrder, hpk, hnot, hrowOrder, shiftOrder_eq, hshifted]
    · simp [shiftingOrder, heq]

lemma follows_place {fits : Bool} {Q : Prop} (hvalid : ValidList listPk t)
    (h : MoveChecked listPk t pk position)
    (hview : Reordered listPk (shiftingOrder listPk t pk position []) t view) :
    (saveStatement view pk position .written).Follows sameEntry fits view
      (EditProgress listPk t) Q := by
  obtain ⟨row, hrow, -, -⟩ := hview.of_mem h.mem
  rw [saveStatement_eq hrow]
  refine hview.follows hvalid h.mem hrow (fun _ id hid hne => ?_) fun after hafter => ?_
  · rw [shiftingOrder, if_neg hne, if_neg List.not_mem_nil]
    exact movedOrder_ne hvalid.ordered h.mem hid hne
  · have hmoved : Reordered listPk (movedOrder t pk position) t after := by
      refine hafter.congr fun id hid => ?_
      by_cases heq : id = pk <;> simp [shiftingOrder, movedOrder, heq]
    refine .written (hvalid.reordered hmoved ?_ fun id hid => ?_) fun id => hmoved.mem_itemIds_iff
    · exact distinct_movedOrder position hvalid.ordered h.mem
    · exact movedOrder_pos hvalid.ordered h.mem h.low hid

lemma mem_selectIds (h : Reordered listPk order t view)
    (hids : ∀ id, id ∈ ids ↔ id ∈ itemIds listPk t) : id ∈ selectIds view ids ↔ id ∈ ids := by
  rw [selectIds, List.mem_filter, and_iff_left_iff_imp]
  intro hid
  obtain ⟨row, hrow, -⟩ := h.of_mem ((hids id).mp hid)
  rw [hrow, Option.isSome_some]

lemma follows_startParking {scan : Scan ListItemId} (hnodup : ids.Nodup)
    (hids : ∀ id, id ∈ ids ↔ id ∈ itemIds listPk t) (hrequested : ∀ id ∈ ids, id ∈ requested) :
    EditProgress listPk t (.parkRows (scan.order (selectIds t ids)) ids requested) t := by
  have hmem : ∀ id, id ∈ scan.order (selectIds t ids) ↔ id ∈ ids := fun id =>
    (scan.perm _).mem_iff.trans (mem_selectIds reordered_refl hids)
  refine .parkRows hnodup hids hrequested ((scan.perm _).nodup_iff.mpr (hnodup.filter _))
    (fun id => (hmem id).mp) (reordered_refl.congr fun id hid => ?_)
  rw [if_pos ((hmem id).mpr ((hids id).mpr hid))]

lemma follows_parkRows {fits : Bool} {Q : Prop} (hvalid : ValidList listPk t) (hids_nodup : ids.Nodup)
    (hids : ∀ id, id ∈ ids ↔ id ∈ itemIds listPk t) (hrequested : ∀ id ∈ ids, id ∈ requested)
    (hnodup : (id :: rest).Nodup) (hrest : ∀ id' ∈ id :: rest, id' ∈ ids)
    (hview : Reordered listPk (fun id' => if id' ∈ id :: rest then orderOf t id' else -id') t view) :
    (updateStatement view id (fun _ => true) (fun _ => -id)
      (.parkRows rest ids requested)).Follows sameEntry fits view (EditProgress listPk t) Q := by
  have hid : id ∈ itemIds listPk t := (hids id).mp (hrest id (List.mem_cons_self ..))
  obtain ⟨row, hrow, -, -⟩ := hview.of_mem hid
  rw [updateStatement_eq hrow rfl]
  refine hview.follows hvalid hid hrow (fun _ id' hid' hne => ?_) fun after hafter => ?_
  · have hpositive := hvalid.ordered.positive id' hid'
    split_ifs
    · omega
    · simpa using hne
  · obtain ⟨hnot, hnodup⟩ := List.nodup_cons.mp hnodup
    refine .parkRows hids_nodup hids hrequested hnodup
      (fun id' hid' => hrest id' (List.mem_cons_of_mem _ hid')) (hafter.congr fun id' hid' => ?_)
    by_cases heq : id' = id
    · subst heq
      simp [hnot]
    · simp [heq]

lemma follows_startPlacing {scan : Scan ListItemId} (hnodup : ids.Nodup)
    (hids : ∀ id, id ∈ ids ↔ id ∈ itemIds listPk t) (hrequested : ∀ id ∈ ids, id ∈ requested)
    (hview : Reordered listPk (fun id : ListItemId => -(id : ℤ)) t view) :
    EditProgress listPk t (.placeRows (scan.order (selectIds view ids)) requested) view := by
  have hmem : ∀ id, id ∈ scan.order (selectIds view ids) ↔ id ∈ ids := fun id =>
    (scan.perm _).mem_iff.trans (mem_selectIds hview hids)
  refine .placeRows (fun id hid => hrequested id ((hids id).mpr hid))
    ((scan.perm _).nodup_iff.mpr (hnodup.filter _))
    (fun id hid => (hids id).mp ((hmem id).mp hid)) (hview.congr fun id hid => ?_)
  rw [if_pos ((hmem id).mpr ((hids id).mpr hid))]

lemma follows_placeRows {fits : Bool} {Q : Prop} (hvalid : ValidList listPk t)
    (hrequested : ∀ id ∈ itemIds listPk t, id ∈ requested) (hnodup : (id :: rest).Nodup)
    (hrest : ∀ id' ∈ id :: rest, id' ∈ itemIds listPk t)
    (hview : Reordered listPk
      (fun id' => if id' ∈ id :: rest then -id' else idToPos requested id') t view) :
    (updateStatement view id (fun _ => true) (fun _ => idToPos requested id)
      (.placeRows rest requested)).Follows sameEntry fits view (EditProgress listPk t) Q := by
  have hid : id ∈ itemIds listPk t := hrest id (List.mem_cons_self ..)
  obtain ⟨row, hrow, -, -⟩ := hview.of_mem hid
  rw [updateStatement_eq hrow rfl]
  refine hview.follows hvalid hid hrow (fun _ id' hid' hne => ?_) fun after hafter => ?_
  · have hpositive := idToPos_pos (hrequested id hid)
    split_ifs with hmem
    · omega
    · exact fun heq => hne (idToPos_inj (hrequested id' hid') heq)
  · obtain ⟨hnot, hnodup⟩ := List.nodup_cons.mp hnodup
    refine .placeRows hrequested hnodup (fun id' hid' => hrest id' (List.mem_cons_of_mem _ hid'))
      (hafter.congr fun id' hid' => ?_)
    by_cases heq : id' = id
    · subst heq
      simp [hnot]
    · simp [heq]

lemma follows_written (hvalid : ValidList listPk t)
    (hrequested : ∀ id ∈ itemIds listPk t, id ∈ requested)
    (hview : Reordered listPk (idToPos requested) t view) :
    EditProgress listPk t .written view := by
  refine .written (hvalid.reordered hview ?_ fun id hid => idToPos_pos (hrequested id hid))
    fun id => hview.mem_itemIds_iff
  exact .of_inj nodup_itemIds fun a ha b _ heq => idToPos_inj (hrequested a ha) heq

end

/-! ### The outline -/

section

variable {κ : Type*} [LinearOrder κ] {collate : String ↪ κ} {db : ExploreDatabase}

/-- Each statement of a request that runs alone succeeds, if the rows that a move shifts find their
    new order values free. -/
lemma EditProgress.follows {state : EditState} (hvalid : ValidList listPk t)
    (h : EditProgress listPk t state view) (choice : DatabaseChoice) :
    (state.next collate db listPk choice view).Follows sameEntry (state.fits listPk view) view
      (EditProgress listPk t) (ValidList listPk view) := by
  cases h with
  | @findDuplicate c st =>
    rw [EditState.next]
    split_ifs with hany
    · trivial
    · refine .readMaximum fun id row hrow hlist hcontent => hany ?_
      exact (Table.any_eq_true_iff ..).mpr ⟨id, row, hrow, by simp [hlist, hcontent]⟩
  | readMaximum hnew => exact .insert hnew
  | insert hnew => exact follows_insert hvalid hnew
  | added hfresh hvalid' hids => exact hvalid'
  | @getToDelete pk =>
    rw [EditState.next]
    split_ifs with hpk
    · exact .delete hpk
    · trivial
  | delete hpk => exact follows_delete hvalid hpk
  | deleted hpk hvalid' hids => exact hvalid'
  | @getToMove pk position =>
    rw [EditState.next]
    split_ifs with hpk
    · exact .count hpk
    · trivial
  | @count pk position hpk =>
    rw [EditState.next]
    split_ifs with hbounds hsame
    · trivial
    · exact hvalid
    · obtain ⟨hlow, hhigh⟩ := not_or.mp hbounds
      have hlength := length_le_of_le hvalid.ordered.distinct hvalid.ordered.positive
        fun id hid => le_maxOrder hid
      have hnonneg := hvalid.ordered.maxOrder_nonneg
      exact .readParking ⟨hpk, by omega, by omega⟩
  | @readParking pk position hmove =>
    have hparking : saveOrder listPk t (-pk) = maxOrder listPk t + 1 := by
      rw [saveOrder, if_pos (by omega)]
    rw [EditState.next, hparking]
    exact .park hmove
  | @park pk position hmove => exact follows_park hvalid hmove
  | startShift hmove hview => exact follows_startShift hmove hview
  | @shift rest pk position _ hmove hnodup hrest hview =>
    cases rest with
    | nil => exact follows_place hvalid hmove hview
    | cons id rest => exact follows_shift hvalid hmove hnodup hrest hview
  | @readIds order =>
    rw [EditState.next]
    split_ifs with hsame
    · have hperm := sortIds_perm (itemIds listPk t)
      exact .startParking (hperm.nodup_iff.mpr nodup_itemIds) (fun id => hperm.mem_iff)
        fun id hid => hsame.2.1 id (hperm.mem_iff.mp hid)
    · trivial
  | @readSorted user sort =>
    have hperm := map_id_sortedItems_perm collate sort { db with items := t } user listPk
    rw [EditState.next]
    split_ifs with hempty
    · exact hvalid
    · exact .startParking (hperm.nodup_iff.mpr nodup_itemIds) (fun id => hperm.mem_iff)
        fun id hid => hid
  | startParking hids_nodup hids horder => exact follows_startParking hids_nodup hids horder
  | @parkRows rest ids order _ hids_nodup hids horder hnodup hrest hview =>
    cases rest with
    | nil => exact .startPlacing hids_nodup hids horder (hview.congr fun id hid => by simp)
    | cons id rest => exact follows_parkRows hvalid hids_nodup hids horder hnodup hrest hview
  | startPlacing hids_nodup hids horder hview =>
    exact follows_startPlacing hids_nodup hids horder hview
  | @placeRows rest order _ horder hnodup hrest hview =>
    cases rest with
    | nil => exact follows_written hvalid horder (hview.congr fun id hid => by simp)
    | cons id rest => exact follows_placeRows hvalid horder hnodup hrest hview
  | written hvalid' hids => exact hvalid'

/-- The items of the list change with the row that is inserted or deleted. -/
lemma EditProgress.mem_itemIds_iff {state : EditState} (h : EditProgress listPk t state view) :
    id ∈ itemIds listPk view ↔
      (id ∈ itemIds listPk t ∨ state = .added id) ∧ state ≠ .deleted id := by
  cases h with
  | added hfresh hvalid hids => simp [hids, or_comm, eq_comm]
  | deleted hpk hvalid hids => simp [hids, eq_comm]
  | startShift hmove hview => simp [hview.mem_itemIds_iff]
  | shift hmove hnodup hrest hview => simp [hview.mem_itemIds_iff]
  | parkRows hids_nodup hids horder hnodup hrest hview => simp [hview.mem_itemIds_iff]
  | startPlacing hids_nodup hids horder hview => simp [hview.mem_itemIds_iff]
  | placeRows horder hnodup hrest hview => simp [hview.mem_itemIds_iff]
  | written hvalid hids => simp [hids]
  | _ => simp

lemma EditProgress.mem_of_deleted {state : EditState} (h : EditProgress listPk t state view)
    (hstate : state = .deleted pk) : pk ∈ itemIds listPk t := by
  cases h with
  | deleted hpk hvalid hids =>
    cases hstate
    exact hpk
  | _ => cases hstate

section

variable {choice : DatabaseChoice} {state next next' : EditState} {fresh : Bool} {k : ListItemId}
  {row' : Option ListItem}

end

end

end

end Denn.Lists
