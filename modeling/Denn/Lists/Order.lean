import Denn.Core.Integer
import Denn.Core.Json
import Denn.Core.Ranks
import Denn.Core.RowUpdate
import Denn.Lists.Items
import Denn.Progress.Mirror

/-!
# Moving an item in a list

The endpoint that moves one item to a position. The position is checked as a rank and written as an
order value, and the rows in between are shifted by one statement, row after row.
-/

namespace Denn.Lists

open Core

abbrev ListItems := Table ListItemId ListItem

/-! ### Order values -/

/-- `unique_list_order_per_list`, the constraint over the column that a reordering writes. -/
def sameOrder (row row' : ListItem) : Bool :=
  row.userList = row'.userList && row.listOrder = row'.listOrder

/-- The items of a list. -/
def itemIds (listPk : ListId) (items : ListItems) : List ListItemId :=
  items.keysWhere fun _ row => row.userList = listPk

def orderOf (items : ListItems) (id : ListItemId) : ℤ :=
  ((items.get? id).map (·.listOrder)).getD 0

/-- The items of a list in list order. -/
def canonicalIds (listPk : ListId) (items : ListItems) : List ListItemId :=
  sortBy (orderOf items) (itemIds listPk items)

/-- `Max('list_order')`, or zero. -/
def maxOrder (listPk : ListId) (items : ListItems) : ℤ :=
  ((itemIds listPk items).map (orderOf items)).max?.getD 0

/-- The order value that `ListItem.save` writes. -/
def saveOrder (listPk : ListId) (items : ListItems) (order : ℤ) : ℤ :=
  if order ≤ 0 then maxOrder listPk items + 1 else order

/-- `instance.save(update_fields=['list_order'])`. -/
def saveItem (items : ListItems) (listPk : ListId) (pk : ListItemId) (order : ℤ) :
    Except IntegrityError ListItems :=
  items.updateRow sameOrder
    (fun _ row => { row with listOrder := saveOrder listPk items order }) pk

/-! ### The endpoint -/

/-- `int(value)`; `none` is its exception. -/
def intOf : Json → Option ℤ
  | .bool b => some (if b then 1 else 0)
  | .int n => some n
  | .float q => some (q.num.tdiv q.den)
  | .str s => readInt s
  | _ => none

/-- The rows between the positions, each shifted by one. -/
def shiftItems (scan : Scan ListItemId) (listPk : ListId) (oldPos position : ℤ)
    (items : ListItems) : Except IntegrityError ListItems :=
  if position < oldPos then
    items.updateEach sameOrder (fun _ row => { row with listOrder := row.listOrder + 1 })
      (scan.order (items.keysWhere fun _ row =>
        row.userList = listPk ∧ position ≤ row.listOrder ∧ row.listOrder < oldPos))
  else
    items.updateEach sameOrder (fun _ row => { row with listOrder := row.listOrder - 1 })
      (scan.order (items.keysWhere fun _ row =>
        row.userList = listPk ∧ oldPos < row.listOrder ∧ row.listOrder ≤ position))

/-- The writes of a move: the item goes to a temporary position, the rows in between are shifted,
    and the item goes to its final position. -/
def moveItem (scan : Scan ListItemId) (listPk : ListId) (pk : ListItemId) (oldPos position : ℤ)
    (items : ListItems) : Except IntegrityError ListItems := do
  let parked ← saveItem items listPk pk (-pk)
  let shifted ← shiftItems scan listPk oldPos position parked
  saveItem shifted listPk pk position

/-- The checks of a move, with the row and the position that it is to be moved to. -/
def validateMove (s : ListState) (items : ListItems) (user : Requester) (listPk : ListId)
    (pk : ListItemId) (data : Json) : Except ListError (ListItem × ℤ) :=
  (s.authorize user listPk .reorder).bind fun _ =>
  match intOf (data.get "position"), (items.get? pk).filter fun row => row.userList = listPk with
  | none, _ => .error (.detail 400 "\"position\" must be an integer.")
  | some _, none => .error .notFound
  | some position, some row =>
    let count := (itemIds listPk items).length
    if position < 1 ∨ count < position then
      .error (.detail 400 ("position must be between 1 and " ++ toString count ++ "."))
    else .ok (row, position)

/-- `ListItemViewSet.move`. -/
def move (s : ListState) (items : ListItems) (scan : Scan ListItemId) (user : Requester)
    (listPk : ListId) (pk : ListItemId) (data : Json) : Except ListError ListItems :=
  (validateMove s items user listPk pk data).bind fun (row, position) =>
    if row.listOrder = position then .ok items
    else (moveItem scan listPk pk row.listOrder position items).mapError fun _ => .integrityError

/-! ### The rows of a list -/

section

variable {items items' items'' : ListItems} {listPk : ListId} {pk id : ListItemId} {row : ListItem}
  {order order' : ListItemId → ℤ} {keys : List ListItemId}

lemma mem_itemIds :
    id ∈ itemIds listPk items ↔ ∃ row, items.get? id = some row ∧ row.userList = listPk := by
  simp [itemIds, Table.mem_keysWhere]

lemma nodup_itemIds : (itemIds listPk items).Nodup :=
  items.nodup_keys.sublist (List.filter_sublist.map _)

lemma orderOf_eq (h : items.get? id = some row) : orderOf items id = row.listOrder := by
  rw [orderOf, h]
  rfl

lemma le_maxOrder (h : id ∈ itemIds listPk items) : orderOf items id ≤ maxOrder listPk items := by
  have hmem : orderOf items id ∈ (itemIds listPk items).map (orderOf items) :=
    List.mem_map_of_mem h
  cases hmax : ((itemIds listPk items).map (orderOf items)).max? with
  | none =>
    rw [List.max?_eq_none_iff.mp hmax] at hmem
    cases hmem
  | some largest =>
    rw [maxOrder, hmax, Option.getD_some]
    exact (List.max?_eq_some_iff.mp hmax).2 _ hmem

/-- The order values of the list are distinct and positive. -/
structure WellOrdered (listPk : ListId) (items : ListItems) : Prop where
  distinct : DistinctKeys (orderOf items) (itemIds listPk items)
  positive : ∀ id ∈ itemIds listPk items, 0 < orderOf items id

/-- The rows of one list have new order values, and nothing else is changed. -/
def Reordered (listPk : ListId) (order : ListItemId → ℤ) (items items' : ListItems) : Prop :=
  ∀ id, items'.get? id = (items.get? id).map fun row =>
    if row.userList = listPk then { row with listOrder := order id } else row

namespace Reordered

lemma mem_itemIds_iff (h : Reordered listPk order items items') :
    id ∈ itemIds listPk items' ↔ id ∈ itemIds listPk items := by
  rw [mem_itemIds, mem_itemIds, h id]
  cases items.get? id with
  | none => simp
  | some row => by_cases hlist : row.userList = listPk <;> simp [hlist]

lemma itemIds_perm (h : Reordered listPk order items items') :
    (itemIds listPk items').Perm (itemIds listPk items) :=
  (List.perm_ext_iff_of_nodup nodup_itemIds nodup_itemIds).mpr fun _ => h.mem_itemIds_iff

lemma orderOf_eq (h : Reordered listPk order items items') (hid : id ∈ itemIds listPk items) :
    orderOf items' id = order id := by
  obtain ⟨row, hrow, hlist⟩ := mem_itemIds.mp hid
  rw [orderOf, h id, hrow]
  simp [hlist]

lemma congr (h : Reordered listPk order items items')
    (heq : ∀ id ∈ itemIds listPk items, order id = order' id) :
    Reordered listPk order' items items' := by
  intro id
  rw [h id]
  cases hrow : items.get? id with
  | none => rfl
  | some row =>
    by_cases hlist : row.userList = listPk
    · simp [hlist, heq id (mem_itemIds.mpr ⟨row, hrow, hlist⟩)]
    · simp [hlist]

lemma trans (h : Reordered listPk order items items') (h' : Reordered listPk order' items' items'') :
    Reordered listPk order' items items'' := by
  intro id
  rw [h' id, h id, Option.map_map]
  congr 1
  funext row
  by_cases hlist : row.userList = listPk <;> simp [hlist]

/-- The list afterwards, from the new order values alone. -/
theorem canonicalIds_eq (h : Reordered listPk order items items')
    (hdistinct : DistinctKeys order (itemIds listPk items)) :
    canonicalIds listPk items' = sortBy order (itemIds listPk items) := by
  refine sortBy_congr hdistinct h.itemIds_perm fun a ha b hb hlt => ?_
  rwa [h.orderOf_eq ha, h.orderOf_eq hb]

theorem wellOrdered (h : Reordered listPk order items items')
    (hdistinct : DistinctKeys order (itemIds listPk items))
    (hpositive : ∀ id ∈ itemIds listPk items, 0 < order id) : WellOrdered listPk items' where
  distinct := by
    refine .of_inj nodup_itemIds fun a ha b hb heq => ?_
    rw [h.mem_itemIds_iff] at ha hb
    rw [h.orderOf_eq ha, h.orderOf_eq hb] at heq
    exact hdistinct.inj ha hb heq
  positive id hid := by
    rw [h.mem_itemIds_iff] at hid
    rw [h.orderOf_eq hid]
    exact hpositive id hid

end Reordered

/-! ### Writing order values -/

/-- Set the order value of a row. -/
def reorderRow (g : ListItemId → ℤ → ℤ) (id : ListItemId) (row : ListItem) : ListItem :=
  { row with listOrder := g id row.listOrder }

variable {g : ListItemId → ℤ → ℤ}

/-- An update of rows of one list succeeds if none takes a value that another still has. -/
theorem yields_updateOrders (listPk : ListId) (g : ListItemId → ℤ → ℤ) (hnodup : keys.Nodup)
    (hsub : ∀ k ∈ keys, k ∈ itemIds listPk items) :
    Yields (items.updateEach sameOrder (reorderRow g) keys)
      (∀ done k rest, keys = done ++ k :: rest → ∀ k' ∈ itemIds listPk items, k' ≠ k →
        g k (orderOf items k) ≠
          if k' ∈ done then g k' (orderOf items k') else orderOf items k')
      (items.updateWhere (fun k _ => k ∈ keys) (reorderRow g)) := by
  refine (Table.yields_updateEach sameOrder (reorderRow g) items hnodup).congr ?_
  have hturn : ∀ done k rest, keys = done ++ k :: rest →
      (Table.CanWrite sameOrder (reorderRow g) items done k ↔
        ∀ k' ∈ itemIds listPk items, k' ≠ k → g k (orderOf items k) ≠
          if k' ∈ done then g k' (orderOf items k') else orderOf items k') := by
    rintro done k rest rfl
    obtain ⟨row, hrow, hlist⟩ := mem_itemIds.mp (hsub k (by simp))
    constructor
    · intro h k' hk' hne heq
      obtain ⟨row', hrow', hlist'⟩ := mem_itemIds.mp hk'
      have hclash := h row k' row' hrow hrow' hne
      rw [Lists.orderOf_eq hrow, Lists.orderOf_eq hrow'] at heq
      split_ifs at hclash heq <;> simp [sameOrder, reorderRow, hlist, hlist', heq] at hclash
    · intro h r k' row' hr hrow' hne
      obtain rfl : r = row := Option.some.inj (hr.symm.trans hrow)
      by_cases hlist' : row'.userList = listPk
      · have hne' := h k' (mem_itemIds.mpr ⟨row', hrow', hlist'⟩) hne
        rw [Lists.orderOf_eq hrow, Lists.orderOf_eq hrow'] at hne'
        split_ifs at hne' ⊢ <;> simpa [sameOrder, reorderRow, hlist, hlist'] using hne'
      · have hlist'' : ¬ listPk = row'.userList := fun heq => hlist' heq.symm
        split_ifs <;> simp [sameOrder, reorderRow, hlist, hlist'']
  constructor
  · intro h done k rest heq
    exact (hturn done k rest heq).mp (h done k rest heq)
  · intro h done k rest heq
    exact (hturn done k rest heq).mpr (h done k rest heq)

lemma reordered_updateWhere (items : ListItems) (g : ListItemId → ℤ → ℤ)
    (hsub : ∀ k ∈ keys, k ∈ itemIds listPk items) :
    Reordered listPk (fun id => if id ∈ keys then g id (orderOf items id) else orderOf items id)
      items (items.updateWhere (fun k _ => k ∈ keys) (reorderRow g)) := by
  intro id
  rw [Table.get?_updateWhere]
  cases hrow : items.get? id with
  | none => rfl
  | some row =>
    have horder := Lists.orderOf_eq hrow
    by_cases hmem : id ∈ keys
    · obtain ⟨row', hrow', hlist⟩ := mem_itemIds.mp (hsub id hmem)
      obtain rfl : row' = row := Option.some.inj (hrow'.symm.trans hrow)
      simp [hmem, hlist, reorderRow, horder]
    · by_cases hlist : row.userList = listPk
      · obtain ⟨_, _, _, _⟩ := row
        simp_all
      · simp [hmem, hlist]

lemma yields_saveItem (value : ℤ) (hpk : pk ∈ itemIds listPk items) :
    Yields (saveItem items listPk pk value)
      (∀ id ∈ itemIds listPk items, id ≠ pk →
        orderOf items id ≠ saveOrder listPk items value)
      (items.updateWhere (fun k _ => k ∈ [pk])
        (reorderRow fun _ _ => saveOrder listPk items value)) := by
  have hsingle := yields_updateOrders listPk (fun _ _ => saveOrder listPk items value)
    (List.nodup_singleton pk) fun k hk => List.mem_singleton.mp hk ▸ hpk
  rw [Table.updateEach_singleton] at hsingle
  refine hsingle.congr ?_
  constructor
  · intro h id hid hne
    have hfree := h [] pk [] rfl id hid hne
    simpa using hfree.symm
  · intro h done k rest heq id hid hne
    obtain ⟨rfl, rfl, rfl⟩ : done = [] ∧ k = pk ∧ rest = [] := by
      cases done <;> simp_all
    simpa using (h id hid hne).symm

end

/-! ### The writes of a move -/

/-- The order values that a move shifts. -/
def Shifted (oldPos position order : ℤ) : Prop :=
  position ≤ order ∧ order < oldPos ∨ oldPos < order ∧ order ≤ position

instance (oldPos position order : ℤ) : Decidable (Shifted oldPos position order) :=
  inferInstanceAs (Decidable (_ ∨ _))

def shiftStep (oldPos position : ℤ) : ℤ := if position < oldPos then 1 else -1

def shiftedIds (listPk : ListId) (oldPos position : ℤ) (items : ListItems) : List ListItemId :=
  items.keysWhere fun _ row => row.userList = listPk ∧ Shifted oldPos position row.listOrder

/-- The rows that a move shifts are processed so that each finds its next value free. -/
def InOrder (scan : Scan ListItemId) (listPk : ListId) (oldPos position : ℤ) (items : ListItems) :
    Prop :=
  ∀ id id', [id, id'].Sublist (scan.order (shiftedIds listPk oldPos position items)) →
    orderOf items id' ≠ orderOf items id + shiftStep oldPos position

/-- The order values after a move. -/
def movedOrder (items : ListItems) (pk : ListItemId) (position : ℤ) (id : ListItemId) : ℤ :=
  if id = pk then position else shiftOrder (orderOf items pk) position (orderOf items id)

section Move

variable {items : ListItems} {listPk : ListId} {pk id : ListItemId} {position oldPos : ℤ}

lemma mem_shiftedIds : id ∈ shiftedIds listPk oldPos position items ↔
    id ∈ itemIds listPk items ∧ Shifted oldPos position (orderOf items id) := by
  rw [shiftedIds, Table.mem_keysWhere, mem_itemIds]
  constructor
  · rintro ⟨row, hrow, h⟩
    rw [decide_eq_true_eq] at h
    exact ⟨⟨row, hrow, h.1⟩, orderOf_eq hrow ▸ h.2⟩
  · rintro ⟨⟨row, hrow, hlist⟩, hshifted⟩
    rw [orderOf_eq hrow] at hshifted
    exact ⟨row, hrow, by simp [hlist, hshifted]⟩

lemma nodup_shiftedIds : (shiftedIds listPk oldPos position items).Nodup :=
  items.nodup_keys.sublist (List.filter_sublist.map _)

lemma shiftItems_eq (scan : Scan ListItemId) :
    shiftItems scan listPk oldPos position items =
      items.updateEach sameOrder (reorderRow fun _ order => order + shiftStep oldPos position)
        (scan.order (shiftedIds listPk oldPos position items)) := by
  unfold shiftItems shiftStep shiftedIds
  split_ifs with hlt
  · have hshifted : ∀ order, Shifted oldPos position order ↔ position ≤ order ∧ order < oldPos := by
      intro order
      unfold Shifted
      omega
    simp only [hshifted]
    rfl
  · have hshifted : ∀ order, Shifted oldPos position order ↔ oldPos < order ∧ order ≤ position := by
      intro order
      unfold Shifted
      omega
    simp only [hshifted]
    rfl

lemma shiftOrder_eq (order : ℤ) : shiftOrder oldPos position order =
    if Shifted oldPos position order then order + shiftStep oldPos position else order := by
  unfold shiftOrder Shifted shiftStep
  split_ifs <;> omega

/-- A row finds its next value free exactly if the row that has it was processed before. -/
lemma shift_free_iff {order : ListItemId → ℤ} {ids keys : List ListItemId} (hnodup : keys.Nodup)
    (hdistinct : DistinctKeys order ids) (hsub : ∀ id ∈ keys, id ∈ ids)
    (hnext : ∀ id ∈ keys, ∀ id' ∈ ids,
      order id' = order id + shiftStep oldPos position → id' ∈ keys) :
    (∀ done id rest, keys = done ++ id :: rest → ∀ id' ∈ ids, id' ≠ id →
        order id + shiftStep oldPos position ≠
          if id' ∈ done then order id' + shiftStep oldPos position else order id') ↔
      ∀ id id', [id, id'].Sublist keys → order id' ≠ order id + shiftStep oldPos position := by
  constructor
  · intro h id id' hpair heq
    obtain ⟨front, rest, rfl, hfront, hrest⟩ := List.cons_sublist_iff.mp hpair
    obtain ⟨done, between, rfl⟩ := List.append_of_mem hfront
    have hid' : id' ∈ rest := List.singleton_sublist.mp hrest
    rw [List.append_assoc, List.cons_append] at hnodup
    obtain ⟨-, htail, hdisjoint⟩ := List.nodup_append'.mp hnodup
    have hne : id' ≠ id := by
      rintro rfl
      exact (List.nodup_cons.mp htail).1 (by simp [hid'])
    have hnot : id' ∉ done := fun hmem => hdisjoint hmem (by simp [hid'])
    have hfree := h done id (between ++ rest) (by simp) id' (hsub id' (by simp [hid'])) hne
    rw [if_neg hnot] at hfree
    exact hfree heq.symm
  · rintro h done id rest rfl id' hid' hne heq
    have hid : id ∈ ids := hsub id (by simp)
    split_ifs at heq with hdone
    · have horder : order id' = order id := by omega
      exact hne (hdistinct.inj hid' hid horder)
    · have hmem := hnext id (by simp) id' hid' heq.symm
      have hrest : id' ∈ rest := by simpa [hdone, hne] using hmem
      refine h id id' ?_ heq.symm
      exact ((List.singleton_sublist.mpr hrest).cons_cons id).trans
        (List.sublist_append_right done (id :: rest))

/-- The order values while an item is parked at a value. -/
def parkedOrder (items : ListItems) (pk : ListItemId) (parking : ℤ) (id : ListItemId) : ℤ :=
  if id = pk then parking else orderOf items id

/-- The temporary position is behind the last item. -/
lemma yields_park (oldPos position : ℤ) (hpk : pk ∈ itemIds listPk items)
    (hparking : ¬ Shifted oldPos position (maxOrder listPk items + 1))
    (hold : ¬ Shifted oldPos position (orderOf items pk)) :
    ∃ parked, Yields (saveItem items listPk pk (-pk)) True parked ∧
      Reordered listPk (parkedOrder items pk (maxOrder listPk items + 1)) items parked ∧
      shiftedIds listPk oldPos position parked = shiftedIds listPk oldPos position items := by
  have hsave : saveOrder listPk items (-pk) = maxOrder listPk items + 1 := by
    rw [saveOrder, if_pos (by omega)]
  have hsub : ∀ k ∈ [pk], k ∈ itemIds listPk items := by simpa using hpk
  refine ⟨_, (yields_saveItem _ hpk).congr (iff_true_intro fun id hid _ => ?_), ?_, ?_⟩
  · have hle := le_maxOrder hid
    omega
  · refine (reordered_updateWhere items _ hsub).congr fun id _ => ?_
    simp [parkedOrder, hsave]
  · refine Table.keysWhere_updateWhere_of_get? fun k row hrow hk => ?_
    obtain rfl : k = pk := by simpa using hk
    rw [orderOf_eq hrow] at hold
    simp [reorderRow, hsave, hparking, hold]

/-- The shift of the rows in between, while the moved item is parked behind the last one. -/
lemma yields_shift (scan : Scan ListItemId) {parked : ListItems} {parking : ℤ}
    (hordered : WellOrdered listPk items) (hpk : pk ∈ itemIds listPk items)
    (hbehind : ∀ id ∈ itemIds listPk items, orderOf items id < parking)
    (hparked : Reordered listPk (parkedOrder items pk parking) items parked)
    (hids : shiftedIds listPk (orderOf items pk) position parked =
      shiftedIds listPk (orderOf items pk) position items) :
    ∃ shifted, Yields (shiftItems scan listPk (orderOf items pk) position parked)
        (InOrder scan listPk (orderOf items pk) position items) shifted ∧
      Reordered listPk (fun id => if id = pk then parking
        else shiftOrder (orderOf items pk) position (orderOf items id)) items shifted := by
  let keys := scan.order (shiftedIds listPk (orderOf items pk) position items)
  let order := parkedOrder items pk parking
  have hmem : ∀ id, id ∈ keys ↔ id ∈ itemIds listPk items ∧
      Shifted (orderOf items pk) position (orderOf items id) := fun id =>
    (scan.perm _).mem_iff.trans mem_shiftedIds
  have hnodup : keys.Nodup := (scan.perm _).nodup_iff.mpr nodup_shiftedIds
  have hbefore := hbehind pk hpk
  have horder : ∀ id, id ≠ pk → order id = orderOf items id := fun id hne => if_neg hne
  have hne : ∀ id ∈ keys, id ≠ pk := by
    rintro id hid rfl
    have hshifted := ((hmem id).mp hid).2
    unfold Shifted at hshifted
    omega
  have hdistinct : DistinctKeys order (itemIds listPk items) := by
    refine .of_inj nodup_itemIds fun a ha b hb heq => ?_
    have ha' := hbehind a ha
    have hb' := hbehind b hb
    by_cases hapk : a = pk <;> by_cases hbpk : b = pk
    · rw [hapk, hbpk]
    · rw [horder b hbpk, hapk] at heq
      simp only [order, parkedOrder, if_true] at heq
      omega
    · rw [horder a hapk, hbpk] at heq
      simp only [order, parkedOrder, if_true] at heq
      omega
    · rw [horder a hapk, horder b hbpk] at heq
      exact hordered.distinct.inj ha hb heq
  -- the next value of a shifted row is in the range of the shift
  have hnext : ∀ id ∈ keys, ∀ id' ∈ itemIds listPk items,
      order id' = order id + shiftStep (orderOf items pk) position → id' ∈ keys := by
    intro id hid id' hid' heq
    have hshifted := ((hmem id).mp hid).2
    rw [horder id (hne id hid)] at heq
    by_cases hpk' : id' = pk
    · have hlast : order id' = parking := by rw [hpk']; exact if_pos rfl
      rw [hlast] at heq
      have hid' := hbehind id ((hmem id).mp hid).1
      unfold Shifted at hshifted
      unfold shiftStep at heq
      split_ifs at heq <;> omega
    · rw [horder id' hpk'] at heq
      have hfree : orderOf items id' ≠ orderOf items pk := fun h =>
        hpk' (hordered.distinct.inj hid' hpk h)
      refine (hmem id').mpr ⟨hid', ?_⟩
      unfold Shifted at hshifted ⊢
      unfold shiftStep at heq
      split_ifs at heq <;> omega
  have hfree := shift_free_iff hnodup hdistinct (fun id hid => ((hmem id).mp hid).1) hnext
  rw [shiftItems_eq, hids]
  refine ⟨_, (yields_updateOrders listPk _ hnodup ?_).congr ?_, ?_⟩
  · intro id hid
    exact hparked.mem_itemIds_iff.mpr ((hmem id).mp hid).1
  · have hturn : ∀ done id rest, keys = done ++ id :: rest →
        ((∀ id' ∈ itemIds listPk parked, id' ≠ id →
          orderOf parked id + shiftStep (orderOf items pk) position ≠
            if id' ∈ done then orderOf parked id' + shiftStep (orderOf items pk) position
            else orderOf parked id') ↔
        ∀ id' ∈ itemIds listPk items, id' ≠ id →
          order id + shiftStep (orderOf items pk) position ≠
            if id' ∈ done then order id' + shiftStep (orderOf items pk) position
            else order id') := by
      intro done id rest heq
      have hid : id ∈ itemIds listPk items := ((hmem id).mp (by rw [heq]; simp)).1
      rw [hparked.orderOf_eq hid]
      constructor
      · intro h id' hid' hne'
        have hturn := h id' (hparked.mem_itemIds_iff.mpr hid') hne'
        rwa [hparked.orderOf_eq hid'] at hturn
      · intro h id' hid' hne'
        rw [hparked.mem_itemIds_iff] at hid'
        rw [hparked.orderOf_eq hid']
        exact h id' hid' hne'
    have hall : (∀ done id rest, keys = done ++ id :: rest → ∀ id' ∈ itemIds listPk parked,
        id' ≠ id → orderOf parked id + shiftStep (orderOf items pk) position ≠
          if id' ∈ done then orderOf parked id' + shiftStep (orderOf items pk) position
          else orderOf parked id') ↔
        ∀ id id', [id, id'].Sublist keys →
          order id' ≠ order id + shiftStep (orderOf items pk) position := by
      rw [← hfree]
      exact forall₄_congr hturn
    refine hall.trans (forall₃_congr fun id id' hpair => ?_)
    rw [horder id (hne id (hpair.subset (by simp))), horder id' (hne id' (hpair.subset (by simp)))]
  · have hids' : ∀ id ∈ keys, id ∈ itemIds listPk parked := fun id hid =>
      hparked.mem_itemIds_iff.mpr ((hmem id).mp hid).1
    have hwritten := reordered_updateWhere parked
      (fun _ order => order + shiftStep (orderOf items pk) position) hids'
    refine (hparked.trans hwritten).congr fun id hid => ?_
    rw [hparked.orderOf_eq hid]
    by_cases hpk' : id = pk
    · have hnot : pk ∉ keys := fun hmem => hne pk hmem rfl
      simp only [hpk', hnot, if_false, if_true, parkedOrder]
    · simp only [hmem id, hid, true_and, hpk', if_false, parkedOrder, shiftOrder_eq]

lemma movedOrder_ne (hordered : WellOrdered listPk items) (hpk : pk ∈ itemIds listPk items)
    (hid : id ∈ itemIds listPk items) (hne : id ≠ pk) :
    shiftOrder (orderOf items pk) position (orderOf items id) ≠ position :=
  shiftOrder_ne fun heq => hne (hordered.distinct.inj hid hpk heq)

/-- A move within the positions of the list gives the order values it is meant to, if the rows are
    processed in order, and fails otherwise. -/
theorem yields_moveItem (scan : Scan ListItemId) (hordered : WellOrdered listPk items)
    (hpk : pk ∈ itemIds listPk items) (hlow : 0 < position)
    (hhigh : position ≤ (itemIds listPk items).length) :
    ∃ items', Yields (moveItem scan listPk pk (orderOf items pk) position items)
        (InOrder scan listPk (orderOf items pk) position items) items' ∧
      Reordered listPk (movedOrder items pk position) items items' := by
  have hmax : ∀ id ∈ itemIds listPk items, orderOf items id ≤ maxOrder listPk items :=
    fun id hid => le_maxOrder hid
  have hmaxPk := hmax pk hpk
  have hcount := length_le_of_le hordered.distinct hordered.positive hmax
  have hpositive := hordered.positive pk hpk
  obtain ⟨parked, hpark, hparked, hids⟩ := yields_park (orderOf items pk) position hpk
     (by unfold Shifted; omega) (by unfold Shifted; omega)
  obtain ⟨shifted, hshift, hshifted⟩ := yields_shift scan hordered hpk
    (fun id hid => Int.lt_add_one_of_le (hmax id hid)) hparked hids
  have hpk' : pk ∈ itemIds listPk shifted := hshifted.mem_itemIds_iff.mpr hpk
  have hsave : saveOrder listPk shifted position = position := by
    rw [saveOrder, if_neg (by omega)]
  have hplace := yields_saveItem position hpk'
  rw [hsave] at hplace
  have hfree : ∀ id ∈ itemIds listPk shifted, id ≠ pk → orderOf shifted id ≠ position := by
    intro id hid hne
    rw [hshifted.mem_itemIds_iff] at hid
    rw [hshifted.orderOf_eq hid, if_neg hne]
    exact movedOrder_ne hordered hpk hid hne
  refine ⟨_, (hpark.bind fun _ => hshift.bind fun _ => hplace).congr ?_, ?_⟩
  · rw [true_and]
    exact and_iff_left hfree
  · have hsub : ∀ k ∈ [pk], k ∈ itemIds listPk shifted := by simpa using hpk'
    have hwritten := reordered_updateWhere shifted (fun _ _ => position) hsub
    refine (hshifted.trans hwritten).congr fun id hid => ?_
    rw [hshifted.orderOf_eq hid, movedOrder]
    by_cases hne : id = pk <;> simp [hne]

end Move

end Denn.Lists
