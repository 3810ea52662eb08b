import Denn.Lists.Order

/-!
# Where a move puts the item

What a move leaves of the order of the list. The item gets the order value that was asked for; that
is its rank only if no smaller value is free. The rows in between are shifted one after another, and
each of them must find its next value free.
-/

namespace Denn.Lists

open Core

section

variable {s : ListState} {items items' : ListItems} {user : Requester} {listPk : ListId}
  {pk id : ListItemId} {data : Json} {row : ListItem} {position : ℤ}

/-! ### Accepted moves -/

lemma validateMove_eq_ok (h : validateMove s items user listPk pk data = .ok (row, position)) :
    pk ∈ itemIds listPk items ∧ row.listOrder = orderOf items pk ∧ 0 < position ∧
      position ≤ (itemIds listPk items).length := by
  obtain ⟨_, -, h⟩ := bind_eq_ok h
  cases hposition : intOf (data.get "position") with
  | none => simp [hposition] at h
  | some position' =>
    cases hrow : (items.get? pk).filter fun row => row.userList = listPk with
    | none => simp [hposition, hrow] at h
    | some row' =>
      simp only [hposition, hrow] at h
      split_ifs at h with hrange
      obtain ⟨rfl, rfl⟩ := Prod.mk.inj (Except.ok.inj h)
      obtain ⟨hget, hlist⟩ := Option.filter_eq_some_iff.mp hrow
      rw [decide_eq_true_eq] at hlist
      rw [not_or] at hrange
      exact ⟨mem_itemIds.mpr ⟨row', hget, hlist⟩, (orderOf_eq hget).symm, by omega, by omega⟩

lemma shiftedIds_self {oldPos : ℤ} : shiftedIds listPk oldPos oldPos items = [] := by
  rw [List.eq_nil_iff_forall_not_mem]
  intro id hid
  have hshifted := (mem_shiftedIds.mp hid).2
  unfold Shifted at hshifted
  omega

/-- A move to the position that the item has changes nothing. -/
lemma reordered_self (hposition : orderOf items pk = position) :
    Reordered listPk (movedOrder items pk position) items items := by
  intro id
  cases hrow : items.get? id with
  | none => rfl
  | some row =>
    have hsame : movedOrder items pk position id = orderOf items id := by
      rw [movedOrder, hposition]
      split_ifs with hid
      · rw [hid, hposition]
      · unfold shiftOrder
        split_ifs <;> omega
    obtain ⟨_, _, _, _⟩ := row
    by_cases hlist : listPk = listPk <;> simp [hsame, orderOf_eq hrow]

/-- An accepted move gives the order values it is meant to, if the rows are processed in order, and
    fails otherwise. -/
theorem yields_move (scan : Scan ListItemId) (hordered : WellOrdered listPk items)
    (hvalid : validateMove s items user listPk pk data = .ok (row, position)) :
    ∃ items', Yields (move s items scan user listPk pk data)
        (InOrder scan listPk (orderOf items pk) position items) items' ∧
      Reordered listPk (movedOrder items pk position) items items' := by
  obtain ⟨hpk, horder, hlow, hhigh⟩ := validateMove_eq_ok hvalid
  have hmove : move s items scan user listPk pk data =
      if orderOf items pk = position then .ok items
      else (moveItem scan listPk pk (orderOf items pk) position items).mapError
        fun _ => .integrityError := by
    rw [move, hvalid, ← horder]
    rfl
  rw [hmove]
  split_ifs with hsame
  · refine ⟨items, (Yields.of_ok items).congr ?_, reordered_self hsame⟩
    refine (iff_true_intro fun id id' hpair => ?_).symm
    have hnil : scan.order (shiftedIds listPk (orderOf items pk) position items) = [] := by
      rw [hsame, shiftedIds_self]
      exact (scan.perm []).eq_nil
    rw [hnil] at hpair
    simp at hpair
  · obtain ⟨items', hyields, hreordered⟩ := yields_moveItem scan hordered hpk hlow hhigh
    exact ⟨items', hyields.mapError _, hreordered⟩

/-! ### Collisions -/

/-- Whether a move collides depends on the order of its rows unless no two rows in between have
    values next to each other. -/
theorem move_succeeds_iff (hordered : WellOrdered listPk items)
    (hvalid : validateMove s items user listPk pk data = .ok (row, position)) :
    (∀ scan, ∃ items', move s items scan user listPk pk data = .ok items') ↔
      ¬ ∃ id ∈ itemIds listPk items, ∃ id' ∈ itemIds listPk items,
        Shifted row.listOrder position (orderOf items id) ∧
        Shifted row.listOrder position (orderOf items id') ∧
        orderOf items id' = orderOf items id + 1 := by
  rw [(validateMove_eq_ok hvalid).2.1]
  have hscan : (∀ scan, ∃ items', move s items scan user listPk pk data = .ok items') ↔
      ∀ scan, InOrder scan listPk (orderOf items pk) position items := by
    refine forall_congr' fun scan => ?_
    obtain ⟨items', hyields, -⟩ := yields_move scan hordered hvalid
    exact hyields.isOk_iff
  rw [hscan]
  unfold InOrder
  rw [Scan.forall_order_iff (P := fun keys => ∀ id id', [id, id'].Sublist keys →
    orderOf items id' ≠ orderOf items id + shiftStep (orderOf items pk) position)]
  constructor
  · rintro h ⟨id, hid, id', hid', hshifted, hshifted', hnext⟩
    have hmem := mem_shiftedIds.mpr ⟨hid, hshifted⟩
    have hmem' := mem_shiftedIds.mpr ⟨hid', hshifted'⟩
    have hne : id' ≠ id := by
      rintro rfl
      omega
    by_cases hup : position < orderOf items pk
    · have hpair := h _ (List.perm_cons_erase hmem).symm id id'
        (List.Sublist.cons_cons id (List.singleton_sublist.mpr
          ((List.mem_erase_of_ne hne).mpr hmem')))
      rw [shiftStep, if_pos hup] at hpair
      exact hpair hnext
    · have hpair := h _ (List.perm_cons_erase hmem').symm id' id
        (List.Sublist.cons_cons id' (List.singleton_sublist.mpr
          ((List.mem_erase_of_ne hne.symm).mpr hmem)))
      rw [shiftStep, if_neg hup] at hpair
      omega
  · intro h keys hperm id id' hpair hnext
    obtain ⟨hid, hshifted⟩ := mem_shiftedIds.mp (hperm.subset (hpair.subset (by simp : id ∈ _)))
    obtain ⟨hid', hshifted'⟩ :=
      mem_shiftedIds.mp (hperm.subset (hpair.subset (by simp : id' ∈ _)))
    unfold shiftStep at hnext
    split_ifs at hnext
    · exact h ⟨id, hid, id', hid', hshifted, hshifted', hnext⟩
    · exact h ⟨id', hid', id, hid, hshifted', hshifted, by omega⟩

/-! ### Ranks -/

lemma movedOrder_of_ne (hne : id ≠ pk) :
    movedOrder items pk position id = shiftOrder (orderOf items pk) position (orderOf items id) :=
  if_neg hne

lemma movedOrder_self : movedOrder items pk position pk = position := if_pos rfl

lemma distinct_movedOrder (position : ℤ) (hordered : WellOrdered listPk items) (hpk : pk ∈ itemIds listPk items) :
    DistinctKeys (movedOrder items pk position) (itemIds listPk items) := by
  refine .of_inj nodup_itemIds fun a ha b hb heq => ?_
  by_cases hapk : a = pk <;> by_cases hbpk : b = pk
  · rw [hapk, hbpk]
  · rw [hapk, movedOrder_self, movedOrder_of_ne hbpk] at heq
    exact absurd heq.symm (movedOrder_ne hordered hpk hb hbpk)
  · rw [hbpk, movedOrder_self, movedOrder_of_ne hapk] at heq
    exact absurd heq (movedOrder_ne hordered hpk ha hapk)
  · rw [movedOrder_of_ne hapk, movedOrder_of_ne hbpk] at heq
    have hne : ∀ c ∈ itemIds listPk items, c ≠ pk → orderOf items c ≠ orderOf items pk :=
      fun c hc hcpk heq => hcpk (hordered.distinct.inj hc hpk heq)
    exact hordered.distinct.inj ha hb (shiftOrder_inj (hne a ha hapk) (hne b hb hbpk) heq)

lemma movedOrder_pos (hordered : WellOrdered listPk items) (hpk : pk ∈ itemIds listPk items)
    (hlow : 0 < position) (hid : id ∈ itemIds listPk items) :
    0 < movedOrder items pk position id := by
  have hpositive := hordered.positive id hid
  have hpositive' := hordered.positive pk hpk
  unfold movedOrder shiftOrder
  split_ifs <;> omega

/-- A move keeps the order of all other items. -/
lemma sortBy_movedOrder_erase (hordered : WellOrdered listPk items)
    (hpk : pk ∈ itemIds listPk items) :
    (sortBy (movedOrder items pk position) (itemIds listPk items)).erase pk =
      (canonicalIds listPk items).erase pk := by
  rw [← sortBy_erase (distinct_movedOrder position hordered hpk), canonicalIds,
    ← sortBy_erase hordered.distinct]
  refine sortBy_congr (hordered.distinct.sublist List.erase_sublist) (.refl _) ?_
  intro a ha b hb hlt
  obtain ⟨hapk, ha⟩ := nodup_itemIds.mem_erase_iff.mp ha
  obtain ⟨hbpk, hb⟩ := nodup_itemIds.mem_erase_iff.mp hb
  have hneA : orderOf items a ≠ orderOf items pk :=
    fun heq => hapk (hordered.distinct.inj ha hpk heq)
  have hneB : orderOf items b ≠ orderOf items pk :=
    fun heq => hbpk (hordered.distinct.inj hb hpk heq)
  rw [movedOrder_of_ne hapk, movedOrder_of_ne hbpk]
  unfold shiftOrder
  split_ifs <;> omega

/-- The item gets the rank it was given exactly if the smaller values are taken: those below the
    position, and the position itself if the item comes from in front of it. -/
lemma movedOrder_rank_iff (hordered : WellOrdered listPk items)
    (hpk : pk ∈ itemIds listPk items) (hlow : 0 < position) :
    (sortBy (movedOrder items pk position) (itemIds listPk items))[(position - 1).toNat]? = some pk ↔
      TakenBelow (orderOf items) (itemIds listPk items)
        (if orderOf items pk ≤ position then position + 1 else position) := by
  rw [getElem?_sortBy_iff (distinct_movedOrder position hordered hpk), and_iff_right hpk, movedOrder_self]
  let bound := if orderOf items pk ≤ position then position + 1 else position
  have hperm := List.perm_cons_erase hpk
  have hothers : (itemIds listPk items).countP (fun id => movedOrder items pk position id < position) =
      ((itemIds listPk items).erase pk).countP fun id => orderOf items id < bound := by
    rw [hperm.countP_eq, List.countP_cons, if_neg (by simp [movedOrder_self]), Nat.add_zero]
    refine List.countP_congr fun id hid => ?_
    obtain ⟨hne, hid⟩ := nodup_itemIds.mem_erase_iff.mp hid
    have horder : orderOf items id ≠ orderOf items pk :=
      fun heq => hne (hordered.distinct.inj hid hpk heq)
    rw [movedOrder_of_ne hne, decide_eq_true_eq, decide_eq_true_eq]
    unfold shiftOrder bound
    split_ifs <;> omega
  have hall : (itemIds listPk items).countP (fun id => orderOf items id < bound) =
      ((itemIds listPk items).erase pk).countP (fun id => orderOf items id < bound) +
        if orderOf items pk < bound then 1 else 0 := by
    rw [hperm.countP_eq, List.countP_cons]
    simp only [decide_eq_true_eq]
  have htaken := countP_lt_eq_iff (p := bound) hordered.distinct hordered.positive (by grind)
  rw [← htaken, hothers, hall]
  unfold bound
  split_ifs <;> push_cast <;> omega

/-- The item stands at the position, the others stand as they stood, and the order values of the
    list are distinct and positive. -/
structure MovedTo (listPk : ListId) (pk : ListItemId) (position : ℤ) (items items' : ListItems) :
    Prop where
  at_position : (canonicalIds listPk items')[(position - 1).toNat]? = some pk
  others : (canonicalIds listPk items').erase pk = (canonicalIds listPk items).erase pk
  wellOrdered : WellOrdered listPk items'

/-- A move does what it is meant to do exactly if its rows are processed in order and no value below
    the rank it asks for is free. -/
theorem move_places_iff (scan : Scan ListItemId) (hordered : WellOrdered listPk items)
    (hvalid : validateMove s items user listPk pk data = .ok (row, position)) :
    (∃ items', move s items scan user listPk pk data = .ok items' ∧
        MovedTo listPk pk position items items') ↔
      InOrder scan listPk row.listOrder position items ∧
        TakenBelow (orderOf items) (itemIds listPk items)
          (if row.listOrder ≤ position then position + 1 else position) := by
  obtain ⟨hpk, horder, hlow, -⟩ := validateMove_eq_ok hvalid
  obtain ⟨items', hyields, hreordered⟩ := yields_move scan hordered hvalid
  have hdistinct := distinct_movedOrder position hordered hpk
  have hcanonical := hreordered.canonicalIds_eq hdistinct
  have hmoved : MovedTo listPk pk position items items' ↔
      TakenBelow (orderOf items) (itemIds listPk items)
        (if orderOf items pk ≤ position then position + 1 else position) := by
    rw [← movedOrder_rank_iff hordered hpk hlow, ← hcanonical]
    constructor
    · intro h
      exact h.at_position
    · intro h
      refine ⟨h, ?_, hreordered.wellOrdered hdistinct fun id hid =>
        movedOrder_pos hordered hpk hlow hid⟩
      rw [hcanonical, sortBy_movedOrder_erase hordered hpk]
  rw [horder, ← hmoved]
  constructor
  · rintro ⟨items'', hmove, h⟩
    obtain ⟨hinOrder, rfl⟩ := (hyields items'').mp hmove
    exact ⟨hinOrder, h⟩
  · rintro ⟨hinOrder, h⟩
    exact ⟨items', hyields.eq_ok hinOrder, h⟩

end

/-! ### Samples -/

section

/-- One list of user 7. -/
def favourites : ListState :=
  { ListState.empty with lists := Table.empty.set 1 { owner := 7, name := "Favourites" } }

/-- Its items, numbered from 1, with their order values. -/
def itemsInOrder (orders : List ℤ) : ListItems :=
  (orders.zipIdx 1).foldl
    (fun items entry =>
      items.set entry.2 { userList := 1, contentItem := entry.2, listOrder := entry.1 })
    .empty

lemma wellOrdered_itemsInOrder_gap : WellOrdered 1 (itemsInOrder [1, 5, 6]) :=
  ⟨by decide, by decide⟩

lemma wellOrdered_itemsInOrder_dense : WellOrdered 1 (itemsInOrder [1, 2, 3]) :=
  ⟨by decide, by decide⟩

lemma validateMove_gap : validateMove favourites (itemsInOrder [1, 5, 6]) (some 7) 1 1
    (.obj [("position", .int 2)]) =
      .ok ({ userList := 1, contentItem := 1, listOrder := 1 }, 2) := by
  decide

lemma validateMove_dense (pk : ListItemId) (hpk : pk = 2 ∨ pk = 3) :
    validateMove favourites (itemsInOrder [1, 2, 3]) (some 7) 1 pk
      (.obj [("position", .int 1)]) =
        .ok ({ userList := 1, contentItem := pk, listOrder := pk }, 1) := by
  rcases hpk with rfl | rfl <;> decide

/-- A move of the second item to the front shifts one row. -/
theorem move_succeeds_dense : ∃ items',
    move favourites (itemsInOrder [1, 2, 3]) Scan.forward (some 7) 1 2
      (.obj [("position", .int 1)]) = .ok items' :=
  (move_succeeds_iff wellOrdered_itemsInOrder_dense (validateMove_dense 2 (.inl rfl))).mpr
    (by decide) Scan.forward

/-- A move of the third item to the front fails if the database shifts the first row first. -/
theorem move_collides : ¬ ∀ (s : ListState) (items : ListItems) (scan : Scan ListItemId)
    (user : Requester) (listPk : ListId) (pk : ListItemId) (data : Json) (row : ListItem)
    (position : ℤ), WellOrdered listPk items →
    validateMove s items user listPk pk data = .ok (row, position) →
    ∃ items', move s items scan user listPk pk data = .ok items' := by
  intro h
  obtain ⟨items', hmove⟩ := h _ _ (Scan.of [1, 2]) _ _ _ _ _ _ wellOrdered_itemsInOrder_dense
    (validateMove_dense 3 (.inr rfl))
  have hresult : (move favourites (itemsInOrder [1, 2, 3]) (Scan.of [1, 2]) (some 7) 1 3
      (.obj [("position", .int 1)])).map (canonicalIds 1) = .error .integrityError := by decide
  rw [hmove] at hresult
  cases hresult

/-- A move of the second item to the front, whose only shifted row finds its next value free. -/
theorem move_places_dense : ∃ items',
    move favourites (itemsInOrder [1, 2, 3]) Scan.forward (some 7) 1 2
      (.obj [("position", .int 1)]) = .ok items' ∧
    MovedTo 1 2 1 (itemsInOrder [1, 2, 3]) items' := by
  refine (move_places_iff Scan.forward wellOrdered_itemsInOrder_dense
    (validateMove_dense 2 (.inl rfl))).mpr ⟨?_, ?_⟩
  · intro id id' hpair
    have hlength : 2 ≤ (Scan.forward.order (shiftedIds 1 2 1 (itemsInOrder [1, 2, 3]))).length :=
      hpair.length_le
    exact absurd hlength (by decide)
  · intro v hlow hhigh
    norm_num at hhigh
    omega

/-- With free values between the items, the item moved to the second place stays the first. -/
theorem move_misplaces : ¬ ∀ (s : ListState) (items : ListItems) (scan : Scan ListItemId)
    (user : Requester) (listPk : ListId) (pk : ListItemId) (data : Json) (row : ListItem)
    (position : ℤ), WellOrdered listPk items →
    validateMove s items user listPk pk data = .ok (row, position) →
    ∃ items', move s items scan user listPk pk data = .ok items' ∧
      MovedTo listPk pk position items items' := by
  intro h
  obtain ⟨items', hmove, hmoved⟩ := h _ _ Scan.forward _ _ _ _ _ _ wellOrdered_itemsInOrder_gap
    validateMove_gap
  have hresult : (move favourites (itemsInOrder [1, 5, 6]) Scan.forward (some 7) 1 1
      (.obj [("position", .int 2)])).map (canonicalIds 1) = .ok [1, 2, 3] := by decide
  rw [hmove] at hresult
  have hplace := hmoved.at_position
  rw [Except.ok.inj hresult] at hplace
  revert hplace
  decide

end

end Denn.Lists
