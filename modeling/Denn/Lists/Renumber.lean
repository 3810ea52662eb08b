import Denn.Lists.Moves

/-!
# Reordering a whole list

The endpoint that gives every item of a list a new position. All items go to temporary negative
positions and then to their new ones, each time by one statement. The requested order is compared
with the items as a set, and its entries are numbers of any type.
-/

namespace Denn.Lists

open Core

/-! ### Writing the positions -/

/-- The two bulk updates of a reordering. -/
def renumber (parking placing : Scan ListItemId) (ids : List ListItemId)
    (position : ListItemId → ℤ) (items : ListItems) : Except IntegrityError ListItems := do
  let parked ← items.updateEach sameOrder
    (fun (id : ListItemId) row => { row with listOrder := -id }) (parking.order ids)
  parked.updateEach sameOrder (fun id row => { row with listOrder := position id })
    (placing.order ids)

/-- The list has these items, numbered from 1. -/
structure Numbered (listPk : ListId) (ids : List ListItemId) (items : ListItems) : Prop where
  canonical : canonicalIds listPk items = ids
  orders : ids.map (orderOf items) = (List.range' 1 ids.length).map Int.ofNat

section

variable {items items' : ListItems} {listPk : ListId} {ids keys : List ListItemId}
  {position : ListItemId → ℤ}

/-- New order values can be written in every order of the rows if they are distinct and none of them
    is in use. -/
lemma updateOrders_of_unused (items : ListItems) (hordered : DistinctKeys position keys)
    (hsub : ∀ id ∈ keys, id ∈ itemIds listPk items)
    (hunused : ∀ id ∈ keys, ∀ id' ∈ itemIds listPk items, id' ≠ id →
      position id ≠ orderOf items id') :
    ∃ items', items.updateEach sameOrder (reorderRow fun id _ => position id) keys = .ok items' ∧
      Reordered listPk (fun id => if id ∈ keys then position id else orderOf items id) items
        items' := by
  refine ⟨_, (yields_updateOrders listPk _ hordered.nodup hsub).eq_ok ?_,
    reordered_updateWhere items _ hsub⟩
  rintro done id rest rfl id' hid' hne heq
  split_ifs at heq with hdone
  · exact hne (hordered.inj (by simp [hdone]) (by simp) heq.symm)
  · exact hunused id (by simp) id' hid' hne heq

/-- The two bulk updates never collide, in any order of their rows. -/
theorem renumber_ok (parking placing : Scan ListItemId) (hordered : WellOrdered listPk items)
    (hids : ids.Perm (itemIds listPk items)) (hdistinct : DistinctKeys position ids)
    (hpositive : ∀ id ∈ ids, 0 < position id) :
    ∃ items', renumber parking placing ids position items = .ok items' ∧
      Reordered listPk position items items' := by
  have hnodup : ids.Nodup := hdistinct.nodup
  have hparking : DistinctKeys (fun id : ListItemId => -(id : ℤ)) (parking.order ids) := by
    refine .of_inj ((parking.perm ids).nodup_iff.mpr hnodup) fun a _ b _ heq => ?_
    simpa using heq
  have hmem : ∀ scan : Scan ListItemId, ∀ id, id ∈ scan.order ids ↔ id ∈ itemIds listPk items :=
    fun scan id => (scan.perm ids).mem_iff.trans hids.mem_iff
  obtain ⟨parked, hpark, hparked⟩ := updateOrders_of_unused items hparking
    (fun id hid => (hmem parking id).mp hid) fun id _ id' hid' _ => by
      have hpositive' := hordered.positive id' hid'
      omega
  have hplacing : DistinctKeys position (placing.order ids) := hdistinct.perm (placing.perm ids)
  obtain ⟨items', hplace, hplaced⟩ := updateOrders_of_unused parked hplacing
    (fun id hid => hparked.mem_itemIds_iff.mpr ((hmem placing id).mp hid))
    fun id hid id' hid' _ => by
      rw [hparked.mem_itemIds_iff] at hid'
      rw [hparked.orderOf_eq hid', if_pos ((hmem parking id').mpr hid')]
      have hpositive' := hpositive id ((placing.perm ids).mem_iff.mp hid)
      omega
  refine ⟨items', ?_, ?_⟩
  · change (items.updateEach sameOrder (reorderRow fun id _ => -(id : ℤ)) (parking.order ids) >>=
      fun parked => parked.updateEach sameOrder (reorderRow fun id _ => position id)
        (placing.order ids)) = .ok items'
    rw [hpark, ok_bind, hplace]
  · refine (hparked.trans hplaced).congr fun id hid => ?_
    rw [if_pos ((hmem placing id).mpr hid)]

/-! ### Numbers from 1 -/

lemma idxOf_succ_lt (hnodup : ids.Nodup) :
    ids.Pairwise fun a b => (ids.idxOf a : ℤ) + 1 < ids.idxOf b + 1 := by
  rw [List.pairwise_iff_getElem]
  intro i j hi hj hlt
  rw [hnodup.idxOf_getElem, hnodup.idxOf_getElem]
  omega

lemma map_idxOf_succ (hnodup : ids.Nodup) :
    ids.map (fun id => (ids.idxOf id : ℤ) + 1) = (List.range' 1 ids.length).map Int.ofNat := by
  apply List.ext_getElem
  · simp
  · intro i hi hi'
    have hlt : i < ids.length := by simpa using hi
    simp only [List.getElem_map, List.getElem_range', hnodup.idxOf_getElem]
    simp
    omega

lemma distinctKeys_idxOf (hids : ids.Perm (itemIds listPk items)) :
    DistinctKeys (fun id => (ids.idxOf id : ℤ) + 1) (itemIds listPk items) :=
  .of_inj nodup_itemIds fun a ha b _ heq =>
    (List.idxOf_inj (hids.mem_iff.mpr ha)).mp (by simpa using heq)

/-- Items that are placed as they are listed are numbered. -/
theorem Reordered.numbered (hids : ids.Perm (itemIds listPk items))
    (h : Reordered listPk (fun id => ids.idxOf id + 1) items items') : Numbered listPk ids items' := by
  have hnodup : ids.Nodup := hids.nodup_iff.mpr nodup_itemIds
  constructor
  · rw [h.canonicalIds_eq (distinctKeys_idxOf hids)]
    exact sortBy_eq_of_pairwise hids (idxOf_succ_lt hnodup)
  · rw [← map_idxOf_succ hnodup]
    refine List.map_congr_left fun id hid => ?_
    exact h.orderOf_eq (hids.mem_iff.mp hid)

end

/-! ### The endpoint -/

/-- An exception that the endpoint does not catch. -/
inductive PyException where
  | typeError
  | attributeError
  deriving DecidableEq, Repr

/-- How a request fails: with a response, or with an exception. -/
inductive Failure where
  | response (error : ListError)
  | exception (exception : PyException)
  deriving DecidableEq, Repr

/-- The value can be an element of a set. -/
def hashable : Json → Bool
  | .arr _ => false
  | .obj _ => false
  | _ => true

/-- `current_ids == new_ids`. -/
def sameIds (currentIds : List ListItemId) (order : List Json) : Bool :=
  (currentIds.all fun id => order.any fun entry => entry.equals (.int id)) &&
    order.all fun entry => currentIds.any fun id => entry.equals (.int id)

/-- The body itself if it is a list, else its `order`. -/
def orderValue : Json → Except Failure Json
  | .arr order => .ok (.arr order)
  | .obj fields => .ok ((Json.obj fields).get "order")
  | _ => .error (.exception .attributeError)

/-- The order is checked against the items of the list and written. -/
def reorderAs (items : ListItems) (parking placing : Scan ListItemId) (listPk : ListId) :
    Json → Except Failure ListItems
  | .arr (first :: rest) =>
    let order := first :: rest
    let currentIds := itemIds listPk items
    if !order.all hashable then .error (.exception .typeError)
    else if !sameIds currentIds order then
      .error (.response (.detail 400
        "Order must include all and only current list item IDs."))
    else
      match order.mapM intOf with
      | none => .error (.exception .typeError)
      | some ids =>
        -- a repeated id keeps the last of its positions
        (renumber parking placing currentIds (idToPos (ids.map Int.toNat)) items).mapError
          fun _ => .response .integrityError
  | _ => .error (.response (.detail 400
      "Body must be a non-empty list or \x7b\"order\": [...]\x7d."))

/-- `ListItemViewSet.reorder`. -/
def reorder (s : ListState) (items : ListItems) (parking placing : Scan ListItemId)
    (user : Requester) (listPk : ListId) (data : Json) : Except Failure ListItems :=
  ((s.authorize user listPk .reorder).mapError .response).bind fun _ =>
  (orderValue data).bind fun order => reorderAs items parking placing listPk order

/-! ### Accepted orders -/

def elements : Json → List Json
  | .arr values => values
  | _ => []

/-- The entries of the requested order. -/
def entries (data : Json) : List Json := (orderValue data).toOption.elim [] elements

/-- The items that the entries name. -/
def requestedIds (data : Json) : List ListItemId :=
  (entries data).filterMap fun entry => (intOf entry).map Int.toNat

/-- The body is a list or an object, and none of the entries is one. -/
def isReadable (data : Json) : Bool := (orderValue data).isOk && (entries data).all hashable

section

variable {s : ListState} {items : ListItems} {parking placing : Scan ListItemId} {user : Requester}
  {uid : UserId} {listPk : ListId} {data : Json} {order : List Json} {currentIds : List ListItemId}

/-- An entry that equals an id is read as the id. -/
lemma intOf_of_equals {entry : Json} {id : ListItemId} (h : entry.equals (.int id) = true) :
    intOf entry = some (id : ℤ) := by
  have hnumber : entry.number? = some ((id : ℤ) : ℚ) := by
    cases entry <;> simp_all [Json.equals, Json.number?]
  cases entry with
  | bool b =>
    cases b
    · have hzero : ((0 : ℤ) : ℚ) = (id : ℤ) := by simpa [Json.number?] using hnumber
      rw [← Int.cast_inj.mp hzero]
      rfl
    · have hone : ((1 : ℤ) : ℚ) = (id : ℤ) := by simpa [Json.number?] using hnumber
      rw [← Int.cast_inj.mp hone]
      rfl
  | int n =>
    rw [intOf, Int.cast_inj.mp (Option.some.inj hnumber)]
  | float q =>
    rw [intOf, Option.some.inj hnumber]
    simp
  | null => simp [Json.number?] at hnumber
  | str s => simp [Json.number?] at hnumber
  | arr values => simp [Json.number?] at hnumber
  | obj fields => simp [Json.number?] at hnumber

lemma sameIds_iff : sameIds currentIds order = true ↔
    (∀ id ∈ currentIds, ∃ entry ∈ order, entry.equals (.int id) = true) ∧
      ∀ entry ∈ order, ∃ id ∈ currentIds, entry.equals (.int id) = true := by
  simp [sameIds]

/-- Entries that name the items are all read. -/
lemma mapM_intOf (h : sameIds currentIds order = true) :
    ∃ ids, order.mapM intOf = some ids ∧
      ids.map Int.toNat = order.filterMap (fun entry => (intOf entry).map Int.toNat) := by
  have hread : ∀ entry ∈ order, ∃ n, intOf entry = some n := by
    intro entry hentry
    obtain ⟨id, -, hid⟩ := (sameIds_iff.mp h).2 entry hentry
    exact ⟨_, intOf_of_equals hid⟩
  clear h
  induction order with
  | nil => exact ⟨[], rfl, rfl⟩
  | cons entry order ih =>
    obtain ⟨⟨n, hn⟩, hrest⟩ := List.forall_mem_cons.mp hread
    obtain ⟨ids, hids, heq⟩ := ih hrest
    refine ⟨n :: ids, ?_, ?_⟩
    · simp [List.mapM_cons, hn, hids]
    · simp [hn, heq]

/-- The items that an accepted order names are the items of the list. -/
lemma mem_requested (h : sameIds currentIds order = true) {id : ListItemId} :
    id ∈ order.filterMap (fun entry => (intOf entry).map Int.toNat) ↔ id ∈ currentIds := by
  obtain ⟨hall, honly⟩ := sameIds_iff.mp h
  rw [List.mem_filterMap]
  constructor
  · rintro ⟨entry, hentry, hid⟩
    obtain ⟨id', hid', hequals⟩ := honly entry hentry
    obtain rfl : id' = id := by simpa [intOf_of_equals hequals] using hid
    exact hid'
  · intro hid
    obtain ⟨entry, hentry, hequals⟩ := hall id hid
    exact ⟨entry, hentry, by simp [intOf_of_equals hequals]⟩

lemma idToPos_pos {ids : List ListItemId} {id : ListItemId} (h : id ∈ ids) : 0 < idToPos ids id := by
  have hlt := List.idxOf_lt_length_of_mem (List.mem_reverse.mpr h)
  rw [List.length_reverse] at hlt
  unfold idToPos
  omega

/-- Without repetitions the last position of an id is its only one. -/
lemma idToPos_of_nodup {ids : List ListItemId} (hnodup : ids.Nodup) {id : ListItemId}
    (h : id ∈ ids) : idToPos ids id = ids.idxOf id + 1 := by
  have hlt := List.idxOf_lt_length_of_mem h
  have hbound : ids.length - 1 - ids.idxOf id < ids.reverse.length := by
    rw [List.length_reverse]
    omega
  have hget : ids.reverse[ids.length - 1 - ids.idxOf id] = id := by
    rw [List.getElem_reverse]
    simp only [show ids.length - 1 - (ids.length - 1 - ids.idxOf id) = ids.idxOf id by omega]
    exact List.getElem_idxOf hlt
  have hidx := (List.nodup_reverse.mpr hnodup).idxOf_getElem _ hbound
  rw [hget] at hidx
  rw [idToPos, hidx]
  omega

/-- An accepted order is written. -/
lemma renumber_requested (parking placing : Scan ListItemId) (hordered : WellOrdered listPk items)
    (h : sameIds (itemIds listPk items) order = true) {ids : List ListItemId}
    (hids : ids = order.filterMap fun entry => (intOf entry).map Int.toNat) :
    ∃ items', renumber parking placing (itemIds listPk items) (idToPos ids) items = .ok items' ∧
      Reordered listPk (idToPos ids) items items' := by
  have hmem : ∀ id, id ∈ ids ↔ id ∈ itemIds listPk items := by
    intro id
    rw [hids]
    exact mem_requested h
  refine renumber_ok parking placing hordered (.refl _) ?_ fun id hid =>
    idToPos_pos ((hmem id).mpr hid)
  exact .of_inj nodup_itemIds fun a ha b _ heq => idToPos_inj ((hmem a).mpr ha) heq

/-! ### What an accepted order leaves -/

/-- An accepted order is numbered as it is written exactly if it repeats no item. -/
lemma numbered_requested_iff {items' : ListItems} (h : sameIds (itemIds listPk items) order = true)
    {ids : List ListItemId} (hids : ids = order.filterMap fun entry => (intOf entry).map Int.toNat)
    (hreordered : Reordered listPk (idToPos ids) items items') :
    Numbered listPk ids items' ↔ ids.Nodup := by
  have hmem : ∀ id, id ∈ ids ↔ id ∈ itemIds listPk items := by
    intro id
    rw [hids]
    exact mem_requested h
  constructor
  · intro hnumbered
    rw [← hnumbered.canonical, canonicalIds, (sortBy_perm _ _).nodup_iff]
    exact nodup_itemIds
  · intro hnodup
    have hperm : ids.Perm (itemIds listPk items) :=
      (List.perm_ext_iff_of_nodup hnodup nodup_itemIds).mpr hmem
    refine Reordered.numbered hperm (hreordered.congr fun id hid => ?_)
    exact idToPos_of_nodup hnodup ((hmem id).mpr hid)

/-- The request leaves the list in the order that it asks for, numbered from 1, or it is refused. -/
def ReorderCorrect (listPk : ListId) (data : Json) : Except Failure ListItems → Prop
  | .ok items' => Numbered listPk (requestedIds data) items'
  | .error (.response (.detail status _)) => status = 400
  | .error _ => False

lemma reorderAs_correct_iff (hordered : WellOrdered listPk items) {value : Json}
    (hids : requestedIds data =
      (elements value).filterMap fun entry => (intOf entry).map Int.toNat) :
    ReorderCorrect listPk data (reorderAs items parking placing listPk value) ↔
      (elements value).all hashable = true ∧
        (sameIds (itemIds listPk items) (elements value) = true → (requestedIds data).Nodup) := by
  -- a value that is no list, and an empty list, are refused
  have hrefused : elements value = [] →
      reorderAs items parking placing listPk value = .error (.response (.detail 400
        "Body must be a non-empty list or \x7b\"order\": [...]\x7d.")) := by
    intro hnil
    cases value with
    | arr order =>
      obtain rfl : order = [] := hnil
      rfl
    | _ => rfl
  cases hvalue : elements value with
  | nil =>
    rw [hrefused hvalue, hids, hvalue]
    simp [ReorderCorrect]
  | cons first rest =>
    obtain rfl : value = .arr (first :: rest) := by
      cases value <;> simp_all [elements]
    have hids' : requestedIds data =
        (first :: rest).filterMap fun entry => (intOf entry).map Int.toNat := hids
    rw [reorderAs]
    generalize first :: rest = order at hids'
    by_cases hhash : order.all hashable = true
    · by_cases hsame : sameIds (itemIds listPk items) order = true
      · obtain ⟨ids, hread, hrequested⟩ := mapM_intOf hsame
        obtain ⟨items', hwrite, hreordered⟩ := renumber_requested parking placing
          hordered hsame hrequested
        have hnumbered := numbered_requested_iff hsame hrequested hreordered
        rw [hrequested, ← hids'] at hwrite hnumbered
        simp only [hhash, hsame, hread, hrequested, ← hids', hwrite]
        rw [true_and, forall_const, ← hnumbered]
        exact Iff.rfl
      · simp [hhash, hsame, ReorderCorrect]
    · simp [hhash, ReorderCorrect]

/-- A reorder is correct exactly if its body can be read and, where it names the items of the list,
    repeats none of them. -/
theorem reorder_correct_iff (hordered : WellOrdered listPk items)
    (hauth : s.authorize user listPk .reorder = .ok uid) :
    ReorderCorrect listPk data (reorder s items parking placing user listPk data) ↔
      isReadable data = true ∧
        (sameIds (itemIds listPk items) (entries data) = true → (requestedIds data).Nodup) := by
  rw [reorder, hauth]
  cases hvalue : orderValue data with
  | error failure =>
    have hfailure : failure = .exception .attributeError := by
      cases data <;> simp_all [orderValue]
    rw [hfailure]
    simp [isReadable, hvalue, ReorderCorrect, Except.mapError, Except.bind, Except.isOk,
      Except.toBool]
  | ok value =>
    have hentries : entries data = elements value := by
      rw [entries, hvalue]
      rfl
    have hreadable : isReadable data = (elements value).all hashable := by
      rw [isReadable, hvalue, hentries]
      rfl
    rw [hreadable, hentries]
    exact reorderAs_correct_iff hordered (by rw [requestedIds, hentries])

end

/-! ### Samples -/

section

lemma reorder_authorized : favourites.authorize (some 7) 1 .reorder = .ok 7 := by decide

/-- Two items change places. -/
theorem reorder_correct_swap : ReorderCorrect 1 (.arr [.int 2, .int 1])
    (reorder favourites (itemsInOrder [1, 2]) Scan.forward Scan.forward (some 7) 1
      (.arr [.int 2, .int 1])) :=
  (reorder_correct_iff ⟨by decide, by decide⟩ reorder_authorized).mpr ⟨by decide, by decide⟩

/-- An order that repeats an item is accepted, and leaves a gap. -/
theorem reorder_leaves_gap : ¬ ∀ (s : ListState) (items : ListItems)
    (parking placing : Scan ListItemId) (user : Requester) (uid : UserId) (listPk : ListId)
    (data : Json), WellOrdered listPk items → s.authorize user listPk .reorder = .ok uid →
    ReorderCorrect listPk data (reorder s items parking placing user listPk data) := by
  intro h
  have hcorrect := h favourites (itemsInOrder [1, 2]) Scan.forward Scan.forward (some 7) 7 1
    (.arr [.int 1, .int 2, .int 1]) ⟨by decide, by decide⟩ reorder_authorized
  have hresult : (reorder favourites (itemsInOrder [1, 2]) Scan.forward Scan.forward (some 7) 1
      (.arr [.int 1, .int 2, .int 1])).map (canonicalIds 1) = .ok [2, 1] := by decide
  obtain ⟨items', hreorder, hcanonical⟩ := map_eq_ok hresult
  rw [hreorder] at hcorrect
  have hlength := congrArg List.length (hcorrect.canonical.symm.trans hcanonical)
  revert hlength
  decide

end

end Denn.Lists
