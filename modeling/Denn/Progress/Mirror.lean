import Denn.Progress.Collections
import Denn.Core.Except
import Denn.Core.Transition

/-!
# Dynamic collections mirror tracking

The owner's reorders of a system list, and the runs of tracking calls, reorders and
synchronisations of one user. In every state of every run a synchronisation leaves in each list
exactly the items that its collection admits, and touches no row that stays.
-/

namespace Denn

open Core

/-! ### The owner's reorders -/

/-- The primary keys of a list's rows. -/
def itemIds (items : Table ItemId ListItem) : List ℕ := items.rows.map fun row => row.2.id

/-- The last 1-based position of a primary key in a requested order. -/
def idToPos (order : List ℕ) (id : ℕ) : ℤ := order.length - order.reverse.idxOf id

/-- Give every row its position in the order. -/
def placeInOrder (order : List ℕ) (items : Table ItemId ListItem) : Table ItemId ListItem :=
  items.updateWhere (fun _ _ => true) fun _ row => { row with listOrder := idToPos order row.id }

/-- The request must name all rows and no others; any other request is refused. -/
def reorder (order : List ℕ) (items : Table ItemId ListItem) : Table ItemId ListItem :=
  if order ≠ [] ∧ (∀ id ∈ order, id ∈ itemIds items) ∧ ∀ id ∈ itemIds items, id ∈ order then
    placeInOrder order items
  else items

/-- Shift the rows between the new and the old position of a moved row by one. -/
def shiftRows (old position : ℤ) (items : Table ItemId ListItem) : Table ItemId ListItem :=
  if position < old then
    items.updateWhere (fun _ row => position ≤ row.listOrder ∧ row.listOrder < old)
      fun _ row => { row with listOrder := row.listOrder + 1 }
  else
    items.updateWhere (fun _ row => old < row.listOrder ∧ row.listOrder ≤ position)
      fun _ row => { row with listOrder := row.listOrder - 1 }

/-- Move one row to a position. While the others are shifted it stands behind the last row:
    saving it with a negative order value makes the model append it. -/
def move (id : ℕ) (position : ℤ) (items : Table ItemId ListItem) : Table ItemId ListItem :=
  match items.rows.find? fun row => row.2.id = id with
  | none => items
  | some (item, row) =>
    if position < 1 ∨ items.count (fun _ _ => true) < position then items
    else if row.listOrder = position then items
    else
      let parked := items.set item { row with listOrder := nextOrder items }
      (shiftRows row.listOrder position parked).set item { row with listOrder := position }

/-- Run a reorder on one of the lists. -/
def DynamicLists.modify (dynamicLists : DynamicLists) (key : CollectionKey)
    (f : Table ItemId ListItem → Table ItemId ListItem) : DynamicLists :=
  match dynamicLists.lists.get? key with
  | none => dynamicLists
  | some items => { dynamicLists with lists := dynamicLists.lists.set key (f items) }

lemma mem_itemIds {items : Table ItemId ListItem} {item : ItemId} {row : ListItem}
    (h : items.get? item = some row) : row.id ∈ itemIds items :=
  List.mem_map.mpr ⟨(item, row), (Table.mem_rows_iff ..).mpr h, rfl⟩

lemma idToPos_inj {order : List ℕ} {id id' : ℕ} (h : id ∈ order)
    (heq : idToPos order id = idToPos order id') : id = id' := by
  have hidx : order.reverse.idxOf id = order.reverse.idxOf id' := by
    unfold idToPos at heq
    omega
  exact (List.idxOf_inj (List.mem_reverse.mpr h)).mp hidx

lemma ListInvariant.placeInOrder {nextId : ℕ} {items : Table ItemId ListItem}
    (h : ListInvariant nextId items) {order : List ℕ}
    (horder : ∀ id ∈ itemIds items, id ∈ order) :
    ListInvariant nextId (Denn.placeInOrder order items) := by
  have hrow : ∀ item row, (Denn.placeInOrder order items).get? item = some row →
      ∃ old, items.get? item = some old ∧ row = { old with listOrder := idToPos order old.id } := by
    intro item row hget
    rw [Denn.placeInOrder, Table.get?_updateWhere] at hget
    obtain ⟨old, hold, rfl⟩ := Option.map_eq_some_iff.mp hget
    exact ⟨old, hold, rfl⟩
  constructor
  · intro item row hget
    obtain ⟨old, hold, rfl⟩ := hrow item row hget
    exact h.id_lt item old hold
  · intro item item' row row' hget hget' heq
    obtain ⟨old, hold, rfl⟩ := hrow item row hget
    obtain ⟨old', hold', rfl⟩ := hrow item' row' hget'
    exact h.id_inj item item' old old' hold hold' heq
  · intro item item' row row' hget hget' heq
    obtain ⟨old, hold, rfl⟩ := hrow item row hget
    obtain ⟨old', hold', rfl⟩ := hrow item' row' hget'
    have hid := idToPos_inj (horder _ (mem_itemIds hold)) heq
    exact h.id_inj item item' old old' hold hold' hid

lemma ListInvariant.reorder {nextId : ℕ} {items : Table ItemId ListItem}
    (h : ListInvariant nextId items) (order : List ℕ) :
    ListInvariant nextId (Denn.reorder order items) := by
  unfold Denn.reorder
  split_ifs with hvalid
  · exact h.placeInOrder hvalid.2.2
  · exact h

/-- The order value of a row after a shift. -/
def shiftOrder (old position order : ℤ) : ℤ :=
  if position < old then if position ≤ order ∧ order < old then order + 1 else order
  else if old < order ∧ order ≤ position then order - 1 else order

lemma get?_shiftRows (old position : ℤ) (items : Table ItemId ListItem) (item : ItemId) :
    (shiftRows old position items).get? item =
      (items.get? item).map fun row =>
        { row with listOrder := shiftOrder old position row.listOrder } := by
  unfold shiftRows shiftOrder
  split_ifs with hlt <;> rw [Table.get?_updateWhere] <;> congr 1 <;> funext row <;>
    simp only [decide_eq_true_eq] <;> split_ifs <;> rfl

/-- A shift leaves the new position free and keeps the other order values apart. -/
lemma shiftOrder_ne {old position order : ℤ} (h : order ≠ old) :
    shiftOrder old position order ≠ position := by
  unfold shiftOrder
  split_ifs <;> omega

lemma shiftOrder_inj {old position order order' : ℤ} (h : order ≠ old) (h' : order' ≠ old)
    (heq : shiftOrder old position order = shiftOrder old position order') : order = order' := by
  unfold shiftOrder at heq
  split_ifs at heq <;> omega

lemma ListInvariant.move {nextId : ℕ} {items : Table ItemId ListItem}
    (h : ListInvariant nextId items) (id : ℕ) (position : ℤ) :
    ListInvariant nextId (Denn.move id position items) := by
  unfold Denn.move
  split
  · exact h
  · rename_i item row hfind
    have hrow : items.get? item = some row :=
      (Table.mem_rows_iff ..).mp (List.mem_of_find?_eq_some hfind)
    split_ifs with hbounds hsame
    · exact h
    · exact h
    · -- the moved row stands at the position, every other row is shifted
      have hcases : ∀ other after,
          ((shiftRows row.listOrder position
              (items.set item { row with listOrder := nextOrder items })).set item
            { row with listOrder := position }).get? other = some after →
          (other = item ∧ after = { row with listOrder := position }) ∨
          ∃ before, items.get? other = some before ∧ other ≠ item ∧
            before.listOrder ≠ row.listOrder ∧
            after = { before with
              listOrder := shiftOrder row.listOrder position before.listOrder } := by
        intro other after hget
        by_cases heq : other = item
        · subst heq
          rw [Table.get?_set_self, Option.some.injEq] at hget
          exact .inl ⟨rfl, hget.symm⟩
        · rw [Table.get?_set_ne _ _ heq, get?_shiftRows, Table.get?_set_ne _ _ heq] at hget
          obtain ⟨before, hbefore, rfl⟩ := Option.map_eq_some_iff.mp hget
          exact .inr ⟨before, hbefore, heq,
            fun horder => heq (h.order_inj other item before row hbefore hrow horder), rfl⟩
      constructor
      · intro other after hget
        rcases hcases other after hget with ⟨rfl, rfl⟩ | ⟨before, hbefore, _, _, rfl⟩
        · exact h.id_lt other row hrow
        · exact h.id_lt other before hbefore
      · intro other other' after after' hget hget' heq
        rcases hcases other after hget with ⟨rfl, rfl⟩ | ⟨before, hbefore, hne, _, rfl⟩ <;>
        rcases hcases other' after' hget' with ⟨rfl, rfl⟩ | ⟨before', hbefore', hne', _, rfl⟩
        · rfl
        · exact h.id_inj _ _ row before' hrow hbefore' heq
        · exact h.id_inj _ _ before row hbefore hrow heq
        · exact h.id_inj _ _ before before' hbefore hbefore' heq
      · intro other other' after after' hget hget' heq
        rcases hcases other after hget with ⟨rfl, rfl⟩ | ⟨before, hbefore, _, hne, rfl⟩ <;>
        rcases hcases other' after' hget' with ⟨rfl, rfl⟩ | ⟨before', hbefore', _, hne', rfl⟩
        · rfl
        · exact absurd heq.symm (shiftOrder_ne hne')
        · exact absurd heq (shiftOrder_ne hne)
        · exact h.order_inj _ _ before before' hbefore hbefore' (shiftOrder_inj hne hne' heq)

lemma CollectionsInvariant.modify {dynamicLists : DynamicLists}
    (h : CollectionsInvariant dynamicLists) (key : CollectionKey)
    {f : Table ItemId ListItem → Table ItemId ListItem}
    (hf : ListInvariant dynamicLists.nextId (dynamicLists.items key) →
      ListInvariant dynamicLists.nextId (f (dynamicLists.items key))) :
    CollectionsInvariant (dynamicLists.modify key f) := by
  intro other
  have hlist := h key
  unfold DynamicLists.modify
  cases hget : dynamicLists.lists.get? key with
  | none => exact h other
  | some items =>
    by_cases heq : other = key
    · subst heq
      have hitems : dynamicLists.items other = items := by
        rw [DynamicLists.items, hget, Option.getD_some]
      rw [hitems] at hf hlist
      simpa [DynamicLists.items] using hf hlist
    · have hother := h other
      simpa [DynamicLists.items, Table.get?_set_ne _ _ heq] using hother

/-! ### Runs -/

/-- What can happen to one user's progress. The sort that an `applySort` promotes reads data
    outside the lists, so any ranking of the rows can come out of it. The shift of a `move` can
    meet a row that has not moved yet; then the unique constraint rolls the request back. -/
inductive CollectionAction where
  | call (now : Time) (call : ProgressCall)
  | sync
  | reorder (key : CollectionKey) (order : List ℕ)
  | applySort (key : CollectionKey) (ranking : List ℕ)
  | move (key : CollectionKey) (id : ℕ) (position : ℤ) (conflict : Bool)

def collectionStep (catalog : Catalog) (s : UserProgress) :
    CollectionAction → Option UserProgress
  | .call now call => some (call.run catalog now s)
  | .sync => some (syncDynamicCollections catalog s)
  | .reorder key order =>
    some { s with dynamicLists := s.dynamicLists.modify key (Denn.reorder order) }
  | .applySort key ranking =>
    if ranking.Perm (itemIds (s.dynamicLists.items key)) then
      some { s with dynamicLists := s.dynamicLists.modify key (placeInOrder ranking) }
    else none
  | .move key id position conflict =>
    if conflict then some s
    else some { s with dynamicLists := s.dynamicLists.modify key (Denn.move id position) }

/-- The runs of one user, from no rows at all. -/
def collectionSystem (catalog : Catalog) : TransitionSystem UserProgress CollectionAction where
  initial s := s = UserProgress.empty
  step := collectionStep catalog

variable {catalog : Catalog}

/-- A banner edit writes the profile only. -/
lemma updateBanner_dynamicLists {content : Option (Option ItemId)}
    {image : Option (Option ImageId)} {s s' : UserProgress}
    (h : updateBanner catalog content image s = .ok s') : s'.dynamicLists = s.dynamicLists := by
  unfold updateBanner at h
  simp only at h
  repeat' split at h
  all_goals first | contradiction | (cases h; rfl)

lemma ensureTracking_ok {item : ItemId} {status : TrackingStatus}
    {s s' : UserProgress} {row : Tracking}
    (h : ensureTracking catalog item status s = .ok (row, s')) :
    ∃ tracking, s' = syncDynamicCollections catalog { s with tracking } := by
  unfold ensureTracking at h
  split_ifs at h with hsupported
  cases hrow : s.tracking.get? item with
  | some old =>
    simp only [hrow, Except.ok.injEq, Prod.mk.injEq] at h
    exact ⟨s.tracking, h.2.symm⟩
  | none =>
    simp only [hrow, Except.ok.injEq, Prod.mk.injEq] at h
    exact ⟨_, h.2.symm⟩

variable (catalog) in
/-- A call leaves the lists alone, or it ends with a synchronisation of them. -/
lemma ProgressCall.run_dynamicLists (now : Time) (s : UserProgress) (call : ProgressCall) :
    ∃ s', s'.dynamicLists = s.dynamicLists ∧
      (call.run catalog now s = s' ∨ call.run catalog now s = syncDynamicCollections catalog s') := by
  unfold ProgressCall.run
  cases hresult : call.result catalog now s with
  | error _ => exact ⟨s, rfl, .inl rfl⟩
  | ok after =>
    cases call with
    | ensureTracking item =>
      obtain ⟨⟨row, after⟩, hok, rfl⟩ := map_eq_ok hresult
      obtain ⟨tracking, rfl⟩ := ensureTracking_ok hok
      exact ⟨{ s with tracking }, rfl, .inr rfl⟩
    | transitionTracking item status acknowledge =>
      obtain ⟨⟨transition, after⟩, hok, rfl⟩ := map_eq_ok hresult
      refine ⟨_, ?_, .inr (transitionTracking_ok hok).2⟩
      rfl
    | saveRating item score comment spoiler =>
      cases hresult
      refine ⟨_, ?_, .inr rfl⟩
      rfl
    | setFavorite item isFavorite =>
      obtain ⟨⟨row, after⟩, hok, rfl⟩ := map_eq_ok hresult
      obtain ⟨_, _, _, _, _, rfl⟩ := setFavorite_ok hok
      refine ⟨_, ?_, .inl rfl⟩
      rfl
    | deleteTracking item acknowledge =>
      obtain ⟨⟨deleted, after⟩, hok, rfl⟩ := map_eq_ok hresult
      rcases deleteTracking_ok hok with ⟨_, rfl⟩ | ⟨row, _, _, rfl⟩
      · exact ⟨_, rfl, .inl rfl⟩
      · refine ⟨_, ?_, .inr rfl⟩
        rfl
    | deleteRating item =>
      cases hresult
      refine ⟨_, ?_, .inl rfl⟩
      rfl
    | updateBanner content image => exact ⟨after, updateBanner_dynamicLists hresult, .inl rfl⟩

/-- Every list of every run satisfies the invariant. -/
theorem collectionsInvariant_of_reachable {s : UserProgress}
    (h : (collectionSystem catalog).Reachable s) : CollectionsInvariant s.dynamicLists := by
  refine h.invariant (I := fun s => CollectionsInvariant s.dynamicLists) ?_ ?_
  · rintro s rfl key
    simpa [DynamicLists.items, UserProgress.empty] using ListInvariant.empty
  · intro s action s' hinv hstep
    cases action with
    | call now call =>
      obtain ⟨before, hsame, hrun⟩ := call.run_dynamicLists catalog now s
      rw [← hsame] at hinv
      cases hstep
      rcases hrun with hrun | hrun <;> rw [hrun]
      · exact hinv
      · exact hinv.syncDynamicCollections
    | sync =>
      cases hstep
      exact hinv.syncDynamicCollections
    | reorder key order =>
      cases hstep
      exact hinv.modify key fun hitems => hitems.reorder order
    | applySort key ranking =>
      simp only [collectionSystem, collectionStep] at hstep
      split_ifs at hstep with hperm
      cases hstep
      refine hinv.modify key fun hitems => hitems.placeInOrder fun id hid => ?_
      exact hperm.mem_iff.mpr hid
    | move key id position conflict =>
      simp only [collectionSystem, collectionStep] at hstep
      split_ifs at hstep
      · cases hstep
        exact hinv
      · cases hstep
        exact hinv.modify key fun hitems => hitems.move id position

/-! ### The mirror -/

/-- Two states hold the same rows. -/
structure SameProgress (s s' : UserProgress) : Prop where
  tracking : s.tracking = s'.tracking
  ratings : s.ratings = s'.ratings
  profile : s.profile = s'.profile
  nextId : s.dynamicLists.nextId = s'.dynamicLists.nextId
  lists : ∀ key, s.dynamicLists.lists.get? key = s'.dynamicLists.lists.get? key

/-- A list that its collection defines: it holds the admitted items, each once, as many as the
    collection counts, in distinct places. -/
structure Mirrors (catalog : Catalog) (tracking : Table ItemId Tracking)
    (definition : DynamicCollectionDefinition) (items : Table ItemId ListItem) : Prop where
  members : ∀ item, (items.rows.map Prod.fst).count item =
    if isAdmitted catalog tracking definition item then 1 else 0
  size : items.count (fun _ _ => true) = collectionCounts catalog tracking definition
  orders : (items.rows.map fun row => row.2.listOrder).Nodup

section Mirror

variable {tracking : Table ItemId Tracking} {definition : DynamicCollectionDefinition}
  {current : Table ItemId ListItem} {nextId : ℕ}

lemma isSome_get?_syncItems (item : ItemId) :
    ((syncItems catalog tracking definition current nextId).get? item).isSome =
      isAdmitted catalog tracking definition item := by
  rw [get?_syncItems]
  split_ifs with hadmitted
  · rw [hadmitted, Option.isSome_some]
  · rw [Bool.eq_false_iff.mpr hadmitted, Option.isSome_none]

lemma ListInvariant.mirrors (h : ListInvariant nextId current) :
    Mirrors catalog tracking definition
      (Denn.syncItems catalog tracking definition current nextId) where
  members item := by
    rw [Table.count_keys, isSome_get?_syncItems]
  size := by
    rw [collectionCounts_eq_count]
    refine Table.count_eq_count fun item => ?_
    have hsome : ((Denn.syncItems catalog tracking definition current nextId).get? item).isSome =
        isAdmitted catalog tracking definition item := isSome_get?_syncItems item
    rw [← isAdmitted_iff, ← hsome, Option.isSome_iff_exists]
    simp
  orders := Table.nodup_map_rows fun item item' row row' hrow hrow' heq =>
    h.syncItems.order_inj item item' row row' hrow hrow' heq

/-- After a synchronisation nothing is missing. -/
lemma missingIds_syncItems :
    missingIds catalog tracking definition
      (syncItems catalog tracking definition current nextId) = [] := by
  rw [List.eq_nil_iff_forall_not_mem]
  intro item hmem
  obtain ⟨hadmitted, hnone⟩ := mem_missingIds.mp hmem
  rw [get?_syncItems, if_pos hadmitted] at hnone
  cases hnone

/-- A second synchronisation keeps the list. -/
lemma syncItems_syncItems (nextId' : ℕ) :
    syncItems catalog tracking definition
        (syncItems catalog tracking definition current nextId) nextId' =
      syncItems catalog tracking definition current nextId := by
  refine syncItems_of_missingIds_nil missingIds_syncItems fun item row hrow => ?_
  have hsome : ((syncItems catalog tracking definition current nextId).get? item).isSome =
      isAdmitted catalog tracking definition item := isSome_get?_syncItems item
  rw [← hsome, hrow, Option.isSome_some]

end Mirror

/-- A second synchronisation changes no row. -/
lemma syncDynamicCollections_idempotent (s : UserProgress) :
    SameProgress (syncDynamicCollections catalog (syncDynamicCollections catalog s))
      (syncDynamicCollections catalog s) := by
  obtain ⟨-, hfirst⟩ := syncDynamicCollections_spec catalog s
  obtain ⟨hnext, hsecond⟩ :=
    syncDynamicCollections_spec catalog (syncDynamicCollections catalog s)
  have hitems : ∀ definition ∈ dynamicCollections, ∃ nextId,
      (syncDynamicCollections catalog s).dynamicLists.lists.get? definition.key =
        some (syncItems catalog s.tracking definition (s.dynamicLists.items definition.key)
          nextId) ∧
      (syncDynamicCollections catalog s).dynamicLists.items definition.key =
        syncItems catalog s.tracking definition (s.dynamicLists.items definition.key)
          nextId := by
    intro definition hmem
    obtain ⟨nextId, -, -, hlist⟩ := hfirst definition hmem
    refine ⟨nextId, hlist, ?_⟩
    rw [DynamicLists.items, hlist, Option.getD_some]
  refine ⟨rfl, rfl, rfl, ?_, ?_⟩
  · rw [hnext, Nat.add_eq_left]
    refine List.sum_eq_zero fun missing hmem => ?_
    obtain ⟨definition, hdefinition, rfl⟩ := List.mem_map.mp hmem
    obtain ⟨nextId, -, hrows⟩ := hitems definition hdefinition
    rw [syncDynamicCollections_tracking, hrows, missingIds_syncItems, List.length_nil]
  · intro key
    obtain ⟨definition, hmem, rfl⟩ := exists_definition key
    obtain ⟨nextId, hlist, hrows⟩ := hitems definition hmem
    obtain ⟨nextId', -, -, hlist'⟩ := hsecond definition hmem
    rw [hlist', hlist, syncDynamicCollections_tracking, hrows, syncItems_syncItems]

/-- Right after a synchronisation every list mirrors the tracking rows, the rows that stay are
    the rows that were there, with their order values, and synchronising again changes
    nothing. -/
theorem syncDynamicCollections_mirrors {s : UserProgress}
    (h : (collectionSystem catalog).Reachable s) :
    (∀ definition ∈ dynamicCollections, ∃ items,
      (syncDynamicCollections catalog s).dynamicLists.lists.get? definition.key = some items ∧
      Mirrors catalog s.tracking definition items ∧
      ∀ item row, (s.dynamicLists.items definition.key).get? item = some row →
        isAdmitted catalog s.tracking definition item = true → items.get? item = some row) ∧
    SameProgress (syncDynamicCollections catalog (syncDynamicCollections catalog s))
      (syncDynamicCollections catalog s) := by
  have hinv := collectionsInvariant_of_reachable h
  refine ⟨fun definition hmem => ?_, syncDynamicCollections_idempotent s⟩
  obtain ⟨nextId, hle, -, hlist⟩ :=
    (syncDynamicCollections_spec catalog s).2 definition hmem
  refine ⟨_, hlist, ((hinv definition.key).mono hle).mirrors, fun item row hrow hadmitted => ?_⟩
  rw [get?_syncItems, if_pos hadmitted, hrow, Option.getD_some]

/-- A movie that was just put on the backlog stands in the backlog list once. -/
theorem syncDynamicCollections_mirrors_backlog :
    ∃ items, (syncDynamicCollections ⟨fun _ => .movie, fun _ => none⟩
        ((ProgressCall.ensureTracking 7).run ⟨fun _ => .movie, fun _ => none⟩ 0
          .empty)).dynamicLists.lists.get? .backlog = some items ∧
      (items.rows.map Prod.fst).count 7 = 1 := by
  have hreachable : (collectionSystem ⟨fun _ => .movie, fun _ => none⟩).Reachable
      ((ProgressCall.ensureTracking 7).run ⟨fun _ => .movie, fun _ => none⟩ 0 .empty) :=
    .step (a := .call 0 (.ensureTracking 7)) (.initial rfl) trivial rfl
  obtain ⟨items, hlist, hmirrors, -⟩ := (syncDynamicCollections_mirrors hreachable).1
    { key := .backlog, status := some .backlog } (List.mem_cons_self ..)
  exact ⟨items, hlist, hmirrors.members 7⟩

end Denn
