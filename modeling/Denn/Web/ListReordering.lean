import Mathlib.Data.List.Perm.Basic
import Denn.Core.Transition
import Denn.Lists.Renumber

/-!
# Dragging the items of a list

The page on which a user puts the items of a list in order: it loads them, moves them while he drags
them, and saves the order by one request. Meanwhile the list is edited elsewhere, the cache of the
page is replaced, and an answer can be lost.
-/

namespace Denn.Lists.Reordering

open Core

variable {δ : Type*}

/-- A list item on the page. Reordering leaves its other fields alone. -/
structure ShownItem (δ : Type*) where
  id : ListItemId
  listOrder : ℤ
  data : δ
  deriving DecidableEq, Repr

/-- `arrayMove` of the sortable library: an element goes to an index, the others keep their order. -/
structure ArrayMove (δ : Type*) where
  move : List (ShownItem δ) → ℕ → ℕ → List (ShownItem δ)
  move_eq : ∀ items oldIndex newIndex (h : oldIndex < items.length), newIndex < items.length →
    move items oldIndex newIndex = (items.eraseIdx oldIndex).insertIdx newIndex items[oldIndex]

/-- A reorder request under way: the items that were shown when it was sent, those to go back to,
    and the answer, which has the items of the list. -/
structure SaveRequest (δ : Type*) where
  items : List (ShownItem δ)
  snapshot : List (ShownItem δ)
  answer : Option (Except Failure ListItems) := none

/-- The loading of all items. -/
inductive Loading (δ : Type*) where
  | idle
  | requested
  | answered (items : List (ShownItem δ))

/-- The state of `useListReordering`, with the cached items that it is given. -/
structure Page (δ : Type*) where
  fullItems : Option (List (ShownItem δ)) := none
  loading : Loading δ := .idle
  originalItems : List (ShownItem δ) := []
  reorderItems : List (ShownItem δ) := []
  activeId : Option ListItemId := none
  isReorderMode : Bool := false
  saving : Option (SaveRequest δ) := none

namespace SaveRequest

def itemIds (request : SaveRequest δ) : List ListItemId := request.items.map (·.id)

/-- `{ order: itemIds }`. -/
def body (request : SaveRequest δ) : Json :=
  .obj [("order", .arr (request.itemIds.map fun (id : ListItemId) => .int id))]

end SaveRequest

namespace Page

/-- `reorderPreparing`. -/
def reorderPreparing (page : Page δ) : Bool := !page.loading matches .idle

/-- The items are ready: the page enters the reorder mode. -/
def startReordering (page : Page δ) (items : List (ShownItem δ)) : Page δ :=
  { page with
    loading := .idle
    originalItems := items
    reorderItems := items
    isReorderMode := true }

/-- `handleEnterReorderMode`. -/
def handleEnterReorderMode (page : Page δ) : Page δ :=
  match page.fullItems with
  | some items => page.startReordering items
  | none => { page with loading := .requested }

def handleDragStart (page : Page δ) (id : ListItemId) : Page δ := { page with activeId := some id }

/-- The items after one was dragged over another. -/
def dragOver (library : ArrayMove δ) (activeId overId : ListItemId) (items : List (ShownItem δ)) :
    List (ShownItem δ) :=
  if activeId = overId then items
  else
    let oldIndex := items.findIdx fun item => item.id = activeId
    let newIndex := items.findIdx fun item => item.id = overId
    (library.move items oldIndex newIndex).mapIdx fun index item =>
      { item with listOrder := index + 1 }

def handleDragOver (library : ArrayMove δ) (page : Page δ) (activeId overId : ListItemId) : Page δ :=
  { page with reorderItems := dragOver library activeId overId page.reorderItems }

def handleDragEnd (page : Page δ) : Page δ := { page with activeId := none }

def handleDragCancel (page : Page δ) : Page δ :=
  { page with activeId := none, reorderItems := page.originalItems }

def handleCancelReorder (page : Page δ) : Page δ :=
  { page with activeId := none, reorderItems := [], originalItems := [], isReorderMode := false }

/-- `handleSaveReorder`, until the request is sent. -/
def handleSaveReorder (page : Page δ) : Page δ :=
  { page with saving := some { items := page.reorderItems, snapshot := page.originalItems } }

/-- The request has succeeded. -/
def onReorderSaved (page : Page δ) (items : List (ShownItem δ)) : Page δ :=
  { page with
    fullItems := some items
    originalItems := items
    reorderItems := []
    isReorderMode := false
    saving := none }

/-- `onError` of the mutation. -/
def onError (page : Page δ) (snapshot : List (ShownItem δ)) : Page δ :=
  { page with reorderItems := snapshot, saving := none }

end Page

/-! ### The page and the server -/

/-- The page, and the tables of the server. -/
structure World (δ : Type*) where
  page : Page δ := {}
  lists : ListState
  items : ListItems

/-- What happens next: an event of the page, the handling or the failure of one of its requests,
    or something that the page does not do. -/
inductive Event (δ : Type*) where
  | enter
  | serveItems (items : List (ShownItem δ))
  | receiveItems
  | failItems
  | dragStart (id : ListItemId)
  | dragOver (activeId overId : ListItemId)
  | dragEnd
  | dragCancel
  | cancel
  | save
  | serveSave (parking placing : Scan ListItemId)
  | receiveSave
  | failSave
  | cache (items : Option (List (ShownItem δ)))
  | edit (lists : ListState) (items : ListItems)

/-- The items of a list are served, each with its order value. -/
def Serves (listPk : ListId) (items : ListItems) (shown : List (ShownItem δ)) : Prop :=
  (shown.map (·.id)).Perm (itemIds listPk items) ∧
    ∀ item ∈ shown, item.listOrder = orderOf items item.id

instance (listPk : ListId) (items : ListItems) (shown : List (ShownItem δ)) :
    Decidable (Serves listPk items shown) := inferInstanceAs (Decidable (_ ∧ _))

instance (listPk : ListId) (items : ListItems) : Decidable (WellOrdered listPk items) :=
  decidable_of_iff
    (DistinctKeys (orderOf items) (itemIds listPk items) ∧
      ∀ id ∈ itemIds listPk items, 0 < orderOf items id)
    ⟨fun h => ⟨h.1, h.2⟩, fun h => ⟨h.distinct, h.positive⟩⟩

def isShown (items : List (ShownItem δ)) (id : ListItemId) : Bool :=
  items.any fun item => item.id = id

namespace World

variable (library : ArrayMove δ) (user : Requester) (listPk : ListId) (w : World δ)

/-- The server handles the reorder request. -/
def serveSave (parking placing : Scan ListItemId) (request : SaveRequest δ) : World δ :=
  let answer := reorder w.lists w.items parking placing user listPk request.body
  { w with
    page := { w.page with saving := some { request with answer := some answer } }
    items := answer.toOption.getD w.items }

def step : Event δ → Option (World δ)
  | .enter =>
    if w.page.isReorderMode || w.page.reorderPreparing then none
    else some { w with page := w.page.handleEnterReorderMode }
  | .serveItems items =>
    match w.page.loading with
    | .requested =>
      if Serves listPk w.items items then
        some { w with page := { w.page with loading := .answered items } }
      else none
    | _ => none
  | .receiveItems =>
    match w.page.loading with
    | .answered items =>
      some { w with page := { w.page.startReordering items with fullItems := some items } }
    | _ => none
  | .failItems =>
    -- `result.data ?? []`
    if w.page.reorderPreparing then some { w with page := w.page.startReordering [] } else none
  | .dragStart id =>
    if w.page.isReorderMode && isShown w.page.reorderItems id then
      some { w with page := w.page.handleDragStart id }
    else none
  | .dragOver activeId overId =>
    if w.page.isReorderMode && isShown w.page.reorderItems activeId &&
        isShown w.page.reorderItems overId then
      some { w with page := w.page.handleDragOver library activeId overId }
    else none
  | .dragEnd =>
    if w.page.isReorderMode then some { w with page := w.page.handleDragEnd } else none
  | .dragCancel =>
    if w.page.isReorderMode then some { w with page := w.page.handleDragCancel } else none
  | .cancel =>
    -- the buttons are disabled while the mutation is pending
    if w.page.isReorderMode && w.page.saving.isNone then
      some { w with page := w.page.handleCancelReorder }
    else none
  | .save =>
    if w.page.isReorderMode && w.page.saving.isNone then
      some { w with page := w.page.handleSaveReorder }
    else none
  | .serveSave parking placing =>
    match w.page.saving with
    | some ⟨items, snapshot, none⟩ =>
      some (w.serveSave user listPk parking placing ⟨items, snapshot, none⟩)
    | _ => none
  | .receiveSave =>
    match w.page.saving with
    | some ⟨items, _, some (.ok _)⟩ => some { w with page := w.page.onReorderSaved items }
    | some ⟨_, snapshot, some (.error _)⟩ => some { w with page := w.page.onError snapshot }
    | _ => none
  | .failSave => w.page.saving.map fun request => { w with page := w.page.onError request.snapshot }
  | .cache items =>
    if ∀ shown ∈ items, (shown.map (·.id)).Nodup then
      some { w with page := { w.page with fullItems := items } }
    else none
  | .edit lists items =>
    if WellOrdered listPk items then some { w with lists, items } else none

end World

/-- The page is opened, maybe in the reorder mode that another page has left on. -/
def reorderSystem (library : ArrayMove δ) (user : Requester) (listPk : ListId) :
    TransitionSystem (World δ) (Event δ) where
  initial w :=
    WellOrdered listPk w.items ∧ ∃ mode, w.page = { isReorderMode := mode }
  step w := w.step library user listPk

/-! ### Dragging -/

/-- What reordering leaves alone. -/
def ShownItem.content (item : ShownItem δ) : ListItemId × δ := (item.id, item.data)

/-- The items are numbered from 1 as they are shown. -/
def IsNumbered (items : List (ShownItem δ)) : Prop :=
  items.map (·.listOrder) = (List.range' 1 items.length).map Int.ofNat

/-- The loaded items are shown in some order, each once, and the order values are those that were
    loaded or count the items. -/
structure Arranged (loaded shown : List (ShownItem δ)) : Prop where
  content : (shown.map ShownItem.content).Perm (loaded.map ShownItem.content)
  orders : shown = loaded ∨ IsNumbered shown

section

variable {library : ArrayMove δ} {items loaded shown : List (ShownItem δ)}
  {id activeId overId : ListItemId}

lemma findIdx_lt_length (h : isShown items id = true) :
    (items.findIdx fun item => item.id = id) < items.length := by
  rw [List.findIdx_lt_length]
  simpa [isShown] using h

lemma map_id_eq (items : List (ShownItem δ)) :
    items.map (·.id) = (items.map ShownItem.content).map Prod.fst := by
  rw [List.map_map]
  rfl

namespace Arranged

lemma refl (items : List (ShownItem δ)) : Arranged items items := ⟨.refl _, .inl rfl⟩

lemma ids_perm (h : Arranged loaded shown) : (shown.map (·.id)).Perm (loaded.map (·.id)) := by
  rw [map_id_eq, map_id_eq]
  exact h.content.map _

lemma nodup (h : Arranged loaded shown) (hloaded : (loaded.map (·.id)).Nodup) :
    (shown.map (·.id)).Nodup :=
  h.ids_perm.nodup_iff.mpr hloaded

end Arranged

lemma map_content_mapIdx (items : List (ShownItem δ)) :
    (items.mapIdx fun index item => { item with listOrder := (index : ℤ) + 1 }).map
      ShownItem.content = items.map ShownItem.content := by
  apply List.ext_getElem
  · simp
  · intro i hi hi'
    simp [ShownItem.content]

lemma isNumbered_mapIdx (items : List (ShownItem δ)) :
    IsNumbered (items.mapIdx fun index item => { item with listOrder := (index : ℤ) + 1 }) := by
  apply List.ext_getElem
  · simp
  · intro i hi hi'
    simp
    omega

/-- Dragging an item over another moves it, and counts the items anew. -/
theorem Arranged.dragOver (h : Arranged loaded shown) (hactive : isShown shown activeId = true)
    (hover : isShown shown overId = true) :
    Arranged loaded (Page.dragOver library activeId overId shown) := by
  unfold Page.dragOver
  split_ifs with heq
  · exact h
  · have hold := findIdx_lt_length hactive
    have hnew := findIdx_lt_length hover
    refine ⟨?_, .inr (isNumbered_mapIdx _)⟩
    rw [map_content_mapIdx, library.move_eq _ _ _ hold hnew]
    refine .trans (.map _ (.trans (List.perm_insertIdx _ _ ?_)
      (List.getElem_cons_eraseIdx_perm hold))) h.content
    rw [List.length_eraseIdx_of_lt hold]
    omega

end

/-! ### The request -/

section

variable {lists : ListState} {items : ListItems} {parking placing : Scan ListItemId}
  {user : Requester} {uid : UserId} {listPk : ListId} {ids : List ListItemId}
  {request : SaveRequest δ}

/-- The server can write the order: the user may reorder the list, and the order has its items. -/
def Accepts (user : Requester) (listPk : ListId) (lists : ListState) (items : ListItems)
    (ids : List ListItemId) : Prop :=
  (∃ uid, lists.authorize user listPk .reorder = .ok uid) ∧ ids ≠ [] ∧
    ids.Perm (itemIds listPk items)

lemma sameIds_int_iff (currentIds ids : List ListItemId) :
    sameIds currentIds (ids.map fun (id : ListItemId) => .int id) = true ↔
      ∀ id, id ∈ currentIds ↔ id ∈ ids := by
  have hequals : ∀ a b : ListItemId, (Json.int a).equals (.int b) = true ↔ a = b := by
    intro a b
    simp [Json.equals, Json.number?]
  rw [sameIds_iff]
  simp only [List.mem_map, exists_exists_and_eq_and, forall_exists_index, and_imp,
    forall_apply_eq_imp_iff₂, hequals, exists_eq_right, exists_eq_right']
  exact ⟨fun h id => ⟨h.1 id, h.2 id⟩, fun h => ⟨fun id => (h id).mp, fun id => (h id).mpr⟩⟩

lemma filterMap_intOf_int (ids : List ListItemId) :
    (ids.map fun (id : ListItemId) => Json.int id).filterMap
      (fun entry => (intOf entry).map Int.toNat) = ids := by
  simp [List.filterMap_map, intOf]

lemma reorder_body (request : SaveRequest δ)
    (hauth : lists.authorize user listPk .reorder = .ok uid) :
    reorder lists items parking placing user listPk request.body =
      reorderAs items parking placing listPk
        (.arr (request.itemIds.map fun (id : ListItemId) => .int id)) := by
  rw [reorder, hauth]
  rfl

/-- An order that names the items of the list, each once, is written. -/
theorem reorder_of_accepts (parking placing : Scan ListItemId) (hordered : WellOrdered listPk items)
    (h : Accepts user listPk lists items request.itemIds) :
    ∃ items', reorder lists items parking placing user listPk request.body = .ok items' ∧
      Reordered listPk (fun id => request.itemIds.idxOf id + 1) items items' ∧
      Numbered listPk request.itemIds items' := by
  obtain ⟨⟨uid, hauth⟩, hne, hperm⟩ := h
  have hnodup : request.itemIds.Nodup := hperm.nodup_iff.mpr nodup_itemIds
  rw [reorder_body request hauth]
  generalize request.itemIds = ids at *
  have hsame : sameIds (itemIds listPk items) (ids.map fun (id : ListItemId) => .int id) = true :=
    (sameIds_int_iff _ _).mpr fun id => hperm.mem_iff.symm
  have hhash : (ids.map fun (id : ListItemId) => Json.int id).all hashable = true := by
    simp [hashable]
  obtain ⟨numbers, hread, hnumbers⟩ := mapM_intOf hsame
  rw [filterMap_intOf_int] at hnumbers
  obtain ⟨items', hwrite, hreordered⟩ := renumber_requested parking placing hordered hsame
    (filterMap_intOf_int ids).symm
  have hindexed : Reordered listPk (fun id => ids.idxOf id + 1) items items' :=
    hreordered.congr fun id hid => idToPos_of_nodup hnodup (hperm.mem_iff.mpr hid)
  refine ⟨items', ?_, hindexed, hindexed.numbered hperm⟩
  obtain ⟨first, rest, rfl⟩ := List.exists_cons_of_ne_nil hne
  rw [List.map_cons] at hsame hhash hread ⊢
  simp only [reorderAs, hsame, hhash, hread, hnumbers, hwrite]
  rfl

/-- Any other order of distinct items is refused. -/
theorem reorder_of_not_accepts (parking placing : Scan ListItemId) (hnodup : request.itemIds.Nodup)
    (h : ¬ Accepts user listPk lists items request.itemIds) :
    ∃ error, reorder lists items parking placing user listPk request.body =
      .error (.response error) ∧ error ≠ .integrityError := by
  cases hauth : lists.authorize user listPk .reorder with
  | error error =>
    refine ⟨error, ?_, ?_⟩
    · rw [reorder, hauth]
      rfl
    · rintro rfl
      revert hauth
      unfold ListState.authorize
      cases user with
      | none => simp [ListState.authenticate, Except.bind]
      | some uid =>
        simp only [ListState.authenticate, Except.bind]
        split_ifs <;> simp
  | ok uid =>
    rw [reorder_body request hauth]
    generalize request.itemIds = ids at *
    cases ids with
    | nil => exact ⟨_, rfl, by simp⟩
    | cons first rest =>
      have hhash : ((first :: rest).map fun (id : ListItemId) => Json.int id).all hashable = true := by
        simp [hashable]
      have hsame : sameIds (itemIds listPk items)
          ((first :: rest).map fun (id : ListItemId) => .int id) = false := by
        by_contra hsame
        rw [Bool.not_eq_false, sameIds_int_iff] at hsame
        exact h ⟨⟨uid, hauth⟩, by simp,
          (List.perm_ext_iff_of_nodup hnodup nodup_itemIds).mpr fun id => (hsame id).symm⟩
      rw [List.map_cons] at hhash hsame ⊢
      simp only [reorderAs, hhash, hsame]
      exact ⟨_, rfl, by simp⟩

end

/-! ### Runs of the page -/

/-- What holds at any time: the list is well ordered, and what is shown in the reorder mode is the
    loaded items in some order. The page waits for one thing at a time. -/
structure Consistent (listPk : ListId) (w : World δ) : Prop where
  ordered : WellOrdered listPk w.items
  cached : ∀ items ∈ w.page.fullItems, (items.map (·.id)).Nodup
  loaded : ∀ items, w.page.loading = .answered items → (items.map (·.id)).Nodup
  waiting : w.page.reorderPreparing = true → w.page.isReorderMode = false
  original : (w.page.originalItems.map (·.id)).Nodup
  shown : w.page.isReorderMode = true → Arranged w.page.originalItems w.page.reorderItems
  saving : ∀ request, w.page.saving = some request → w.page.isReorderMode = true ∧
    request.snapshot = w.page.originalItems ∧ Arranged request.snapshot request.items
  answered : ∀ request items', w.page.saving = some request → request.answer = some (.ok items') →
    Numbered listPk request.itemIds items'

/-- The server has handled a reorder request: it has written the order and nothing else, or it has
    refused it and left the list as it was. -/
structure Handled (user : Requester) (listPk : ListId) (request : SaveRequest δ)
    (w w' : World δ) : Prop where
  accepted : Accepts user listPk w.lists w.items request.itemIds →
    w'.page.saving = some { request with answer := some (.ok w'.items) } ∧
    Numbered listPk request.itemIds w'.items ∧
    Reordered listPk (fun id => request.itemIds.idxOf id + 1) w.items w'.items
  refused : ¬ Accepts user listPk w.lists w.items request.itemIds →
    w'.items = w.items ∧ ∃ error, error ≠ .integrityError ∧
      w'.page.saving = some { request with answer := some (.error (.response error)) }

/-- The page has its answer: it shows the order that the server has written, or again the items
    that it has loaded. -/
structure Settled (listPk : ListId) (request : SaveRequest δ) (w' : World δ) : Prop where
  saved : ∀ items', request.answer = some (.ok items') →
    ∃ shown, w'.page.fullItems = some shown ∧ shown.map (·.id) = canonicalIds listPk items' ∧
      (IsNumbered shown → ∀ item ∈ shown, item.listOrder = orderOf items' item.id) ∧
      w'.page.isReorderMode = false
  failed : ∀ failure, request.answer = some (.error failure) →
    w'.page.reorderItems = w'.page.originalItems ∧ w'.page.isReorderMode = true

section

variable {library : ArrayMove δ} {user : Requester} {listPk : ListId} {w w' : World δ}
  {request : SaveRequest δ} {items : List (ShownItem δ)} {event : Event δ}

namespace Consistent

lemma startReordering (h : Consistent listPk w) (hitems : (items.map (·.id)).Nodup)
    (hmode : w.page.isReorderMode = false) :
    Consistent listPk { w with page := w.page.startReordering items } where
  ordered := h.ordered
  cached := h.cached
  loaded := by simp [Page.startReordering]
  waiting := by simp [Page.startReordering, Page.reorderPreparing]
  original := hitems
  shown _ := .refl items
  saving request hrequest := by
    have hsaving := (h.saving request hrequest).1
    simp [hmode] at hsaving
  answered := h.answered

lemma cache (h : Consistent listPk w) {fullItems : Option (List (ShownItem δ))}
    (hitems : ∀ items ∈ fullItems, (items.map (·.id)).Nodup) :
    Consistent listPk { w with page := { w.page with fullItems } } where
  __ := h
  cached := hitems

lemma arrange (h : Consistent listPk w) (hitems : Arranged w.page.originalItems items)
    (activeId : Option ListItemId) :
    Consistent listPk { w with page := { w.page with activeId, reorderItems := items } } where
  __ := h
  shown _ := hitems

lemma cancel (h : Consistent listPk w) (hsaving : w.page.saving = none) :
    Consistent listPk { w with page := w.page.handleCancelReorder } where
  __ := h
  waiting _ := rfl
  original := List.nodup_nil
  shown := by simp [Page.handleCancelReorder]
  saving := by simp [Page.handleCancelReorder, hsaving]

lemma save (h : Consistent listPk w) (hmode : w.page.isReorderMode = true) :
    Consistent listPk { w with page := w.page.handleSaveReorder } where
  __ := h
  saving := by
    rintro _ ⟨⟩
    exact ⟨hmode, rfl, h.shown hmode⟩
  answered := by
    rintro _ _ ⟨⟩ ⟨⟩

lemma itemIds_nodup (h : Consistent listPk w) (hsaving : w.page.saving = some request) :
    request.itemIds.Nodup := by
  obtain ⟨-, hsnapshot, harranged⟩ := h.saving request hsaving
  exact harranged.nodup (hsnapshot ▸ h.original)

/-- The request is handled, whatever the list has become since the items were loaded. -/
theorem handled (h : Consistent listPk w) (hsaving : w.page.saving = some request)
    (parking placing : Scan ListItemId) :
    Handled user listPk request w (w.serveSave user listPk parking placing request) := by
  constructor
  · intro haccepts
    obtain ⟨items', hreorder, hreordered, hnumbered⟩ :=
      reorder_of_accepts parking placing h.ordered haccepts
    simp only [World.serveSave, hreorder]
    exact ⟨rfl, hnumbered, hreordered⟩
  · intro hrefused
    obtain ⟨error, hreorder, herror⟩ :=
      reorder_of_not_accepts parking placing (h.itemIds_nodup hsaving) hrefused
    simp only [World.serveSave, hreorder]
    exact ⟨rfl, error, herror, rfl⟩

lemma serveSave (h : Consistent listPk w) (hsaving : w.page.saving = some request)
    (parking placing : Scan ListItemId) :
    Consistent listPk (w.serveSave user listPk parking placing request) := by
  have hhandled : Handled user listPk request w (w.serveSave user listPk parking placing request) :=
    h.handled hsaving parking placing
  by_cases haccepts : Accepts user listPk w.lists w.items request.itemIds
  · obtain ⟨hanswer, hnumbered, hreordered⟩ := hhandled.accepted haccepts
    exact
      { h with
        ordered := by
          refine hreordered.wellOrdered (distinctKeys_idxOf haccepts.2.2) fun id _ => ?_
          omega
        saving := by
          rintro _ ⟨⟩
          exact h.saving request hsaving
        answered := by
          intro request' items' hrequest' hanswer'
          obtain rfl := Option.some.inj (hanswer.symm.trans hrequest')
          obtain rfl := Except.ok.inj (Option.some.inj hanswer')
          exact hnumbered }
  · obtain ⟨hitems, error, -, hanswer⟩ := hhandled.refused haccepts
    exact
      { h with
        ordered := hitems ▸ h.ordered
        saving := by
          rintro _ ⟨⟩
          exact h.saving request hsaving
        answered := by
          intro request' items' hrequest' hanswer'
          obtain rfl := Option.some.inj (hanswer.symm.trans hrequest')
          cases hanswer' }

lemma onReorderSaved (h : Consistent listPk w) (hsaving : w.page.saving = some request) :
    Consistent listPk { w with page := w.page.onReorderSaved request.items } where
  __ := h
  cached := by
    rintro _ ⟨⟩
    exact h.itemIds_nodup hsaving
  waiting _ := rfl
  original := h.itemIds_nodup hsaving
  shown := by simp [Page.onReorderSaved]
  saving := by simp [Page.onReorderSaved]
  answered := by simp [Page.onReorderSaved]

lemma onError (h : Consistent listPk w) (hsaving : w.page.saving = some request) :
    Consistent listPk { w with page := w.page.onError request.snapshot } where
  __ := h
  shown _ := (h.saving request hsaving).2.1 ▸ .refl request.snapshot
  saving := by simp [Page.onError]
  answered := by simp [Page.onError]

lemma step (h : Consistent listPk w) (hstep : w.step library user listPk event = some w') :
    Consistent listPk w' := by
  cases event with
  | enter =>
    simp only [World.step] at hstep
    split_ifs at hstep with hguard
    cases hstep
    obtain ⟨hmode, -⟩ : w.page.isReorderMode = false ∧ w.page.reorderPreparing = false := by
      simpa using hguard
    rw [Page.handleEnterReorderMode]
    split
    · rename_i items hitems
      exact h.startReordering (h.cached items hitems) hmode
    · exact { h with loaded := by simp, waiting := fun _ => hmode }
  | serveItems items =>
    simp only [World.step] at hstep
    split at hstep
    · rename_i hloading
      split_ifs at hstep with hserves
      cases hstep
      have hwaiting := h.waiting (by rw [Page.reorderPreparing, hloading]; rfl)
      exact
        { h with
          loaded := by
            rintro _ ⟨⟩
            exact hserves.1.nodup_iff.mpr nodup_itemIds
          waiting := fun _ => hwaiting }
    · cases hstep
  | receiveItems =>
    simp only [World.step] at hstep
    split at hstep
    · rename_i items hloading
      cases hstep
      have hitems := h.loaded items hloading
      have hmode := h.waiting (by rw [Page.reorderPreparing, hloading]; rfl)
      exact (h.startReordering hitems hmode).cache (by simpa using hitems)
    · cases hstep
  | failItems =>
    simp only [World.step] at hstep
    split_ifs at hstep with hguard
    cases hstep
    exact h.startReordering List.nodup_nil (h.waiting hguard)
  | dragStart id =>
    simp only [World.step] at hstep
    split_ifs at hstep with hguard
    cases hstep
    exact { h with }
  | dragOver activeId overId =>
    simp only [World.step] at hstep
    split_ifs at hstep with hguard
    cases hstep
    obtain ⟨⟨hmode, hactive⟩, hover⟩ := by simpa only [Bool.and_eq_true] using hguard
    exact h.arrange ((h.shown hmode).dragOver hactive hover) w.page.activeId
  | dragEnd =>
    simp only [World.step] at hstep
    split_ifs at hstep with hmode
    cases hstep
    exact h.arrange (h.shown hmode) none
  | dragCancel =>
    simp only [World.step] at hstep
    split_ifs at hstep
    cases hstep
    exact h.arrange (.refl _) none
  | cancel =>
    simp only [World.step] at hstep
    split_ifs at hstep with hguard
    cases hstep
    obtain ⟨-, hsaving⟩ := by simpa only [Bool.and_eq_true] using hguard
    exact h.cancel (Option.isNone_iff_eq_none.mp hsaving)
  | save =>
    simp only [World.step] at hstep
    split_ifs at hstep with hguard
    cases hstep
    obtain ⟨hmode, -⟩ := by simpa only [Bool.and_eq_true] using hguard
    exact h.save hmode
  | serveSave parking placing =>
    simp only [World.step] at hstep
    split at hstep
    · rename_i hsaving
      cases hstep
      exact h.serveSave hsaving parking placing
    · cases hstep
  | receiveSave =>
    simp only [World.step] at hstep
    split at hstep
    · rename_i hsaving
      cases hstep
      exact h.onReorderSaved hsaving
    · rename_i hsaving
      cases hstep
      exact h.onError hsaving
    · cases hstep
  | failSave =>
    obtain ⟨request, hsaving, rfl⟩ := Option.map_eq_some_iff.mp hstep
    exact h.onError hsaving
  | cache items =>
    simp only [World.step] at hstep
    split_ifs at hstep with hitems
    cases hstep
    exact h.cache hitems
  | edit lists items =>
    simp only [World.step] at hstep
    split_ifs at hstep with hordered
    cases hstep
    exact { h with ordered := hordered }

lemma initial (h : (reorderSystem library user listPk).initial w) : Consistent listPk w := by
  obtain ⟨hordered, mode, hpage⟩ := h
  constructor <;> simp [hordered, hpage, Page.reorderPreparing, Arranged.refl]

/-- A saved order is the one that the server has written. -/
lemma settled (h : Consistent listPk w) (hsaving : w.page.saving = some request)
    (hstep : w.step library user listPk .receiveSave = some w') :
    Settled listPk request w' := by
  obtain ⟨hmode, hsnapshot, -⟩ := h.saving request hsaving
  obtain ⟨items, snapshot, answer⟩ := request
  constructor
  · rintro items' ⟨⟩
    simp only [World.step, hsaving] at hstep
    cases hstep
    have hnumbered := h.answered _ items' hsaving rfl
    refine ⟨items, rfl, hnumbered.canonical.symm, fun horders item hitem => ?_, rfl⟩
    have hlists : items.map (·.listOrder) = items.map fun item => orderOf items' item.id := by
      have horders' := hnumbered.orders
      simp only [SaveRequest.itemIds, List.length_map, List.map_map] at horders'
      exact horders.trans horders'.symm
    exact List.map_inj_left.mp hlists item hitem
  · rintro failure ⟨⟩
    simp only [World.step, hsaving] at hstep
    cases hstep
    exact ⟨hsnapshot, hmode⟩

end Consistent

end

/-! ### A sample -/

end Denn.Lists.Reordering
