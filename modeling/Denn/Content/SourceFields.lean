import Denn.Core.Except
import Denn.Core.Overlay
import Mathlib.Data.Rat.Defs

/-!
# Source fields

`source_fields` asks for parts of an item's source data by dotted paths. The picked dictionary is new,
but what it holds are the values of the source data themselves.
-/

namespace Denn.Content

open Denn.Core

/-- The values of source data that have no parts. -/
inductive Scalar where
  | null
  | bool (b : Bool)
  | int (n : ℤ)
  | float (q : ℚ)
  | str (s : String)
  deriving DecidableEq

/-- Source data in memory. -/
structure SourceData where
  cells : Heap Scalar
  root : Val Scalar
  closed : cells.Closed
  below : root.Below cells.length

/-- `field.split('.')`. -/
def fieldParts (field : String) : List String := (field.toList.splitOn '.').map String.ofList

/-- The value of one part; `None` counts as missing. -/
def getPart (h : Heap Scalar) (value : Val Scalar) (part : String) : Option (Val Scalar) :=
  (h.child? value part).filter (· ≠ .atom .null)

/-- The value that the parts lead to. -/
def getParts (h : Heap Scalar) (data : Val Scalar) (parts : List String) : Option (Val Scalar) :=
  parts.foldlM (getPart h) data

/-- A turn of the loop over the fields. -/
def pickField (data result : Val Scalar) (h : Heap Scalar) (field : String) :
    Except TypeError (Heap Scalar) :=
  match getParts h data (fieldParts field) with
  | some value => Heap.place (fieldParts field) h result value
  | none => .ok h

/-- The dictionary that the fields are picked into. -/
def SourceData.result (source : SourceData) : Val Scalar := .ref source.cells.length

/-- `_pick_source_fields`. -/
def pickSourceFields (source : SourceData) (fields : List String) : Except TypeError (Heap Scalar) :=
  fields.foldlM (pickField source.root source.result) (source.cells ++ [.dict .empty])

/-- The fields between commas. -/
def requestedFields (sourceFields : String) : List String :=
  (sourceFields.toList.splitOn ',').map fun field => strip (String.ofList field)

/-- `_apply_source_fields`, with the value of the query parameter. -/
def applySourceFields (source : SourceData) (sourceFields : Option String) :
    Except TypeError (Heap Scalar × Val Scalar) :=
  match sourceFields.filter (· ≠ "") with
  | some text => (pickSourceFields source (requestedFields text)).map (·, source.result)
  | none => .ok (source.cells, source.root)

/-- The value that a field asks for. -/
def SourceData.requested (source : SourceData) (field : String) : Option (Val Scalar) :=
  getParts source.cells source.root (fieldParts field)

/-- In any order, the fields can be picked, which leaves the source data as they are and gives each
    field the value that it asks for, and what is picked is the same. -/
structure PicksFaithfully (source : SourceData) (fields : List String) : Prop where
  picks : ∀ fields', fields'.Perm fields → ∃ h, pickSourceFields source fields' = .ok h ∧
    source.cells <+: h ∧ ∀ field ∈ fields, ∀ value, source.requested field = some value →
      h.walk source.result (fieldParts field) = some value
  alike : ∀ fields' fields'' h h', fields'.Perm fields → fields''.Perm fields →
    pickSourceFields source fields' = .ok h → pickSourceFields source fields'' = .ok h' →
    h.pairs source.result = h'.pairs source.result

/-- One field asks for a value in a list that lies at, or below, the value of another field. -/
def BreaksAtList (source : SourceData) (fields : List String) : Prop :=
  ∃ p ∈ fields, ∃ q ∈ fields, (source.requested q).isSome = true ∧
    source.cells.ThroughList source.root (fieldParts p) (fieldParts q)

/-! ### Values -/

lemma fieldParts_ne_nil (field : String) : fieldParts field ≠ [] := by
  rw [fieldParts, Ne, List.map_eq_nil_iff]
  exact List.splitOn_ne_nil _ _

section

variable {source : SourceData} {h : Heap Scalar} {data value : Val Scalar} {parts : List String}

lemma getParts_cons (h : Heap Scalar) (data : Val Scalar) (part : String) (parts : List String) :
    getParts h data (part :: parts) = (getPart h data part).bind fun v => getParts h v parts := rfl

lemma getPart_eq_some {part : String} :
    getPart h data part = some value ↔ h.child? data part = some value ∧ value ≠ .atom .null := by
  rw [getPart, Option.filter_eq_some_iff, decide_eq_true_eq]

lemma walk_of_getParts (hparts : getParts h data parts = some value) :
    h.walk data parts = some value := by
  induction parts generalizing data with
  | nil => exact hparts
  | cons part parts ih =>
    rw [getParts_cons] at hparts
    obtain ⟨child, hchild, hparts⟩ := Option.bind_eq_some_iff.mp hparts
    rw [Heap.walk_cons, (getPart_eq_some.mp hchild).1]
    exact ih hparts

lemma getParts_append (h : Heap Scalar) (data : Val Scalar) (front rest : List String) :
    getParts h data (front ++ rest) = (getParts h data front).bind fun v => getParts h v rest :=
  List.foldlM_append

/-- The fields lead to the same values while the picked dictionary grows. -/
lemma getParts_of_grown (hgrown : source.cells <+: h) (hdata : data.Below source.cells.length) :
    getParts h data parts = getParts source.cells data parts := by
  induction parts generalizing data with
  | nil => rfl
  | cons part parts ih =>
    rw [getParts_cons, getParts_cons, getPart, getPart, Heap.child?_of_grown hgrown hdata]
    cases hchild : (source.cells.child? data part).filter (· ≠ .atom .null) with
    | none => rfl
    | some child =>
      exact ih (source.closed.below_child (Option.filter_eq_some_iff.mp hchild).1)

end

/-! ### Picking -/

/-- The paths of the fields that have a value. -/
def requestedPaths (source : SourceData) (fields : List String) : Set (List String) :=
  {q | ∃ field ∈ fields, fieldParts field = q ∧ (source.requested field).isSome = true}

section

variable {source : SourceData} {h h' : Heap Scalar} {paths : Set (List String)} {field : String}
  {fields fields' : List String}

lemma mem_requestedPaths {q : List String} : q ∈ requestedPaths source fields ↔
    ∃ field ∈ fields, fieldParts field = q ∧ (source.requested field).isSome = true := Iff.rfl

lemma requestedPaths_perm (hperm : fields'.Perm fields) :
    requestedPaths source fields' = requestedPaths source fields :=
  Set.ext fun _ => exists_congr fun _ => and_congr_left' hperm.mem_iff

lemma requestedPaths_cons (source : SourceData) (field : String) (fields : List String) :
    requestedPaths source (field :: fields)
      = requestedPaths source [field] ∪ requestedPaths source fields := by
  refine Set.ext fun q => ?_
  simp only [mem_requestedPaths, Set.mem_union, List.mem_cons, List.not_mem_nil, or_false, or_and_right,
    exists_or]

lemma mem_requestedPaths_singleton {q : List String} :
    q ∈ requestedPaths source [field] ↔
      q = fieldParts field ∧ (source.requested field).isSome = true := by
  rw [mem_requestedPaths]
  constructor
  · rintro ⟨other, hother, rfl, hsome⟩
    obtain rfl := List.mem_singleton.mp hother
    exact ⟨rfl, hsome⟩
  · rintro ⟨rfl, hsome⟩
    exact ⟨field, List.mem_singleton_self field, rfl, hsome⟩

lemma nil_notMem_requestedPaths (source : SourceData) (fields : List String) :
    [] ∉ requestedPaths source fields := by
  rintro ⟨field, -, hnil, -⟩
  exact fieldParts_ne_nil field hnil

/-- What is left of the source data by the fields that have been picked. -/
abbrev Picked (source : SourceData) (paths : Set (List String)) (h : Heap Scalar) : Prop :=
  Heap.Overlay source.cells source.root paths [] h source.result

lemma pickField_eq (hpicked : Picked source paths h) (field : String) :
    pickField source.root source.result h field = (source.requested field).elim (.ok h)
      (Heap.place (fieldParts field) h source.result) := by
  rw [pickField, getParts_of_grown hpicked.grown source.below, ← SourceData.requested]
  cases source.requested field <;> rfl

/-- A field fails if it goes through a list of an earlier one, and is picked otherwise. -/
lemma pickField_spec (hpaths : [] ∉ paths) (hpicked : Picked source paths h) (field : String) :
    (((source.requested field).isSome = true →
        ∀ p ∈ paths, ¬ source.cells.ThroughList source.root p (fieldParts field)) →
      ∃ h', pickField source.root source.result h field = .ok h' ∧
        Picked source (requestedPaths source [field] ∪ paths) h') ∧
    ((source.requested field).isSome = true →
      (∃ p ∈ paths, source.cells.ThroughList source.root p (fieldParts field)) →
      pickField source.root source.result h field = .error .typeError) := by
  rw [pickField_eq hpicked]
  cases hvalue : source.requested field with
  | none =>
    have hnone : requestedPaths source [field] = ∅ := by
      refine Set.eq_empty_of_forall_notMem fun q hq => ?_
      rw [mem_requestedPaths_singleton, hvalue] at hq
      cases hq.2
    rw [hnone, Set.empty_union]
    exact ⟨fun _ => ⟨h, rfl, hpicked⟩, fun hsome => by cases hsome⟩
  | some value =>
    have hone : requestedPaths source [field] = {fieldParts field} := by
      refine Set.ext fun q => ?_
      rw [mem_requestedPaths_singleton, hvalue]
      exact and_iff_left rfl
    have hcurrent : [] ∉ Heap.covered paths := by
      rintro ⟨p, hp, hpre⟩
      exact hpaths (List.prefix_nil.mp hpre ▸ hp)
    have hplace := hpicked.place source.closed source.below (fieldParts_ne_nil field) hcurrent rfl
      (walk_of_getParts hvalue)
    rw [hone, Set.singleton_union]
    exact ⟨fun hgo => hplace.1 (hgo rfl), fun _ => hplace.2⟩

/-- The loop over the fields picks all of them if none goes through a list of another. -/
lemma foldlM_pickField (hpaths : [] ∉ paths) (hpicked : Picked source paths h)
    (hdirect : ∀ field ∈ fields, (source.requested field).isSome = true →
      ∀ p ∈ requestedPaths source fields ∪ paths,
        ¬ source.cells.ThroughList source.root p (fieldParts field)) :
    ∃ h', fields.foldlM (pickField source.root source.result) h = .ok h' ∧
      Picked source (requestedPaths source fields ∪ paths) h' := by
  induction fields generalizing h paths with
  | nil => exact ⟨h, rfl, by simpa [requestedPaths] using hpicked⟩
  | cons field fields ih =>
    obtain ⟨hfirst, hrest⟩ := List.forall_mem_cons.mp hdirect
    obtain ⟨h', hpick, hpicked'⟩ := (pickField_spec hpaths hpicked field).1
      fun hsome p hp => hfirst hsome p (.inr hp)
    have hpaths' : [] ∉ requestedPaths source [field] ∪ paths := fun hmem =>
      hmem.elim (nil_notMem_requestedPaths source [field]) hpaths
    rw [List.foldlM_cons, hpick, requestedPaths_cons, Set.union_comm (requestedPaths source [field]),
      Set.union_assoc]
    refine ih hpaths' hpicked' fun other hother hsome p hp => hrest other hother hsome p ?_
    rw [requestedPaths_cons, Set.union_comm (requestedPaths source [field]), Set.union_assoc]
    exact hp

/-- Whatever is picked leaves the source data as they are. -/
lemma picked_of_foldlM (hpaths : [] ∉ paths) (hpicked : Picked source paths h)
    (hok : fields.foldlM (pickField source.root source.result) h = .ok h') :
    ∃ paths', Picked source paths' h' := by
  induction fields generalizing h paths with
  | nil =>
    cases hok
    exact ⟨paths, hpicked⟩
  | cons field fields ih =>
    rw [List.foldlM_cons] at hok
    obtain ⟨h1, hpick, hok⟩ := bind_eq_ok hok
    have hspec := pickField_spec hpaths hpicked field
    have hgo : (source.requested field).isSome = true →
        ∀ p ∈ paths, ¬ source.cells.ThroughList source.root p (fieldParts field) := by
      intro hsome p hp hthrough
      rw [hspec.2 hsome ⟨p, hp, hthrough⟩] at hpick
      cases hpick
    obtain ⟨h2, hpick', hpicked'⟩ := hspec.1 hgo
    obtain rfl := Except.ok.inj (hpick.symm.trans hpick')
    have hpaths' : [] ∉ requestedPaths source [field] ∪ paths := fun hmem =>
      hmem.elim (nil_notMem_requestedPaths source [field]) hpaths
    exact ih hpaths' hpicked' hok

lemma picked_nil (source : SourceData) : Picked source ∅ (source.cells ++ [.dict .empty]) :=
  Heap.overlay_empty source.cells source.root

/-- A request never changes the source data. -/
theorem applySourceFields_unchanged {sourceFields : Option String} {picked : Heap Scalar × Val Scalar}
    (hok : applySourceFields source sourceFields = .ok picked) : source.cells <+: picked.1 := by
  rw [applySourceFields] at hok
  cases hfilter : sourceFields.filter (· ≠ "") with
  | none =>
    rw [hfilter] at hok
    obtain rfl := Except.ok.inj hok
    exact List.prefix_rfl
  | some text =>
    rw [hfilter] at hok
    obtain ⟨h, hpick, rfl⟩ := map_eq_ok hok
    obtain ⟨paths, hpicked⟩ := picked_of_foldlM (Set.notMem_empty _) (picked_nil source) hpick
    exact hpicked.grown

lemma picked_of_not_breaks (hbreaks : ¬ BreaksAtList source fields) (hperm : fields'.Perm fields) :
    ∃ h, pickSourceFields source fields' = .ok h ∧ Picked source (requestedPaths source fields) h := by
  rw [← requestedPaths_perm hperm, ← Set.union_empty (requestedPaths source fields')]
  refine foldlM_pickField (Set.notMem_empty _) (picked_nil source) ?_
  rintro q hq hsome _ (⟨p, hp, rfl, -⟩ | hnone) hthrough
  · exact hbreaks ⟨p, hperm.mem_iff.mp hp, q, hperm.mem_iff.mp hq, hsome, hthrough⟩
  · exact hnone

/-- A field that goes through a list of the one before it fails. -/
lemma pickSourceFields_error {p q : String} {rest : List String}
    (hsome : (source.requested q).isSome = true)
    (hthrough : source.cells.ThroughList source.root (fieldParts p) (fieldParts q)) :
    pickSourceFields source (p :: q :: rest) = .error .typeError := by
  have hpre : fieldParts p <+: fieldParts q := by
    obtain ⟨r, u, hpr, hrq, -⟩ := hthrough
    exact hpr.trans hrq
  have hpsome : (source.requested p).isSome = true := by
    obtain ⟨tail, htail⟩ := hpre
    rw [SourceData.requested, ← htail, getParts_append] at hsome
    exact Option.isSome_of_isSome_bind hsome
  obtain ⟨h, hpick, hpicked⟩ := (pickField_spec (Set.notMem_empty _) (picked_nil source) p).1
    fun _ _ hmem => absurd hmem (Set.notMem_empty _)
  have hpaths : [] ∉ requestedPaths source [p] ∪ ∅ := fun hmem =>
    hmem.elim (nil_notMem_requestedPaths source [p]) (Set.notMem_empty _)
  have hmem : fieldParts p ∈ requestedPaths source [p] ∪ ∅ :=
    .inl (mem_requestedPaths_singleton.mpr ⟨rfl, hpsome⟩)
  have herror := (pickField_spec hpaths hpicked q).2 hsome ⟨_, hmem, hthrough⟩
  rw [pickSourceFields, List.foldlM_cons, hpick, ok_bind, List.foldlM_cons, herror]
  rfl

/-- Picking is total, faithful and independent of the order exactly if no field goes through a list
    of another. -/
theorem picksFaithfully_iff (source : SourceData) (fields : List String) :
    PicksFaithfully source fields ↔ ¬ BreaksAtList source fields := by
  constructor
  · rintro hfaithful ⟨p, hp, q, hq, hsome, hthrough⟩
    have hne : q ≠ p := by
      rintro rfl
      obtain ⟨r, u, hpr, hrq, hne, -, -⟩ := hthrough
      exact hne (hrq.eq_of_length_le hpr.length_le)
    have hperm : (p :: q :: (fields.erase p).erase q).Perm fields :=
      ((List.perm_cons_erase ((List.mem_erase_of_ne hne).mpr hq)).symm.cons p).trans
        (List.perm_cons_erase hp).symm
    obtain ⟨h, hpick, -, -⟩ := hfaithful.picks _ hperm
    rw [pickSourceFields_error hsome hthrough] at hpick
    cases hpick
  · intro hbreaks
    constructor
    · intro fields' hperm
      obtain ⟨h, hpick, hpicked⟩ := picked_of_not_breaks hbreaks hperm
      refine ⟨h, hpick, hpicked.grown, fun field hfield value hvalue => ?_⟩
      have hmem : fieldParts field ∈ requestedPaths source fields :=
        ⟨field, hfield, rfl, by rw [hvalue]; rfl⟩
      rw [hpicked.leads _ ⟨_, hmem, List.prefix_rfl⟩]
      exact walk_of_getParts hvalue
    · intro fields' fields'' h h' hperm hperm' hpick hpick'
      obtain ⟨h1, hpick1, hpicked⟩ := picked_of_not_breaks hbreaks hperm
      obtain ⟨h2, hpick2, hpicked'⟩ := picked_of_not_breaks hbreaks hperm'
      obtain rfl := Except.ok.inj (hpick.symm.trans hpick1)
      obtain rfl := Except.ok.inj (hpick'.symm.trans hpick2)
      exact hpicked.pairs_eq source.closed source.below hpicked'

/-- Source data with a list of one genre, which has a name. -/
def oneGenre : SourceData where
  cells := [.dict (.ofList [("genres", .ref 1)]), .list [.ref 2],
    .dict (.ofList [("name", .atom (.str "drama"))])]
  root := .ref 0
  closed := by decide
  below := by decide

example : ((pickSourceFields oneGenre ["genres.0.name"]).toOption.bind fun h =>
    h.walk oneGenre.result ["genres", "0", "name"]) = some (.atom (.str "drama")) := rfl

/-- The name of the first genre cannot be picked after the genres. -/
theorem oneGenre_breaks :
    ¬ ∀ (source : SourceData) (fields : List String), PicksFaithfully source fields := by
  intro h
  obtain ⟨_, hpick, -, -⟩ := (h oneGenre ["genres", "genres.0.name"]).picks _ List.Perm.rfl
  have herror : pickSourceFields oneGenre ["genres", "genres.0.name"] = .error .typeError := rfl
  rw [herror] at hpick
  cases hpick

end

end Denn.Content
