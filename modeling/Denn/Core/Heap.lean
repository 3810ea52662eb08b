import Denn.Core.Integer
import Denn.Core.OrderedMap
import Mathlib.Data.Set.Basic

/-!
# Dictionaries and lists in memory

Containers that refer to each other by their addresses, the values along a path of keys and indices,
and assignments to keys, which every holder of the address sees.
-/

namespace Denn.Core

/-- A value without parts, or the address of a container. -/
inductive Val (α : Type*) where
  | atom (a : α)
  | ref (addr : ℕ)
  deriving DecidableEq

inductive Cell (α : Type*) where
  | dict (entries : OrderedMap String (Val α))
  | list (items : List (Val α))

/-- The containers by their addresses. -/
abbrev Heap (α : Type*) := List (Cell α)

/-- The error of an assignment to a key of what is no dictionary. -/
inductive TypeError where
  | typeError
  deriving DecidableEq, Repr

variable {α : Type*}

/-- A value is no address, or one below the bound. -/
def Val.Below (bound : ℕ) : Val α → Prop
  | .atom _ => True
  | .ref addr => addr < bound

instance (bound : ℕ) : DecidablePred (Val.Below bound : Val α → Prop) := fun v =>
  match v with
  | .atom _ => .isTrue trivial
  | .ref addr => inferInstanceAs (Decidable (addr < bound))

def Cell.values : Cell α → List (Val α)
  | .dict entries => entries.values
  | .list items => items

/-- What a value is, without the parts of a container. -/
inductive Shape (α : Type*) where
  | atom (a : α)
  | dict
  | list (length : ℕ)

def Cell.shape : Cell α → Shape α
  | .dict _ => .dict
  | .list items => .list items.length

namespace Heap

/-- The container that a value is the address of. -/
def cell? (h : Heap α) : Val α → Option (Cell α)
  | .ref addr => h[addr]?
  | .atom _ => none

/-- The value of a key, or the item whose index a text reads as. -/
def child? (h : Heap α) (v : Val α) (part : String) : Option (Val α) :=
  match h.cell? v with
  | some (.dict entries) => entries.get? part
  | some (.list items) => (readInt part).bind fun i => if 0 ≤ i then items[i.toNat]? else none
  | none => none

/-- The value at the end of a path. -/
def walk (h : Heap α) (v : Val α) (path : List String) : Option (Val α) := path.foldlM h.child? v

def IsList (h : Heap α) (v : Val α) : Prop := ∃ items, h.cell? v = some (.list items)

def shape? (h : Heap α) : Val α → Option (Shape α)
  | .atom a => some (.atom a)
  | .ref addr => h[addr]?.map Cell.shape

/-- The paths that lead from a value, with what each leads to. -/
def pairs (h : Heap α) (v : Val α) : Set (List String × Shape α) :=
  {pair | (h.walk v pair.1).bind h.shape? = some pair.2}

/-- The address and the entries of a dictionary. -/
def dict? (h : Heap α) : Val α → Option (ℕ × OrderedMap String (Val α))
  | .ref addr =>
    match h[addr]? with
    | some (.dict entries) => some (addr, entries)
    | _ => none
  | .atom _ => none

/-- `current[key] = value`. -/
def setItem (h : Heap α) (current : Val α) (key : String) (value : Val α) :
    Except TypeError (Heap α) :=
  match h.dict? current with
  | some (addr, entries) => .ok (h.set addr (.dict (entries.set key value)))
  | none => .error .typeError

/-- `current[key]`, which is a new dictionary if the key is missing. -/
def enter (h : Heap α) (current : Val α) (key : String) : Except TypeError (Heap α × Val α) :=
  match h.dict? current with
  | some (addr, entries) =>
    match entries.get? key with
    | some child => .ok (h, child)
    | none =>
      .ok ((h ++ [Cell.dict .empty]).set addr (.dict (entries.set key (.ref h.length))), .ref h.length)
  | none => .error .typeError

/-- Assign to the end of a path, making the dictionaries on the way. -/
def place : List String → Heap α → Val α → Val α → Except TypeError (Heap α)
  | [], h, _, _ => .ok h
  | key :: rest, h, current, value =>
    if rest = [] then h.setItem current key value
    else (h.enter current key).bind fun state => place rest state.1 state.2 value

/-- No container refers to an address outside. -/
def Closed (h : Heap α) : Prop := ∀ cell ∈ h, ∀ v ∈ cell.values, v.Below h.length

instance (h : Heap α) : Decidable h.Closed :=
  inferInstanceAs (Decidable (∀ cell ∈ h, ∀ v ∈ cell.values, v.Below h.length))

/-! ### Walks -/

variable {h base : Heap α} {v u : Val α} {key : String} {path rest : List String}

@[simp] lemma walk_nil (h : Heap α) (v : Val α) : h.walk v [] = some v := rfl

lemma walk_append (h : Heap α) (v : Val α) (path rest : List String) :
    h.walk v (path ++ rest) = (h.walk v path).bind fun u => h.walk u rest :=
  List.foldlM_append

lemma walk_cons (h : Heap α) (v : Val α) (key : String) (rest : List String) :
    h.walk v (key :: rest) = (h.child? v key).bind fun u => h.walk u rest := rfl

lemma walk_concat (h : Heap α) (v : Val α) (path : List String) (key : String) :
    h.walk v (path ++ [key]) = (h.walk v path).bind fun u => h.child? u key := by
  rw [walk_append]
  congr 1
  funext u
  rw [walk_cons]
  cases h.child? u key <;> rfl

/-- Nothing comes after a path that leads nowhere. -/
lemma walk_eq_none_beyond (hnone : h.walk v path = none) (hpre : path <+: rest) :
    h.walk v rest = none := by
  obtain ⟨tail, rfl⟩ := hpre
  rw [walk_append, hnone]
  rfl

lemma dict?_eq_some {addr : ℕ} {entries : OrderedMap String (Val α)} :
    h.dict? v = some (addr, entries) ↔ v = .ref addr ∧ h[addr]? = some (.dict entries) := by
  cases v with
  | atom a => simp [dict?]
  | ref b =>
    rw [dict?]
    split
    · rename_i found hfound
      constructor
      · intro heq
        obtain ⟨rfl, rfl⟩ := Prod.mk.inj (Option.some.inj heq)
        exact ⟨rfl, hfound⟩
      · rintro ⟨heq, hcell⟩
        obtain rfl := Val.ref.inj heq
        rw [hfound] at hcell
        obtain rfl := Cell.dict.inj (Option.some.inj hcell)
        rfl
    · rename_i hother
      constructor
      · intro heq
        cases heq
      · rintro ⟨heq, hcell⟩
        obtain rfl := Val.ref.inj heq
        exact absurd hcell (hother entries)

section

variable {addr : ℕ} {entries : OrderedMap String (Val α)}

lemma setItem_of_dict (hdict : h.dict? v = some (addr, entries)) (key : String) (u : Val α) :
    h.setItem v key u = .ok (h.set addr (.dict (entries.set key u))) := by
  simp only [setItem, hdict]

lemma enter_of_get (hdict : h.dict? v = some (addr, entries)) (hentry : entries.get? key = some u) :
    h.enter v key = .ok (h, u) := by
  simp only [enter, hdict, hentry]

lemma enter_of_missing (hdict : h.dict? v = some (addr, entries)) (hentry : entries.get? key = none) :
    h.enter v key = .ok ((h ++ [Cell.dict .empty]).set addr
      (.dict (entries.set key (.ref h.length))), .ref h.length) := by
  simp only [enter, hdict, hentry]

end

lemma mem_pairs {pair : List String × Shape α} :
    pair ∈ h.pairs v ↔ (h.walk v pair.1).bind h.shape? = some pair.2 := Iff.rfl

lemma shape?_dict {addr : ℕ} {entries : OrderedMap String (Val α)}
    (hcell : h[addr]? = some (.dict entries)) : h.shape? (.ref addr) = some .dict := by
  rw [shape?, hcell]
  rfl

lemma child?_dict {addr : ℕ} {entries : OrderedMap String (Val α)}
    (hcell : h[addr]? = some (.dict entries)) (key : String) :
    h.child? (.ref addr) key = entries.get? key := by
  rw [child?, cell?, hcell]

/-! ### A heap that has grown -/

lemma cell?_of_grown (hbase : base <+: h) (hv : v.Below base.length) : h.cell? v = base.cell? v := by
  cases v with
  | atom a => rfl
  | ref addr =>
    obtain ⟨new, rfl⟩ := hbase
    exact List.getElem?_append_left hv

lemma shape?_of_grown (hbase : base <+: h) (hv : v.Below base.length) : h.shape? v = base.shape? v := by
  cases v with
  | atom a => rfl
  | ref addr =>
    have hcell : h[addr]? = base[addr]? := cell?_of_grown hbase hv
    rw [shape?, shape?, hcell]

lemma child?_of_grown (hbase : base <+: h) (hv : v.Below base.length) (key : String) :
    h.child? v key = base.child? v key := by
  rw [child?, child?, cell?_of_grown hbase hv]

lemma Closed.below_child (hclosed : base.Closed) (hchild : base.child? v key = some u) :
    u.Below base.length := by
  cases v with
  | atom a => cases hchild
  | ref addr =>
    rw [child?, cell?] at hchild
    cases hcell : base[addr]? with
    | none => rw [hcell] at hchild; cases hchild
    | some cell =>
      have hmem := List.mem_of_getElem? hcell
      refine hclosed cell hmem u ?_
      rw [hcell] at hchild
      cases cell with
      | dict entries =>
        exact List.mem_map_of_mem (OrderedMap.mem_entries.mpr hchild)
      | list items =>
        obtain ⟨i, -, hitem⟩ := Option.bind_eq_some_iff.mp hchild
        split_ifs at hitem with hi
        exact List.mem_of_getElem? hitem

lemma Closed.below_walk (hclosed : base.Closed) (hv : v.Below base.length)
    (hwalk : base.walk v path = some u) : u.Below base.length := by
  induction path generalizing v with
  | nil =>
    obtain rfl := Option.some.inj hwalk
    exact hv
  | cons key rest ih =>
    rw [walk_cons] at hwalk
    obtain ⟨child, hchild, hwalk⟩ := Option.bind_eq_some_iff.mp hwalk
    exact ih (hclosed.below_child hchild) hwalk

/-- What lies in the old heap has not changed. -/
lemma Closed.walk_of_grown (hclosed : base.Closed) (hbase : base <+: h) (hv : v.Below base.length)
    (path : List String) : h.walk v path = base.walk v path := by
  induction path generalizing v with
  | nil => rfl
  | cons key rest ih =>
    rw [walk_cons, walk_cons, child?_of_grown hbase hv]
    cases hchild : base.child? v key with
    | none => rfl
    | some child => exact ih (hclosed.below_child hchild)

end Heap

end Denn.Core
