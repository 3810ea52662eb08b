import Mathlib.Data.List.Dedup
import Mathlib.Tactic.Common

/-!
# Maps in the order of insertion

A map that enumerates its entries in the order in which their keys came in first; a value that is set
again replaces the one before, in its place.
-/

namespace Denn.Core

variable {κ ρ : Type*}

structure OrderedMap (κ ρ : Type*) where
  entries : List (κ × ρ)
  nodup : (entries.map Prod.fst).Nodup

namespace OrderedMap

def empty : OrderedMap κ ρ := ⟨[], List.nodup_nil⟩

/-- The values in the order of the keys. -/
def values (m : OrderedMap κ ρ) : List ρ := m.entries.map Prod.snd

variable [DecidableEq κ]

def get? (m : OrderedMap κ ρ) (key : κ) : Option ρ := m.entries.lookup key

/-- Replace the entry of a key, or append one. -/
def setEntry (key : κ) (value : ρ) : List (κ × ρ) → List (κ × ρ)
  | [] => [(key, value)]
  | entry :: entries =>
    if entry.1 = key then (key, value) :: entries else entry :: setEntry key value entries

lemma keys_setEntry (key : κ) (value : ρ) (entries : List (κ × ρ)) :
    (setEntry key value entries).map Prod.fst =
      if key ∈ entries.map Prod.fst then entries.map Prod.fst else entries.map Prod.fst ++ [key] := by
  induction entries with
  | nil => rfl
  | cons entry entries ih =>
    rw [setEntry]
    by_cases hkey : entry.1 = key
    · simp [hkey]
    · rw [if_neg hkey, List.map_cons, ih]
      simp only [List.map_cons, List.mem_cons, Ne.symm hkey, false_or]
      split_ifs <;> rfl

def set (m : OrderedMap κ ρ) (key : κ) (value : ρ) : OrderedMap κ ρ where
  entries := setEntry key value m.entries
  nodup := by
    rw [keys_setEntry]
    split_ifs with hmem
    · exact m.nodup
    · rw [List.nodup_append_comm, List.singleton_append, List.nodup_cons]
      exact ⟨hmem, m.nodup⟩

/-- The map that a list of entries is inserted into, one after the other. -/
def ofList (entries : List (κ × ρ)) : OrderedMap κ ρ :=
  entries.foldl (fun m entry => m.set entry.1 entry.2) empty

variable {m : OrderedMap κ ρ} {entries : List (κ × ρ)} {key : κ} {value : ρ}

lemma lookup_cons (entry : κ × ρ) (entries : List (κ × ρ)) (key : κ) :
    (entry :: entries).lookup key = if key = entry.1 then some entry.2 else entries.lookup key := by
  obtain ⟨name, value⟩ := entry
  by_cases h : key = name
  · simp [h]
  · simp [List.lookup_cons, h, beq_false_of_ne h]

lemma lookup_setEntry (key : κ) (value : ρ) (entries : List (κ × ρ)) (other : κ) :
    (setEntry key value entries).lookup other =
      if other = key then some value else entries.lookup other := by
  induction entries with
  | nil => rw [setEntry, lookup_cons]
  | cons entry entries ih =>
    rw [setEntry]
    by_cases hkey : entry.1 = key
    · rw [if_pos hkey, lookup_cons, lookup_cons, hkey]
      split_ifs <;> rfl
    · rw [if_neg hkey, lookup_cons, lookup_cons, ih]
      by_cases hother : other = key
      · rw [if_neg (hother ▸ Ne.symm hkey), if_pos hother, if_pos hother]
      · simp only [hother, if_false]

lemma get?_set (m : OrderedMap κ ρ) (key : κ) (value : ρ) (other : κ) :
    (m.set key value).get? other = if other = key then some value else m.get? other :=
  lookup_setEntry key value m.entries other

lemma setEntry_eq_self (h : entries.lookup key = some value) : setEntry key value entries = entries := by
  induction entries with
  | nil => cases h
  | cons entry entries ih =>
    obtain ⟨name, first⟩ := entry
    rw [lookup_cons] at h
    rw [setEntry]
    by_cases hname : name = key
    · subst hname
      rw [if_pos rfl] at h
      obtain rfl := Option.some.inj h
      exact if_pos rfl
    · rw [if_neg (Ne.symm hname)] at h
      rw [if_neg hname, ih h]

/-- A value that is set again changes nothing. -/
lemma set_eq_self (h : m.get? key = some value) : m.set key value = m := by
  cases m
  rw [set]
  congr 1
  exact setEntry_eq_self h

/-- An entry is the last of its key. -/
def IsLast (entries : List (κ × ρ)) (key : κ) (value : ρ) : Prop :=
  ∃ front rest, entries = front ++ (key, value) :: rest ∧ ∀ entry ∈ rest, entry.1 ≠ key

omit [DecidableEq κ] in
lemma isLast_cons (entry : κ × ρ) :
    IsLast (entry :: entries) key value ↔
      IsLast entries key value ∨ (∀ other ∈ entries, other.1 ≠ key) ∧ entry = (key, value) := by
  constructor
  · rintro ⟨front, rest, heq, hrest⟩
    cases front with
    | nil =>
      obtain ⟨rfl, rfl⟩ := List.cons.inj heq
      exact .inr ⟨hrest, rfl⟩
    | cons first front =>
      obtain ⟨-, rfl⟩ := List.cons.inj heq
      exact .inl ⟨front, rest, rfl, hrest⟩
  · rintro (⟨front, rest, rfl, hrest⟩ | ⟨hrest, rfl⟩)
    · exact ⟨entry :: front, rest, rfl, hrest⟩
    · exact ⟨[], entries, rfl, hrest⟩

omit [DecidableEq κ] in
lemma IsLast.mem (h : IsLast entries key value) : (key, value) ∈ entries := by
  obtain ⟨front, rest, rfl, -⟩ := h
  exact List.mem_append_right _ List.mem_cons_self

lemma exists_isLast (h : ∃ entry ∈ entries, entry.1 = key) : ∃ value, IsLast entries key value := by
  induction entries with
  | nil => simp at h
  | cons entry entries ih =>
    simp only [isLast_cons]
    by_cases hlater : ∃ other ∈ entries, other.1 = key
    · obtain ⟨value, hvalue⟩ := ih hlater
      exact ⟨value, .inl hvalue⟩
    · have hkey : entry.1 = key := by
        obtain ⟨other, hmem, hother⟩ := h
        rcases List.mem_cons.mp hmem with rfl | hmem
        · exact hother
        · exact absurd ⟨other, hmem, hother⟩ hlater
      refine ⟨entry.2, .inr ⟨fun other hmem hother => hlater ⟨other, hmem, hother⟩, ?_⟩⟩
      rw [← hkey]

omit [DecidableEq κ] in
/-- The last entry of a key among entries that are read off a list. -/
lemma isLast_map {α : Type*} {elements : List α} {f : α → κ} {a : α} :
    IsLast (elements.map fun b => (f b, b)) key a ↔ f a = key ∧
      ∃ front rest, elements = front ++ a :: rest ∧ ∀ b ∈ rest, f b ≠ key := by
  constructor
  · rintro ⟨front, rest, heq, hrest⟩
    obtain ⟨front, tail, rfl, rfl, htail⟩ := List.map_eq_append_iff.mp heq
    obtain ⟨b, rest, rfl, hb, rfl⟩ := List.map_eq_cons_iff.mp htail
    obtain ⟨rfl, rfl⟩ := Prod.mk.inj hb
    exact ⟨rfl, front, rest, rfl, fun c hc => hrest _ (List.mem_map_of_mem hc)⟩
  · rintro ⟨rfl, front, rest, rfl, hrest⟩
    refine ⟨front.map fun b => (f b, b), rest.map fun b => (f b, b), by simp, fun entry hentry => ?_⟩
    obtain ⟨b, hb, rfl⟩ := List.mem_map.mp hentry
    exact hrest b hb

lemma get?_foldl_set :
    (entries.foldl (fun m entry => m.set entry.1 entry.2) m).get? key = some value ↔
      IsLast entries key value ∨ (∀ other ∈ entries, other.1 ≠ key) ∧ m.get? key = some value := by
  induction entries generalizing m with
  | nil => simp [IsLast]
  | cons entry entries ih =>
    rw [List.foldl_cons, ih, isLast_cons, get?_set, List.forall_mem_cons, or_assoc]
    refine or_congr_right ?_
    by_cases hkey : key = entry.1
    · obtain ⟨name, last⟩ := entry
      simp [hkey]
    · have hentry : entry ≠ (key, value) := fun heq => hkey (heq ▸ rfl)
      simp [hkey, Ne.symm hkey, hentry]

/-- The value of a key is the one of its last entry. -/
theorem get?_ofList : (ofList entries).get? key = some value ↔ IsLast entries key value := by
  rw [ofList, get?_foldl_set]
  simp [get?, empty]

/-- Where a key has at most one value, it is the value of each of its entries. -/
lemma get?_ofList_eq {found : Option ρ}
    (h : ∀ value, (key, value) ∈ entries ↔ found = some value) : (ofList entries).get? key = found := by
  refine Option.ext fun value => ?_
  rw [get?_ofList, ← h]
  refine ⟨IsLast.mem, fun hmem => ?_⟩
  obtain ⟨last, hlast⟩ := exists_isLast ⟨(key, value), hmem, rfl⟩
  have hsame : some value = some last := ((h value).mp hmem).symm.trans ((h last).mp hlast.mem)
  rwa [Option.some.inj hsame]

lemma get?_ofList_eq_none : (ofList entries).get? key = none ↔ ∀ entry ∈ entries, entry.1 ≠ key := by
  constructor
  · intro hnone entry hentry hkey
    obtain ⟨value, hlast⟩ := exists_isLast ⟨entry, hentry, hkey⟩
    rw [get?_ofList.mpr hlast] at hnone
    exact nomatch hnone
  · intro h
    refine Option.eq_none_iff_forall_ne_some.mpr fun value hvalue => ?_
    exact h _ (get?_ofList.mp hvalue).mem rfl

/-- A map of images has the images of the values. -/
lemma get?_ofList_map {ρ' : Type*} (g : ρ → ρ') :
    (ofList (entries.map fun entry => (entry.1, g entry.2))).get? key
      = ((ofList entries).get? key).map g := by
  have hfold : ∀ (m : OrderedMap κ ρ) (m' : OrderedMap κ ρ'), m'.get? key = (m.get? key).map g →
      ((entries.map fun entry => (entry.1, g entry.2)).foldl
          (fun m entry => m.set entry.1 entry.2) m').get? key
        = ((entries.foldl (fun m entry => m.set entry.1 entry.2) m).get? key).map g := by
    induction entries with
    | nil => exact fun _ _ h => h
    | cons entry entries ih =>
      intro m m' h
      rw [List.map_cons, List.foldl_cons, List.foldl_cons]
      refine ih _ _ ?_
      rw [get?_set, get?_set, h]
      split_ifs <;> rfl
  exact hfold empty empty rfl

lemma mem_entries : (key, value) ∈ m.entries ↔ m.get? key = some value := by
  obtain ⟨entries, hnodup⟩ := m
  change (key, value) ∈ entries ↔ entries.lookup key = some value
  induction entries with
  | nil => simp
  | cons entry entries ih =>
    obtain ⟨hfresh, hnodup⟩ := List.nodup_cons.mp hnodup
    rw [lookup_cons, List.mem_cons, ih hnodup]
    by_cases hkey : key = entry.1
    · have hnone : entries.lookup key ≠ some value := fun hlookup =>
        hfresh (hkey ▸ List.mem_map_of_mem ((ih hnodup).mpr hlookup))
      obtain ⟨name, first⟩ := entry
      simp only [hkey] at hnone ⊢
      simp [hnone, eq_comm]
    · have hentry : (key, value) ≠ entry := fun heq => hkey (heq ▸ rfl)
      simp [hkey, hentry]

lemma mem_keys_ofList :
    key ∈ (ofList entries).entries.map Prod.fst ↔ key ∈ entries.map Prod.fst := by
  rw [List.mem_map, List.mem_map]
  constructor
  · rintro ⟨⟨other, value⟩, hentry, rfl⟩
    exact ⟨_, (get?_ofList.mp (mem_entries.mp hentry)).mem, rfl⟩
  · intro h
    obtain ⟨value, hlast⟩ := exists_isLast h
    exact ⟨(key, value), mem_entries.mpr (get?_ofList.mpr hlast), rfl⟩

/-- A map has as many values as there are different keys. -/
lemma length_values_ofList (entries : List (κ × ρ)) :
    (ofList entries).values.length = (entries.map Prod.fst).dedup.length := by
  rw [values, List.length_map, ← List.length_map Prod.fst]
  refine ((List.perm_ext_iff_of_nodup (ofList entries).nodup (List.nodup_dedup _)).mpr
    fun key => ?_).length_eq
  rw [List.mem_dedup, mem_keys_ofList]

lemma mem_values : value ∈ m.values ↔ ∃ key, m.get? key = some value := by
  simp only [values, List.mem_map, Prod.exists, exists_eq_right, mem_entries]

/-! ### New values under the same keys -/

def mapValues {ρ' : Type*} (f : κ → ρ → ρ') (m : OrderedMap κ ρ) : OrderedMap κ ρ' where
  entries := m.entries.map fun entry => (entry.1, f entry.1 entry.2)
  nodup := by
    rw [List.map_map]
    exact m.nodup

lemma get?_mapValues {ρ' : Type*} (f : κ → ρ → ρ') (m : OrderedMap κ ρ) (key : κ) :
    (m.mapValues f).get? key = (m.get? key).map (f key) := by
  have hlookup : ∀ entries : List (κ × ρ),
      (entries.map fun entry => (entry.1, f entry.1 entry.2)).lookup key =
        (entries.lookup key).map (f key) := by
    intro entries
    induction entries with
    | nil => rfl
    | cons entry entries ih =>
      rw [List.map_cons, lookup_cons, lookup_cons, ih]
      by_cases hkey : key = entry.1
      · rw [if_pos hkey, if_pos hkey, hkey, Option.map_some]
      · rw [if_neg hkey, if_neg hkey]
  exact hlookup m.entries

omit [DecidableEq κ] in
lemma values_mapValues {ρ' : Type*} (f : κ → ρ → ρ') (m : OrderedMap κ ρ) :
    (m.mapValues f).values = m.entries.map fun entry => f entry.1 entry.2 := by
  simp only [values, mapValues, List.map_map]
  rfl

omit [DecidableEq κ] in
lemma keys_mapValues {ρ' : Type*} (f : κ → ρ → ρ') (m : OrderedMap κ ρ) :
    (m.mapValues f).entries.map Prod.fst = m.entries.map Prod.fst := by
  simp only [mapValues, List.map_map]
  rfl

/-- Looking the keys up one by one gives the values. -/
lemma map_get?_keys (m : OrderedMap κ ρ) (default : ρ) :
    (m.entries.map Prod.fst).map (fun key => (m.get? key).getD default) = m.values := by
  rw [List.map_map]
  refine List.map_congr_left fun entry hmem => ?_
  rw [Function.comp_apply, mem_entries.mp hmem, Option.getD_some]

end OrderedMap

end Denn.Core
