import Mathlib.Data.Int.Interval
import Mathlib.Data.List.Sort

/-!
# Ranks under a key

Elements with different keys stand in one order, and the place of an element in it is the number of
smaller keys.
-/

namespace Denn.Core

variable {α κ : Type*} {key key' : α → κ} {l m : List α} {a b : α}

/-- No two elements have the same key. -/
def DistinctKeys (key : α → κ) (l : List α) : Prop := (l.map key).Nodup

instance [DecidableEq κ] : Decidable (DistinctKeys key l) := inferInstanceAs (Decidable (List.Nodup _))

namespace DistinctKeys

lemma nodup (h : DistinctKeys key l) : l.Nodup := List.Nodup.of_map key h

lemma inj (h : DistinctKeys key l) (ha : a ∈ l) (hb : b ∈ l) (heq : key a = key b) : a = b :=
  List.inj_on_of_nodup_map h ha hb heq

/-- Arrangements of elements are told apart by their keys. -/
lemma eq_of_map_eq (h : DistinctKeys key m) (hperm : l.Perm m) (heq : l.map key = m.map key) :
    l = m := by
  apply List.ext_getElem hperm.length_eq
  intro i hi hi'
  refine h.inj (hperm.mem_iff.mp (List.getElem_mem hi)) (List.getElem_mem hi') ?_
  have hkey := congrArg (fun keys => keys[i]?) heq
  simpa [hi, hi'] using hkey

lemma of_inj (hnodup : l.Nodup) (h : ∀ a ∈ l, ∀ b ∈ l, key a = key b → a = b) :
    DistinctKeys key l :=
  List.Nodup.map_on h hnodup

lemma perm (h : DistinctKeys key l) (hperm : m.Perm l) : DistinctKeys key m :=
  (hperm.map key).nodup_iff.mpr h

lemma sublist (h : DistinctKeys key l) (hsub : m.Sublist l) : DistinctKeys key m :=
  List.Nodup.sublist (hsub.map key) h

end DistinctKeys

section Sorting

variable [LinearOrder κ]

/-- The elements in the order of their keys. -/
def sortBy (key : α → κ) (l : List α) : List α := l.insertionSort fun a b => key a ≤ key b

lemma sortBy_perm (key : α → κ) (l : List α) : (sortBy key l).Perm l := List.perm_insertionSort _ _

@[simp] lemma mem_sortBy : a ∈ sortBy key l ↔ a ∈ l := (sortBy_perm key l).mem_iff

@[simp] lemma length_sortBy : (sortBy key l).length = l.length := (sortBy_perm key l).length_eq

lemma pairwise_sortBy (key : α → κ) (l : List α) :
    (sortBy key l).Pairwise fun a b => key a ≤ key b := by
  have htotal : Std.Total fun a b => key a ≤ key b := ⟨fun a b => le_total _ _⟩
  have htrans : IsTrans α fun a b => key a ≤ key b := ⟨fun _ _ _ hab hbc => hab.trans hbc⟩
  exact List.pairwise_insertionSort _ _

lemma DistinctKeys.pairwise_lt (h : DistinctKeys key l) : (sortBy key l).Pairwise fun a b => key a < key b := by
  have hne : (sortBy key l).Pairwise fun a b => key a ≠ key b :=
    List.pairwise_map.mp (h.perm (sortBy_perm key l))
  exact (hne.and (pairwise_sortBy key l)).imp fun h => lt_of_le_of_ne h.2 h.1

/-- The sorted arrangement is the only one. -/
lemma sortBy_eq_of_pairwise (hperm : m.Perm l) (hsorted : m.Pairwise fun a b => key a < key b) :
    sortBy key l = m := by
  have hkeys : DistinctKeys key m := List.pairwise_map.mpr (hsorted.imp ne_of_lt)
  refine List.Perm.eq_of_pairwise ?_ (pairwise_sortBy key l) (hsorted.imp le_of_lt)
    ((sortBy_perm key l).trans hperm.symm)
  intro a b ha hb hab hba
  exact hkeys.inj (hperm.mem_iff.mpr (mem_sortBy.mp ha)) hb (le_antisymm hab hba)

/-- Only the order of the keys counts, not how the elements are enumerated. -/
lemma sortBy_congr (h : DistinctKeys key l) (hperm : m.Perm l)
    (hlt : ∀ a ∈ l, ∀ b ∈ l, key a < key b → key' a < key' b) : sortBy key' m = sortBy key l := by
  refine sortBy_eq_of_pairwise ((sortBy_perm key l).trans hperm.symm) ?_
  refine h.pairwise_lt.imp_of_mem fun ha hb hab => ?_
  exact hlt _ (mem_sortBy.mp ha) _ (mem_sortBy.mp hb) hab

lemma sortBy_erase [DecidableEq α] (h : DistinctKeys key l) (a : α) :
    sortBy key (l.erase a) = (sortBy key l).erase a :=
  sortBy_eq_of_pairwise ((sortBy_perm key l).erase a) (h.pairwise_lt.sublist List.erase_sublist)

/-! ### Places -/

/-- The place of an element in a sorted list. -/
lemma countP_lt_of_getElem? {n : ℕ} (hsorted : l.Pairwise fun a b => key a < key b)
    (h : l[n]? = some a) : l.countP (fun b => key b < key a) = n := by
  induction l generalizing n with
  | nil => simp at h
  | cons b l ih =>
    obtain ⟨hb, hl⟩ := List.pairwise_cons.mp hsorted
    cases n with
    | zero =>
      obtain rfl : b = a := by simpa using h
      rw [List.countP_eq_zero]
      intro c hc
      rcases List.mem_cons.mp hc with rfl | hc
      · simp
      · simpa using (hb c hc).le
    | succ n =>
      rw [List.getElem?_cons_succ] at h
      have hlt : key b < key a := hb a (List.mem_of_getElem? h)
      rw [List.countP_cons_of_pos (by simpa using hlt), ih hl h]

/-- An element stands at the place that the smaller keys leave. -/
theorem getElem?_sortBy_iff (h : DistinctKeys key l) {n : ℕ} :
    (sortBy key l)[n]? = some a ↔ a ∈ l ∧ l.countP (fun b => key b < key a) = n := by
  have hcount : ∀ a, (sortBy key l).countP (fun b => key b < key a) =
      l.countP fun b => key b < key a := fun a => (sortBy_perm key l).countP_eq _
  constructor
  · intro hget
    refine ⟨mem_sortBy.mp (List.mem_of_getElem? hget), ?_⟩
    rw [← hcount]
    exact countP_lt_of_getElem? h.pairwise_lt hget
  · rintro ⟨hmem, hn⟩
    obtain ⟨i, hi⟩ := List.mem_iff_getElem?.mp (mem_sortBy.mpr hmem : a ∈ sortBy key l)
    have hplace := countP_lt_of_getElem? h.pairwise_lt hi
    rw [hcount, hn] at hplace
    rwa [hplace]

end Sorting

/-! ### Positive integers as keys -/

section Positive

variable {order : α → ℤ} {p : ℤ}

lemma countP_lt_eq_card (h : DistinctKeys order l) (p : ℤ) :
    l.countP (fun a => order a < p) = (((l.filter fun a => order a < p).map order).toFinset).card := by
  have hnodup : ((l.filter fun a => order a < p).map order).Nodup := h.sublist List.filter_sublist
  rw [List.toFinset_card_of_nodup hnodup, List.length_map, List.countP_eq_length_filter]

/-- Every positive value below the bound is the key of an element. -/
def TakenBelow (order : α → ℤ) (l : List α) (p : ℤ) : Prop :=
  ∀ v, 0 < v → v < p → ∃ a ∈ l, order a = v

/-- There are as many smaller keys as there can be exactly if all smaller values are taken. -/
theorem countP_lt_eq_iff (h : DistinctKeys order l) (hpos : ∀ a ∈ l, 0 < order a) (hp : 0 < p) :
    ((l.countP fun a => order a < p : ℕ) : ℤ) = p - 1 ↔ TakenBelow order l p := by
  have hcard : ((Finset.Ioo 0 p).card : ℤ) = p - 1 := by
    rw [Int.card_Ioo]
    omega
  have hsubset : ((l.filter fun a => order a < p).map order).toFinset ⊆ Finset.Ioo 0 p := by
    intro v hv
    simp only [List.mem_toFinset, List.mem_map, List.mem_filter, decide_eq_true_eq] at hv
    obtain ⟨a, ⟨ha, hlt⟩, rfl⟩ := hv
    exact Finset.mem_Ioo.mpr ⟨hpos a ha, hlt⟩
  rw [countP_lt_eq_card h, ← hcard, Nat.cast_inj]
  constructor
  · intro heq v hv hvp
    have hset := Finset.eq_of_subset_of_card_le hsubset heq.ge
    have hmem : v ∈ Finset.Ioo 0 p := Finset.mem_Ioo.mpr ⟨hv, hvp⟩
    rw [← hset] at hmem
    simp only [List.mem_toFinset, List.mem_map, List.mem_filter] at hmem
    obtain ⟨a, ⟨ha, -⟩, rfl⟩ := hmem
    exact ⟨a, ha, rfl⟩
  · intro htaken
    refine congrArg _ (Finset.Subset.antisymm hsubset fun v hv => ?_)
    obtain ⟨hv, hvp⟩ := Finset.mem_Ioo.mp hv
    obtain ⟨a, ha, rfl⟩ := htaken v hv hvp
    simp only [List.mem_toFinset, List.mem_map, List.mem_filter, decide_eq_true_eq]
    exact ⟨a, ⟨ha, hvp⟩, rfl⟩

/-- The largest of some positive values is at least their number. -/
theorem length_le_of_le (h : DistinctKeys order l) (hpos : ∀ a ∈ l, 0 < order a)
    (hle : ∀ a ∈ l, order a ≤ p) : (l.length : ℤ) ≤ max p 0 := by
  have hsubset : (l.map order).toFinset ⊆ Finset.Ioc 0 p := by
    intro v hv
    simp only [List.mem_toFinset, List.mem_map] at hv
    obtain ⟨a, ha, rfl⟩ := hv
    exact Finset.mem_Ioc.mpr ⟨hpos a ha, hle a ha⟩
  have hcard := Finset.card_le_card hsubset
  rw [List.toFinset_card_of_nodup h, List.length_map, Int.card_Ioc] at hcard
  omega

end Positive

end Denn.Core
