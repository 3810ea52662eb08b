import Mathlib.Data.List.Perm.Basic
import Mathlib.Data.List.Sort

/-!
# Queries

The order in which a query returns rows: that of a key, with the rows of one key in any order.
-/

namespace Denn.Core

variable {α β κ : Type*} [LinearOrder κ] {key : α → κ} {rows read read' : List α} {a b : α}

/-- A query can return the rows so. The key of a query without an order is constant. -/
structure ReadsBy (key : α → κ) (rows read : List α) : Prop where
  perm : read.Perm rows
  sorted : read.Pairwise fun a b => key a ≤ key b

namespace ReadsBy

/-- Rows with different keys are read in one order. -/
lemma unique (h : ReadsBy key rows read) (h' : ReadsBy key rows read')
    (hkeys : (rows.map key).Nodup) : read = read' := by
  refine List.Perm.eq_of_pairwise ?_ h.sorted h'.sorted (h.perm.trans h'.perm.symm)
  intro a b ha hb hle hge
  exact List.inj_on_of_nodup_map hkeys (h.perm.mem_iff.mp ha) (h'.perm.mem_iff.mp hb)
    (le_antisymm hle hge)

/-- Rows that are in the order of different keys are read as they are. -/
lemma iff_eq_of_lt (hrows : rows.Pairwise fun a b => key a < key b) :
    ReadsBy key rows read ↔ read = rows := by
  have hself : ReadsBy key rows rows := ⟨.rfl, hrows.imp le_of_lt⟩
  have hkeys : (rows.map key).Nodup := List.pairwise_map.mpr (hrows.imp ne_of_lt)
  constructor
  · intro h
    exact h.unique hself hkeys
  · rintro rfl
    exact hself

/-- The stable sort by the key. -/
lemma mergeSort (key : α → κ) (rows : List α) :
    ReadsBy key rows (rows.mergeSort fun a b => key a ≤ key b) where
  perm := List.mergeSort_perm rows _
  sorted := by
    have hsorted := @List.pairwise_mergeSort _ (fun a b => decide (key a ≤ key b))
      (fun a b c hab hbc => by simpa using le_trans (of_decide_eq_true hab) (of_decide_eq_true hbc))
      (fun a b => by simpa using le_total (key a) (key b)) rows
    exact hsorted.imp of_decide_eq_true

/-- What is in order among rows can be read in that order among all of them. -/
lemma exists_sublist {part rest : List α} (hsorted : part.Pairwise fun a b => key a ≤ key b)
    (hperm : (part ++ rest).Perm rows) : ∃ read, ReadsBy key rows read ∧ part.Sublist read := by
  have hread := mergeSort key (part ++ rest)
  refine ⟨_, ⟨hread.perm.trans hperm, hread.sorted⟩, ?_⟩
  refine List.sublist_mergeSort
    (fun a b c hab hbc => by simpa using le_trans (of_decide_eq_true hab) (of_decide_eq_true hbc))
    (fun a b => by simpa using le_total (key a) (key b)) ?_ (List.sublist_append_left part rest)
  exact hsorted.imp fun hle => decide_eq_true hle

lemma exists_pair (ha : a ∈ rows) (hb : b ∈ rows) (hne : a ≠ b) (hkey : key a = key b) :
    ∃ read, ReadsBy key rows read ∧ [a, b].Sublist read := by
  have hnodup : [a, b].Nodup := by simpa using hne
  have hsubset : [a, b] ⊆ rows := by simp [ha, hb]
  obtain ⟨pair, hpair, hsublist⟩ := List.subperm_of_subset hnodup hsubset
  obtain ⟨rest, hrest⟩ := hsublist.exists_perm_append
  exact exists_sublist (by simpa using hkey.le)
    ((hpair.symm.append_right rest).trans hrest.symm)

/-- The chosen rows of a query, and every order of them, can be read. -/
lemma filter (h : ReadsBy key rows read) (p : α → Bool) :
    ReadsBy key (rows.filter p) (read.filter p) :=
  ⟨h.perm.filter p, h.sorted.filter p⟩

lemma exists_filter_eq {p : α → Bool} (h : ReadsBy key (rows.filter p) read) :
    ∃ read', ReadsBy key rows read' ∧ read'.filter p = read := by
  have hperm : (read ++ rows.filter (! p ·)).Perm rows :=
    (h.perm.append_right _).trans (List.filter_append_perm p rows)
  obtain ⟨read', hread', hsublist⟩ := exists_sublist h.sorted hperm
  refine ⟨read', hread', (List.Sublist.eq_of_length ?_ ?_).symm⟩
  · have hself : read.filter p = read := by
      refine List.filter_eq_self.mpr fun a ha => ?_
      exact (List.mem_filter.mp (h.perm.mem_iff.mp ha)).2
    rw [← hself]
    exact hsublist.filter p
  · rw [h.perm.length_eq, (hread'.perm.filter p).length_eq]

/-- Rows made of others are read as the others are. -/
lemma map_iff {γ : Type*} {f : γ → α} {rows : List γ} :
    ReadsBy key (rows.map f) read ↔
      ∃ read', ReadsBy (fun a => key (f a)) rows read' ∧ read = read'.map f := by
  constructor
  · rintro ⟨hperm, hsorted⟩
    have hrows : List.Forall₂ (fun b a => b = f a) (rows.map f) rows :=
      List.forall₂_map_left_iff.mpr (List.forall₂_same.mpr fun _ _ => rfl)
    obtain ⟨read', hmap, hperm'⟩ := List.perm_comp_forall₂ hperm hrows
    obtain rfl : read = read'.map f := by
      rw [← List.forall₂_eq_eq_eq, List.forall₂_map_right_iff]
      exact hmap
    rw [List.pairwise_map] at hsorted
    exact ⟨read', ⟨hperm', hsorted⟩, rfl⟩
  · rintro ⟨read', ⟨hperm, hsorted⟩, rfl⟩
    refine ⟨hperm.map f, ?_⟩
    rw [List.pairwise_map]
    exact hsorted

/-- The order in which rows are stored does not matter. -/
lemma perm_iff {rows' : List α} (hperm : rows'.Perm rows) :
    ReadsBy key rows' read ↔ ReadsBy key rows read :=
  ⟨fun h => ⟨h.perm.trans hperm, h.sorted⟩, fun h => ⟨h.perm.trans hperm.symm, h.sorted⟩⟩

end ReadsBy

/-- Of two different elements one comes first. -/
lemma not_sublist_swap {l : List α} (hnodup : l.Nodup) (h : [a, b].Sublist l) :
    ¬ [b, a].Sublist l := by
  intro hswap
  induction l with
  | nil => simp at h
  | cons c l ih =>
    obtain ⟨hc, hl⟩ := List.nodup_cons.mp hnodup
    rcases List.sublist_cons_iff.mp h with hfirst | ⟨_, heq, hfirst⟩
    · rcases List.sublist_cons_iff.mp hswap with hsecond | ⟨_, heq, -⟩
      · exact ih hl hfirst hsecond
      · obtain ⟨rfl, -⟩ := List.cons.inj heq
        exact hc (hfirst.subset (by simp))
    · obtain ⟨rfl, rfl⟩ := List.cons.inj heq
      have hb : b ∈ l := hfirst.subset (by simp)
      rcases List.sublist_cons_iff.mp hswap with hsecond | ⟨_, heq, -⟩
      · exact hc (hsecond.subset (by simp))
      · obtain ⟨rfl, -⟩ := List.cons.inj heq
        exact hc hb

/-- Rows that are read with the same fields, different from row to row, are the same rows. -/
lemma ReadsBy.eq_of_map_eq {g : α → β} (h : ReadsBy key rows read) (hg : (rows.map g).Nodup)
    (hmap : read.map g = rows.map g) : read = rows := by
  have hinj : ∀ a ∈ read, ∀ b ∈ rows, g a = g b → a = b := fun a ha b hb heq =>
    List.inj_on_of_nodup_map hg (h.perm.mem_iff.mp ha) hb heq
  clear h hg
  induction read generalizing rows with
  | nil => exact (List.map_eq_nil_iff.mp hmap.symm).symm
  | cons a read ih =>
    cases rows with
    | nil => simp at hmap
    | cons b rows =>
      obtain ⟨hhead, htail⟩ := List.cons.inj hmap
      rw [hinj a List.mem_cons_self b List.mem_cons_self hhead, ih htail]
      intro a' ha' b' hb'
      exact hinj a' (List.mem_cons_of_mem _ ha') b' (List.mem_cons_of_mem _ hb')

/-- Different rows are always read in the order that they have exactly if their keys increase. -/
theorem reads_in_order_iff (hrows : rows.Nodup) :
    (∀ read, ReadsBy key rows read → read = rows) ↔ rows.Pairwise fun a b => key a < key b := by
  constructor
  · intro h
    have hsorted : rows.Pairwise fun a b => key a ≤ key b := by
      have hread := ReadsBy.mergeSort key rows
      rw [h _ hread] at hread
      exact hread.sorted
    have hkeys : (rows.map key).Nodup := by
      rw [List.nodup_map_iff_inj_on hrows]
      intro a ha b hb hkey
      by_contra hne
      obtain ⟨read, hread, hpair⟩ := ReadsBy.exists_pair ha hb hne hkey
      obtain ⟨read', hread', hpair'⟩ := ReadsBy.exists_pair hb ha (Ne.symm hne) hkey.symm
      rw [h read hread] at hpair
      rw [h read' hread'] at hpair'
      exact not_sublist_swap hrows hpair hpair'
    exact (hsorted.and (List.pairwise_map.mp hkeys)).imp fun hle => lt_of_le_of_ne hle.1 hle.2
  · intro h read hread
    exact (ReadsBy.iff_eq_of_lt h).mp hread

/-- What is read does not depend on the order that the query leaves open exactly when the keys are
    different. -/
theorem reads_alike_iff {g : α → β} (hg : (rows.map g).Nodup) :
    (∀ read read', ReadsBy key rows read → ReadsBy key rows read' → read.map g = read'.map g) ↔
      (rows.map key).Nodup := by
  constructor
  · intro h
    rw [List.nodup_map_iff_inj_on (List.Nodup.of_map g hg)]
    intro a ha b hb hkey
    by_contra hne
    obtain ⟨read, hread, hpair⟩ := ReadsBy.exists_pair ha hb hne hkey
    obtain ⟨read', hread', hpair'⟩ := ReadsBy.exists_pair hb ha (Ne.symm hne) hkey.symm
    have hnodup : (read.map g).Nodup := (hread.perm.map g).nodup_iff.mpr hg
    refine not_sublist_swap hnodup (hpair.map g) ?_
    rw [h read read' hread hread']
    exact hpair'.map g
  · intro hkeys read read' hread hread'
    rw [hread.unique hread' hkeys]

end Denn.Core
