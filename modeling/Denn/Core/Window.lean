import Mathlib.Data.List.Perm.Basic
import Mathlib.Tactic.Common

/-!
# Pages of a list

A list cut into pages of one size, which are counted from 1, and what is lost when each page is cut
again.
-/

namespace Denn.Core

variable {α β : Type*}

/-- The page of a list in pages of `size`. -/
def window (size page : ℕ) (l : List α) : List α := (l.drop ((page - 1) * size)).take size

/-- The number of pages of `size` that a list of some length has. -/
def pageCount (size length : ℕ) : ℕ := (length + size - 1) / size

lemma length_window_le (size page : ℕ) (l : List α) : (window size page l).length ≤ size :=
  List.length_take_le _ _

/-- The first pages, one after the other, are the first elements. -/
lemma flatMap_window (size n : ℕ) (l : List α) :
    ((List.range' 1 n).flatMap fun page => window size page l) = l.take (n * size) := by
  induction n with
  | zero => simp
  | succ n ih =>
    rw [List.range'_1_concat, List.flatMap_append, ih, List.flatMap_singleton, Nat.succ_mul,
      List.take_add, window]
    simp

lemma length_le_pageCount_mul {size : ℕ} (hsize : 0 < size) (length : ℕ) :
    length ≤ pageCount size length * size := by
  have hdiv := Nat.div_add_mod (length + size - 1) size
  have hmod := Nat.mod_lt (length + size - 1) hsize
  rw [pageCount, Nat.mul_comm]
  omega

/-- All the pages are the list. -/
theorem flatMap_window_pageCount {size : ℕ} (hsize : 0 < size) (l : List α) :
    ((List.range' 1 (pageCount size l.length)).flatMap fun page => window size page l) = l := by
  rw [flatMap_window, List.take_of_length_le (length_le_pageCount_mul hsize l.length)]

/-! ### Pages that are cut -/

lemma flatMap_take_sublist (f : β → List α) (k : ℕ) (l : List β) :
    (l.flatMap fun b => (f b).take k).Sublist (l.flatMap f) := by
  induction l with
  | nil => exact .slnil
  | cons b l ih => exact (List.take_sublist k (f b)).append ih

/-- Pages that are cut still hold every element once exactly if none of them is longer than the cut. -/
theorem flatMap_take_perm_iff {f : β → List α} {k : ℕ} {l : List β} :
    (l.flatMap fun b => (f b).take k).Perm (l.flatMap f) ↔ ∀ b ∈ l, (f b).length ≤ k := by
  constructor
  · intro hperm
    have heq := (flatMap_take_sublist f k l).eq_of_length hperm.length_eq
    clear hperm
    induction l with
    | nil => simp
    | cons b l ih =>
      have htail := (flatMap_take_sublist f k l).length_le
      have hlength := congrArg List.length heq
      simp only [List.flatMap_cons, List.length_append, List.length_take] at hlength
      have hcut : (f b).length ≤ k := by omega
      refine List.forall_mem_cons.mpr ⟨hcut, ih ?_⟩
      simpa [List.take_of_length_le hcut] using heq
  · intro h
    have heq : (l.flatMap fun b => (f b).take k) = l.flatMap f :=
      List.flatMap_congr fun b hb => List.take_of_length_le (h b hb)
    rw [heq]

end Denn.Core
