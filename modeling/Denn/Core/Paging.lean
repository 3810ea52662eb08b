import Mathlib.Data.List.Sort
import Mathlib.Order.Basic

/-!
# Keyset pagination

Keys in ascending order, read in pages: a page is the first keys after a cursor, and the cursor of
the next page is the last key read.
-/

namespace Denn.Core

variable {κ : Type*} [LinearOrder κ]

/-- The keys after a cursor. -/
def keysAfter (keys : List κ) (cursor : κ) : List κ := keys.filter (cursor < ·)

/-- The first keys after a cursor. -/
def pageAfter (keys : List κ) (cursor : κ) (size : ℕ) : List κ := (keysAfter keys cursor).take size

lemma mem_keysAfter {keys : List κ} {cursor key : κ} :
    key ∈ keysAfter keys cursor ↔ key ∈ keys ∧ cursor < key := by
  simp [keysAfter]

lemma sorted_keysAfter {keys : List κ} (h : keys.Pairwise (· < ·)) (cursor : κ) :
    (keysAfter keys cursor).Pairwise (· < ·) :=
  h.filter _

/-- After the first key that is read come the others. -/
theorem keysAfter_of_cons {keys tail : List κ} {cursor key : κ} (h : keys.Pairwise (· < ·))
    (hcons : keysAfter keys cursor = key :: tail) : keysAfter keys key = tail := by
  have hkey : cursor < key := (mem_keysAfter.mp (hcons ▸ List.mem_cons_self ..)).2
  have hsorted := sorted_keysAfter h cursor
  rw [hcons, List.pairwise_cons] at hsorted
  have hfilter : keysAfter keys key = (keysAfter keys cursor).filter (key < ·) := by
    rw [keysAfter, keysAfter, List.filter_filter]
    apply List.filter_congr
    intro other _
    by_cases hother : key < other
    · simp [hother, hkey.trans hother]
    · simp [hother]
  rw [hfilter, hcons, List.filter_cons]
  simp only [lt_self_iff_false, decide_false, Bool.false_eq_true, if_false]
  exact List.filter_eq_self.mpr fun other hother => by simpa using hsorted.1 other hother

/-- After the last key of a page come the keys that the page has left. -/
theorem keysAfter_of_append {keys front rest : List κ} {cursor : κ} (h : keys.Pairwise (· < ·))
    (happend : keysAfter keys cursor = front ++ rest) :
    keysAfter keys (front.getLastD cursor) = rest := by
  induction front generalizing cursor with
  | nil => exact happend
  | cons key front ih =>
    rw [List.getLastD_cons]
    exact ih (keysAfter_of_cons h happend)

end Denn.Core
