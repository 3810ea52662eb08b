import Denn.Core.Text
import Mathlib

/-!
# Integers in decimal

`strconv.Itoa` and `%d`, and what `strings.Join` makes of such numbers.
-/

namespace Denn.Core

/-- `strconv.Itoa`. -/
def itoa (i : ℤ) : String := toString i

/-- The numbers of a list with a comma between them. -/
def joinInts (ids : List ℤ) : String := ",".intercalate (ids.map itoa)

lemma itoa_injective : Function.Injective itoa := fun _ _ h => Int.repr_injective h

lemma mem_itoa {i : ℤ} {c : Char} (h : c ∈ (itoa i).toList) : c = '-' ∨ c.isDigit = true := by
  have hnat : ∀ n : ℕ, c ∈ n.repr.toList → c.isDigit = true := by
    intro n hn
    rw [Nat.toList_repr] at hn
    exact Nat.isDigit_of_mem_toDigits (by decide) (by decide) hn
  cases i with
  | ofNat n => exact .inr (hnat n h)
  | negSucc n =>
    have hmem : c ∈ '-' :: (n + 1).repr.toList := by simpa [itoa, toString, Int.repr] using h
    rcases List.mem_cons.mp hmem with rfl | hn
    · exact .inl rfl
    · exact .inr (hnat (n + 1) hn)

lemma notMem_itoa {c : Char} (hminus : c ≠ '-') (hdigit : c.isDigit = false) (i : ℤ) :
    c ∉ (itoa i).toList := by
  intro h
  rcases mem_itoa h with rfl | hc
  · exact hminus rfl
  · rw [hdigit] at hc
    exact Bool.noConfusion hc

lemma toList_joinInts (ids : List ℤ) :
    (joinInts ids).toList = [','].intercalate (ids.map fun i => (itoa i).toList) := by
  rw [joinInts, String.toList_intercalate, List.map_map]
  rfl

lemma mem_joinInts {ids : List ℤ} {c : Char} (h : c ∈ (joinInts ids).toList) :
    c = ',' ∨ ∃ i ∈ ids, c ∈ (itoa i).toList := by
  rw [toList_joinInts] at h
  refine (mem_intercalate_singleton h).imp_right ?_
  rintro ⟨text, htext, hc⟩
  obtain ⟨i, hi, rfl⟩ := List.mem_map.mp htext
  exact ⟨i, hi, hc⟩

lemma notMem_joinInts {c : Char} (hcomma : c ≠ ',') (hminus : c ≠ '-') (hdigit : c.isDigit = false)
    (ids : List ℤ) : c ∉ (joinInts ids).toList := by
  intro h
  rcases mem_joinInts h with rfl | ⟨i, -, hc⟩
  · exact hcomma rfl
  · exact notMem_itoa hminus hdigit i hc

/-- A non-empty list of numbers is read off its joined text. -/
lemma joinInts_inj {ids ids' : List ℤ} (hne : ids ≠ []) (hne' : ids' ≠ [])
    (h : joinInts ids = joinInts ids') : ids = ids' := by
  have hsplit : ∀ ids : List ℤ, ids ≠ [] →
      (joinInts ids).toList.splitOn ',' = ids.map fun i => (itoa i).toList := by
    intro ids hne
    rw [toList_joinInts]
    refine List.splitOn_intercalate _ ?_ (by simpa using hne)
    intro text htext
    obtain ⟨i, -, rfl⟩ := List.mem_map.mp htext
    exact notMem_itoa (by decide) (by decide) i
  have hmap := (hsplit ids hne).symm.trans ((congrArg _ (congrArg _ h)).trans (hsplit ids' hne'))
  exact List.map_injective_iff.mpr (fun i j hij => itoa_injective (String.toList_inj.mp hij)) hmap

end Denn.Core
