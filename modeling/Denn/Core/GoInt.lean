import Mathlib.Algebra.GroupWithZero.Nat
import Mathlib.Algebra.Order.Ring.Int
import Mathlib.Data.List.Basic
import Mathlib.Tactic.Common

/-!
# Machine integers and slices

The `int` of Go on a 64-bit machine: arithmetic wraps around, `strconv.Atoi` saturates. Slicing a list
outside its bounds panics.
-/

namespace Denn.Core

variable {α : Type*}

/-! ### Integers -/

/-- `2 ^ 63 - 1`. -/
def maxInt : ℤ := 9223372036854775807

/-- `2 ^ 64 - 1`. -/
def maxUint : ℕ := 18446744073709551615

/-- The result of an operation in 64 bits. -/
def wrap (x : ℤ) : ℤ := (x + 9223372036854775808) % 18446744073709551616 - 9223372036854775808

lemma wrap_le (x : ℤ) : wrap x ≤ maxInt := by
  rw [wrap, maxInt]
  omega

lemma le_wrap (x : ℤ) : -maxInt - 1 ≤ wrap x := by
  rw [wrap, maxInt]
  omega

lemma wrap_le_self {x : ℤ} (h : 0 ≤ x) : wrap x ≤ x := by
  rw [wrap]
  omega

/-- Only the last operation needs to wrap around. -/
lemma wrap_wrap_sub (x y : ℤ) : wrap (wrap x - y) = wrap (x - y) := by
  simp only [wrap]
  omega

lemma wrap_eq_self {x : ℤ} (hlow : -maxInt - 1 ≤ x) (hhigh : x ≤ maxInt) : wrap x = x := by
  rw [maxInt] at hlow hhigh
  rw [wrap]
  omega

lemma wrap_of_le {x : ℤ} (hlow : 0 ≤ x) (hhigh : x ≤ maxInt) : wrap x = x :=
  wrap_eq_self (by rw [maxInt]; omega) hhigh

lemma dvd_of_wrap_eq_zero {x : ℤ} (h : wrap x = 0) : 18446744073709551616 ∣ x := by
  rw [wrap] at h
  omega

def asciiDigit (c : Char) : Option ℕ :=
  if '0' ≤ c ∧ c ≤ '9' then some (c.toNat - '0'.toNat) else none

/-- `strconv.ParseUint`, which saturates at the digit that makes the number too large and looks at none
    after it. -/
def readUint (value : ℕ) : List Char → Option ℕ
  | [] => some value
  | c :: rest => (asciiDigit c).bind fun digit =>
    if maxUint < 10 * value + digit then some maxUint else readUint (10 * value + digit) rest

def readMagnitude (digits : List Char) : Option ℕ :=
  if digits.isEmpty then none else readUint 0 digits

/-- The value that `strconv.Atoi` returns, also beside an error. -/
def atoi (s : String) : ℤ :=
  match s.toList with
  | '-' :: digits => (readMagnitude digits).elim 0 fun n => max (-(n : ℤ)) (-maxInt - 1)
  | '+' :: digits => (readMagnitude digits).elim 0 fun n => min (n : ℤ) maxInt
  | digits => (readMagnitude digits).elim 0 fun n => min (n : ℤ) maxInt

lemma atoi_le (s : String) : atoi s ≤ maxInt := by
  have hmin : ∀ digits, (readMagnitude digits).elim 0 (fun n => min (n : ℤ) maxInt) ≤ maxInt := by
    intro digits
    cases readMagnitude digits with
    | none => decide
    | some n => exact min_le_right _ _
  unfold atoi
  split
  · rename_i digits _
    cases readMagnitude digits with
    | none => decide
    | some n =>
      have hneg : -(n : ℤ) ≤ maxInt := by rw [maxInt]; omega
      exact max_le hneg (by decide)
  · exact hmin _
  · exact hmin _

example : atoi "-7" = -7 ∧ atoi "7x" = 0 ∧ atoi "99999999999999999999x" = maxInt := by decide

def readDecimal (digits : List Char) : Option ℕ :=
  if digits.isEmpty then none
  else digits.foldlM (fun value c => (asciiDigit c).map fun digit => 10 * value + digit) 0

/-- The value that `strconv.Atoi` returns without an error. -/
def atoi? (s : String) : Option ℤ :=
  match s.toList with
  | '-' :: digits => ((readDecimal digits).map fun n => -(n : ℤ)).filter (-maxInt - 1 ≤ ·)
  | '+' :: digits => ((readDecimal digits).map fun n => (n : ℤ)).filter (· ≤ maxInt)
  | digits => ((readDecimal digits).map fun n => (n : ℤ)).filter (· ≤ maxInt)

example : atoi? "-7" = some (-7) ∧ atoi? "+7" = some 7 ∧ atoi? "7x" = none ∧ atoi? "" = none ∧
    atoi? "9223372036854775808" = none := by decide

/-! ### Slices -/

inductive Panic where
  | sliceBounds
  deriving DecidableEq, Repr

/-- A slice: its length is an `int`. -/
abbrev Slice (α : Type*) := { items : List α // (items.length : ℤ) ≤ maxInt }

/-- `items[low:high]`. -/
def sliceOf (items : List α) (low high : ℤ) : Except Panic (List α) :=
  if 0 ≤ low ∧ low ≤ high ∧ high ≤ items.length then
    .ok ((items.drop low.toNat).take (high - low).toNat)
  else .error .sliceBounds

/-- The page at an offset: none of the elements past the end, and a last page that ends with them. -/
def pageSlice (items : List α) (offset limit : ℤ) : Except Panic (List α) :=
  let total : ℤ := items.length
  let last := wrap (offset + limit)
  if total ≤ offset then .ok []
  else if total < last then sliceOf items offset total
  else sliceOf items offset last

/-- The elements from an index on, up to a number. -/
def elementsFrom (items : List α) (start limit : ℤ) : List α :=
  (items.drop start.toNat).take limit.toNat

variable {items : List α} {offset limit start : ℤ}

lemma elementsFrom_of_le (h : (items.length : ℤ) ≤ start) : elementsFrom items start limit = [] := by
  rw [elementsFrom, List.drop_of_length_le (by omega), List.take_nil]

lemma length_elementsFrom (hstart : 0 ≤ start) (hlimit : 0 ≤ limit) :
    ((elementsFrom items start limit).length : ℤ) = min limit (max (items.length - start) 0) := by
  rw [elementsFrom, List.length_take, List.length_drop]
  omega

/-- What the slice at an offset is: the elements from the offset on if neither the offset nor the end
    has wrapped around. -/
theorem pageSlice_eq (hoffset : offset ≤ maxInt) (hlimit : 0 < limit) (hlimit' : limit ≤ maxInt)
    (hlength : (items.length : ℤ) ≤ maxInt) :
    pageSlice items offset limit =
      if (items.length : ℤ) ≤ offset then .ok []
      else if 0 ≤ offset ∧ offset + limit ≤ maxInt then .ok (elementsFrom items offset limit)
      else .error .sliceBounds := by
  rw [pageSlice]
  split_ifs with hpast hlast hbounds hbounds
  · rfl
  · rw [sliceOf, if_pos (by omega), elementsFrom]
    congr 1
    rw [List.take_of_length_le, List.take_of_length_le]
    · rw [List.length_drop]
      rw [wrap_of_le (by omega) hbounds.2] at hlast
      omega
    · rw [List.length_drop]
      omega
  · rw [sliceOf, if_neg]
    rintro ⟨hlow, -, -⟩
    rw [wrap] at hlast
    rw [maxInt] at *
    omega
  · rw [wrap_of_le (by omega) hbounds.2] at hlast ⊢
    rw [sliceOf, if_pos (by omega), elementsFrom, add_sub_cancel_left]
  · rw [sliceOf, if_neg]
    rintro ⟨hlow, hhigh, -⟩
    rw [wrap] at hhigh
    rw [maxInt] at *
    omega

/-- A page whose end is an `int` is right. -/
lemma pageSlice_of_le (hoffset : 0 ≤ offset) (hlimit : 0 < limit) (hend : offset + limit ≤ maxInt)
    (hlength : (items.length : ℤ) ≤ maxInt) :
    pageSlice items offset limit = .ok (elementsFrom items offset limit) := by
  rw [pageSlice_eq (by omega) hlimit (by omega) hlength]
  split_ifs with hpast hbounds
  · rw [elementsFrom_of_le hpast]
  · rfl
  · exact absurd ⟨hoffset, hend⟩ hbounds

/-- The page at a start that may have wrapped around holds the elements from the start on exactly if
    the end of the page has not, or the list ends before. -/
theorem pageSlice_wrap_iff (hstart : 0 ≤ start) (hlimit : 0 < limit) (hlimit' : limit ≤ maxInt)
    (hlength : (items.length : ℤ) ≤ maxInt) :
    pageSlice items (wrap start) limit = .ok (elementsFrom items start limit) ↔
      start + limit ≤ maxInt ∨ (items.length : ℤ) ≤ wrap start := by
  by_cases hend : start + limit ≤ maxInt
  · rw [wrap_of_le hstart (by omega), pageSlice_of_le hstart hlimit hend hlength]
    simp [hend]
  · rw [pageSlice_eq (wrap_le start) hlimit hlimit' hlength]
    split_ifs with hpast hbounds
    · have hempty : elementsFrom items start limit = [] :=
        elementsFrom_of_le (hpast.trans (wrap_le_self hstart))
      simp [hpast, hempty]
    · have hwrapped : (items.length : ℤ) ≤ start := by
        rw [wrap] at hbounds
        rw [maxInt] at *
        omega
      have hne : elementsFrom items (wrap start) limit ≠ [] := by
        intro hnil
        have hlen : ((elementsFrom items (wrap start) limit).length : ℤ) = _ :=
          length_elementsFrom hbounds.1 hlimit.le
        rw [hnil, List.length_nil] at hlen
        omega
      simp [hend, hpast, elementsFrom_of_le hwrapped, hne]
    · simp [hend, hpast]

end Denn.Core
