import Denn.Core.Integer
import Mathlib.Data.Nat.Log
import Mathlib.Data.Rat.Cast.Order
import Mathlib.Order.WithBot

/-!
# Decimal numbers from text

What `decimal.Decimal` makes of a text: finite numbers, infinities and the values that are not numbers,
which parse but cannot be compared.
-/

namespace Denn.Core

inductive PyDecimal where
  | finite (negative : Bool) (coefficient : ℕ) (exponent : ℤ)
  | infinity (negative : Bool)
  | nan (signaling : Bool)
  deriving DecidableEq

namespace PyDecimal

/-! ### Comparison -/

def isNan : PyDecimal → Bool
  | nan _ => true
  | _ => false

/-- The number, between the infinities; of no use for what is not a number. -/
def magnitude : PyDecimal → WithBot (WithTop ℚ)
  | finite negative coefficient exponent =>
    ((((if negative then -1 else 1) * coefficient * 10 ^ exponent : ℚ) : WithTop ℚ) :
      WithBot (WithTop ℚ))
  | infinity negative => if negative then ⊥ else ((⊤ : WithTop ℚ) : WithBot (WithTop ℚ))
  | nan _ => ⊥

/-- `InvalidOperation`. -/
inductive InvalidOperation where
  | invalidOperation
  deriving DecidableEq

/-- `a < b`, which is a signal if one of them is not a number. -/
def less (a b : PyDecimal) : Except InvalidOperation Bool :=
  if a.isNan || b.isNan then .error .invalidOperation else .ok (a.magnitude < b.magnitude)

/-! ### Reading -/

/-- `MAX_EMAX` and `MIN_ETINY`. -/
def maxExponent : ℤ := 999999999999999999

def minExponent : ℤ := -1999999999999999997

def isDigit (c : Char) : Bool := (digitValue c).isSome

def natOf (digits : List Char) : ℕ :=
  digits.foldl (fun value c => 10 * value + (digitValue c).getD 0) 0

def readSign : List Char → Bool × List Char
  | '-' :: text => (true, text)
  | '+' :: text => (false, text)
  | text => (false, text)

/-- The exponent after a coefficient. -/
def readExponent : List Char → Option ℤ
  | [] => some 0
  | c :: text =>
    let signed := readSign text
    if (c = 'e' || c = 'E') && !signed.2.isEmpty && signed.2.all isDigit then
      some (if signed.1 then -natOf signed.2 else natOf signed.2)
    else none

/-- The digits after a point. -/
def fraction : List Char → List Char
  | '.' :: text => text.takeWhile isDigit
  | _ => []

def afterFraction : List Char → List Char
  | '.' :: text => text.dropWhile isDigit
  | text => text

/-- A number whose exponent is within the bounds. -/
def readFinite (negative : Bool) (text : List Char) : Option PyDecimal :=
  let whole := text.takeWhile isDigit
  let rest := text.dropWhile isDigit
  let digits := whole ++ fraction rest
  if digits.isEmpty then none
  else
    (readExponent (afterFraction rest)).bind fun exponent =>
      let coefficient := natOf digits
      let exponent := exponent - (fraction rest).length
      if minExponent ≤ exponent ∧ exponent + Nat.log 10 coefficient ≤ maxExponent then
        some (.finite negative coefficient exponent)
      else none

/-- A word, in any case, and perhaps digits. -/
def readSpecial (negative : Bool) (text : List Char) : Option PyDecimal :=
  let lower := text.map Char.toLower
  if lower = "inf".toList ∨ lower = "infinity".toList then some (.infinity negative)
  else if lower.take 3 = "nan".toList ∧ (text.drop 3).all isDigit then some (.nan false)
  else if lower.take 4 = "snan".toList ∧ (text.drop 4).all isDigit then some (.nan true)
  else none

/-- `Decimal(text)`; `none` is `InvalidOperation`. -/
def read (text : String) : Option PyDecimal :=
  let signed := readSign ((strip text).toList.filter (· ≠ '_'))
  (readSpecial signed.1 signed.2).orElse fun _ => readFinite signed.1 signed.2

variable {a b : PyDecimal}

lemma isNan_eq_true : a.isNan = true ↔ ∃ signaling, a = nan signaling := by
  cases a <;> simp [isNan]

lemma less_eq_ok {r : Bool} :
    less a b = .ok r ↔ a.isNan = false ∧ b.isNan = false ∧ r = decide (a.magnitude < b.magnitude) := by
  rw [less]
  cases ha : a.isNan <;> cases hb : b.isNan <;> simp [eq_comm]

/-- A decimal between two numbers is a number. -/
lemma finite_of_magnitude {lo hi : ℚ} (hlo : ((lo : WithTop ℚ) : WithBot (WithTop ℚ)) ≤ a.magnitude)
    (hhi : a.magnitude ≤ ((hi : WithTop ℚ) : WithBot (WithTop ℚ))) :
    ∃ q : ℚ, a.magnitude = ((q : WithTop ℚ) : WithBot (WithTop ℚ)) ∧ lo ≤ q ∧ q ≤ hi := by
  have hbot : ¬ ((lo : WithTop ℚ) : WithBot (WithTop ℚ)) ≤ ⊥ :=
    fun hle => WithBot.coe_ne_bot (le_bot_iff.mp hle)
  cases a with
  | finite negative coefficient exponent =>
    rw [magnitude, WithBot.coe_le_coe, WithTop.coe_le_coe] at hlo hhi
    exact ⟨_, rfl, hlo, hhi⟩
  | infinity negative =>
    cases negative with
    | true => exact absurd hlo hbot
    | false => exact absurd (WithTop.top_le_iff.mp (WithBot.coe_le_coe.mp hhi)) WithTop.coe_ne_top
  | nan signaling => exact absurd hlo hbot

example : read " +1_0.50e-1 " = some (.finite false 1050 (-3)) ∧ read "-sNaN12" = some (.nan true) ∧
    read "1..5" = none := by decide +kernel

end PyDecimal

end Denn.Core
