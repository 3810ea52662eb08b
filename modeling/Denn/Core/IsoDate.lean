import Mathlib.Data.Nat.Notation
import Mathlib.Tactic.Common

/-!
# Calendar dates

Dates of the proleptic Gregorian calendar, read by `datetime.strptime` in the formats `%Y-%m-%d`,
`%Y-%m` and `%Y` and written by `isoformat`.
-/

namespace Denn.Core

def isLeapYear (year : ℕ) : Bool := year % 4 = 0 && (year % 100 ≠ 0 || year % 400 = 0)

def daysInMonth (year month : ℕ) : ℕ :=
  if month = 2 then if isLeapYear year then 29 else 28
  else if month ∈ [4, 6, 9, 11] then 30
  else 31

def isDate (year month day : ℕ) : Bool :=
  1 ≤ year && year ≤ 9999 && 1 ≤ month && month ≤ 12 && 1 ≤ day && day ≤ daysInMonth year month

/-- A `date`. -/
structure CalendarDate where
  year : ℕ
  month : ℕ
  day : ℕ
  valid : isDate year month day = true
  deriving DecidableEq

def makeDate (year month day : ℕ) : Option CalendarDate :=
  if h : isDate year month day = true then some ⟨year, month, day, h⟩ else none

/-! ### Digits -/

/-- The zeros of the scripts with decimal digits. -/
def decimalZeros : List ℕ :=
  [0x30, 0x660, 0x6F0, 0x7C0, 0x966, 0x9E6, 0xA66, 0xAE6, 0xB66, 0xBE6, 0xC66, 0xCE6, 0xD66, 0xDE6,
   0xE50, 0xED0, 0xF20, 0x1040, 0x1090, 0x17E0, 0x1810, 0x1946, 0x19D0, 0x1A80, 0x1A90, 0x1B50,
   0x1BB0, 0x1C40, 0x1C50, 0xA620, 0xA8D0, 0xA900, 0xA9D0, 0xA9F0, 0xAA50, 0xABF0, 0xFF10, 0x104A0,
   0x10D30, 0x11066, 0x110F0, 0x11136, 0x111D0, 0x112F0, 0x11450, 0x114D0, 0x11650, 0x116C0, 0x11730,
   0x118E0, 0x11950, 0x11C50, 0x11D50, 0x11DA0, 0x16A60, 0x16AC0, 0x16B50, 0x1D7CE, 0x1D7D8, 0x1D7E2,
   0x1D7EC, 0x1D7F6, 0x1E140, 0x1E2F0, 0x1E950, 0x1FBF0]

/-- The value of a character that `\d` matches. -/
def decimalDigit (c : Char) : Option ℕ :=
  (decimalZeros.find? fun first => first ≤ c.toNat && c.toNat < first + 10).map (c.toNat - ·)

/-- The value of a character that `[1-9]` matches. -/
def nonzeroDigit (c : Char) : Option ℕ :=
  if '1' ≤ c ∧ c ≤ '9' then some (c.toNat - '0'.toNat) else none

/-! ### Reading -/

/-- `%Y`. -/
def readYear : List Char → Option ℕ
  | [a, b, c, d] => do
    return 1000 * (← decimalDigit a) + 100 * (← decimalDigit b) + 10 * (← decimalDigit c)
      + (← decimalDigit d)
  | _ => none

/-- `%m`. -/
def readMonth : List Char → Option ℕ
  | ['1', '0'] => some 10
  | ['1', '1'] => some 11
  | ['1', '2'] => some 12
  | ['0', c] | [c] => nonzeroDigit c
  | _ => none

/-- `%d`. -/
def readDay : List Char → Option ℕ
  | ['3', '0'] => some 30
  | ['3', '1'] => some 31
  | ['1', c] => (decimalDigit c).map (10 + ·)
  | ['2', c] => (decimalDigit c).map (20 + ·)
  | ['0', c] | [' ', c] | [c] => nonzeroDigit c
  | _ => none

/-- `parse_iso_date` of a text. -/
def parseIsoDate (text : String) : Option CalendarDate :=
  match text.toList.splitOn '-' with
  | [year, month, day] => do makeDate (← readYear year) (← readMonth month) (← readDay day)
  | [year, month] => do makeDate (← readYear year) (← readMonth month) 1
  | [year] => do makeDate (← readYear year) 1 1
  | _ => none

/-! ### Writing -/

def twoDigits (n : ℕ) : List Char := [Nat.digitChar (n / 10), Nat.digitChar (n % 10)]

def fourDigits (n : ℕ) : List Char := twoDigits (n / 100) ++ twoDigits (n % 100)

def CalendarDate.isoformat (date : CalendarDate) : String :=
  String.ofList (['-'].intercalate [fourDigits date.year, twoDigits date.month, twoDigits date.day])

lemma decimalDigit_digitChar {k : ℕ} (h : k < 10) : decimalDigit (Nat.digitChar k) = some k :=
  (by decide : ∀ k < 10, decimalDigit (Nat.digitChar k) = some k) k h

lemma minus_ne_digitChar {k : ℕ} (h : k < 10) : '-' ≠ Nat.digitChar k :=
  (by decide : ∀ k < 10, '-' ≠ Nat.digitChar k) k h

lemma minus_notMem_twoDigits {n : ℕ} (h : n < 100) : '-' ∉ twoDigits n := by
  have htens := minus_ne_digitChar (show n / 10 < 10 by omega)
  have hones := minus_ne_digitChar (show n % 10 < 10 by omega)
  simp [twoDigits, htens, hones]

lemma minus_notMem_fourDigits {n : ℕ} (h : n < 10000) : '-' ∉ fourDigits n := by
  rw [fourDigits, List.mem_append, not_or]
  exact ⟨minus_notMem_twoDigits (by omega), minus_notMem_twoDigits (by omega)⟩

lemma readYear_fourDigits {n : ℕ} (h : n < 10000) : readYear (fourDigits n) = some n := by
  simp only [fourDigits, twoDigits, List.cons_append, List.nil_append, readYear]
  rw [decimalDigit_digitChar (by omega), decimalDigit_digitChar (by omega),
    decimalDigit_digitChar (by omega), decimalDigit_digitChar (by omega)]
  simp only [Option.bind_eq_bind, Option.bind_some, Option.pure_def, Option.some.injEq]
  omega

lemma readMonth_twoDigits {m : ℕ} (hpos : 1 ≤ m) (h : m ≤ 12) : readMonth (twoDigits m) = some m :=
  (by decide : ∀ m < 13, 1 ≤ m → readMonth (twoDigits m) = some m) m (by omega) hpos

lemma readDay_twoDigits {d : ℕ} (hpos : 1 ≤ d) (h : d ≤ 31) : readDay (twoDigits d) = some d :=
  (by decide : ∀ d < 32, 1 ≤ d → readDay (twoDigits d) = some d) d (by omega) hpos

lemma daysInMonth_le (year month : ℕ) : daysInMonth year month ≤ 31 := by
  unfold daysInMonth
  split_ifs <;> omega

lemma CalendarDate.bounds (date : CalendarDate) :
    (1 ≤ date.year ∧ date.year ≤ 9999) ∧ (1 ≤ date.month ∧ date.month ≤ 12) ∧
      1 ≤ date.day ∧ date.day ≤ 31 := by
  have hvalid := date.valid
  simp only [isDate, Bool.and_eq_true, decide_eq_true_eq] at hvalid
  have hdays := daysInMonth_le date.year date.month
  omega

/-- A date is read back from its text. -/
theorem parseIsoDate_isoformat (date : CalendarDate) : parseIsoDate date.isoformat = some date := by
  obtain ⟨⟨hyear, hyear'⟩, ⟨hmonth, hmonth'⟩, hday, hday'⟩ := date.bounds
  have hsplit : date.isoformat.toList.splitOn '-'
      = [fourDigits date.year, twoDigits date.month, twoDigits date.day] := by
    rw [CalendarDate.isoformat, String.toList_ofList]
    refine List.splitOn_intercalate _ ?_ (by simp)
    intro part hpart
    simp only [List.mem_cons, List.not_mem_nil, or_false] at hpart
    rcases hpart with rfl | rfl | rfl
    · exact minus_notMem_fourDigits (by omega)
    · exact minus_notMem_twoDigits (by omega)
    · exact minus_notMem_twoDigits (by omega)
  simp only [parseIsoDate, hsplit, readYear_fourDigits (show date.year < 10000 by omega),
    readMonth_twoDigits hmonth hmonth', readDay_twoDigits hday hday', Option.bind_eq_bind,
    Option.bind_some, makeDate, date.valid, dite_true]

example : (parseIsoDate "2024-02-30").isNone = true ∧ (parseIsoDate "1999-7").isSome = true := by
  decide

end Denn.Core
