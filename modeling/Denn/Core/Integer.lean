import Denn.Core.Text

/-!
# Reading integers

What `int` accepts in a string: decimal digits of any script, single underscores between them, a
sign in front, and whitespace around.
-/

namespace Denn.Core

/-- The code points of the zeros of the decimal scripts; the other nine digits follow each. -/
def digitZeros : List ℕ :=
  [0x30, 0x660, 0x6F0, 0x7C0, 0x966, 0x9E6, 0xA66, 0xAE6, 0xB66, 0xBE6, 0xC66, 0xCE6, 0xD66, 0xDE6,
    0xE50, 0xED0, 0xF20, 0x1040, 0x1090, 0x17E0, 0x1810, 0x1946, 0x19D0, 0x1A80, 0x1A90, 0x1B50,
    0x1BB0, 0x1C40, 0x1C50, 0xA620, 0xA8D0, 0xA900, 0xA9D0, 0xA9F0, 0xAA50, 0xABF0, 0xFF10,
    0x104A0, 0x10D30, 0x11066, 0x110F0, 0x11136, 0x111D0, 0x112F0, 0x11450, 0x114D0, 0x11650,
    0x116C0, 0x11730, 0x118E0, 0x11950, 0x11C50, 0x11D50, 0x11DA0, 0x11F50, 0x16A60, 0x16AC0,
    0x16B50, 0x1D7CE, 0x1D7D8, 0x1D7E2, 0x1D7EC, 0x1D7F6, 0x1E140, 0x1E2F0, 0x1E4F0, 0x1E950,
    0x1FBF0]

def digitValue (c : Char) : Option ℕ :=
  (digitZeros.find? fun first => first ≤ c.toNat && c.toNat < first + 10).map (c.toNat - ·)

/-- The rest of a number whose digits so far have the given value. -/
def readDigits (value : ℕ) : List Char → Option ℕ
  | [] => some value
  | '_' :: c :: rest => (digitValue c).bind fun digit => readDigits (10 * value + digit) rest
  | c :: rest => (digitValue c).bind fun digit => readDigits (10 * value + digit) rest

def readNumber : List Char → Option ℕ
  | [] => none
  | c :: rest => (digitValue c).bind fun digit => readDigits digit rest

/-- `int(s)`; `none` is its `ValueError`. -/
def readInt (s : String) : Option ℤ :=
  match (strip s).toList with
  | '-' :: rest => (readNumber rest).map fun n => -n
  | '+' :: rest => (readNumber rest).map fun n => n
  | rest => (readNumber rest).map fun n => n

example : readInt " -1_0 " = some (-10) ∧ readInt "one" = none ∧ readInt "1__0" = none := by
  decide +kernel

end Denn.Core
