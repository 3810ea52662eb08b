import Mathlib.Data.List.DropRight
import Mathlib.Tactic.Common

/-!
# Text of the web client

The string operations of the client's language, on strings of Unicode characters.
-/

namespace Denn.Web

/-- White space and line ends. -/
def isBlankPoint (n : ℕ) : Bool :=
  (0x09 ≤ n && n ≤ 0x0D) || n == 0x20 || n == 0xA0 || n == 0x1680 || (0x2000 ≤ n && n ≤ 0x200A) ||
    n == 0x2028 || n == 0x2029 || n == 0x202F || n == 0x205F || n == 0x3000 || n == 0xFEFF

def isWhitespace (c : Char) : Bool := isBlankPoint c.toNat

/-- `text.trim()`. -/
def trim (text : String) : String :=
  String.ofList ((text.toList.dropWhile isWhitespace).rdropWhile isWhitespace)

end Denn.Web
