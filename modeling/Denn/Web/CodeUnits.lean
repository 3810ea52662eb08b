import Denn.Web.Text
import Mathlib.Data.List.Basic

/-!
# Strings of code units

Strings of the client's language are sequences of 16 bit units, in which a pair of surrogates stands
for one character and a lone surrogate for none. JSON writes and reads any of them; the parameters of a
URL replace what is not well-formed.
-/

namespace Denn.Web

abbrev Units := List ℕ

/-- The units of a text of the first plane. -/
def units (text : String) : Units := text.toList.map Char.toNat

/-- `text.trim()`. -/
def trimUnits (text : Units) : Units := (text.dropWhile isBlankPoint).rdropWhile isBlankPoint

def isHigh (u : ℕ) : Bool := 0xD800 ≤ u && u ≤ 0xDBFF

def isLow (u : ℕ) : Bool := 0xDC00 ≤ u && u ≤ 0xDFFF

/-- Lone surrogates are replaced; `paired` tells that the unit before is the first of a pair. -/
def toWellFormed (paired : Bool) : Units → Units
  | [] => []
  | u :: text =>
    if paired then u :: toWellFormed false text
    else if isHigh u && text.head?.any isLow then u :: toWellFormed true text
    else if isHigh u || isLow u then 0xFFFD :: toWellFormed false text
    else u :: toWellFormed false text

def IsWellFormed (text : Units) : Prop := toWellFormed false text = text

instance (text : Units) : Decidable (IsWellFormed text) :=
  inferInstanceAs (Decidable (toWellFormed false text = text))

/-! ### Strings of JSON -/

/-- The digit of a number below 16. -/
def hexDigitUnit (n : ℕ) : ℕ := if n < 10 then 48 + n else 87 + n

def hexUnitValue (u : ℕ) : Option ℕ :=
  if 48 ≤ u ∧ u ≤ 57 then some (u - 48)
  else if 97 ≤ u ∧ u ≤ 102 then some (u - 87)
  else if 65 ≤ u ∧ u ≤ 70 then some (u - 55)
  else none

def escapeUnit (u : ℕ) : Units :=
  [92, 117, hexDigitUnit (u / 4096 % 16), hexDigitUnit (u / 256 % 16), hexDigitUnit (u / 16 % 16),
    hexDigitUnit (u % 16)]

def quoteUnit (u : ℕ) : Units :=
  if u = 34 ∨ u = 92 then [92, u]
  else if u = 8 then [92, 98]
  else if u = 9 then [92, 116]
  else if u = 10 then [92, 110]
  else if u = 12 then [92, 102]
  else if u = 13 then [92, 114]
  else if u < 32 then escapeUnit u
  else [u]

def quoteUnits (paired : Bool) : Units → Units
  | [] => []
  | u :: text =>
    if paired then u :: quoteUnits false text
    else if isHigh u && text.head?.any isLow then u :: quoteUnits true text
    else if isHigh u || isLow u then escapeUnit u ++ quoteUnits false text
    else quoteUnit u ++ quoteUnits false text

/-- `JSON.stringify(text)`. -/
def stringify (text : Units) : Units := 34 :: quoteUnits false text ++ [34]

/-- The unit that a letter after a backslash stands for. -/
def simpleEscape (u : ℕ) : Option ℕ :=
  if u = 34 ∨ u = 92 ∨ u = 47 then some u
  else if u = 98 then some 8
  else if u = 116 then some 9
  else if u = 110 then some 10
  else if u = 102 then some 12
  else if u = 114 then some 13
  else none

def hexValue (a b c d : ℕ) : Option ℕ := do
  let a ← hexUnitValue a
  let b ← hexUnitValue b
  let c ← hexUnitValue c
  let d ← hexUnitValue d
  return 4096 * a + 256 * b + 16 * c + d

def prepend (u : ℕ) (read : Units × Units) : Units × Units := (u :: read.1, read.2)

/-- The string up to a closing quote, and what follows. -/
def readString : Units → Option (Units × Units)
  | [] => none
  | 92 :: 117 :: a :: b :: c :: d :: text =>
    (hexValue a b c d).bind fun value => (readString text).map (prepend value)
  | 92 :: e :: text => (simpleEscape e).bind fun value => (readString text).map (prepend value)
  | u :: text =>
    if u = 34 then some ([], text)
    else if u < 32 ∨ u = 92 then none
    else (readString text).map (prepend u)

/-! ### Values of JSON -/

def isJsonBlank (u : ℕ) : Bool := u = 32 || u = 9 || u = 10 || u = 13

def skipBlanks (text : Units) : Units := text.dropWhile isJsonBlank

def isDigitUnit (u : ℕ) : Bool := 48 ≤ u && u ≤ 57

/-- At least one digit. -/
def skipDigits (text : Units) : Option Units :=
  if text.head?.any isDigitUnit then some (text.dropWhile isDigitUnit) else none

def skipInteger : Units → Option Units
  | 48 :: text => some text
  | text => skipDigits text

def skipFraction : Units → Option Units
  | 46 :: text => skipDigits text
  | text => some text

def skipSign (signs : Units) : Units → Units
  | [] => []
  | u :: text => if u ∈ signs then text else u :: text

def skipExponent : Units → Option Units
  | [] => some []
  | u :: text => if u = 101 ∨ u = 69 then skipDigits (skipSign [43, 45] text) else some (u :: text)

def skipNumber (text : Units) : Option Units :=
  ((skipInteger (skipSign [45] text)).bind skipFraction).bind skipExponent

/-- A value that is a word or a number. -/
def skipScalar (text : Units) : Option Units :=
  if units "true" <+: text then some (text.drop 4)
  else if units "false" <+: text then some (text.drop 5)
  else if units "null" <+: text then some (text.drop 4)
  else skipNumber text

mutual

/-- What follows a value; every second call, at least, comes to a later unit. -/
def skipValue : ℕ → Units → Option Units
  | 0, _ => none
  | fuel + 1, text =>
    match skipBlanks text with
    | [] => none
    | u :: rest =>
      if u = 34 then (readString rest).map Prod.snd
      else if u = 91 then
        if (skipBlanks rest).head? = some 93 then some (skipBlanks rest).tail
        else skipElements fuel rest
      else if u = 123 then
        if (skipBlanks rest).head? = some 125 then some (skipBlanks rest).tail
        else skipMembers fuel rest
      else skipScalar (u :: rest)

def skipElements : ℕ → Units → Option Units
  | 0, _ => none
  | fuel + 1, text =>
    (skipValue fuel text).bind fun rest =>
      match skipBlanks rest with
      | [] => none
      | u :: rest =>
        if u = 44 then skipElements fuel rest else if u = 93 then some rest else none

def skipMembers : ℕ → Units → Option Units
  | 0, _ => none
  | fuel + 1, text =>
    match skipBlanks text with
    | [] => none
    | u :: rest =>
      if u = 34 then
        (readString rest).bind fun key =>
          match skipBlanks key.2 with
          | [] => none
          | v :: rest =>
            if v = 58 then
              (skipValue fuel rest).bind fun rest =>
                match skipBlanks rest with
                | [] => none
                | w :: rest =>
                  if w = 44 then skipMembers fuel rest else if w = 125 then some rest else none
            else none
      else none

end

/-- `JSON.parse` takes the text. -/
def isJson (text : Units) : Bool :=
  (skipValue (2 * text.length + 2) text).any fun rest => rest.all isJsonBlank

/-- The string that `JSON.parse` makes of the text, if it makes one. -/
def parseJsonString (text : Units) : Option Units :=
  match skipBlanks text with
  | [] => none
  | u :: rest =>
    if u = 34 then
      (readString rest).bind fun read => if read.2.all isJsonBlank then some read.1 else none
    else none

/-! ### Reading what was written -/

lemma hexUnitValue_hexDigitUnit {n : ℕ} (h : n < 16) : hexUnitValue (hexDigitUnit n) = some n := by
  rw [hexDigitUnit, hexUnitValue]
  split_ifs <;> first | omega | (congr 1; omega)

lemma hexValue_digits {u : ℕ} (h : u < 65536) :
    hexValue (hexDigitUnit (u / 4096 % 16)) (hexDigitUnit (u / 256 % 16)) (hexDigitUnit (u / 16 % 16))
      (hexDigitUnit (u % 16)) = some u := by
  simp only [hexValue, hexUnitValue_hexDigitUnit (Nat.mod_lt _ (by decide : 0 < 16)),
    Option.bind_eq_bind, Option.bind_some, Option.pure_def]
  congr 1
  omega

lemma readString_escapeUnit {u : ℕ} (h : u < 65536) (text : Units) :
    readString (escapeUnit u ++ text) = (readString text).map (prepend u) := by
  rw [escapeUnit]
  simp only [List.cons_append, List.nil_append, readString, hexValue_digits h, Option.bind_some]

lemma readString_quote (text : Units) : readString (34 :: text) = some ([], text) := rfl

lemma readString_plain {u : ℕ} (hquote : u ≠ 34) (hescape : u ≠ 92) (hcontrol : 32 ≤ u) (text : Units) :
    readString (u :: text) = (readString text).map (prepend u) := by
  rw [readString, if_neg hquote, if_neg (by omega)] <;> simp_all

lemma readString_simple {letter value : ℕ} (hletter : letter ≠ 117)
    (hvalue : simpleEscape letter = some value) (text : Units) :
    readString (92 :: letter :: text) = (readString text).map (prepend value) := by
  rw [readString, hvalue, Option.bind_some]
  intro a b c d rest heq
  exact fun _ => absurd heq hletter

lemma readString_quoteUnit (u : ℕ) (text : Units) :
    readString (quoteUnit u ++ text) = (readString text).map (prepend u) := by
  unfold quoteUnit
  split_ifs with hself h8 h9 h10 h12 h13 hcontrol
  · refine readString_simple (by omega) ?_ text
    rw [simpleEscape, if_pos (by omega)]
  · exact readString_simple (by decide) (by subst h8; rfl) text
  · exact readString_simple (by decide) (by subst h9; rfl) text
  · exact readString_simple (by decide) (by subst h10; rfl) text
  · exact readString_simple (by decide) (by subst h12; rfl) text
  · exact readString_simple (by decide) (by subst h13; rfl) text
  · exact readString_escapeUnit (by omega) text
  · exact readString_plain (by omega) (by omega) (by omega) text

lemma readString_quoteUnits (paired : Bool) (text : Units) (hpaired : paired = true → text.head?.any isLow)
    (rest : Units) : readString (quoteUnits paired text ++ 34 :: rest) = some (text, rest) := by
  induction text generalizing paired with
  | nil => exact readString_quote rest
  | cons u text ih =>
    have hsurrogate : isHigh u = true ∨ isLow u = true → 0xD800 ≤ u ∧ u ≤ 0xDFFF := by
      simp only [isHigh, isLow, Bool.and_eq_true, decide_eq_true_eq]
      omega
    rw [quoteUnits]
    split_ifs with hsecond hfirst hlone
    · have hlow : isLow u = true := by simpa using hpaired hsecond
      have hbounds := hsurrogate (.inr hlow)
      rw [List.cons_append, readString_plain (by omega) (by omega) (by omega), ih false (by simp)]
      rfl
    · obtain ⟨hhigh, hnext⟩ := Bool.and_eq_true_iff.mp hfirst
      have hbounds := hsurrogate (.inl hhigh)
      rw [List.cons_append, readString_plain (by omega) (by omega) (by omega), ih true fun _ => hnext]
      rfl
    · have hbounds := hsurrogate (Bool.or_eq_true_iff.mp hlone)
      rw [List.append_assoc, readString_escapeUnit (by omega), ih false (by simp)]
      rfl
    · rw [List.append_assoc, readString_quoteUnit, ih false (by simp)]
      rfl

/-- `JSON.parse(JSON.stringify(text))`. -/
theorem parseJsonString_stringify (text : Units) : parseJsonString (stringify text) = some text := by
  rw [stringify, List.cons_append, parseJsonString]
  have hread := readString_quoteUnits false text (by simp) []
  have hblanks : skipBlanks (34 :: (quoteUnits false text ++ [34])) =
      34 :: (quoteUnits false text ++ [34]) := List.dropWhile_cons_of_neg (by decide)
  rw [hblanks]
  simp [hread]

/-- A text that `JSON.parse` makes a string of is JSON. -/
lemma isJson_of_parseJsonString {text value : Units} (h : parseJsonString text = some value) :
    isJson text = true := by
  rw [parseJsonString] at h
  rw [isJson, skipValue]
  cases htext : skipBlanks text with
  | nil => simp [htext] at h
  | cons u rest =>
    simp only [htext] at h
    split_ifs at h with hquote
    obtain ⟨read, hread, hblank⟩ := Option.bind_eq_some_iff.mp h
    split_ifs at hblank with hall
    simp [hquote, hread, hall]

/-! ### Well-formed texts -/

lemma isSurrogate_false {u : ℕ} (h : u < 0xD800) : isHigh u = false ∧ isLow u = false := by
  simp only [isHigh, isLow, Bool.and_eq_false_iff, decide_eq_false_iff_not]
  omega

lemma isWellFormed_of_lt {text : Units} (h : ∀ u ∈ text, u < 0xD800) : IsWellFormed text := by
  induction text with
  | nil => rfl
  | cons u text ih =>
    obtain ⟨hu, htext⟩ := List.forall_mem_cons.mp h
    obtain ⟨hhigh, hlow⟩ := isSurrogate_false hu
    have hrest : toWellFormed false text = text := ih htext
    rw [IsWellFormed, toWellFormed]
    simpa [hhigh, hlow] using hrest

/-- A text is replaced on each side of a unit that is no surrogate by itself. -/
lemma toWellFormed_append_cons {u : ℕ} (hu : u < 0xD800) (paired : Bool) (text rest : Units)
    (hpaired : paired = true → text ≠ []) :
    toWellFormed paired (text ++ u :: rest) = toWellFormed paired text ++ u :: toWellFormed false rest := by
  obtain ⟨hhigh, hlow⟩ := isSurrogate_false hu
  induction text generalizing paired with
  | nil =>
    obtain rfl : paired = false := by simpa using hpaired
    simp [toWellFormed, hhigh, hlow]
  | cons v text ih =>
    have hnext : (text ++ u :: rest).head?.any isLow = text.head?.any isLow := by
      cases text <;> simp [hlow]
    rw [List.cons_append, toWellFormed, toWellFormed, hnext]
    split_ifs with hsecond hfirst hlone
    · rw [ih false (by simp), List.cons_append]
    · have hne : text ≠ [] := by
        rintro rfl
        simp at hfirst
      rw [ih true fun _ => hne, List.cons_append]
    · rw [ih false (by simp), List.cons_append]
    · rw [ih false (by simp), List.cons_append]

end Denn.Web
