import Mathlib.Data.List.Forall2
import Mathlib.Tactic.Common

/-!
# Regular expressions

Patterns with word boundaries, matched by trying all the ways. A position in a text is the character
before it and the characters after it.
-/

namespace Denn.Core

inductive Pattern where
  | empty
  | char (p : Char → Bool)
  /-- `\b`. -/
  | boundary
  | seq (first second : Pattern)
  | alt (first second : Pattern)
  | star (body : Pattern)

abbrev Position := Option Char × List Char

namespace Pattern

/-! ### Abbreviations -/

def optional (body : Pattern) : Pattern := .alt body .empty

def concat : List Pattern → Pattern
  | [] => .empty
  | pattern :: patterns => .seq pattern (concat patterns)

def choice : List Pattern → Pattern
  | [] => .char fun _ => false
  | pattern :: patterns => .alt pattern (choice patterns)

/-- Characters one after another, each of its class. -/
def run (classes : List (Char → Bool)) : Pattern := concat (classes.map char)

def literal (text : String) : Pattern := run (text.toList.map fun c d => d = c)

/-- `body{n,}`. -/
def atLeast (n : ℕ) (body : Pattern) : Pattern := .seq (concat (List.replicate n body)) (.star body)

/-- At most so many characters of a class. -/
def upTo (p : Char → Bool) : ℕ → Pattern
  | 0 => .empty
  | n + 1 => optional (.seq (.char p) (upTo p n))

/-- A lower-case ASCII letter without regard to case; some other letters have one in lower case. -/
def ignoringCase (letter c : Char) : Bool :=
  c = letter || c = letter.toUpper || (letter = 's' && c = '\u017f') ||
    (letter = 'k' && c = '\u212a') || (letter = 'i' && (c = '\u0130' || c = '\u0131'))

/-! ### Matching -/

variable (isWord : Char → Bool)

def isBoundary (pos : Position) : Bool := pos.1.any isWord != pos.2.head?.any isWord

/-- The positions after any number of steps that consume something. -/
def iterate (step : Position → List Position) : ℕ → Position → List Position
  | 0, pos => [pos]
  | n + 1, pos =>
    pos :: ((step pos).filter fun next => next.2.length < pos.2.length).flatMap (iterate step n)

/-- Where a match from a position can end. -/
def ends : Pattern → Position → List Position
  | .empty, pos => [pos]
  | .char p, (_, c :: rest) => if p c then [(some c, rest)] else []
  | .char _, (_, []) => []
  | .boundary, pos => if isBoundary isWord pos then [pos] else []
  | .seq first second, pos => (first.ends pos).flatMap second.ends
  | .alt first second, pos => first.ends pos ++ second.ends pos
  | .star body, pos => iterate body.ends pos.2.length pos

/-- The whole text matches. -/
def fullMatch (pattern : Pattern) (text : String) : Bool :=
  (pattern.ends isWord (none, text.toList)).any fun pos => pos.2.isEmpty

def searchFrom (pattern : Pattern) : Option Char → List Char → Bool
  | before, [] => !(pattern.ends isWord (before, [])).isEmpty
  | before, c :: rest =>
    !(pattern.ends isWord (before, c :: rest)).isEmpty || searchFrom pattern (some c) rest

/-- Some part of the text matches. -/
def search (pattern : Pattern) (text : String) : Bool := searchFrom isWord pattern none text.toList

variable {isWord} {classes : List (Char → Bool)} {p q : Char → Bool} {n : ℕ}

/-- A run of characters matches exactly the texts with a character of each class. -/
lemma any_ends_run (before : Option Char) (text : List Char) :
    ((run classes).ends isWord (before, text)).any (fun pos => pos.2.isEmpty) = true ↔
      List.Forall₂ (fun p c => p c = true) classes text := by
  induction classes generalizing before text with
  | nil =>
    rw [List.forall₂_nil_left_iff]
    cases text <;> simp [run, concat, ends]
  | cons p classes ih =>
    cases text with
    | nil =>
      rw [List.forall₂_nil_right_iff]
      simp [run, concat, ends]
    | cons c text =>
      have hends : (run (p :: classes)).ends isWord (before, c :: text) =
          if p c then (run classes).ends isWord (some c, text) else [] := by
        simp only [run, List.map_cons, concat, ends]
        split_ifs
        · exact List.flatMap_singleton ..
        · rfl
      rw [hends, List.forall₂_cons, ← ih (some c)]
      by_cases hp : p c = true
      · simp [hp]
      · simp [hp]

lemma fullMatch_run {text : String} : (run classes).fullMatch isWord text = true ↔
    List.Forall₂ (fun p c => p c = true) classes text.toList :=
  any_ends_run none text.toList

lemma any_ends_upTo (before : Option Char) (text : List Char) :
    ((upTo p n).ends isWord (before, text)).any (fun pos => pos.2.isEmpty) = true ↔
      text.length ≤ n ∧ ∀ c ∈ text, p c = true := by
  induction n generalizing before text with
  | zero => cases text <;> simp [upTo, ends]
  | succ n ih =>
    cases text with
    | nil => simp [upTo, optional, ends]
    | cons c text =>
      have hends : (upTo p (n + 1)).ends isWord (before, c :: text) =
          (if p c then (upTo p n).ends isWord (some c, text) else []) ++ [(before, c :: text)] := by
        simp only [upTo, optional, ends]
        split_ifs
        · rw [List.flatMap_singleton]
        · rfl
      have hrest := ih (some c) text
      rw [hends, List.any_append, Bool.or_eq_true]
      by_cases hp : p c = true
      · simp [hp, hrest]
      · simp [hp]

/-- A first character and a bounded number of further ones. -/
lemma fullMatch_upTo {text : String} :
    (Pattern.seq (.char p) (upTo q n)).fullMatch isWord text = true ↔
      ∃ c rest, text.toList = c :: rest ∧ p c = true ∧ rest.length ≤ n ∧ ∀ d ∈ rest, q d = true := by
  rw [fullMatch]
  cases text.toList with
  | nil => simp [ends]
  | cons c rest =>
    by_cases hp : p c = true
    · have hends : (Pattern.seq (.char p) (upTo q n)).ends isWord (none, c :: rest) =
          (upTo q n).ends isWord (some c, rest) := by
        simp only [ends, hp, if_true]
        exact List.flatMap_singleton ..
      rw [hends, any_ends_upTo]
      simp [hp]
    · simp [ends, hp]

end Pattern

end Denn.Core
