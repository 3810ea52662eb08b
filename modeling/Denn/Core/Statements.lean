import Mathlib.Data.List.Basic
import Mathlib.Tactic.Common

/-!
# Statements with string literals

A text of statements, each of which ends at a semicolon outside of a string literal. A literal ends at
its first double quote that is not escaped; a backslash escapes the character after it.
-/

namespace Denn.Core

/-- A character outside of literals, or a literal with the text between its quotes. -/
inductive Piece where
  | plain (c : Char)
  | literal (text : List Char)
  deriving DecidableEq

inductive ReadMode where
  | outside
  | inside (text : List Char)
  /-- After a backslash in a literal. -/
  | escaped (text : List Char)
  deriving DecidableEq

/-- The statements that have been read, and the pieces of the one that is being read. -/
structure Reader where
  statements : List (List Piece) := []
  current : List Piece := []
  mode : ReadMode := .outside
  deriving DecidableEq

namespace Reader

def read (reader : Reader) (c : Char) : Reader :=
  match reader.mode with
  | .outside =>
    if c = ';' then
      { statements := reader.statements ++ [reader.current], current := [], mode := .outside }
    else if c = '"' then { reader with mode := .inside [] }
    else { reader with current := reader.current ++ [.plain c] }
  | .inside text =>
    if c = '"' then
      { reader with current := reader.current ++ [.literal text], mode := .outside }
    else if c = '\\' then { reader with mode := .escaped (text ++ [c]) }
    else { reader with mode := .inside (text ++ [c]) }
  | .escaped text => { reader with mode := .inside (text ++ [c]) }

end Reader

/-- The statements of a text without the blanks before them; none if the text ends within one. -/
def readStatements (text : List Char) : Option (List (List Piece)) :=
  let reader := text.foldl Reader.read {}
  if reader.mode = .outside ∧ reader.current.all (· = .plain ' ') then
    some (reader.statements.map (List.dropWhile (· = .plain ' ')))
  else none

/-- The characters that the text of a literal stands for. -/
def unescape (escaped : Bool) : List Char → List Char
  | [] => []
  | c :: rest =>
    if !escaped && c = '\\' then unescape true rest else c :: unescape false rest

/-- The text has neither a double quote that is not escaped nor an escape without a character. -/
def fitsLiteral (escaped : Bool) : List Char → Bool
  | [] => !escaped
  | c :: rest =>
    if escaped then fitsLiteral false rest
    else c ≠ '"' && fitsLiteral (c = '\\') rest

/-- Characters that are read as they stand. -/
def plainText (text : List Char) : List Piece := text.map .plain

variable {reader : Reader} {text rest : List Char}

/-! ### Literals -/

lemma length_unescape_le (escaped : Bool) (text : List Char) :
    (unescape escaped text).length ≤ text.length := by
  induction text generalizing escaped with
  | nil => exact Nat.le_refl _
  | cons c text ih =>
    rw [unescape]
    split_ifs
    · exact Nat.le_succ_of_le (ih true)
    · exact Nat.succ_le_succ (ih false)

/-- Only a backslash stands for nothing. -/
lemma unescape_eq_self_iff : unescape false text = text ↔ '\\' ∉ text := by
  induction text with
  | nil => simp [unescape]
  | cons c text ih =>
    rw [unescape]
    by_cases hc : c = '\\'
    · have hle := length_unescape_le true text
      have hne : unescape true text ≠ '\\' :: text := fun heq => by
        have := congrArg List.length heq
        rw [List.length_cons] at this
        omega
      simp [hc, hne]
    · simp [hc, ih, Ne.symm hc]

lemma fitsLiteral_of_notMem (hquote : '"' ∉ text) (hescape : '\\' ∉ text) :
    fitsLiteral false text = true := by
  induction text with
  | nil => rfl
  | cons c text ih =>
    obtain ⟨hc, hquote⟩ := not_or.mp (mt List.mem_cons.mpr hquote)
    obtain ⟨hc', hescape⟩ := not_or.mp (mt List.mem_cons.mpr hescape)
    rw [fitsLiteral]
    simp [Ne.symm hc, Ne.symm hc', ih hquote hescape]

lemma notMem_of_fitsLiteral (hfits : fitsLiteral false text = true) (hescape : '\\' ∉ text) :
    '"' ∉ text := by
  induction text with
  | nil => exact List.not_mem_nil
  | cons c text ih =>
    obtain ⟨hc, hescape⟩ := not_or.mp (mt List.mem_cons.mpr hescape)
    simp only [fitsLiteral, Bool.false_eq_true, if_false, ne_eq, decide_not, Bool.and_eq_true,
      Bool.not_eq_true', decide_eq_false_iff_not, Ne.symm hc, decide_false] at hfits
    rw [List.mem_cons, not_or]
    exact ⟨Ne.symm hfits.1, ih hfits.2 hescape⟩

namespace Reader

/-- The mode in a literal. -/
def literalMode (escaped : Bool) (text : List Char) : ReadMode :=
  if escaped then .escaped text else .inside text

/-- A text that fits is read into the literal. -/
lemma foldl_read_of_fits (statements : List (List Piece)) (current : List Piece) (escaped : Bool)
    (front : List Char) (hfits : fitsLiteral escaped text = true) :
    text.foldl read ⟨statements, current, literalMode escaped front⟩ =
      ⟨statements, current, .inside (front ++ text)⟩ := by
  induction text generalizing escaped front with
  | nil =>
    cases escaped with
    | false => rw [List.append_nil]; rfl
    | true => exact absurd hfits Bool.false_ne_true
  | cons c text ih =>
    rw [List.foldl_cons, List.append_cons]
    cases escaped with
    | true => exact ih false (front ++ [c]) hfits
    | false =>
      simp only [fitsLiteral, Bool.false_eq_true, if_false, ne_eq, decide_not, Bool.and_eq_true,
        Bool.not_eq_true', decide_eq_false_iff_not] at hfits
      have hread : read ⟨statements, current, literalMode false front⟩ c =
          ⟨statements, current, literalMode (c = '\\') (front ++ [c])⟩ := by
        by_cases hc : c = '\\' <;> simp [read, literalMode, hfits.1, hc]
      rw [hread]
      exact ih _ _ hfits.2

/-- Reading a literal comes to its end, if the text does not end before. -/
lemma exists_literal (statements : List (List Piece)) (current : List Piece) (escaped : Bool)
    (front : List Char)
    (hmode : (text.foldl read ⟨statements, current, literalMode escaped front⟩).mode = .outside) :
    ∃ literal rest, text = literal ++ '"' :: rest ∧ fitsLiteral escaped literal = true ∧
      text.foldl read ⟨statements, current, literalMode escaped front⟩ =
        rest.foldl read ⟨statements, current ++ [.literal (front ++ literal)], .outside⟩ := by
  induction text generalizing escaped front with
  | nil =>
    cases escaped <;> exact absurd hmode (by simp [literalMode])
  | cons c text ih =>
    rw [List.foldl_cons] at hmode ⊢
    cases escaped with
    | true =>
      obtain ⟨literal, rest, rfl, hfits, hread⟩ := ih false (front ++ [c]) hmode
      refine ⟨c :: literal, rest, rfl, hfits, ?_⟩
      rw [List.append_assoc] at hread
      exact hread
    | false =>
      by_cases hquote : c = '"'
      · refine ⟨[], text, by rw [hquote]; rfl, rfl, ?_⟩
        rw [List.append_nil]
        simp [read, literalMode, hquote]
      · have hstep : read ⟨statements, current, literalMode false front⟩ c =
            ⟨statements, current, literalMode (c = '\\') (front ++ [c])⟩ := by
          by_cases hc : c = '\\' <;> simp [read, literalMode, hquote, hc]
        rw [hstep] at hmode ⊢
        obtain ⟨literal, rest, rfl, hfits, hread⟩ := ih _ _ hmode
        refine ⟨c :: literal, rest, rfl, by simp [fitsLiteral, hquote, hfits], ?_⟩
        rw [List.append_assoc] at hread
        exact hread

/-! ### Outside of literals -/

lemma foldl_read_plain (statements : List (List Piece)) (current : List Piece)
    (hsemicolon : ';' ∉ text) (hquote : '"' ∉ text) :
    text.foldl read ⟨statements, current, .outside⟩ =
      ⟨statements, current ++ plainText text, .outside⟩ := by
  induction text generalizing current with
  | nil => rw [plainText, List.map_nil, List.append_nil]; rfl
  | cons c text ih =>
    obtain ⟨hc, hsemicolon⟩ := not_or.mp (mt List.mem_cons.mpr hsemicolon)
    obtain ⟨hc', hquote⟩ := not_or.mp (mt List.mem_cons.mpr hquote)
    have hstep : read ⟨statements, current, .outside⟩ c =
        ⟨statements, current ++ [.plain c], .outside⟩ := by
      simp [read, Ne.symm hc, Ne.symm hc']
    rw [List.foldl_cons, hstep, ih _ hsemicolon hquote, List.append_assoc]
    rfl

/-- A statement without literals up to its semicolon. -/
lemma foldl_read_statement (statements : List (List Piece)) (current : List Piece)
    (hsemicolon : ';' ∉ text) (hquote : '"' ∉ text) (rest : List Char) :
    (text ++ ';' :: rest).foldl read ⟨statements, current, .outside⟩ =
      rest.foldl read ⟨statements ++ [current ++ plainText text], [], .outside⟩ := by
  rw [List.foldl_append, foldl_read_plain _ _ hsemicolon hquote, List.foldl_cons]
  rfl

/-- The statement that is being read is only added to. -/
lemma exists_append (text : List Char) (reader : Reader) :
    ∃ more rest, (text.foldl read reader).statements ++ [(text.foldl read reader).current] =
      reader.statements ++ (reader.current ++ more) :: rest := by
  induction text generalizing reader with
  | nil => exact ⟨[], [], by rw [List.append_nil]; rfl⟩
  | cons c text ih =>
    obtain ⟨more, rest, hread⟩ := ih (reader.read c)
    rw [List.foldl_cons, hread]
    rw [read]
    split
    · split_ifs
      · exact ⟨[], more :: rest, by simp⟩
      · exact ⟨more, rest, rfl⟩
      · exact ⟨.plain c :: more, rest, by simp⟩
    · rename_i front _
      split_ifs
      · exact ⟨.literal front :: more, rest, by simp⟩
      · exact ⟨more, rest, rfl⟩
      · exact ⟨more, rest, rfl⟩
    · exact ⟨more, rest, rfl⟩

end Reader

/-! ### A statement with one literal -/

variable {first literal : List Char} {statements : List (List Piece)}

/-- A literal that fits is read as it stands. -/
theorem foldl_read_literal (hsemicolon : ';' ∉ first) (hquote : '"' ∉ first)
    (hfits : fitsLiteral false literal = true) (rest : List Char) :
    (first ++ '"' :: (literal ++ '"' :: ';' :: rest)).foldl Reader.read {} =
      rest.foldl Reader.read ⟨[plainText first ++ [.literal literal]], [], .outside⟩ := by
  have hopen : ∀ current, Reader.read ⟨[], current, .outside⟩ '"' =
      ⟨[], current, Reader.literalMode false []⟩ := fun _ => rfl
  rw [List.foldl_append, Reader.foldl_read_plain [] [] hsemicolon hquote, List.foldl_cons, hopen,
    List.foldl_append, Reader.foldl_read_of_fits _ _ _ _ hfits]
  rfl

/-- Statements without literals, each with a blank before it. -/
def clauses (texts : List (List Char)) : List Char :=
  texts.flatMap fun text => ' ' :: (text ++ [';'])

lemma foldl_read_clauses (statements : List (List Piece)) {texts : List (List Char)}
    (hplain : ∀ text ∈ texts, ';' ∉ text ∧ '"' ∉ text) :
    (clauses texts).foldl Reader.read ⟨statements, [], .outside⟩ =
      ⟨statements ++ texts.map fun text => .plain ' ' :: plainText text, [], .outside⟩ := by
  induction texts generalizing statements with
  | nil => rw [List.map_nil, List.append_nil]; rfl
  | cons text texts ih =>
    obtain ⟨⟨hsemicolon, hquote⟩, hplain⟩ := List.forall_mem_cons.mp hplain
    have hblank : Reader.read ⟨statements, [], .outside⟩ ' ' =
        ⟨statements, [.plain ' '], .outside⟩ := rfl
    have hcons : clauses (text :: texts) = ' ' :: (text ++ ';' :: clauses texts) := by
      simp [clauses]
    rw [hcons, List.foldl_cons, hblank, Reader.foldl_read_statement _ _ hsemicolon hquote, ih _ hplain,
      List.append_assoc]
    rfl

/-- A search statement and clauses are read as they were put together, if the literal fits. -/
theorem readStatements_of_fits {texts : List (List Char)} (hsemicolon : ';' ∉ first)
    (hquote : '"' ∉ first) (hfirst : first.head?.any (· ≠ ' '))
    (hfits : fitsLiteral false literal = true)
    (hplain : ∀ text ∈ texts, ';' ∉ text ∧ '"' ∉ text)
    (hblank : ∀ text ∈ texts, text.head?.any (· ≠ ' ')) :
    readStatements (first ++ '"' :: (literal ++ '"' :: ';' :: clauses texts)) =
      some ((plainText first ++ [.literal literal]) :: texts.map plainText) := by
  have htrim : ∀ text pieces, text.head?.any (· ≠ ' ') →
      (plainText text ++ pieces).dropWhile (· = .plain ' ') = plainText text ++ pieces := by
    intro text pieces hhead
    cases text with
    | nil => exact absurd hhead Bool.false_ne_true
    | cons c text =>
      have hc : c ≠ ' ' := by simpa using hhead
      simp [plainText, hc]
  rw [readStatements, foldl_read_literal hsemicolon hquote hfits, foldl_read_clauses _ hplain,
    if_pos ⟨rfl, rfl⟩, List.map_append, List.map_map]
  congr 1
  simp only [List.map_cons, List.map_nil, List.singleton_append, htrim _ _ hfirst, List.cons.injEq,
    true_and]
  refine List.map_congr_left fun text htext => ?_
  have := htrim text [] (hblank text htext)
  rw [List.append_nil] at this
  simpa [List.dropWhile_cons] using this

/-- A statement that is read with one literal has the text up to the end of this. -/
theorem literal_of_readStatements (hsemicolon : ';' ∉ first) (hquote : '"' ∉ first)
    (hfirst : first.head?.any (· ≠ ' '))
    (hread : readStatements (first ++ '"' :: text) = some statements)
    (hhead : statements.head? = some (plainText first ++ [.literal literal])) :
    ∃ rest, text = literal ++ '"' :: rest ∧ fitsLiteral false literal = true := by
  obtain ⟨c, first, rfl⟩ : ∃ c rest, first = c :: rest := by
    cases first with
    | nil => exact absurd hfirst Bool.false_ne_true
    | cons c first => exact ⟨c, first, rfl⟩
  have hc : c ≠ ' ' := by simpa using hfirst
  have hopen : ∀ current, Reader.read ⟨[], current, .outside⟩ '"' =
      ⟨[], current, Reader.literalMode false []⟩ := fun _ => rfl
  rw [readStatements, Option.ite_none_right_eq_some, List.foldl_append,
    Reader.foldl_read_plain [] [] hsemicolon hquote, List.foldl_cons, hopen] at hread
  obtain ⟨⟨hmode, -⟩, heq⟩ := hread
  obtain ⟨found, rest, rfl, hfits, hrest⟩ := Reader.exists_literal [] _ false [] hmode
  rw [hrest] at heq
  obtain ⟨more, tail, happend⟩ := Reader.exists_append rest
    ⟨[], [] ++ plainText (c :: first) ++ [.literal ([] ++ found)], .outside⟩
  obtain rfl := Option.some.inj heq
  rw [List.head?_map, Option.map_eq_some_iff] at hhead
  obtain ⟨statement, hstatement, htrim⟩ := hhead
  -- the first statement begins with what was read up to the end of the literal
  obtain ⟨others, hothers⟩ := List.head?_eq_some_iff.mp hstatement
  rw [hothers] at happend
  obtain ⟨rfl, -⟩ := List.cons.inj happend
  simp only [plainText, List.map_cons, List.nil_append, List.cons_append, List.dropWhile_cons,
    Piece.plain.injEq, hc, decide_false, Bool.false_eq_true, if_false, List.cons.injEq, true_and,
    List.append_assoc, List.append_cancel_left_eq, Piece.literal.injEq] at htrim
  exact ⟨rest, by rw [htrim.1], htrim.1 ▸ hfits⟩

end Denn.Core
