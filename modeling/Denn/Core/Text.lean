import Mathlib.Data.List.DropRight
import Mathlib.Data.List.TakeWhile
import Mathlib.Tactic.Common

/-!
# Text operations

The whitespace operations on Unicode strings that `str.strip` and `str.split` perform: leading and
trailing whitespace is dropped, and a string is cut into its maximal runs of non-space characters.
-/

namespace Denn.Core

/-- The characters that count as whitespace for stripping and splitting. -/
def isSpace (c : Char) : Bool :=
  let n := c.toNat
  (0x09 ≤ n && n ≤ 0x0D) || (0x1C ≤ n && n ≤ 0x20) || n == 0x85 || n == 0xA0 || n == 0x1680
    || (0x2000 ≤ n && n ≤ 0x200A) || n == 0x2028 || n == 0x2029 || n == 0x202F || n == 0x205F
    || n == 0x3000

/-- `str.strip()`. -/
def strip (s : String) : String :=
  String.ofList ((s.toList.dropWhile isSpace).reverse.dropWhile isSpace).reverse

/-- `str.split()`. -/
def splitWords (s : String) : List String :=
  ((s.toList.splitOnP isSpace).filter fun w => !w.isEmpty).map String.ofList

/-- Nothing is left of the string when it is stripped. -/
def isBlank (s : String) : Bool := s.toList.all isSpace

lemma strip_eq_empty_iff (s : String) : strip s = "" ↔ isBlank s = true := by
  have hofList : ∀ l : List Char, String.ofList l = "" ↔ l = [] := by
    intro l
    rw [show ("" : String) = String.ofList [] from rfl, String.ofList_inj]
  rw [strip, isBlank, hofList, List.reverse_eq_nil_iff, List.all_eq_true,
    List.dropWhile_eq_nil_iff]
  constructor
  · intro h c hc
    by_contra hspace
    rw [← List.takeWhile_append_dropWhile (p := isSpace) (l := s.toList)] at hc
    rcases List.mem_append.mp hc with htake | hdrop
    · exact hspace (List.mem_takeWhile_imp htake)
    · exact hspace (h c (List.mem_reverse.mpr hdrop))
  · intro h c hc
    rw [List.dropWhile_eq_nil_iff.mpr h] at hc
    simp at hc

/-- A text that has been stripped stays as it is. -/
lemma strip_strip (s : String) : strip (strip s) = strip s := by
  have hstrip : ∀ l : List Char, ((l.dropWhile isSpace).reverse.dropWhile isSpace).reverse
      = (l.dropWhile isSpace).rdropWhile isSpace := fun _ => rfl
  simp only [strip, hstrip, String.toList_ofList]
  generalize hword : (s.toList.dropWhile isSpace).rdropWhile isSpace = word
  have hprefix : word <+: s.toList.dropWhile isSpace := hword ▸ List.rdropWhile_prefix isSpace _
  have hfirst : word.dropWhile isSpace = word := by
    cases word with
    | nil => rfl
    | cons c word =>
      obtain ⟨rest, hrest⟩ := hprefix
      have hc := List.dropWhile_get_zero_not isSpace s.toList (by simp [← hrest])
      refine List.dropWhile_cons_of_neg ?_
      simpa [← hrest] using hc
  rw [hfirst, ← hword, List.rdropWhile_idempotent]

lemma isBlank_empty : isBlank "" = true := rfl

lemma splitWords_of_isBlank {s : String} (h : isBlank s = true) : splitWords s = [] := by
  have hparts : ∀ l : List Char, l.all isSpace = true →
      (l.splitOnP isSpace).filter (fun w => !w.isEmpty) = [] := by
    intro l hl
    induction l with
    | nil => rfl
    | cons c l ih =>
      obtain ⟨hc, hrest⟩ := Bool.and_eq_true_iff.mp hl
      rw [List.splitOnP_cons_eq_if_modifyHead, if_pos hc]
      simpa using ih hrest
  rw [splitWords, hparts _ h, List.map_nil]

/-! ### Fields -/

section Fields

variable {α : Type*} {c : α} {a b x y : List α}

/-- The first field and the rest are read off the text. -/
lemma append_cons_inj (ha : c ∉ a) (hb : c ∉ b) : a ++ c :: x = b ++ c :: y ↔ a = b ∧ x = y := by
  constructor
  · intro h
    induction a generalizing b with
    | nil =>
      cases b with
      | nil => exact ⟨rfl, List.tail_eq_of_cons_eq h⟩
      | cons d b => exact absurd (List.head_eq_of_cons_eq h ▸ List.mem_cons_self) hb
    | cons e a ih =>
      cases b with
      | nil => exact absurd (List.head_eq_of_cons_eq h ▸ List.mem_cons_self) ha
      | cons d b =>
        obtain ⟨rfl, htail⟩ := List.cons.inj h
        obtain ⟨rfl, hxy⟩ := ih (List.not_mem_of_not_mem_cons ha) (List.not_mem_of_not_mem_cons hb) htail
        exact ⟨rfl, hxy⟩
  · rintro ⟨rfl, rfl⟩
    rfl

/-- The last field and what is before it are read off the text. -/
lemma append_cons_inj_right (hx : c ∉ x) (hy : c ∉ y) :
    a ++ c :: x = b ++ c :: y ↔ a = b ∧ x = y := by
  have hreverse : ∀ a x : List α, (a ++ c :: x).reverse = x.reverse ++ c :: a.reverse := by simp
  rw [← List.reverse_inj, hreverse, hreverse,
    append_cons_inj (by simpa using hx) (by simpa using hy), List.reverse_inj, List.reverse_inj,
    and_comm]

/-- Texts that continue with a separator, of which only the first character is absent before it. -/
lemma append_append_inj {sep : List α} (hsep : sep.head? = some c) (ha : c ∉ a) (hb : c ∉ b) :
    a ++ (sep ++ x) = b ++ (sep ++ y) ↔ a = b ∧ x = y := by
  obtain ⟨rest, rfl⟩ := List.head?_eq_some_iff.mp hsep
  rw [List.cons_append, List.cons_append, append_cons_inj ha hb, List.append_cancel_left_eq]

lemma append_append_inj_right {rest : List α} (hx : c ∉ rest ++ x) (hy : c ∉ rest ++ y) :
    a ++ (c :: rest ++ x) = b ++ (c :: rest ++ y) ↔ a = b ∧ x = y := by
  rw [List.cons_append, List.cons_append, append_cons_inj_right hx hy, List.append_cancel_left_eq]

/-- A joined text has the separator and what its pieces have. -/
lemma mem_intercalate_singleton {pieces : List (List α)} {d : α}
    (h : d ∈ [c].intercalate pieces) : d = c ∨ ∃ piece ∈ pieces, d ∈ piece := by
  induction pieces with
  | nil => simp at h
  | cons piece pieces ih =>
    cases pieces with
    | nil => exact .inr ⟨piece, by simp, by simpa using h⟩
    | cons next pieces =>
      rw [List.intercalate_cons_cons, List.append_assoc, List.mem_append, List.singleton_append,
        List.mem_cons] at h
      rcases h with h | rfl | h
      · exact .inr ⟨piece, by simp, h⟩
      · exact .inl rfl
      · exact (ih h).imp_right fun ⟨other, hother, hd⟩ => ⟨other, List.mem_cons_of_mem _ hother, hd⟩

end Fields

end Denn.Core
