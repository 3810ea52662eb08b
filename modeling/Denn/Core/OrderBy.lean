import Denn.Core.Window
import Mathlib.Data.List.Pairwise
import Mathlib.Data.List.Sort
import Mathlib.Tactic.Common

/-!
# Ordering by several columns

`ORDER BY` with several columns, each ascending or descending: the first column in which two rows
differ decides. Rows that differ in none are tied.
-/

namespace Denn.Core

variable {α κ : Type*}

/-- A column of an `ORDER BY`. -/
structure Clause (α κ : Type*) where
  column : α → κ
  descending : Bool := false

/-- The rows agree in all columns. -/
def Tied : List (Clause α κ) → α → α → Prop
  | [], _, _ => True
  | clause :: clauses, a, b => clause.column a = clause.column b ∧ Tied clauses a b

variable {clause : Clause α κ} {clauses clauses' : List (Clause α κ)} {a b c : α} {rows l : List α}

lemma tied_symm (h : Tied clauses a b) : Tied clauses b a := by
  induction clauses with
  | nil => trivial
  | cons clause clauses ih => exact ⟨h.1.symm, ih h.2⟩

lemma tied_append : Tied (clauses ++ clauses') a b ↔ Tied clauses a b ∧ Tied clauses' a b := by
  induction clauses with
  | nil => simp [Tied]
  | cons clause clauses ih => simp only [List.cons_append, Tied, ih, and_assoc]

lemma tied_iff : Tied clauses a b ↔ ∀ clause ∈ clauses, clause.column a = clause.column b := by
  induction clauses with
  | nil => simp [Tied]
  | cons clause clauses ih => simp [Tied, ih]

section Ordering

variable [LinearOrder κ]

def Clause.lt (clause : Clause α κ) (a b : α) : Prop :=
  if clause.descending then clause.column b < clause.column a
  else clause.column a < clause.column b

instance (clause : Clause α κ) (a b : α) : Decidable (clause.lt a b) :=
  inferInstanceAs (Decidable (if clause.descending then _ else _))

/-- The first row comes before the second. -/
def Before : List (Clause α κ) → α → α → Prop
  | [], _, _ => False
  | clause :: clauses, a, b =>
    clause.lt a b ∨ clause.column a = clause.column b ∧ Before clauses a b

instance decidableBefore : ∀ (clauses : List (Clause α κ)) (a b : α), Decidable (Before clauses a b)
  | [], _, _ => inferInstanceAs (Decidable False)
  | clause :: clauses, a, b =>
    have := decidableBefore clauses a b
    inferInstanceAs (Decidable (clause.lt a b ∨ clause.column a = clause.column b ∧ _))

/-- The rows in the order of the columns. -/
def orderBy (clauses : List (Clause α κ)) (rows : List α) : List α :=
  rows.insertionSort fun a b => ¬ Before clauses b a

/-! ### One column -/

namespace Clause

lemma lt_irrefl : ¬ clause.lt a a := by
  unfold Clause.lt
  split_ifs <;> simp

lemma lt_trans (h : clause.lt a b) (h' : clause.lt b c) : clause.lt a c := by
  unfold Clause.lt at *
  split_ifs at *
  · exact h'.trans h
  · exact h.trans h'

lemma lt_or_eq_or_gt (clause : Clause α κ) (a b : α) :
    clause.lt a b ∨ clause.column a = clause.column b ∨ clause.lt b a := by
  unfold Clause.lt
  split_ifs
  · rcases lt_trichotomy (clause.column a) (clause.column b) with h | h | h
    · exact .inr (.inr h)
    · exact .inr (.inl h)
    · exact .inl h
  · exact lt_trichotomy _ _

/-- The column alone decides how rows compare in it. -/
lemma lt_congr {a' b' : α} (ha : clause.column a' = clause.column a)
    (hb : clause.column b' = clause.column b) : clause.lt a' b' ↔ clause.lt a b := by
  rw [Clause.lt, Clause.lt, ha, hb]

end Clause

/-! ### Several columns -/

lemma before_append :
    Before (clauses ++ clauses') a b ↔
      Before clauses a b ∨ Tied clauses a b ∧ Before clauses' a b := by
  induction clauses with
  | nil => simp [Before, Tied]
  | cons clause clauses ih =>
    simp only [List.cons_append, Before, Tied, ih]
    tauto

lemma before_irrefl : ¬ Before clauses a a := by
  induction clauses with
  | nil => exact id
  | cons clause clauses ih =>
    rintro (h | h)
    · exact Clause.lt_irrefl h
    · exact ih h.2

lemma before_trans (h : Before clauses a b) (h' : Before clauses b c) : Before clauses a c := by
  induction clauses with
  | nil => exact h
  | cons clause clauses ih =>
    rcases h with h | ⟨heq, h⟩
    · rcases h' with h' | ⟨heq', -⟩
      · exact .inl (Clause.lt_trans h h')
      · exact .inl ((Clause.lt_congr rfl heq').mp h)
    · rcases h' with h' | ⟨heq', h'⟩
      · exact .inl ((Clause.lt_congr heq rfl).mpr h')
      · exact .inr ⟨heq.trans heq', ih h h'⟩

lemma before_asymm (h : Before clauses a b) : ¬ Before clauses b a :=
  fun h' => before_irrefl (before_trans h h')

lemma before_or_tied_or_after (clauses : List (Clause α κ)) (a b : α) :
    Before clauses a b ∨ Tied clauses a b ∨ Before clauses b a := by
  induction clauses with
  | nil => exact .inr (.inl trivial)
  | cons clause clauses ih =>
    rcases clause.lt_or_eq_or_gt a b with h | heq | h
    · exact .inl (.inl h)
    · rcases ih with h | h | h
      · exact .inl (.inr ⟨heq, h⟩)
      · exact .inr (.inl ⟨heq, h⟩)
      · exact .inr (.inr (.inr ⟨heq.symm, h⟩))
    · exact .inr (.inr (.inl h))

lemma not_before_of_tied (h : Tied clauses a b) : ¬ Before clauses a b := by
  induction clauses with
  | nil => exact id
  | cons clause clauses ih =>
    rintro (hlt | hbefore)
    · exact Clause.lt_irrefl ((Clause.lt_congr rfl h.1.symm).mp hlt)
    · exact ih h.2 hbefore.2

/-- The columns alone decide how rows compare. -/
lemma before_congr {a' b' : α} (ha : ∀ clause ∈ clauses, clause.column a' = clause.column a)
    (hb : ∀ clause ∈ clauses, clause.column b' = clause.column b) :
    Before clauses a' b' ↔ Before clauses a b := by
  induction clauses with
  | nil => exact Iff.rfl
  | cons clause clauses ih =>
    obtain ⟨ha, ha'⟩ := List.forall_mem_cons.mp ha
    obtain ⟨hb, hb'⟩ := List.forall_mem_cons.mp hb
    rw [Before, Before, Clause.lt_congr ha hb, ha, hb, ih ha' hb']

/-! ### Sorted rows -/

lemma orderBy_perm (clauses : List (Clause α κ)) (rows : List α) :
    (orderBy clauses rows).Perm rows := List.perm_insertionSort _ _

@[simp] lemma mem_orderBy : a ∈ orderBy clauses rows ↔ a ∈ rows := (orderBy_perm _ _).mem_iff

@[simp] lemma orderBy_nil : orderBy clauses [] = [] := rfl

/-- No row comes before one that stands in front of it. -/
lemma pairwise_orderBy (clauses : List (Clause α κ)) (rows : List α) :
    (orderBy clauses rows).Pairwise fun a b => ¬ Before clauses b a := by
  have htotal : Std.Total fun a b => ¬ Before clauses b a := by
    refine ⟨fun a b => ?_⟩
    by_cases h : Before clauses b a
    · exact .inr (before_asymm h)
    · exact .inl h
  have htrans : IsTrans α fun a b => ¬ Before clauses b a := by
    refine ⟨fun a b c hab hbc hca => ?_⟩
    rcases before_or_tied_or_after clauses a b with h | h | h
    · exact hbc (before_trans hca h)
    · rcases before_or_tied_or_after clauses b c with h' | h' | h'
      · have hcb : Before clauses c b := by
          refine (before_congr (fun _ _ => rfl) fun clause hclause => ?_).mp hca
          exact tied_iff.mp h clause hclause
        exact hbc hcb
      · have htied : Tied clauses c a :=
          tied_iff.mpr fun clause hclause =>
            (tied_iff.mp h clause hclause ▸ tied_iff.mp h' clause hclause).symm
        exact not_before_of_tied htied hca
      · exact hbc h'
    · exact hab h
  exact List.pairwise_insertionSort _ _

/-- Rows that stand in strict order are the sorted rows. -/
lemma orderBy_eq_of_pairwise (hperm : l.Perm rows) (hsorted : l.Pairwise (Before clauses)) :
    orderBy clauses rows = l := by
  refine List.Perm.eq_of_pairwise ?_ (pairwise_orderBy clauses rows)
    (hsorted.imp before_asymm) ((orderBy_perm clauses rows).trans hperm.symm)
  intro a b ha hb hba hab
  by_contra hne
  have ha : a ∈ l := hperm.mem_iff.mpr (mem_orderBy.mp ha)
  have hsymm : Std.Symm fun a b => Before clauses a b ∨ Before clauses b a := ⟨fun _ _ => Or.symm⟩
  have hcases := (hsorted.imp fun h => Or.inl h :
    l.Pairwise fun a b => Before clauses a b ∨ Before clauses b a).forall ha hb hne
  rcases hcases with h | h
  · exact hab h
  · exact hba h

/-- Rows none of which are tied stand in strict order. -/
lemma pairwise_before_of_not (hnodup : l.Nodup) (hsorted : l.Pairwise fun a b => ¬ Before clauses b a)
    (hseparate : ∀ a ∈ l, ∀ b ∈ l, Tied clauses a b → a = b) : l.Pairwise (Before clauses) := by
  refine (List.Pairwise.and hnodup hsorted).imp_of_mem fun {a b} ha hb h => ?_
  rcases before_or_tied_or_after clauses a b with hbefore | htied | hafter
  · exact hbefore
  · exact absurd (hseparate a ha b hb htied) h.1
  · exact absurd hafter h.2

lemma pairwise_before (hnodup : rows.Nodup)
    (hseparate : ∀ a ∈ rows, ∀ b ∈ rows, Tied clauses a b → a = b) :
    (orderBy clauses rows).Pairwise (Before clauses) :=
  pairwise_before_of_not ((orderBy_perm _ _).nodup_iff.mpr hnodup) (pairwise_orderBy clauses rows)
    fun a ha b hb => hseparate a (mem_orderBy.mp ha) b (mem_orderBy.mp hb)

/-! ### Pages -/

/-- What a query may answer: the rows in an order that the columns allow. -/
def Answers (clauses : List (Clause α κ)) (rows read : List α) : Prop :=
  read.Perm rows ∧ read.Pairwise fun a b => ¬ Before clauses b a

/-- Pages that are read one after the other, each by a query of its own, are the sorted rows if no
    rows are tied. -/
theorem flatMap_window_of_answers (hnodup : rows.Nodup)
    (hseparate : ∀ a ∈ rows, ∀ b ∈ rows, Tied clauses a b → a = b) {size : ℕ} (hsize : 0 < size)
    {read : ℕ → List α} (hread : ∀ page, Answers clauses rows (read page)) :
    ((List.range' 1 (pageCount size rows.length)).flatMap fun page => window size page (read page)) =
      orderBy clauses rows := by
  have hsorted : ∀ page, read page = orderBy clauses rows := by
    intro page
    obtain ⟨hperm, hpairwise⟩ := hread page
    refine (orderBy_eq_of_pairwise hperm ?_).symm
    exact pairwise_before_of_not (hperm.nodup_iff.mpr hnodup) hpairwise fun a ha b hb =>
      hseparate a (hperm.mem_iff.mp ha) b (hperm.mem_iff.mp hb)
  simp only [hsorted, ← (orderBy_perm clauses rows).length_eq]
  exact flatMap_window_pageCount hsize _

/-! ### Runs -/

/-- The rows of each group stand together. -/
def Contiguous {γ : Type*} (group : α → γ) (rows : List α) : Prop :=
  ∀ a b c, [a, b, c].Sublist rows → group a = group c → group b = group a

lemma Contiguous.congr {γ δ : Type*} {group : α → γ} {group' : α → δ}
    (h : ∀ a b, group a = group b ↔ group' a = group' b) (hrows : Contiguous group rows) :
    Contiguous group' rows := by
  intro a b c hsublist heq
  rw [← h] at heq ⊢
  exact hrows a b c hsublist heq

end Ordering

end Denn.Core
