import Denn.Core.Except
import Mathlib.Data.List.Nodup

/-!
# Rows under constraints

Inserting rows into a table with a check constraint and a unique constraint, one at a time or in
bulk, and the loop that keeps the first row of each key.
-/

namespace Denn.Core

/-- The kind of constraint that a write breaks. -/
inductive IntegrityError where
  | check
  | unique
  deriving DecidableEq, Repr

variable {α ρ κ : Type*} [DecidableEq κ]

/-- The constraints of a table: what a row must satisfy, and the columns that are unique. -/
structure Constraints (ρ κ : Type*) where
  check : ρ → Bool := fun _ => true
  key : ρ → κ

/-! ### Insertion -/

namespace Constraints

/-- `INSERT` of one row. -/
def insert (c : Constraints ρ κ) (rows : List ρ) (row : ρ) : Except IntegrityError (List ρ) :=
  if !c.check row then .error .check
  else if c.key row ∈ rows.map c.key then .error .unique
  else .ok (rows ++ [row])

/-- `INSERT` of several rows. -/
def insertAll (c : Constraints ρ κ) (rows new : List ρ) : Except IntegrityError (List ρ) :=
  new.foldlM c.insert rows

/-- The rows can all be inserted into an empty table. -/
structure Admits (c : Constraints ρ κ) (rows : List ρ) : Prop where
  check : ∀ row ∈ rows, c.check row = true
  nodup : (rows.map c.key).Nodup

instance (c : Constraints ρ κ) (rows : List ρ) : Decidable (c.Admits rows) :=
  decidable_of_iff ((∀ row ∈ rows, c.check row = true) ∧ (rows.map c.key).Nodup)
    ⟨fun ⟨hcheck, hnodup⟩ => ⟨hcheck, hnodup⟩, fun ⟨hcheck, hnodup⟩ => ⟨hcheck, hnodup⟩⟩

variable {c : Constraints ρ κ} {rows new : List ρ} {row : ρ}

lemma yields_insert (c : Constraints ρ κ) (rows : List ρ) (row : ρ) : Yields (c.insert rows row)
    (c.check row = true ∧ c.key row ∉ rows.map c.key) (rows ++ [row]) := by
  intro rows'
  rw [insert]
  split_ifs with hcheck hkey
  · simp_all
  · simp_all
  · rw [Bool.not_eq_true, Bool.not_eq_false'] at hcheck
    simp only [hcheck, hkey, not_false_iff, true_and, Except.ok.injEq]
    exact eq_comm

omit [DecidableEq κ] in
lemma admits_cons : c.Admits (row :: new) ↔
    c.check row = true ∧ c.Admits new ∧ ∀ other ∈ new, c.key other ≠ c.key row := by
  constructor
  · rintro ⟨hcheck, hnodup⟩
    rw [List.map_cons, List.nodup_cons] at hnodup
    refine ⟨hcheck row (by simp), ⟨fun other hother => hcheck other (by simp [hother]), hnodup.2⟩,
      fun other hother heq => hnodup.1 (heq ▸ List.mem_map_of_mem hother)⟩
  · rintro ⟨hcheck, hnew, hkeys⟩
    refine ⟨List.forall_mem_cons.mpr ⟨hcheck, hnew.check⟩, ?_⟩
    rw [List.map_cons, List.nodup_cons, List.mem_map]
    exact ⟨fun ⟨other, hother, heq⟩ => hkeys other hother heq, hnew.nodup⟩

/-- Rows are inserted if they are admitted and their keys are new. -/
theorem yields_insertAll (c : Constraints ρ κ) (rows new : List ρ) : Yields (c.insertAll rows new)
    (c.Admits new ∧ ∀ row ∈ new, c.key row ∉ rows.map c.key) (rows ++ new) := by
  induction new generalizing rows with
  | nil =>
    have hadmits : c.Admits [] := ⟨by simp, by simp⟩
    rw [List.append_nil]
    exact (Yields.of_ok rows).congr ⟨fun _ => ⟨hadmits, by simp⟩, fun _ => trivial⟩
  | cons row new ih =>
    rw [insertAll, List.foldlM_cons, List.append_cons]
    refine ((yields_insert c rows row).bind fun _ => ih (rows ++ [row])).congr ?_
    rw [admits_cons]
    constructor
    · rintro ⟨⟨hcheck, hkey⟩, hadmits, hnew⟩
      simp only [List.map_append, List.mem_append, not_or, List.map_cons, List.map_nil,
        List.mem_singleton] at hnew
      exact ⟨⟨hcheck, hadmits, fun other hother => (hnew other hother).2⟩,
        List.forall_mem_cons.mpr ⟨hkey, fun other hother => (hnew other hother).1⟩⟩
    · rintro ⟨⟨hcheck, hadmits, hkeys⟩, hnew⟩
      obtain ⟨hkey, hnew⟩ := List.forall_mem_cons.mp hnew
      refine ⟨⟨hcheck, hkey⟩, hadmits, fun other hother => ?_⟩
      rw [List.map_append, List.mem_append, not_or]
      exact ⟨hnew other hother, by simpa using hkeys other hother⟩

/-- Rows are inserted into an empty table if they are admitted. -/
lemma yields_insertAll_nil (c : Constraints ρ κ) (new : List ρ) :
    Yields (c.insertAll [] new) (c.Admits new) new :=
  (yields_insertAll c [] new).congr ⟨fun h => h.1, fun h => ⟨h, by simp⟩⟩

end Constraints

/-! ### Duplicates -/

section

variable [DecidableEq α]

lemma nodup_eraseDups : ∀ l : List α, l.eraseDups.Nodup
  | [] => List.nodup_nil
  | a :: l => by
    rw [List.eraseDups_cons, List.nodup_cons, List.mem_eraseDups]
    exact ⟨by simp, nodup_eraseDups _⟩
termination_by l => l.length
decreasing_by
  exact Nat.lt_succ_of_le (List.length_filter_le _ _)

lemma eraseDups_eq_self {l : List α} (h : l.Nodup) : l.eraseDups = l := by
  induction l with
  | nil => rfl
  | cons a l ih =>
    obtain ⟨ha, hl⟩ := List.nodup_cons.mp h
    rw [List.eraseDups_cons, List.filter_eq_self.mpr, ih hl]
    intro b hb
    simpa using fun heq : b = a => ha (heq ▸ hb)

end

/-! ### The first of each key -/

/-- Keep the rows whose key has not been seen. -/
def keepFirst (key : α → κ) : List κ → List α → List α
  | _, [] => []
  | seen, a :: l =>
    if key a ∈ seen then keepFirst key seen l else a :: keepFirst key (key a :: seen) l

variable {key : α → κ} {seen : List κ} {l : List α} {a : α}

lemma keepFirst_sublist (key : α → κ) (seen : List κ) (l : List α) :
    (keepFirst key seen l).Sublist l := by
  induction l generalizing seen with
  | nil => exact .slnil
  | cons a l ih =>
    rw [keepFirst]
    split_ifs
    · exact (ih seen).cons a
    · exact (ih _).cons_cons a

lemma mem_of_mem_keepFirst (h : a ∈ keepFirst key seen l) : a ∈ l :=
  (keepFirst_sublist key seen l).subset h

lemma key_notMem_of_mem_keepFirst (h : a ∈ keepFirst key seen l) : key a ∉ seen := by
  induction l generalizing seen with
  | nil => simp [keepFirst] at h
  | cons b l ih =>
    rw [keepFirst] at h
    split_ifs at h with hseen
    · exact ih h
    · rcases List.mem_cons.mp h with rfl | h
      · exact hseen
      · exact fun hmem => ih h (List.mem_cons_of_mem _ hmem)

/-- Every new key is kept with some row. -/
lemma exists_mem_keepFirst (h : a ∈ l) (hseen : key a ∉ seen) :
    ∃ b ∈ keepFirst key seen l, key b = key a := by
  induction l generalizing seen with
  | nil => simp at h
  | cons c l ih =>
    rw [keepFirst]
    rcases List.mem_cons.mp h with rfl | h
    · rw [if_neg hseen]
      exact ⟨a, List.mem_cons_self, rfl⟩
    · split_ifs with hc
      · exact ih h hseen
      · by_cases hkey : key a = key c
        · exact ⟨c, List.mem_cons_self, hkey.symm⟩
        · have hseen' : key a ∉ key c :: seen := by simp [hkey, hseen]
          obtain ⟨b, hb, heq⟩ := ih h hseen'
          exact ⟨b, List.mem_cons_of_mem _ hb, heq⟩

lemma nodup_keepFirst (key : α → κ) (seen : List κ) (l : List α) :
    ((keepFirst key seen l).map key).Nodup := by
  induction l generalizing seen with
  | nil => simp [keepFirst]
  | cons a l ih =>
    rw [keepFirst]
    split_ifs
    · exact ih seen
    · rw [List.map_cons, List.nodup_cons]
      refine ⟨fun hmem => ?_, ih _⟩
      obtain ⟨b, hb, hkey⟩ := List.mem_map.mp hmem
      exact key_notMem_of_mem_keepFirst hb (hkey ▸ List.mem_cons_self)

/-- Rows with different keys are all kept. -/
lemma keepFirst_eq_self (hnodup : (l.map key).Nodup) (hseen : ∀ a ∈ l, key a ∉ seen) :
    keepFirst key seen l = l := by
  induction l generalizing seen with
  | nil => rfl
  | cons a l ih =>
    rw [List.map_cons, List.nodup_cons] at hnodup
    rw [keepFirst, if_neg (hseen a (by simp)), ih hnodup.2]
    intro b hb hmem
    rcases List.mem_cons.mp hmem with heq | hmem
    · exact hnodup.1 (heq ▸ List.mem_map_of_mem hb)
    · exact hseen b (by simp [hb]) hmem

end Denn.Core
