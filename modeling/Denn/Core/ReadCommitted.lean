import Denn.Core.Table
import Denn.Core.Transition
import Mathlib.Data.List.Induction

/-!
# Transactions that read committed rows

Transactions under `READ COMMITTED`. A statement sees the rows that are committed when it starts and
the writes of its own transaction. A row with an uncommitted write is locked for the others. A
unique constraint is checked as a row is written: against a committed row the statement fails and
its transaction is rolled back, against an uncommitted write of another transaction it waits.
-/

namespace Denn.Core

/-! ### Writes -/

section Writes

variable {κ ρ : Type*} [DecidableEq κ]

/-- Write the rows one after another; a write without a row is a deletion. -/
def applyWrites (t : Table κ ρ) (writes : List (κ × Option ρ)) : Table κ ρ :=
  writes.foldl (fun t write => write.2.elim (t.delete write.1) (t.set write.1)) t

/-- The last write of a row. -/
def lastWrite (writes : List (κ × Option ρ)) (k : κ) : Option (Option ρ) :=
  writes.reverse.lookup k

variable {t : Table κ ρ} {writes : List (κ × Option ρ)} {k k' : κ} {row : Option ρ}

@[simp] lemma applyWrites_nil : applyWrites t [] = t := rfl

@[simp] lemma lastWrite_nil : lastWrite ([] : List (κ × Option ρ)) k = none := rfl

lemma applyWrites_append (writes' : List (κ × Option ρ)) :
    applyWrites t (writes ++ writes') = applyWrites (applyWrites t writes) writes' := by
  rw [applyWrites, List.foldl_append]
  rfl

lemma get?_applyWrite (t : Table κ ρ) (k : κ) (row : Option ρ) (k' : κ) :
    (applyWrites t [(k, row)]).get? k' = if k' = k then row else t.get? k' := by
  cases row with
  | none => exact Table.get?_delete t k' k
  | some r => exact Table.get?_set t k' k r

lemma lastWrite_append (writes : List (κ × Option ρ)) (k : κ) (row : Option ρ) (k' : κ) :
    lastWrite (writes ++ [(k, row)]) k' = if k' = k then some row else lastWrite writes k' := by
  by_cases h : k' = k
  · simp [lastWrite, h]
  · simp [lastWrite, h, List.lookup_cons, beq_false_of_ne h]

/-- A row is what was written last, or what it was. -/
lemma get?_applyWrites (t : Table κ ρ) (writes : List (κ × Option ρ)) (k : κ) :
    (applyWrites t writes).get? k = (lastWrite writes k).getD (t.get? k) := by
  induction writes using List.reverseRecOn with
  | nil => rfl
  | append_singleton writes write ih =>
    obtain ⟨k', row⟩ := write
    rw [applyWrites_append, get?_applyWrite, lastWrite_append, ih]
    split_ifs <;> rfl

lemma lastWrite_eq_none : lastWrite writes k = none ↔ ∀ write ∈ writes, write.1 ≠ k := by
  rw [lastWrite, List.lookup_eq_none_iff]
  simp only [List.mem_reverse, bne_iff_ne, ne_comm]

end Writes

/-! ### Stores -/

/-- Committed rows, and the writes of the transactions that have not ended, oldest first. -/
structure Store (τ κ ρ : Type*) where
  committed : Table κ ρ
  pending : List (τ × κ × Option ρ) := []
  /-- The keys that have been given to rows, for good. -/
  used : List κ

namespace Store

variable {τ κ ρ : Type*} [DecidableEq τ]

def writesOf (s : Store τ κ ρ) (x : τ) : List (κ × Option ρ) :=
  (s.pending.filter fun write => write.1 = x).map Prod.snd

/-- Write a row. A fresh key is used from now on, even if the transaction is rolled back. -/
def put (s : Store τ κ ρ) (x : τ) (fresh : Bool) (k : κ) (row : Option ρ) : Store τ κ ρ :=
  { s with
    pending := s.pending ++ [(x, k, row)]
    used := if fresh then k :: s.used else s.used }

def rollback (s : Store τ κ ρ) (x : τ) : Store τ κ ρ :=
  { s with pending := s.pending.filter fun write => write.1 ≠ x }

variable [DecidableEq κ]

def commit (s : Store τ κ ρ) (x : τ) : Store τ κ ρ :=
  { s.rollback x with committed := applyWrites s.committed (s.writesOf x) }

/-- What the statements of a transaction see. -/
def view (s : Store τ κ ρ) (x : τ) : Table κ ρ := applyWrites s.committed (s.writesOf x)

/-- No other transaction has written the row. -/
def Free (s : Store τ κ ρ) (x : τ) (k : κ) : Prop := ∀ write ∈ s.pending, write.1 ≠ x → write.2.1 ≠ k

instance (s : Store τ κ ρ) (x : τ) (k : κ) : Decidable (s.Free x k) :=
  inferInstanceAs (Decidable (∀ write ∈ s.pending, _))

/-- The row clashes with another one that the transaction sees, and that no other one is about to
    change. -/
def taken (clash : ρ → ρ → Bool) (s : Store τ κ ρ) (x : τ) (k : κ) (row : Option ρ) : Bool :=
  row.any fun r => (s.view x).any fun k' r' => k' ≠ k && clash r r' && decide (s.Free x k')

/-- Another transaction has written the row, or one that clashes with it or did so before. -/
def waits (clash : ρ → ρ → Bool) (s : Store τ κ ρ) (x : τ) (k : κ) (row : Option ρ) : Bool :=
  ¬ s.Free x k || s.pending.any fun write => write.1 ≠ x && write.2.1 ≠ k &&
    row.any fun r => write.2.2.any (clash r) || (s.committed.get? write.2.1).any (clash r)

variable {s : Store τ κ ρ} {x y : τ} {fresh : Bool} {k k' : κ} {row : Option ρ}

/-! ### The writes of a transaction -/

omit [DecidableEq κ] in
@[simp] lemma writesOf_put_self : (s.put x fresh k row).writesOf x = s.writesOf x ++ [(k, row)] := by
  simp [writesOf, put]

omit [DecidableEq κ] in
lemma writesOf_put_ne (h : y ≠ x) : (s.put x fresh k row).writesOf y = s.writesOf y := by
  simp [writesOf, put, h.symm]

omit [DecidableEq κ] in
@[simp] lemma writesOf_rollback_self : (s.rollback x).writesOf x = [] := by
  simp [writesOf, rollback, List.filter_filter]

omit [DecidableEq κ] in
lemma writesOf_rollback_ne (h : y ≠ x) : (s.rollback x).writesOf y = s.writesOf y := by
  rw [writesOf, rollback, List.filter_filter, writesOf]
  congr 2
  funext write
  by_cases hy : write.1 = y
  · simp [hy, h]
  · simp [hy]

omit [DecidableEq τ] [DecidableEq κ] in
@[simp] lemma committed_put : (s.put x fresh k row).committed = s.committed := rfl

omit [DecidableEq κ] in
@[simp] lemma committed_rollback : (s.rollback x).committed = s.committed := rfl

omit [DecidableEq κ] in
lemma mem_writesOf {write : κ × Option ρ} : write ∈ s.writesOf x ↔ (x, write) ∈ s.pending := by
  simp [writesOf]

/-- What a transaction has written to a row, if it has. -/
def written (s : Store τ κ ρ) (x : τ) (k : κ) : Option (Option ρ) := lastWrite (s.writesOf x) k

lemma written_put (s : Store τ κ ρ) (x : τ) (fresh : Bool) (k : κ) (row : Option ρ) (y : τ) (k' : κ) :
    (s.put x fresh k row).written y k' = if y = x ∧ k' = k then some row else s.written y k' := by
  by_cases hy : y = x
  · subst hy
    simp [written, lastWrite_append]
  · simp [written, writesOf_put_ne hy, hy]

lemma written_rollback (s : Store τ κ ρ) (x y : τ) (k : κ) :
    (s.rollback x).written y k = if y = x then none else s.written y k := by
  by_cases hy : y = x
  · subst hy
    simp [written]
  · simp [written, writesOf_rollback_ne hy, hy]

lemma written_commit (s : Store τ κ ρ) (x y : τ) (k : κ) :
    (s.commit x).written y k = if y = x then none else s.written y k :=
  written_rollback s x y k

lemma get?_commit (s : Store τ κ ρ) (x : τ) (k : κ) :
    (s.commit x).committed.get? k = (s.written x k).getD (s.committed.get? k) :=
  get?_applyWrites _ _ _

lemma get?_view (s : Store τ κ ρ) (x : τ) (k : κ) :
    (s.view x).get? k = (s.written x k).getD (s.committed.get? k) :=
  get?_applyWrites _ _ _

lemma free_iff : s.Free x k ↔ ∀ y, y ≠ x → s.written y k = none := by
  constructor
  · intro h y hy
    rw [written, lastWrite_eq_none]
    exact fun write hwrite => h (y, write) (mem_writesOf.mp hwrite) hy
  · intro h write hwrite hne
    exact lastWrite_eq_none.mp (h write.1 hne) write.2 (mem_writesOf.mpr hwrite)

lemma mem_pending_of_written (h : s.written x k = some row) : (x, k, row) ∈ s.pending := by
  rw [written, lastWrite, List.lookup_eq_some_iff] at h
  obtain ⟨newer, older, heq, -⟩ := h
  refine mem_writesOf.mp (List.mem_reverse.mp ?_)
  rw [heq]
  simp

/-! ### Unique constraints -/

variable {clash : ρ → ρ → Bool} {r r' : ρ}

lemma taken_eq_false : s.taken clash x k row = false ↔
    ∀ r k' r', row = some r → (s.view x).get? k' = some r' → k' ≠ k → s.Free x k' →
      clash r r' = false := by
  rw [← Bool.not_eq_true, taken]
  simp only [Option.any_eq_true, Table.any_eq_true_iff, Bool.and_eq_true, decide_eq_true_eq]
  constructor
  · intro h r k' r' hrow hr' hne hfree
    by_contra hclash
    exact h ⟨r, hrow, k', r', hr', ⟨hne, by simpa using hclash⟩, hfree⟩
  · rintro h ⟨r, hrow, k', r', hr', ⟨hne, hclash⟩, hfree⟩
    rw [h r k' r' hrow hr' hne hfree] at hclash
    cases hclash

lemma waits_eq_false : s.waits clash x k row = false ↔ s.Free x k ∧
    ∀ r y k' row', row = some r → (y, k', row') ∈ s.pending → y ≠ x → k' ≠ k →
      row'.any (clash r) = false ∧ (s.committed.get? k').any (clash r) = false := by
  rw [waits, Bool.or_eq_false_iff, decide_eq_false_iff_not, not_not, List.any_eq_false]
  refine and_congr_right fun _ => ?_
  constructor
  · rintro h r y k' row' rfl hmem hy hk
    have hwrite := h _ hmem
    simp only [hy, hk, ne_eq, not_false_eq_true, decide_true, Bool.true_and, Option.any_some,
      Bool.or_eq_true, not_or, Bool.not_eq_true] at hwrite
    exact hwrite
  · rintro h ⟨y, k', row'⟩ hmem
    cases row with
    | none => simp
    | some r =>
      by_cases hy : y = x
      · simp [hy]
      · by_cases hk : k' = k
        · simp [hk]
        · obtain ⟨hrow', hcommitted⟩ := h r y k' row' rfl hmem hy hk
          simp [hrow', hcommitted]

/-- A transaction does not wait while no other one has uncommitted writes. -/
lemma waits_eq_false_of_alone (h : ∀ y write, (y, write) ∈ s.pending → y = x) :
    s.waits clash x k row = false := by
  refine waits_eq_false.mpr ⟨fun write hmem hne => absurd (h _ _ hmem) hne, ?_⟩
  intro r y k' row' _ hmem hy
  exact absurd (h y _ hmem) hy

/-- No two committed rows clash, and none will when transactions commit. -/
structure Consistent (clash : ρ → ρ → Bool) (s : Store τ κ ρ) : Prop where
  committed : ∀ k k' r r', s.committed.get? k = some r → s.committed.get? k' = some r' → k ≠ k' →
    clash r r' = false
  /-- A committed row that clashes with a written one is to be changed as well. -/
  mixed : ∀ x k k' r r', s.written x k = some (some r) → s.committed.get? k' = some r' → k ≠ k' →
    clash r r' = true → s.written x k' ≠ none
  pending : ∀ x y k k' r r', s.written x k = some (some r) → s.written y k' = some (some r') →
    k ≠ k' → clash r r' = false
  disjoint : ∀ x y k, s.written x k ≠ none → s.written y k ≠ none → x = y

namespace Consistent

lemma initial (h : ∀ k k' r r', s.committed.get? k = some r → s.committed.get? k' = some r' →
    k ≠ k' → clash r r' = false) (hpending : s.pending = []) : s.Consistent clash := by
  have hwritten : ∀ x k, s.written x k = none := by
    intro x k
    simp [written, writesOf, hpending]
  constructor
  · exact h
  · simp [hwritten]
  · simp [hwritten]
  · simp [hwritten]

lemma put (h : s.Consistent clash) (hsymm : ∀ r r', clash r r' = clash r' r)
    (htaken : s.taken clash x k row = false) (hwaits : s.waits clash x k row = false) :
    (s.put x fresh k row).Consistent clash := by
  rw [taken_eq_false] at htaken
  obtain ⟨hfree, hwaits⟩ := waits_eq_false.mp hwaits
  -- the new row clashes with no other row that is written
  have hnew : ∀ r y k' r', row = some r → s.written y k' = some (some r') → k' ≠ k →
      clash r r' = false := by
    intro r y k' r' hrow hwritten hne
    by_cases hy : y = x
    · subst hy
      refine htaken r k' r' hrow ?_ hne (free_iff.mpr fun z hz => ?_)
      · rw [get?_view, hwritten, Option.getD_some]
      · by_contra hother
        exact hz (h.disjoint z y k' hother (by simp [hwritten]))
    · simpa using (hwaits r y k' _ hrow (mem_pending_of_written hwritten) hy hne).1
  constructor
  · exact h.committed
  · intro y k₁ k₂ r r' hwritten hr' hne hclash
    by_cases hover : y = x ∧ k₂ = k
    · simp [written_put, hover]
    rw [written_put, if_neg hover]
    rw [written_put] at hwritten
    split_ifs at hwritten with hself
    · -- otherwise the committed row is free, and the write would fail
      obtain ⟨rfl, rfl⟩ := hself
      rw [Option.some.injEq] at hwritten
      intro hnone
      have hview : (s.view y).get? k₂ = some r' := by
        rw [get?_view, hnone, Option.getD_none]
        exact hr'
      have hlocked : ¬ s.Free y k₂ := by
        intro hfree'
        rw [htaken r k₂ r' hwritten hview (Ne.symm hne) hfree'] at hclash
        cases hclash
      rw [free_iff, not_forall] at hlocked
      obtain ⟨z, hz⟩ := hlocked
      obtain ⟨hne', hz⟩ := Classical.not_imp.mp hz
      obtain ⟨row', hrow'⟩ := Option.ne_none_iff_exists'.mp hz
      have hother := (hwaits r z k₂ row' hwritten (mem_pending_of_written hrow') hne'
        (Ne.symm hne)).2
      rw [committed_put] at hr'
      rw [hr', Option.any_some, hclash] at hother
      cases hother
    · exact h.mixed y k₁ k₂ r r' hwritten hr' hne hclash
  · intro y z k₁ k₂ r r' hwritten hwritten' hne
    rw [written_put] at hwritten hwritten'
    split_ifs at hwritten hwritten' with h₁ h₂ h₂
    · exact absurd (h₁.2.trans h₂.2.symm) hne
    · rw [h₁.2] at hne
      exact hnew r z k₂ r' (Option.some.inj hwritten) hwritten' (Ne.symm hne)
    · rw [h₂.2] at hne
      rw [hsymm]
      exact hnew r' y k₁ r (Option.some.inj hwritten') hwritten hne
    · exact h.pending y z k₁ k₂ r r' hwritten hwritten' hne
  · intro y z k' hy hz
    rw [written_put] at hy hz
    split_ifs at hy hz with h₁ h₂ h₂
    · rw [h₁.1, h₂.1]
    · by_contra hne
      obtain ⟨rfl, rfl⟩ := h₁
      exact hz (free_iff.mp hfree z (Ne.symm hne))
    · by_contra hne
      obtain ⟨rfl, rfl⟩ := h₂
      exact hy (free_iff.mp hfree y hne)
    · exact h.disjoint y z k' hy hz

lemma rollback (h : s.Consistent clash) (x : τ) : (s.rollback x).Consistent clash := by
  have hwritten : ∀ y k row, (s.rollback x).written y k = some row → s.written y k = some row := by
    intro y k row hrow
    rw [written_rollback] at hrow
    split_ifs at hrow
    exact hrow
  constructor
  · exact h.committed
  · intro y k k' r r' hr hr' hne hclash
    have hkeep := h.mixed y k k' r r' (hwritten y k _ hr) hr' hne hclash
    rw [written_rollback] at hr ⊢
    split_ifs at hr ⊢
    exact hkeep
  · intro y z k k' r r' hr hr' hne
    exact h.pending y z k k' r r' (hwritten y k _ hr) (hwritten z k' _ hr') hne
  · intro y z k hy hz
    obtain ⟨row, hrow⟩ := Option.ne_none_iff_exists'.mp hy
    obtain ⟨row', hrow'⟩ := Option.ne_none_iff_exists'.mp hz
    exact h.disjoint y z k (by simp [hwritten y k _ hrow]) (by simp [hwritten z k _ hrow'])

lemma commit (h : s.Consistent clash) (hsymm : ∀ r r', clash r r' = clash r' r) (x : τ) :
    (s.commit x).Consistent clash := by
  have hrollback := h.rollback x
  -- a committed row was written by the transaction, or it was committed before
  have hrow : ∀ k r, (s.commit x).committed.get? k = some r →
      s.written x k = some (some r) ∨ s.written x k = none ∧ s.committed.get? k = some r := by
    intro k r hr
    rw [get?_commit] at hr
    cases hwritten : s.written x k with
    | none =>
      rw [hwritten, Option.getD_none] at hr
      exact .inr ⟨rfl, hr⟩
    | some row =>
      rw [hwritten, Option.getD_some] at hr
      rw [hr]
      exact .inl rfl
  have hmixed : ∀ k k' r r', s.written x k = some (some r) → s.written x k' = none →
      s.committed.get? k' = some r' → k ≠ k' → clash r r' = false := by
    intro k k' r r' hr hnone hr' hne
    by_contra hclash
    exact h.mixed x k k' r r' hr hr' hne (by simpa using hclash) hnone
  constructor
  · intro k k' r r' hr hr' hne
    rcases hrow k r hr with hr | ⟨hnone, hr⟩ <;> rcases hrow k' r' hr' with hr' | ⟨hnone', hr'⟩
    · exact h.pending x x k k' r r' hr hr' hne
    · exact hmixed k k' r r' hr hnone' hr' hne
    · rw [hsymm]
      exact hmixed k' k r' r hr' hnone hr (Ne.symm hne)
    · exact h.committed k k' r r' hr hr' hne
  · intro y k k' r r' hr hr' hne hclash
    rw [written_commit] at hr ⊢
    split_ifs at hr ⊢ with hy
    rcases hrow k' r' hr' with hr' | ⟨-, hr'⟩
    · rw [h.pending y x k k' r r' hr hr' hne] at hclash
      cases hclash
    · exact h.mixed y k k' r r' hr hr' hne hclash
  · exact hrollback.pending
  · exact hrollback.disjoint

end Consistent

end Store

end Denn.Core
