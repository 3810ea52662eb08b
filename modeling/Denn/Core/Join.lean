import Mathlib.Data.List.Dedup
import Mathlib.Data.List.Nodup
import Mathlib.Data.Set.Card

/-!
# Counting over joined rows

The rows of a query that joins one row of a table with the rows of others, and the aggregates
`COUNT` and `COUNT(DISTINCT …)` over them. A join multiplies the rows that it is made on: a plain
count of a column sees the product, a distinct count sees each value once.
-/

namespace Denn.Core

variable {α β γ : Type*}

/-- What an outer join puts beside a row: the rows of the other table, or a row of nulls. -/
def outer : List α → List (Option α)
  | [] => [none]
  | rows => rows.map some

/-- `LEFT OUTER JOIN` with the rows of another table that belong to the list. -/
def outerJoin (joined : List α) (rows : List β) : List (α × Option β) :=
  joined.flatMap fun row => (outer rows).map fun other => (row, other)

/-- `COUNT(column)`: nulls do not count. -/
def countColumn (column : α → Option γ) (rows : List α) : ℕ := (rows.filterMap column).length

/-- `COUNT(DISTINCT column)`. -/
def countDistinct [DecidableEq γ] (column : α → Option γ) (rows : List α) : ℕ :=
  (rows.filterMap column).dedup.length

/-! ### Outer joins -/

lemma outer_ne_nil (rows : List α) : outer rows ≠ [] := by
  cases rows <;> simp [outer]

@[simp] lemma some_mem_outer {rows : List α} {row : α} : some row ∈ outer rows ↔ row ∈ rows := by
  cases rows <;> simp [outer]

@[simp] lemma filterMap_outer (column : α → γ) (rows : List α) :
    (outer rows).filterMap (Option.map column) = rows.map column := by
  cases rows with
  | nil => rfl
  | cons row rows => simp [outer, List.filterMap_eq_map']

lemma length_outer_eq_one {rows : List α} : (outer rows).length = 1 ↔ rows.length ≤ 1 := by
  cases rows with
  | nil => simp [outer]
  | cons row rows => simp [outer]

lemma outerJoin_ne_nil {joined : List α} (h : joined ≠ []) (rows : List β) :
    outerJoin joined rows ≠ [] := by
  obtain ⟨row, hrow⟩ := List.exists_mem_of_ne_nil _ h
  obtain ⟨other, hother⟩ := List.exists_mem_of_ne_nil _ (outer_ne_nil rows)
  exact List.ne_nil_of_mem
    (List.mem_flatMap.mpr ⟨row, hrow, List.mem_map.mpr ⟨other, hother, rfl⟩⟩)

lemma mem_outerJoin {joined : List α} {rows : List β} {row : α} {other : Option β} :
    (row, other) ∈ outerJoin joined rows ↔ row ∈ joined ∧ other ∈ outer rows := by
  simp [outerJoin]

/-! ### Counts -/

/-- Distinct counts of columns with the same values. -/
lemma countDistinct_congr [DecidableEq γ] {column : α → Option γ} {column' : β → Option γ}
    {rows : List α} {rows' : List β}
    (h : ∀ value, (∃ row ∈ rows, column row = some value) ↔
      ∃ row ∈ rows', column' row = some value) :
    countDistinct column rows = countDistinct column' rows' := by
  refine List.Perm.length_eq ((List.perm_ext_iff_of_nodup (List.nodup_dedup _)
    (List.nodup_dedup _)).mpr fun value => ?_)
  simpa only [List.mem_dedup, List.mem_filterMap] using h value

/-- A plain count of a joined column counts each value once for each row it was joined with. -/
lemma countColumn_outerJoin (column : β → γ) (joined : List α) (rows : List β) :
    countColumn (fun row => row.2.map column) (outerJoin joined rows)
      = joined.length * rows.length := by
  unfold countColumn outerJoin
  induction joined with
  | nil => simp
  | cons row joined ih =>
    have hhead : ((outer rows).map fun other => (row, other)).filterMap
        (fun row => row.2.map column) = rows.map column := by
      rw [List.filterMap_map]
      exact filterMap_outer column rows
    rw [List.flatMap_cons, List.filterMap_append, List.length_append, ih, hhead, List.length_map,
      List.length_cons, Nat.succ_mul, Nat.add_comm]

/-- A distinct count of a joined column does not see what it was joined with. -/
lemma countDistinct_outerJoin_right [DecidableEq γ] {column : β → γ} {joined : List α}
    {rows : List β} (hjoined : joined ≠ []) (hnodup : (rows.map column).Nodup) :
    countDistinct (fun row => row.2.map column) (outerJoin joined rows) = rows.length := by
  obtain ⟨first, hfirst⟩ := List.exists_mem_of_ne_nil _ hjoined
  have hsame : countDistinct (fun row => row.2.map column) (outerJoin joined rows)
      = countDistinct (fun row => some (column row)) rows := by
    refine countDistinct_congr fun value => ?_
    constructor
    · rintro ⟨⟨row, other⟩, hmem, hvalue⟩
      obtain ⟨row', rfl, hrow'⟩ := Option.map_eq_some_iff.mp hvalue
      exact ⟨row', some_mem_outer.mp (mem_outerJoin.mp hmem).2, congrArg some hrow'⟩
    · rintro ⟨row', hrow', hvalue⟩
      exact ⟨(first, some row'), mem_outerJoin.mpr ⟨hfirst, some_mem_outer.mpr hrow'⟩, hvalue⟩
  rw [hsame, countDistinct, List.filterMap_eq_map', List.dedup_eq_self.mpr hnodup, List.length_map]

/-- A distinct count over a join does not see the tables joined after its own. -/
lemma countDistinct_outerJoin_left [DecidableEq γ] (column : α → Option γ) (joined : List α)
    (rows : List β) :
    countDistinct (fun row => column row.1) (outerJoin joined rows)
      = countDistinct column joined := by
  obtain ⟨other, hother⟩ := List.exists_mem_of_ne_nil _ (outer_ne_nil rows)
  refine countDistinct_congr fun value => ?_
  constructor
  · rintro ⟨⟨row, other⟩, hmem, hvalue⟩
    exact ⟨row, (mem_outerJoin.mp hmem).1, hvalue⟩
  · rintro ⟨row, hrow, hvalue⟩
    exact ⟨(row, other), mem_outerJoin.mpr ⟨hrow, hother⟩, hvalue⟩

/-- The size of a set that a list without repetitions enumerates. -/
lemma ncard_setOf_eq_length {p : α → Prop} {l : List α} (hnodup : l.Nodup)
    (h : ∀ x, x ∈ l ↔ p x) : {x | p x}.ncard = l.length := by
  classical
  have hset : {x | p x} = (l.toFinset : Set α) := by
    ext x
    simp [h x]
  rw [hset, Set.ncard_coe_finset, List.toFinset_card_of_nodup hnodup]

end Denn.Core
