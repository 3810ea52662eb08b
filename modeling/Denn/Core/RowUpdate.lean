import Denn.Core.Constraint
import Denn.Core.Table

/-!
# Updates under an immediate constraint

An `UPDATE` writes the rows it selects one after another, in an order that the database chooses, and
checks a unique constraint at each of them: a row may not take a value that another row still holds.
-/

namespace Denn.Core

universe u

variable {κ ρ : Type u} [DecidableEq κ]

/-- The order in which a statement processes the rows it selects. -/
structure Scan (κ : Type*) where
  order : List κ → List κ
  perm (keys : List κ) : (order keys).Perm keys

namespace Scan

/-- The rows as they are selected. -/
def forward : Scan κ := ⟨id, fun _ => .refl _⟩

/-- A scan that processes the given keys in their order. -/
def of (keys : List κ) : Scan κ where
  order selected := if keys.Perm selected then keys else selected
  perm selected := by
    split_ifs with h
    · exact h
    · exact .refl _

lemma order_of {keys selected : List κ} (h : keys.Perm selected) :
    (Scan.of keys).order selected = keys := by
  rw [of]
  exact if_pos h

/-- What holds of every scan of some keys holds of every arrangement of them. -/
lemma forall_order_iff {selected : List κ} {P : List κ → Prop} :
    (∀ scan : Scan κ, P (scan.order selected)) ↔ ∀ keys, keys.Perm selected → P keys := by
  constructor
  · intro h keys hperm
    rw [← order_of hperm]
    exact h _
  · intro h scan
    exact h _ (scan.perm selected)

end Scan

namespace Table

/-! ### The statement -/

variable (clash : ρ → ρ → Bool) (f : κ → ρ → ρ)

/-- Write one row, checked against all others. -/
def updateRow (t : Table κ ρ) (k : κ) : Except IntegrityError (Table κ ρ) :=
  if (t.get? k).any fun r => t.any fun k' r' => k' ≠ k && clash (f k r) r' then .error .unique
  else .ok (t.updateWhere (fun k' _ => k' = k) f)

/-- `UPDATE ... SET f` of the rows under the keys, one after another. -/
def updateEach (t : Table κ ρ) (keys : List κ) : Except IntegrityError (Table κ ρ) :=
  keys.foldlM (updateRow clash f) t

variable {clash f} {t : Table κ ρ} {k : κ} {keys done : List κ}

/-- The row under the key can be written while the rows under some other keys are. -/
def CanWrite (clash : ρ → ρ → Bool) (f : κ → ρ → ρ) (t : Table κ ρ) (done : List κ) (k : κ) :
    Prop :=
  ∀ r k' r', t.get? k = some r → t.get? k' = some r' → k' ≠ k →
    clash (f k r) (if k' ∈ done then f k' r' else r') = false

@[simp] lemma updateEach_singleton : updateEach clash f t [k] = updateRow clash f t k := by
  rw [updateEach, List.foldlM_cons]
  exact bind_pure _

/-- A query that an update does not decide on the rows of the table selects the same rows. -/
lemma keysWhere_updateWhere_of_get? {p q : κ → ρ → Bool}
    (h : ∀ k r, t.get? k = some r → q k r = true → p k (f k r) = p k r) :
    (t.updateWhere q f).keysWhere p = t.keysWhere p := by
  have hentries : ∀ e ∈ t.alist.entries,
      p e.1 (if q e.1 e.2 = true then f e.1 e.2 else e.2) = p e.1 e.2 := by
    intro e he
    split_ifs with hq
    · exact h e.1 e.2 ((get?_eq_some_iff t e.1 e.2).mpr he) hq
    · rfl
  simp only [keysWhere, rows, updateWhere, List.map_map, List.filter_map]
  exact congrArg _ (List.filter_congr hentries)

lemma yields_updateRow (clash : ρ → ρ → Bool) (f : κ → ρ → ρ) (t : Table κ ρ) (k : κ) :
    Yields (updateRow clash f t k) (CanWrite clash f t [] k)
      (t.updateWhere (fun k' _ => k' = k) f) := by
  have hiff : CanWrite clash f t [] k ↔
      ¬ ((t.get? k).any fun r => t.any fun k' r' => k' ≠ k && clash (f k r) r') = true := by
    simp only [CanWrite, List.not_mem_nil, if_false, Option.any_eq_true, any_eq_true_iff]
    constructor
    · rintro h ⟨r, hr, k', r', hr', hclash⟩
      simp only [Bool.and_eq_true, decide_eq_true_eq] at hclash
      rw [h r k' r' hr hr' hclash.1] at hclash
      cases hclash.2
    · intro h r k' r' hr hr' hne
      by_contra hclash
      rw [Bool.not_eq_false] at hclash
      exact h ⟨r, hr, k', r', hr', by simpa using ⟨hne, hclash⟩⟩
  intro t'
  rw [updateRow, hiff]
  split_ifs with hany
  · exact iff_of_false (by simp) fun h => h.1 hany
  · rw [Except.ok.injEq, and_iff_right hany, eq_comm]

/-- Rows that are written one by one are all written. -/
lemma foldl_updateWhere (hnodup : keys.Nodup) :
    keys.foldl (fun t k => t.updateWhere (fun k' _ => k' = k) f) t =
      t.updateWhere (fun k _ => k ∈ keys) f := by
  induction keys generalizing t with
  | nil => exact (updateWhere_eq_self (by simp)).symm
  | cons k keys ih =>
    obtain ⟨hk, hkeys⟩ := List.nodup_cons.mp hnodup
    rw [List.foldl_cons, ih hkeys]
    simp only [updateWhere, List.map_map]
    congr 3
    funext e
    by_cases he : e.1 = k
    · have hnot : e.1 ∉ keys := he ▸ hk
      simp [he, hk]
    · simp [he]

/-- An update succeeds if each row can be written once the rows before it are. -/
theorem yields_updateEach (clash : ρ → ρ → Bool) (f : κ → ρ → ρ) (t : Table κ ρ)
    (hnodup : keys.Nodup) :
    Yields (updateEach clash f t keys)
      (∀ done k rest, keys = done ++ k :: rest → CanWrite clash f t done k)
      (t.updateWhere (fun k _ => k ∈ keys) f) := by
  rw [← foldl_updateWhere hnodup]
  refine (Yields.foldlM (yields_updateRow clash f) keys t).congr ?_
  have hturn : ∀ done k rest, keys = done ++ k :: rest →
      (CanWrite clash f (done.foldl (fun t k => t.updateWhere (fun k' _ => k' = k) f) t) [] k ↔
        CanWrite clash f t done k) := by
    rintro done k rest rfl
    obtain ⟨hdone, -, hk⟩ := List.nodup_append'.mp hnodup
    have hnot : k ∉ done := fun hmem => hk hmem (List.mem_cons_self ..)
    rw [foldl_updateWhere hdone]
    simp only [CanWrite, get?_updateWhere, decide_eq_true_eq, List.not_mem_nil, if_false, hnot,
      Option.map_id', Option.map_eq_some_iff]
    constructor
    · intro h r k' r' hr hr' hne
      exact h r k' _ hr ⟨r', hr', rfl⟩ hne
    · rintro h r k' _ hr ⟨r', hr', rfl⟩ hne
      exact h r k' r' hr hr' hne
  constructor
  · intro h done k rest heq
    exact (hturn done k rest heq).mp (h done k rest heq)
  · intro h done k rest heq
    exact (hturn done k rest heq).mpr (h done k rest heq)

/-- An update succeeds in every order of its rows exactly if no row takes a value that another row
    has, before or after the update. -/
theorem forall_updateEach_iff (hnodup : keys.Nodup) :
    (∀ scan : Scan κ, ∃ t', updateEach clash f t (scan.order keys) = .ok t') ↔
      ∀ k ∈ keys, ∀ r k' r', t.get? k = some r → t.get? k' = some r' → k' ≠ k →
        clash (f k r) r' = false ∧ (k' ∈ keys → clash (f k r) (f k' r') = false) := by
  have hyields : ∀ scan : Scan κ, (∃ t', updateEach clash f t (scan.order keys) = .ok t') ↔
      ∀ done k rest, scan.order keys = done ++ k :: rest → CanWrite clash f t done k := by
    intro scan
    exact (yields_updateEach clash f t ((scan.perm keys).nodup_iff.mpr hnodup)).isOk_iff
  simp only [hyields]
  rw [Scan.forall_order_iff
    (P := fun order => ∀ done k rest, order = done ++ k :: rest → CanWrite clash f t done k)]
  constructor
  · intro h k hk r k' r' hr hr' hne
    constructor
    · have hfirst := h (k :: keys.erase k) (List.perm_cons_erase hk).symm [] k _ rfl
      simpa using hfirst r k' r' hr hr' hne
    · intro hk'
      have herase : k ∈ keys.erase k' := (List.mem_erase_of_ne hne.symm).mpr hk
      have hperm : (k' :: k :: (keys.erase k').erase k).Perm keys :=
        (((List.perm_cons_erase herase).symm.cons k').trans (List.perm_cons_erase hk').symm)
      have hsecond := h _ hperm [k'] k _ rfl
      simpa using hsecond r k' r' hr hr' hne
  · rintro h order hperm done k rest rfl r k' r' hr hr' hne
    have hk : k ∈ keys := hperm.subset (by simp)
    obtain ⟨hold, hnew⟩ := h k hk r k' r' hr hr' hne
    split_ifs with hdone
    · exact hnew (hperm.subset (by simp [hdone]))
    · exact hold

end Table

end Denn.Core
