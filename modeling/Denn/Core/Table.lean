import Mathlib.Data.List.AList
import Mathlib.Data.List.Sort

/-!
# Keyed tables

A database table under a unique key: an association list without duplicate keys, with the
row-level statements an object-relational mapper issues against it. `get?` is a lookup by the
key, `set` an insert-or-replace, `delete` a keyed delete, `updateWhere` a conditional bulk
update, and `count` an aggregate over the rows.
-/

namespace Denn.Core

variable {κ ρ : Type*}

/-- A table of rows `ρ` under the unique key `κ`. -/
structure Table (κ ρ : Type*) where
  alist : AList fun _ : κ => ρ

namespace Table

/-- The table without rows. -/
def empty : Table κ ρ := ⟨∅⟩

instance : Inhabited (Table κ ρ) := ⟨empty⟩

/-- All rows with their keys. -/
def rows (t : Table κ ρ) : List (κ × ρ) :=
  t.alist.entries.map fun e => (e.1, e.2)

/-- `SELECT COUNT(*) ... WHERE p`. -/
def count (p : κ → ρ → Bool) (t : Table κ ρ) : ℕ :=
  t.alist.entries.countP fun e => p e.1 e.2

/-- `SELECT EXISTS ... WHERE p`. -/
def any (p : κ → ρ → Bool) (t : Table κ ρ) : Bool :=
  t.alist.entries.any fun e => p e.1 e.2

/-- `SELECT key ... WHERE p`. -/
def keysWhere (p : κ → ρ → Bool) (t : Table κ ρ) : List κ :=
  (t.rows.filter fun row => p row.1 row.2).map Prod.fst

/-- `SELECT key ... WHERE p LIMIT 1`. -/
def first (p : κ → ρ → Bool) (t : Table κ ρ) : Option κ := (t.keysWhere p).head?

/-- `UPDATE ... SET f ... WHERE p`. -/
def updateWhere (p : κ → ρ → Bool) (f : κ → ρ → ρ) (t : Table κ ρ) : Table κ ρ :=
  ⟨⟨t.alist.entries.map fun e => ⟨e.1, if p e.1 e.2 then f e.1 e.2 else e.2⟩, by
    have h := t.alist.nodupKeys
    unfold List.NodupKeys List.keys at h ⊢
    simpa only [List.map_map, Function.comp_def] using h⟩⟩

/-- `DELETE ... WHERE p`. -/
def deleteWhere (p : κ → ρ → Bool) (t : Table κ ρ) : Table κ ρ :=
  ⟨⟨t.alist.entries.filter fun e => !p e.1 e.2,
    t.alist.nodupKeys.sublist List.filter_sublist⟩⟩

/-- `SELECT ... WHERE p ORDER BY measure DESC LIMIT 1`. -/
def latest {β : Type*} [LinearOrder β] (p : κ → ρ → Bool) (measure : ρ → β) (t : Table κ ρ) :
    Option (κ × ρ) :=
  ((t.rows.filter fun row => p row.1 row.2).insertionSort
    fun a b => measure b.2 ≤ measure a.2).head?

variable [DecidableEq κ]

/-- The row under a key, if there is one. -/
def get? (t : Table κ ρ) (k : κ) : Option ρ := t.alist.lookup k

/-- Insert a row, replacing the one under the same key. -/
def set (t : Table κ ρ) (k : κ) (r : ρ) : Table κ ρ := ⟨t.alist.insert k r⟩

/-- A loop that inserts `f k` for each key that has one. -/
def assign (f : κ → Option ρ) (t : Table κ ρ) (keys : List κ) : Table κ ρ :=
  keys.foldl (fun t k => (f k).elim t (t.set k)) t

/-- Insert all rows of another table. -/
def update (t t' : Table κ ρ) : Table κ ρ := t.assign t'.get? (t'.rows.map Prod.fst)

/-- Delete the row under a key. -/
def delete (t : Table κ ρ) (k : κ) : Table κ ρ := ⟨t.alist.erase k⟩

/-! ### Lookup after each statement -/

@[simp] lemma get?_empty (k : κ) : (empty : Table κ ρ).get? k = none := by
  simp [get?, empty]

@[simp] lemma get?_set_self (t : Table κ ρ) (k : κ) (r : ρ) : (t.set k r).get? k = some r := by
  simp [get?, set]

lemma get?_set_ne (t : Table κ ρ) {j k : κ} (r : ρ) (h : j ≠ k) :
    (t.set k r).get? j = t.get? j := by
  simp [get?, set, AList.lookup_insert_ne h]

lemma get?_set (t : Table κ ρ) (j k : κ) (r : ρ) :
    (t.set k r).get? j = if j = k then some r else t.get? j := by
  by_cases h : j = k
  · subst h; simp
  · rw [if_neg h, get?_set_ne t r h]

/-- A row found after `set` is the one that was set, or it was there before. -/
lemma get?_set_cases {t : Table κ ρ} {j k : κ} {r r' : ρ} (h : (t.set k r).get? j = some r') :
    (j = k ∧ r' = r) ∨ t.get? j = some r' := by
  rw [get?_set] at h
  split_ifs at h with hkey
  · exact .inl ⟨hkey, (Option.some.inj h).symm⟩
  · exact .inr h

lemma get?_assign (f : κ → Option ρ) (t : Table κ ρ) (keys : List κ) (k : κ) :
    (t.assign f keys).get? k = if k ∈ keys then (f k).or (t.get? k) else t.get? k := by
  induction keys generalizing t with
  | nil => simp [assign]
  | cons j keys ih =>
    rw [assign, List.foldl_cons, ← assign, ih]
    by_cases hk : k = j
    · subst hk
      cases hf : f k <;> simp
    · cases hf : f j <;> simp [hk, get?_set_ne _ _ hk]

@[simp] lemma get?_delete_self (t : Table κ ρ) (k : κ) : (t.delete k).get? k = none := by
  simp [get?, delete]

lemma get?_delete_ne (t : Table κ ρ) {j k : κ} (h : j ≠ k) :
    (t.delete k).get? j = t.get? j := by
  simp [get?, delete, AList.lookup_erase_ne h]

lemma get?_delete (t : Table κ ρ) (j k : κ) :
    (t.delete k).get? j = if j = k then none else t.get? j := by
  by_cases h : j = k
  · subst h; simp
  · rw [if_neg h, get?_delete_ne t h]

/-- A row found after `delete` was there before, under another key. -/
lemma get?_of_delete {t : Table κ ρ} {j k : κ} {r : ρ} (h : (t.delete k).get? j = some r) :
    j ≠ k ∧ t.get? j = some r := by
  rw [get?_delete] at h
  split_ifs at h with hkey
  exact ⟨hkey, h⟩

lemma get?_eq_some_iff (t : Table κ ρ) (k : κ) (r : ρ) :
    t.get? k = some r ↔ (⟨k, r⟩ : Sigma fun _ : κ => ρ) ∈ t.alist.entries :=
  AList.mem_lookup_iff

lemma mem_rows_iff (t : Table κ ρ) (k : κ) (r : ρ) : (k, r) ∈ t.rows ↔ t.get? k = some r := by
  rw [get?_eq_some_iff, rows, List.mem_map]
  constructor
  · rintro ⟨⟨k', r'⟩, h, heq⟩
    simp only [Prod.mk.injEq] at heq
    obtain ⟨rfl, rfl⟩ := heq
    exact h
  · intro h
    exact ⟨_, h, rfl⟩

lemma get?_updateWhere (p : κ → ρ → Bool) (f : κ → ρ → ρ) (t : Table κ ρ) (k : κ) :
    (t.updateWhere p f).get? k = (t.get? k).map fun r => if p k r then f k r else r := by
  obtain ⟨⟨entries, nodup⟩⟩ := t
  simp only [get?, updateWhere, AList.lookup]
  clear nodup
  induction entries with
  | nil => rfl
  | cons e entries ih =>
    obtain ⟨j, r⟩ := e
    by_cases h : j = k
    · subst h; simp
    · simpa [List.dlookup_cons_ne, Ne.symm h] using ih

lemma assign_of_none {f : κ → Option ρ} {keys : List κ} {t : Table κ ρ}
    (h : ∀ k ∈ keys, f k = none) : t.assign f keys = t := by
  induction keys with
  | nil => rfl
  | cons k keys ih =>
    obtain ⟨hhead, htail⟩ := List.forall_mem_cons.mp h
    rw [assign, List.foldl_cons, hhead, Option.elim_none]
    exact ih htail

lemma updateWhere_eq_self {p : κ → ρ → Bool} {f : κ → ρ → ρ} {t : Table κ ρ}
    (h : ∀ k r, t.get? k = some r → p k r = false) : t.updateWhere p f = t := by
  have hentries : t.alist.entries.map (fun e =>
      (⟨e.1, if p e.1 e.2 then f e.1 e.2 else e.2⟩ : Sigma fun _ : κ => ρ)) = t.alist.entries := by
    rw [List.map_congr_left (g := id), List.map_id]
    intro e he
    simp [h e.1 e.2 ((get?_eq_some_iff t e.1 e.2).mpr he)]
  obtain ⟨⟨entries, nodup⟩⟩ := t
  simp only [updateWhere, hentries]

omit [DecidableEq κ] in
/-- An update of rows that a query selects neither before nor after it. -/
lemma filter_rows_updateWhere {p : κ → ρ → Bool} {f : κ → ρ → ρ} {q : κ × ρ → Bool}
    (h : ∀ k r, p k r = true → q (k, r) = false ∧ q (k, f k r) = false) (t : Table κ ρ) :
    (t.updateWhere p f).rows.filter q = t.rows.filter q := by
  simp only [rows, updateWhere, List.map_map]
  induction t.alist.entries with
  | nil => rfl
  | cons e entries ih =>
    rw [List.map_cons, List.map_cons, List.filter_cons, List.filter_cons, ih]
    by_cases hp : p e.1 e.2 = true
    · simp [hp, (h e.1 e.2 hp).1, (h e.1 e.2 hp).2]
    · simp [hp]

omit [DecidableEq κ] in
/-- An update that does not decide what a query selects. -/
lemma keysWhere_updateWhere {p q : κ → ρ → Bool} {f : κ → ρ → ρ} (h : ∀ k r, p k (f k r) = p k r)
    (t : Table κ ρ) : (t.updateWhere q f).keysWhere p = t.keysWhere p := by
  simp only [keysWhere, rows, updateWhere, List.map_map]
  induction t.alist.entries with
  | nil => rfl
  | cons e entries ih =>
    have hp : p e.1 (if q e.1 e.2 = true then f e.1 e.2 else e.2) = p e.1 e.2 := by
      split_ifs
      · exact h e.1 e.2
      · rfl
    simp only [List.map_cons, List.filter_cons, Function.comp_apply, hp]
    split_ifs <;> simp [ih]

lemma get?_deleteWhere (p : κ → ρ → Bool) (t : Table κ ρ) (k : κ) :
    (t.deleteWhere p).get? k = (t.get? k).filter fun r => !p k r := by
  ext r
  rw [Option.filter_eq_some_iff, get?_eq_some_iff, get?_eq_some_iff, deleteWhere,
    List.mem_filter]

/-- A deletion by the key alone. -/
lemma get?_deleteWhere_key (p : κ → Bool) (t : Table κ ρ) (k : κ) :
    (t.deleteWhere fun k _ => p k).get? k = if p k then none else t.get? k := by
  rw [get?_deleteWhere]
  cases h : p k <;> cases t.get? k <;> simp

lemma deleteWhere_eq_self {p : κ → ρ → Bool} {t : Table κ ρ}
    (h : ∀ k r, t.get? k = some r → p k r = false) : t.deleteWhere p = t := by
  have hentries : t.alist.entries.filter (fun e => !p e.1 e.2) = t.alist.entries :=
    List.filter_eq_self.mpr fun e he => by
      simp [h e.1 e.2 ((get?_eq_some_iff t e.1 e.2).mpr he)]
  obtain ⟨⟨entries, nodup⟩⟩ := t
  simp only [deleteWhere, hentries]

lemma any_eq_true_iff (p : κ → ρ → Bool) (t : Table κ ρ) :
    t.any p = true ↔ ∃ k r, t.get? k = some r ∧ p k r = true := by
  simp only [any, List.any_eq_true, get?_eq_some_iff]
  constructor
  · rintro ⟨⟨k, r⟩, h, hp⟩
    exact ⟨k, r, h, hp⟩
  · rintro ⟨k, r, h, hp⟩
    exact ⟨⟨k, r⟩, h, hp⟩

lemma mem_keysWhere {p : κ → ρ → Bool} {t : Table κ ρ} {k : κ} :
    k ∈ t.keysWhere p ↔ ∃ r, t.get? k = some r ∧ p k r = true := by
  simp only [keysWhere, List.mem_map, List.mem_filter]
  constructor
  · rintro ⟨⟨k, r⟩, ⟨hmem, hp⟩, rfl⟩
    exact ⟨r, (mem_rows_iff t k r).mp hmem, hp⟩
  · rintro ⟨r, hrow, hp⟩
    exact ⟨(k, r), ⟨(mem_rows_iff t k r).mpr hrow, hp⟩, rfl⟩

lemma first_eq_some {p : κ → ρ → Bool} {t : Table κ ρ} {k : κ} (h : t.first p = some k) :
    ∃ r, t.get? k = some r ∧ p k r = true :=
  mem_keysWhere.mp (List.mem_of_mem_head? h)

lemma first_eq_none {p : κ → ρ → Bool} {t : Table κ ρ} (h : t.first p = none) {k : κ} {r : ρ}
    (hrow : t.get? k = some r) : p k r = false := by
  by_contra hp
  have hmem : k ∈ t.keysWhere p := mem_keysWhere.mpr ⟨r, hrow, by simpa using hp⟩
  rw [List.head?_eq_none_iff.mp h] at hmem
  cases hmem

omit [DecidableEq κ] in
lemma nodup_rows (t : Table κ ρ) : t.rows.Nodup := by
  refine .map ?_ (List.NodupKeys.nodup t.alist.nodupKeys)
  rintro ⟨k, r⟩ ⟨k', r'⟩ heq
  simp only [Prod.mk.injEq] at heq
  obtain ⟨rfl, rfl⟩ := heq
  rfl

/-- Tables that agree on the keys with `p` have the same rows with such keys, up to order. -/
lemma rows_filter_perm {t t' : Table κ ρ} (p : κ → Bool)
    (h : ∀ k, p k = true → t.get? k = t'.get? k) :
    (t.rows.filter fun row => p row.1).Perm (t'.rows.filter fun row => p row.1) := by
  rw [List.perm_ext_iff_of_nodup (t.nodup_rows.filter _) (t'.nodup_rows.filter _)]
  rintro ⟨k, r⟩
  simp only [List.mem_filter, mem_rows_iff]
  constructor
  · rintro ⟨hget, hp⟩
    exact ⟨h k hp ▸ hget, hp⟩
  · rintro ⟨hget, hp⟩
    exact ⟨(h k hp).symm ▸ hget, hp⟩

omit [DecidableEq κ] in
lemma nodup_keys (t : Table κ ρ) : (t.rows.map Prod.fst).Nodup := by
  have h := t.alist.nodupKeys
  unfold List.NodupKeys List.keys at h
  simpa only [rows, List.map_map, Function.comp_def] using h

/-- A column whose values determine the key has no repeated values. -/
lemma nodup_map_rows {β : Type*} {f : ρ → β} {t : Table κ ρ}
    (h : ∀ k k' r r', t.get? k = some r → t.get? k' = some r' → f r = f r' → k = k') :
    (t.rows.map fun row => f row.2).Nodup := by
  refine List.Nodup.map_on ?_ t.nodup_rows
  rintro ⟨k, r⟩ hr ⟨k', r'⟩ hr' heq
  rw [mem_rows_iff] at hr hr'
  obtain rfl := h k k' r r' hr hr' heq
  rw [hr, Option.some.injEq] at hr'
  rw [hr']

lemma rows_eq_nil_iff {t : Table κ ρ} : t.rows = [] ↔ ∀ k, t.get? k = none := by
  rw [List.eq_nil_iff_forall_not_mem]
  constructor
  · intro h k
    exact Option.eq_none_iff_forall_ne_some.mpr fun r hrow => h _ ((mem_rows_iff t k r).mpr hrow)
  · rintro h ⟨k, r⟩ hmem
    rw [mem_rows_iff, h k] at hmem
    cases hmem

/-- Each key stands in the rows once if it has a row. -/
lemma count_keys (t : Table κ ρ) (k : κ) :
    (t.rows.map Prod.fst).count k = if (t.get? k).isSome then 1 else 0 := by
  rw [t.nodup_keys.count]
  congr 1
  simp only [List.mem_map, Prod.exists, exists_and_right, exists_eq_right, mem_rows_iff,
    Option.isSome_iff_exists]

/-- A loop that inserts the rows `f 0`, `f 1`, … under the given keys. -/
lemma get?_foldl_zipIdx (f : ℕ → ρ) {keys : List κ} (h : keys.Nodup) (t : Table κ ρ) (n : ℕ)
    (k : κ) :
    ((keys.zipIdx n).foldl (fun t new => t.set new.1 (f new.2)) t).get? k =
      if k ∈ keys then some (f (n + keys.idxOf k)) else t.get? k := by
  induction keys generalizing t n with
  | nil => simp
  | cons j keys ih =>
    obtain ⟨hj, hkeys⟩ := List.nodup_cons.mp h
    rw [List.zipIdx_cons, List.foldl_cons, ih hkeys]
    by_cases hk : k = j
    · subst hk
      simp [hj]
    · by_cases hmem : k ∈ keys
      · have hidx : (j :: keys).idxOf k = keys.idxOf k + 1 := List.idxOf_cons_ne _ (Ne.symm hk)
        rw [if_pos hmem, if_pos (List.mem_cons_of_mem _ hmem), hidx]
        congr 2
        omega
      · rw [if_neg hmem, if_neg (by simp [hk, hmem]), get?_set_ne _ _ hk]

/-! ### Collecting rows into another table -/

section Collect

variable {κ' ρ' : Type*} [DecidableEq κ']

/-- A dictionary that is filled from the rows; where two have one key, the later one stays. -/
def collect (f : κ → ρ → Option (κ' × ρ')) (t : Table κ ρ) : Table κ' ρ' :=
  (t.rows.filterMap fun row => f row.1 row.2).foldl (fun out entry => out.set entry.1 entry.2)
    .empty

omit [DecidableEq κ] in
lemma get?_foldl_set (entries : List (κ' × ρ')) (out : Table κ' ρ') (k : κ') (r : ρ')
    (h : (entries.foldl (fun out entry => out.set entry.1 entry.2) out).get? k = some r) :
    (k, r) ∈ entries ∨ out.get? k = some r := by
  induction entries generalizing out with
  | nil => exact .inr h
  | cons entry entries ih =>
    rcases ih _ h with hmem | hout
    · exact .inl (List.mem_cons_of_mem _ hmem)
    · rw [get?_set] at hout
      split_ifs at hout with hk
      · refine .inl (List.mem_cons.mpr (.inl ?_))
        rw [hk, ← Option.some.inj hout]
      · exact .inr hout

omit [DecidableEq κ] in
lemma get?_foldl_set_ne_none {entries : List (κ' × ρ')} {out : Table κ' ρ'} {k : κ'}
    (h : (∃ r, (k, r) ∈ entries) ∨ out.get? k ≠ none) :
    (entries.foldl (fun out entry => out.set entry.1 entry.2) out).get? k ≠ none := by
  induction entries generalizing out with
  | nil => simpa using h
  | cons entry entries ih =>
    refine ih ?_
    by_cases hk : k = entry.1
    · subst hk
      exact .inr (by simp)
    · rcases h with ⟨r, hmem⟩ | hout
      · rcases List.mem_cons.mp hmem with rfl | hmem
        · exact absurd rfl hk
        · exact .inl ⟨r, hmem⟩
      · rw [get?_set_ne _ _ hk]
        exact .inr hout

variable {f : κ → ρ → Option (κ' × ρ')} {t : Table κ ρ} {k' : κ'} {r' : ρ'}

omit [DecidableEq κ'] in
lemma mem_filterMap_rows : (k', r') ∈ t.rows.filterMap (fun row => f row.1 row.2) ↔
    ∃ k r, t.get? k = some r ∧ f k r = some (k', r') := by
  simp only [List.mem_filterMap, Prod.exists, mem_rows_iff]

/-- A collected row comes from a row. -/
lemma get?_of_collect (h : (t.collect f).get? k' = some r') :
    ∃ k r, t.get? k = some r ∧ f k r = some (k', r') := by
  rcases get?_foldl_set _ _ _ _ h with hmem | hempty
  · exact mem_filterMap_rows.mp hmem
  · simp at hempty

/-- A row is collected unless another one has its key. -/
lemma get?_collect (hunique : ∀ k₁ k₂ r₁ r₂ r₁' r₂', t.get? k₁ = some r₁ → t.get? k₂ = some r₂ →
      f k₁ r₁ = some (k', r₁') → f k₂ r₂ = some (k', r₂') → k₁ = k₂) :
    (t.collect f).get? k' = some r' ↔ ∃ k r, t.get? k = some r ∧ f k r = some (k', r') := by
  refine ⟨get?_of_collect, ?_⟩
  rintro ⟨k, r, hrow, hf⟩
  have hsome : (t.collect f).get? k' ≠ none :=
    get?_foldl_set_ne_none (.inl ⟨r', mem_filterMap_rows.mpr ⟨k, r, hrow, hf⟩⟩)
  obtain ⟨r'', hr''⟩ := Option.ne_none_iff_exists'.mp hsome
  obtain ⟨j, q, hq, hfq⟩ := get?_of_collect hr''
  obtain rfl := hunique j k q r r'' r' hq hrow hfq hf
  rw [hrow, Option.some.injEq] at hq
  subst hq
  rw [hf, Option.some.injEq, Prod.mk.injEq] at hfq
  rw [hr'', hfq.2]

end Collect

/-! ### The latest row -/

section Latest

variable {β : Type*} [LinearOrder β] {p : κ → ρ → Bool} {measure : ρ → β} {t : Table κ ρ}

lemma latest_spec {k : κ} {r : ρ} (h : t.latest p measure = some (k, r)) :
    t.get? k = some r ∧ p k r = true ∧
    ∀ k' r', t.get? k' = some r' → p k' r' = true → measure r' ≤ measure r := by
  have htotal : Std.Total fun a b : κ × ρ => measure b.2 ≤ measure a.2 :=
    ⟨fun a b => le_total _ _⟩
  have htrans : IsTrans (κ × ρ) fun a b => measure b.2 ≤ measure a.2 :=
    ⟨fun a b c hab hbc => hbc.trans hab⟩
  have hmem : ∀ row, row ∈ (t.rows.filter fun row => p row.1 row.2).insertionSort
      (fun a b => measure b.2 ≤ measure a.2) ↔ t.get? row.1 = some row.2 ∧ p row.1 row.2 = true := by
    intro row
    rw [List.mem_insertionSort, List.mem_filter, ← mem_rows_iff]
  have hsorted := List.pairwise_insertionSort (fun a b => measure b.2 ≤ measure a.2)
    (t.rows.filter fun row => p row.1 row.2)
  obtain ⟨rest, hlist⟩ := List.head?_eq_some_iff.mp h
  rw [hlist] at hmem hsorted
  obtain ⟨hrow, hp⟩ := (hmem (k, r)).mp (List.mem_cons_self ..)
  refine ⟨hrow, hp, fun k' r' hrow' hp' => ?_⟩
  rcases List.mem_cons.mp ((hmem (k', r')).mpr ⟨hrow', hp'⟩) with heq | hrest
  · cases heq
    exact le_rfl
  · exact (List.pairwise_cons.mp hsorted).1 _ hrest

lemma exists_latest {k : κ} {r : ρ} (hrow : t.get? k = some r) (hp : p k r = true) :
    ∃ k' r', t.latest p measure = some (k', r') := by
  cases h : t.latest p measure with
  | some row => exact ⟨row.1, row.2, rfl⟩
  | none =>
    have hmem : (k, r) ∈ (t.rows.filter fun row => p row.1 row.2).insertionSort
        fun a b => measure b.2 ≤ measure a.2 := by
      rw [List.mem_insertionSort, List.mem_filter, mem_rows_iff]
      exact ⟨hrow, hp⟩
    rw [latest, List.head?_eq_none_iff] at h
    rw [h] at hmem
    cases hmem

end Latest

/-! ### Counting -/

lemma entries_delete (t : Table κ ρ) (k : κ) :
    (t.delete k).alist.entries = t.alist.entries.kerase k := rfl

omit [DecidableEq κ] in
@[simp] lemma count_empty (p : κ → ρ → Bool) : (empty : Table κ ρ).count p = 0 := rfl

lemma count_eq_zero {p : κ → ρ → Bool} {t : Table κ ρ}
    (h : ∀ k r, t.get? k = some r → p k r = false) : t.count p = 0 := by
  apply List.countP_eq_zero.mpr
  intro e he
  simp [h e.1 e.2 ((get?_eq_some_iff t e.1 e.2).mpr he)]

/-- A count splits into the row under one key and all the others. -/
lemma count_eq_delete_add (p : κ → ρ → Bool) (t : Table κ ρ) (k : κ) :
    t.count p = (t.delete k).count p + ((t.get? k).any (p k)).toNat := by
  obtain ⟨⟨entries, nodup⟩⟩ := t
  simp only [count, entries_delete, get?, AList.lookup]
  clear nodup
  induction entries with
  | nil => rfl
  | cons e entries ih =>
    obtain ⟨j, r⟩ := e
    by_cases h : k = j
    · subst h
      have herase : (⟨k, r⟩ :: entries : List (Sigma fun _ : κ => ρ)).kerase k = entries :=
        List.kerase_cons_eq rfl
      have hlookup : (⟨k, r⟩ :: entries : List (Sigma fun _ : κ => ρ)).dlookup k = some r :=
        List.dlookup_cons_eq ..
      rw [herase, hlookup, List.countP_cons, Option.any_some]
      cases hp : p k r <;> simp
    · have herase : (⟨j, r⟩ :: entries : List (Sigma fun _ : κ => ρ)).kerase k
          = ⟨j, r⟩ :: entries.kerase k := List.kerase_cons_ne h
      have hlookup : (⟨j, r⟩ :: entries : List (Sigma fun _ : κ => ρ)).dlookup k
          = entries.dlookup k := List.dlookup_cons_ne _ _ h
      rw [herase, hlookup, List.countP_cons, List.countP_cons, ih]
      omega

omit [DecidableEq κ] in
lemma count_eq_length (p : κ → ρ → Bool) (t : Table κ ρ) : t.count p = (t.keysWhere p).length := by
  rw [keysWhere, List.length_map, ← List.countP_eq_length_filter, rows, List.countP_map, count]
  rfl

/-- Two counts over the same keys agree. -/
lemma count_eq_count {σ : Type*} {p : κ → ρ → Bool} {q : κ → σ → Bool} {t : Table κ ρ}
    {t' : Table κ σ}
    (h : ∀ k, (∃ r, t.get? k = some r ∧ p k r = true) ↔ ∃ r, t'.get? k = some r ∧ q k r = true) :
    t.count p = t'.count q := by
  have hnodup : (t.keysWhere p).Nodup := t.nodup_keys.sublist (List.filter_sublist.map _)
  have hnodup' : (t'.keysWhere q).Nodup := t'.nodup_keys.sublist (List.filter_sublist.map _)
  have hperm : (t.keysWhere p).Perm (t'.keysWhere q) := by
    rw [List.perm_ext_iff_of_nodup hnodup hnodup']
    intro k
    rw [mem_keysWhere, mem_keysWhere, h]
  rw [count_eq_length, count_eq_length, hperm.length_eq]

lemma count_set (p : κ → ρ → Bool) (t : Table κ ρ) (k : κ) (r : ρ) :
    (t.set k r).count p = (t.delete k).count p + (p k r).toNat := by
  simp only [count, set, entries_delete, AList.entries_insert, List.countP_cons]
  cases p k r <;> rfl

lemma count_delete_le (p : κ → ρ → Bool) (t : Table κ ρ) (k : κ) :
    (t.delete k).count p ≤ t.count p := by
  rw [count_eq_delete_add p t k]
  exact Nat.le_add_right _ _

/-- Replacing a row by one that satisfies `p` only if the old one did adds nothing. -/
lemma count_set_le (p : κ → ρ → Bool) (t : Table κ ρ) (k : κ) (r : ρ)
    (h : p k r = true → (t.get? k).any (p k) = true) : (t.set k r).count p ≤ t.count p := by
  rw [count_set, count_eq_delete_add p t k]
  by_cases hr : p k r = true
  · rw [hr, h hr]
  · simp [hr]

omit [DecidableEq κ] in
/-- An update adds nothing to a count if it makes no row satisfy `q` that did not. -/
lemma count_updateWhere_le {p q : κ → ρ → Bool} {f : κ → ρ → ρ} (t : Table κ ρ)
    (h : ∀ k r, p k r = true → q k (f k r) = true → q k r = true) :
    (t.updateWhere p f).count q ≤ t.count q := by
  simp only [count, updateWhere, List.countP_map]
  refine List.countP_mono_left fun e _ he => ?_
  simp only [Function.comp_apply] at he
  split_ifs at he with hp
  · exact h e.1 e.2 hp he
  · exact he

lemma count_set_le_succ (p : κ → ρ → Bool) (t : Table κ ρ) (k : κ) (r : ρ) :
    (t.set k r).count p ≤ t.count p + 1 := by
  have hle := count_delete_le p t k
  have hone := Bool.toNat_le (p k r)
  rw [count_set]
  omega

end Table

end Denn.Core
