import Denn.Core.Except
import Denn.Moderation.Recompose

/-!
# Recomposition agrees with classification

A run stores in each selected row what the classifier would store for the same raw answers, unless
the raw answers make the composer raise; then the run is aborted.
-/

namespace Denn

open Core

/-! ### One row -/

lemma mapDecision_text (decision : Decision) : (mapDecision decision).text = decision.text := by
  cases decision <;> rfl

lemma PolicyResult.payload_equals (result : PolicyResult) :
    result.payload.equals result.payload = true := by
  simp [payload, Json.equals, Json.equalsFields, Json.lookup_cons_eq_ite]

lemma PolicyThresholds.payload_equals (thresholds : PolicyThresholds) :
    thresholds.payload.equals thresholds.payload = true := by
  simp [payload, Json.equals, Json.equalsFields, Json.number?, Json.lookup_cons_eq_ite]

/-- A safe decision needs three valid probabilities on the right side of their cutoffs. -/
theorem composePolicy_safe {flag : ProviderFlag} {safe explicit review : RawProbability}
    {thresholds : PolicyThresholds}
    (h : (composePolicy flag safe explicit review thresholds).decision
      = .safeForAutomaticDiscovery) :
    ∃ safeProb explicitProb reviewProb, validatedProbability safe = some (some safeProb) ∧
      validatedProbability explicit = some (some explicitProb) ∧
      validatedProbability review = some (some reviewProb) ∧ thresholds.safeMin ≤ safeProb ∧
      explicitProb < thresholds.explicitAt ∧ reviewProb < thresholds.reviewAt := by
  have hflag : flag = .notExplicit ∨ flag = .none := by
    cases flag <;> simp [composePolicy] at h ⊢
  have hsafe : ∃ safeProb explicitProb reviewProb, validatedProbability safe = some safeProb ∧
      validatedProbability explicit = some explicitProb ∧
      validatedProbability review = some reviewProb := by
    rcases hflag with rfl | rfl <;>
    · cases hs : validatedProbability safe <;> cases he : validatedProbability explicit <;>
        cases hr : validatedProbability review <;> simp [composePolicy, hs, he, hr] at h ⊢
  obtain ⟨safeProb, explicitProb, reviewProb, hs, he, hr⟩ := hsafe
  have hdecision : ¬ (explicitProb.any fun p => thresholds.explicitAt ≤ p) = true ∧
      ¬ (reviewProb.any fun p => thresholds.reviewAt ≤ p) = true ∧
      ∃ s e r, safeProb = some s ∧ explicitProb = some e ∧ reviewProb = some r ∧
        thresholds.safeMin ≤ s := by
    rcases hflag with rfl | rfl <;>
    · simp only [composePolicy, hs, he, hr] at h
      split_ifs at h with hexplicit hreview
      refine ⟨hexplicit, hreview, ?_⟩
      split at h
      · split_ifs at h with hmin
        exact ⟨_, _, _, rfl, rfl, rfl, hmin⟩
      · cases h
  obtain ⟨hexplicit, hreview, s, e, r, rfl, rfl, rfl, hmin⟩ := hdecision
  exact ⟨s, e, r, hs, he, hr, hmin, by simpa using hexplicit, by simpa using hreview⟩

/-- The raw answers make the composer raise. -/
def overflows (row : JudgmentRow) : Bool :=
  let flag := providerFlagOf (row.payload.get "provider_explicit")
  (flag = .notExplicit || flag = .none)
    && (rawProbabilities row.payload).any fun raw => overflowsFirst [raw.1, raw.2.1, raw.2.2]

/-- The policy of a row's raw answers. -/
def policyOf (thresholds : PolicyThresholds) (row : JudgmentRow) : PolicyResult :=
  let nouls := row.payload.get "raw_nouls"
  composePolicy (providerFlagOf (row.payload.get "provider_explicit"))
    (rawProbabilityOf (nouls.get "safe_for_automatic_discovery"))
    (rawProbabilityOf (nouls.get "explicit_or_sensitive"))
    (rawProbabilityOf (nouls.get "needs_review")) thresholds

lemma rawProbabilities_eq_some {payload : Json} {raw : Json × Json × Json}
    (h : rawProbabilities payload = some raw) :
    (∃ fields, payload = .obj fields) ∧
    raw.1 = (payload.get "raw_nouls").get "safe_for_automatic_discovery" ∧
    raw.2.1 = (payload.get "raw_nouls").get "explicit_or_sensitive" ∧
    raw.2.2 = (payload.get "raw_nouls").get "needs_review" := by
  unfold rawProbabilities at h
  split at h
  next nouls hnouls =>
    split at h
    next safe explicit review hsafe hexplicit hreview =>
      split_ifs at h
      cases h
      constructor
      · cases payload with
        | obj fields => exact ⟨fields, rfl⟩
        | _ => cases hnouls
      · rw [hnouls]
        simp only [Json.get, hsafe, hexplicit, hreview, Option.getD_some, and_self]
    next => cases h
  next => cases h

lemma composePolicyOf_eq {thresholds : PolicyThresholds} {row : JudgmentRow}
    {raw : Json × Json × Json} (h : rawProbabilities row.payload = some raw) :
    composePolicyOf (row.payload.get "provider_explicit") raw.1 raw.2.1 raw.2.2 thresholds
      = if overflows row then .error {} else .ok (policyOf thresholds row) := by
  obtain ⟨-, hsafe, hexplicit, hreview⟩ := rawProbabilities_eq_some h
  simp only [composePolicyOf, overflows, policyOf, h, Option.any_some, hsafe, hexplicit, hreview]

variable (options : RecomposeOptions)

/-- A complete row that no provider rule made, with usable raw answers, and outdated unless all rows
    are asked for. -/
def isSelected (row : JudgmentRow) : Bool :=
  row.status = .complete && row.modelName ∉ providerRuleModels
    && (options.all || row.policyRevision ≠ options.revision)
    && (rawProbabilities row.payload).isSome

/-- What a run makes of a row. -/
def recomposed (row : JudgmentRow) : JudgmentRow :=
  if isSelected options row then (recomposeRow options row (policyOf options.thresholds row)).1
  else row

def isChanged (row : JudgmentRow) : Bool :=
  isSelected options row && (recomposeRow options row (policyOf options.thresholds row)).2

variable {options}

lemma recomposeRow_status (row : JudgmentRow) (result : PolicyResult) :
    (recomposeRow options row result).1.status = row.status := by
  unfold recomposeRow
  dsimp only
  split_ifs <;> rfl

lemma recomposeRow_of_unchanged {row : JudgmentRow} {result : PolicyResult}
    (h : (recomposeRow options row result).2 = false) :
    (recomposeRow options row result).1 = row := by
  unfold recomposeRow at h ⊢
  dsimp only at h ⊢
  split_ifs at h ⊢
  rfl

lemma recomposed_of_unchanged {row : JudgmentRow} (h : isChanged options row = false) :
    recomposed options row = row := by
  unfold recomposed
  split_ifs with hselected
  · rw [isChanged, hselected, Bool.true_and] at h
    exact recomposeRow_of_unchanged h
  · rfl

variable (options) in
/-- What the policy decides is stored; everything else in the row stays. -/
structure Recomposes (row : JudgmentRow) (result : PolicyResult) (new : JudgmentRow) : Prop where
  classification : new.classification = result.decision.text
  revision : new.policyRevision = options.revision
  policy : (new.payload.get "policy").equals result.payload = true
  thresholds : (new.payload.get "policy_thresholds").equals options.thresholds.payload = true
  columns : new = { row with
    classification := new.classification, policyRevision := new.policyRevision
    payload := new.payload }
  entries : ∀ key, key ≠ "policy" → key ≠ "policy_thresholds" →
    new.payload.get key = row.payload.get key

theorem recomposes_recomposeRow {row : JudgmentRow} (hobj : ∃ fields, row.payload = .obj fields)
    (result : PolicyResult) : Recomposes options row result
      (recomposeRow options row result).1 := by
  unfold recomposeRow
  dsimp only
  split_ifs with hchanged
  · have hpolicy := Json.get_set hobj "policy" result.payload
    have hobj' : ∃ fields, row.payload.set "policy" result.payload = .obj fields := by
      obtain ⟨fields, hfields⟩ := hobj
      exact ⟨_, by rw [hfields]; rfl⟩
    have hthresholds := Json.get_set hobj' "policy_thresholds" options.thresholds.payload
    exact {
      classification := mapDecision_text _
      revision := rfl
      policy := by
        rw [hthresholds, if_neg (by decide), hpolicy, if_pos rfl]
        exact result.payload_equals
      thresholds := by
        rw [hthresholds, if_pos rfl]
        exact options.thresholds.payload_equals
      columns := rfl
      entries := fun key hkey hkey' => by rw [hthresholds, if_neg hkey', hpolicy, if_neg hkey] }
  · simp only [Bool.or_eq_true, decide_eq_true_eq, Bool.not_eq_true', not_or, not_not,
      Bool.not_eq_false] at hchanged
    obtain ⟨⟨⟨hclassification, hrevision⟩, hpolicy⟩, hthresholds⟩ := hchanged
    exact {
      classification := hclassification.trans (mapDecision_text _)
      revision := hrevision
      policy := hpolicy
      thresholds := hthresholds
      columns := rfl
      entries := fun _ _ _ => rfl }

/-- Where the policy is stored already, nothing differs. -/
lemma Recomposes.unchanged {row new : JudgmentRow} {result : PolicyResult}
    (h : Recomposes options row result new) :
    (recomposeRow options new result).2 = false := by
  simp [recomposeRow, h.classification, mapDecision_text, h.revision, h.policy, h.thresholds]

lemma isSelected_eq_true {row : JudgmentRow} (h : isSelected options row = true) :
    row.status = .complete ∧ row.modelName ∉ providerRuleModels ∧
      (options.all = true ∨ row.policyRevision ≠ options.revision) ∧
      ∃ raw, rawProbabilities row.payload = some raw := by
  simpa [isSelected, and_assoc, Option.isSome_iff_exists] using h

theorem recomposes_recomposed {row : JudgmentRow} (h : isSelected options row = true) :
    Recomposes options row (policyOf options.thresholds row) (recomposed options row) := by
  obtain ⟨-, -, -, raw, hraw⟩ := isSelected_eq_true h
  rw [recomposed, if_pos h]
  exact recomposes_recomposeRow (rawProbabilities_eq_some hraw).1 _

lemma recomposed_of_not_selected {row : JudgmentRow} (h : isSelected options row = false) :
    recomposed options row = row := by
  simp [recomposed, h]

/-! What a second run reads of a recomposed row is as it was. -/

lemma Recomposes.rawProbabilities_eq {row new : JudgmentRow} {result : PolicyResult}
    (h : Recomposes options row result new) :
    rawProbabilities new.payload = rawProbabilities row.payload := by
  rw [rawProbabilities, rawProbabilities, h.entries _ (by decide) (by decide)]

lemma Recomposes.overflows_eq {row new : JudgmentRow} {result : PolicyResult}
    (h : Recomposes options row result new) : overflows new = overflows row := by
  rw [overflows, overflows, h.rawProbabilities_eq, h.entries _ (by decide) (by decide)]

lemma Recomposes.policyOf_eq {row new : JudgmentRow} {result : PolicyResult}
    (h : Recomposes options row result new) (thresholds : PolicyThresholds) :
    policyOf thresholds new = policyOf thresholds row := by
  rw [policyOf, policyOf, h.entries "raw_nouls" (by decide) (by decide),
    h.entries "provider_explicit" (by decide) (by decide)]

lemma overflows_recomposed (row : JudgmentRow) :
    overflows (recomposed options row) = overflows row := by
  cases h : isSelected options row with
  | true => exact (recomposes_recomposed h).overflows_eq
  | false => rw [recomposed_of_not_selected h]

lemma isSelected_recomposed (hall : options.all = true) (row : JudgmentRow) :
    isSelected options (recomposed options row) = isSelected options row := by
  cases h : isSelected options row with
  | false => rw [recomposed_of_not_selected h, h]
  | true =>
    have hrow := recomposes_recomposed h
    obtain ⟨hstatus, hmodel, -, hraw⟩ := isSelected_eq_true h
    rw [← Option.isSome_iff_exists] at hraw
    rw [isSelected, hrow.rawProbabilities_eq, hrow.columns]
    simp [hall, hstatus, hmodel, hraw]

/-- A run over recomposed rows finds no difference. -/
lemma isChanged_recomposed (hall : options.all = true) (row : JudgmentRow) :
    isChanged options (recomposed options row) = false := by
  rw [isChanged, isSelected_recomposed hall]
  cases h : isSelected options row with
  | false => rfl
  | true =>
    have hrow := recomposes_recomposed h
    rw [Bool.true_and, hrow.policyOf_eq]
    exact hrow.unchanged

lemma recomposed_status (row : JudgmentRow) : (recomposed options row).status = row.status := by
  unfold recomposed
  split_ifs
  · exact recomposeRow_status row _
  · rfl

/-! ### One run -/

variable (options) in
/-- What an examined row adds to the state. -/
structure Examines (state : RecomposeState) (pk : ℕ) (row : JudgmentRow) (state' : RecomposeState) :
    Prop where
  table : state'.table = state.table
  lastPk : state'.lastPk = state.lastPk
  examined : state'.examined = state.examined ++ [pk]
  pending : state'.pending
    = state.pending ++ if isChanged options row then [(pk, recomposed options row)] else []
  updated : state'.counts.updated = state.counts.updated
  counts : state'.counts.selected + state.counts.unchanged
    = state.counts.selected + state'.counts.unchanged + (isChanged options row).toNat

lemma Examines.of_not_selected {state state' : RecomposeState} {pk : ℕ} {row : JudgmentRow}
    (h : isSelected options row = false) (htable : state'.table = state.table)
    (hlast : state'.lastPk = state.lastPk) (hexamined : state'.examined = state.examined ++ [pk])
    (hpending : state'.pending = state.pending)
    (hupdated : state'.counts.updated = state.counts.updated)
    (hselected : state'.counts.selected = state.counts.selected)
    (hunchanged : state'.counts.unchanged = state.counts.unchanged) :
    Examines options state pk row state' where
  table := htable
  lastPk := hlast
  examined := hexamined
  pending := by simp [isChanged, h, hpending]
  updated := hupdated
  counts := by simp [isChanged, h, hselected, hunchanged]

/-- A complete row is examined, unless it is selected and its raw answers make the composer
    raise. -/
theorem examineRow_cases (options : RecomposeOptions) (state : RecomposeState) (pk : ℕ)
    {row : JudgmentRow}
    (hstatus : row.status = .complete) :
    ((isSelected options row && overflows row) = true ∧
      ∃ abort, examineRow options state (pk, row) = .error abort) ∨
    ((isSelected options row && overflows row) = false ∧
      ∃ state', examineRow options state (pk, row) = .ok state' ∧
        Examines options state pk row state') := by
  unfold examineRow
  dsimp only
  by_cases hmodel : row.modelName ∈ providerRuleModels
  · have hnot : isSelected options row = false := by simp [isSelected, hmodel]
    simp only [if_pos hmodel]
    exact .inr ⟨by simp [hnot], _, rfl, .of_not_selected hnot rfl rfl rfl rfl rfl rfl rfl⟩
  by_cases hcurrent : (!options.all && decide (row.policyRevision = options.revision)) = true
  · have hnot : isSelected options row = false := by
      simp only [Bool.and_eq_true, Bool.not_eq_true', decide_eq_true_eq] at hcurrent
      simp [isSelected, hcurrent.1, hcurrent.2]
    simp only [if_neg hmodel, if_pos hcurrent]
    exact .inr ⟨by simp [hnot], _, rfl, .of_not_selected hnot rfl rfl rfl rfl rfl rfl rfl⟩
  · simp only [if_neg hmodel, if_neg hcurrent]
    cases hraw : rawProbabilities row.payload with
    | none =>
      have hnot : isSelected options row = false := by simp [isSelected, hraw]
      exact .inr ⟨by simp [hnot], _, rfl, .of_not_selected hnot rfl rfl rfl rfl rfl rfl rfl⟩
    | some raw =>
      have hselected : isSelected options row = true := by
        simp only [Bool.and_eq_true, Bool.not_eq_true', decide_eq_true_eq, not_and_or,
          Bool.not_eq_false] at hcurrent
        simpa [isSelected, hstatus, hmodel, hraw] using hcurrent
      simp only [examineSelected, composePolicyOf_eq hraw, hselected, Bool.true_and]
      cases hoverflows : overflows row with
      | true => exact .inl ⟨rfl, _, rfl⟩
      | false =>
        refine .inr ⟨rfl, _, rfl, ?_⟩
        have hchanged : isChanged options row
            = (recomposeRow options row (policyOf options.thresholds row)).2 := by
          rw [isChanged, hselected, Bool.true_and]
        have hnew : recomposed options row
            = (recomposeRow options row (policyOf options.thresholds row)).1 := by
          rw [recomposed, if_pos hselected]
        constructor
        · rfl
        · rfl
        · rfl
        · rw [hchanged, hnew]
          dsimp only
          split_ifs <;> simp
        · rfl
        · rw [hchanged]
          cases (recomposeRow options row (policyOf options.thresholds row)).2 <;>
            simp only [Bool.toNat_true, Bool.toNat_false, Bool.false_eq_true, if_true, if_false] <;>
            omega

lemma recomposed_columns (row : JudgmentRow) : recomposed options row = { row with
    classification := (recomposed options row).classification
    policyRevision := (recomposed options row).policyRevision
    payload := (recomposed options row).payload } := by
  cases h : isSelected options row with
  | true => exact (recomposes_recomposed h).columns
  | false => rw [recomposed_of_not_selected h]

variable (options) in
/-- The keys of the rows that a run changes. -/
def changedPks (table : Table ℕ JudgmentRow) (pks : List ℕ) : List ℕ :=
  pks.filter fun pk => (table.get? pk).any (isChanged options)

variable (options) in
/-- The state after the rows `done`, of which the changed ones are either written or pending. -/
structure Recomposing (initial : Table ℕ JudgmentRow) (done written : List ℕ)
    (state : RecomposeState) : Prop where
  examined : state.examined = done
  changed : changedPks options initial done = written ++ state.pending.map Prod.fst
  table : ∀ pk, state.table.get? pk
    = if pk ∈ written then (initial.get? pk).map (recomposed options) else initial.get? pk
  pending : ∀ entry ∈ state.pending, ∃ row, initial.get? entry.1 = some row ∧
    entry.2 = recomposed options row
  updated : state.counts.updated = written.length
  counts : state.counts.selected
    = state.counts.unchanged + (changedPks options initial done).length
  keys : completePks state.table = completePks initial
  dry : options.apply = false → state.table = initial ∧ written = []

lemma Recomposing.start (initial : Table ℕ JudgmentRow) :
    Recomposing options initial [] [] { table := initial } where
  examined := rfl
  changed := rfl
  table pk := by simp
  pending := by simp
  updated := rfl
  counts := rfl
  keys := rfl
  dry _ := ⟨rfl, rfl⟩

theorem Recomposing.examine {initial : Table ℕ JudgmentRow} {done written : List ℕ}
    {state state' : RecomposeState} {pk : ℕ} {row : JudgmentRow}
    (h : Recomposing options initial done written state) (hrow : initial.get? pk = some row)
    (hstep : Examines options state pk row state') :
    Recomposing options initial (done ++ [pk]) written state' := by
  have hchanged : changedPks options initial (done ++ [pk]) = changedPks options initial done ++
      if isChanged options row then [pk] else [] := by
    cases hc : isChanged options row <;> simp [changedPks, List.filter_append, hrow, hc]
  constructor
  · rw [hstep.examined, h.examined]
  · rw [hchanged, hstep.pending, h.changed, List.map_append, List.append_assoc]
    split_ifs <;> rfl
  · rw [hstep.table]
    exact h.table
  · intro entry hentry
    rw [hstep.pending] at hentry
    rcases List.mem_append.mp hentry with hold | hnew
    · exact h.pending entry hold
    · split_ifs at hnew with hc
      · obtain rfl := List.mem_singleton.mp hnew
        exact ⟨row, hrow, rfl⟩
      · cases hnew
  · rw [hstep.updated, h.updated]
  · have hcounts := hstep.counts
    rw [h.counts] at hcounts
    rw [hchanged, List.length_append]
    cases hc : isChanged options row <;> simp [hc] at hcounts ⊢ <;> omega
  · rw [hstep.table, h.keys]
  · rw [hstep.table]
    exact h.dry

lemma completePks_bulkUpdate (table : Table ℕ JudgmentRow) (rows : List (ℕ × JudgmentRow)) :
    completePks (bulkUpdate table rows) = completePks table := by
  have hkeys := Table.keysWhere_updateWhere (p := fun _ row => decide (row.status = .complete))
    (q := fun pk _ => (rows.lookup pk).isSome)
    (f := fun pk row => { row with
      classification := ((rows.lookup pk).getD row).classification
      policyRevision := ((rows.lookup pk).getD row).policyRevision
      payload := ((rows.lookup pk).getD row).payload }) (fun _ _ => rfl) table
  rw [completePks, completePks, ← hkeys]
  rfl

/-- A flush writes the pending rows. -/
theorem Recomposing.flush {initial : Table ℕ JudgmentRow} {done written : List ℕ}
    {state : RecomposeState} (h : Recomposing options initial done written state)
    (hdone : done.Nodup) (happly : options.apply = true) :
    Recomposing options initial done (written ++ state.pending.map Prod.fst) (flush state) where
  examined := h.examined
  changed := by simpa [Denn.flush] using h.changed
  table pk := by
    have hnodup : (written ++ state.pending.map Prod.fst).Nodup := h.changed ▸ hdone.filter _
    have hget : (Denn.flush state).table.get? pk = (state.table.get? pk).map fun row =>
        if (state.pending.lookup pk).isSome then
          { row with
            classification := ((state.pending.lookup pk).getD row).classification
            policyRevision := ((state.pending.lookup pk).getD row).policyRevision
            payload := ((state.pending.lookup pk).getD row).payload }
        else row := Table.get?_updateWhere ..
    rw [hget, h.table]
    cases hlookup : state.pending.lookup pk with
    | none =>
      have hnot : pk ∉ state.pending.map Prod.fst := by
        intro hmem
        obtain ⟨entry, hentry, rfl⟩ := List.mem_map.mp hmem
        simpa using List.lookup_eq_none_iff.mp hlookup entry hentry
      simp [hnot]
    | some new =>
      have hmem : (pk, new) ∈ state.pending := by
        obtain ⟨front, rest, hsplit, -⟩ := List.lookup_eq_some_iff.mp hlookup
        simp [hsplit]
      have hpk : pk ∈ state.pending.map Prod.fst := List.mem_map_of_mem hmem
      have hnot : pk ∉ written := fun hw => (List.nodup_append.mp hnodup).2.2 pk hw pk hpk rfl
      obtain ⟨row, hrow, rfl⟩ := h.pending _ hmem
      simp [hnot, hpk, hrow, ← recomposed_columns]
  pending := by simp [Denn.flush]
  updated := by simp [Denn.flush, h.updated]
  counts := h.counts
  keys := (completePks_bulkUpdate ..).trans h.keys
  dry hdry := by simp [happly] at hdry

lemma Recomposing.flushIf {initial : Table ℕ JudgmentRow} {done written : List ℕ}
    {state : RecomposeState} (h : Recomposing options initial done written state)
    (hdone : done.Nodup) {p : Bool} (hp : p = true → options.apply = true) :
    ∃ written', Recomposing options initial done written' (if p then Denn.flush state else state) ∧
      (if p then Denn.flush state else state).lastPk = state.lastPk := by
  cases p with
  | true => exact ⟨_, h.flush hdone (hp rfl), rfl⟩
  | false => exact ⟨written, h, rfl⟩

/-! ### The loop -/

variable (options) in
/-- A key of a selected row whose raw answers make the composer raise. -/
def Raises (table : Table ℕ JudgmentRow) (pk : ℕ) : Prop :=
  ∃ row, table.get? pk = some row ∧ (isSelected options row && overflows row) = true

lemma mem_completePks {table : Table ℕ JudgmentRow} {pk : ℕ} :
    pk ∈ completePks table ↔ ∃ row, table.get? pk = some row ∧ row.status = .complete := by
  simp [completePks, Table.mem_keysWhere]

lemma nodup_completePks (table : Table ℕ JudgmentRow) : (completePks table).Nodup := by
  have hkeys := table.nodup_keys.sublist
    (List.filter_sublist (p := fun row => decide (row.2.status = .complete)) |>.map Prod.fst)
  exact (List.perm_insertionSort ..).nodup_iff.mpr hkeys

lemma sorted_completePks (table : Table ℕ JudgmentRow) :
    (completePks table).Pairwise (· < ·) := by
  have hle : (completePks table).Pairwise (· ≤ ·) := List.pairwise_insertionSort ..
  exact (hle.and (nodup_completePks table)).imp fun hab => lt_of_le_of_ne hab.1 hab.2

theorem foldlM_examineRow_cases {initial : Table ℕ JudgmentRow}
    (rows : List (ℕ × JudgmentRow))
    (hrows : ∀ entry ∈ rows, initial.get? entry.1 = some entry.2 ∧ entry.2.status = .complete)
    {done written : List ℕ} {state : RecomposeState}
    (h : Recomposing options initial done written state) :
    ((∃ pk ∈ rows.map Prod.fst, Raises options initial pk) ∧
      ∃ abort, rows.foldlM (examineRow options) state = .error abort) ∨
    ((∀ pk ∈ rows.map Prod.fst, ¬ Raises options initial pk) ∧
      ∃ state', rows.foldlM (examineRow options) state = .ok state' ∧
        state'.lastPk = state.lastPk ∧
        Recomposing options initial (done ++ rows.map Prod.fst) written state') := by
  induction rows generalizing done state with
  | nil => exact .inr ⟨by simp, state, rfl, rfl, by simpa using h⟩
  | cons entry rows ih =>
    obtain ⟨pk, row⟩ := entry
    obtain ⟨⟨hget, hstatus⟩, htail⟩ := List.forall_mem_cons.mp hrows
    rw [List.foldlM_cons, List.map_cons]
    rcases examineRow_cases options state pk hstatus with
      ⟨hraises, abort, habort⟩ | ⟨hfine, state', hstate', hexamines⟩
    · exact .inl ⟨⟨pk, List.mem_cons_self .., row, hget, hraises⟩, abort, by rw [habort]; rfl⟩
    · rw [hstate', ok_bind]
      have hpk : ¬ Raises options initial pk := by
        rintro ⟨row', hget', hraises⟩
        obtain rfl := Option.some.inj (hget.symm.trans hget')
        simp [hfine] at hraises
      rcases ih htail (h.examine hget hexamines) with
        ⟨⟨pk', hmem, hraises⟩, habort⟩ | ⟨hall, state'', hstate'', hlast, hnext⟩
      · exact .inl ⟨⟨pk', List.mem_cons_of_mem _ hmem, hraises⟩, habort⟩
      · refine .inr ⟨List.forall_mem_cons.mpr ⟨hpk, hall⟩, state'', hstate'',
          hlast.trans hexamines.lastPk, ?_⟩
        rwa [List.append_assoc, List.singleton_append] at hnext

/-- A page holds the complete rows that come next; where it is empty, none is left. -/
lemma Recomposing.readPage {initial : Table ℕ JudgmentRow} {done written : List ℕ}
    {state : RecomposeState} (h : Recomposing options initial done written state)
    (hsplit : done ++ keysAfter (completePks initial) state.lastPk = completePks initial) :
    (readPage options state).map Prod.fst
      = pageAfter (completePks initial) state.lastPk options.batchSize ∧
    ∀ entry ∈ readPage options state, initial.get? entry.1 = some entry.2 ∧
      entry.2.status = .complete := by
  have hget : ∀ pk ∈ pageAfter (completePks initial) state.lastPk options.batchSize,
      state.table.get? pk = initial.get? pk ∧
        ∃ row, initial.get? pk = some row ∧ row.status = .complete := by
    intro pk hpk
    have hafter : pk ∈ keysAfter (completePks initial) state.lastPk := List.mem_of_mem_take hpk
    have hnot : pk ∉ written := by
      intro hw
      have hchanged : pk ∈ changedPks options initial done := by
        rw [h.changed]
        exact List.mem_append_left _ hw
      have hnodup := hsplit ▸ nodup_completePks initial
      exact (List.nodup_append.mp hnodup).2.2 pk (List.mem_filter.mp hchanged).1 pk hafter rfl
    exact ⟨by rw [h.table, if_neg hnot], mem_completePks.mp (mem_keysAfter.mp hafter).1⟩
  rw [Denn.readPage, h.keys]
  constructor
  · generalize pageAfter (completePks initial) state.lastPk options.batchSize = pks at hget
    induction pks with
    | nil => rfl
    | cons pk pks ih =>
      obtain ⟨⟨htable, row, hrow, -⟩, hrest⟩ := List.forall_mem_cons.mp hget
      rw [List.filterMap_cons_some (by rw [htable, hrow]; rfl), List.map_cons, ih hrest]
  · intro entry hentry
    obtain ⟨pk, hpk, hmap⟩ := List.mem_filterMap.mp hentry
    obtain ⟨htable, row, hrow, hstatus⟩ := hget pk hpk
    rw [htable, hrow, Option.map_some, Option.some.injEq] at hmap
    subst hmap
    exact ⟨hrow, hstatus⟩

/-- The loop from a state in which the keys `done` are behind it. -/
theorem recomposeLoop_cases (options : RecomposeOptions) {initial : Table ℕ JudgmentRow}
    (fuel : ℕ) {done written : List ℕ} {state : RecomposeState}
    (h : Recomposing options initial done written state)
    (hsplit : done ++ keysAfter (completePks initial) state.lastPk = completePks initial)
    (hfuel : (keysAfter (completePks initial) state.lastPk).length < fuel) :
    ((∃ pk ∈ keysAfter (completePks initial) state.lastPk, Raises options initial pk) ∧
      ∃ abort, recomposeLoop options fuel state = .error abort) ∨
    ((∀ pk ∈ keysAfter (completePks initial) state.lastPk, ¬ Raises options initial pk) ∧
      ∃ final written', recomposeLoop options fuel state = .ok (some final) ∧
        Recomposing options initial (completePks initial) written' final) := by
  induction fuel generalizing done written state with
  | zero => omega
  | succ fuel ih =>
    obtain ⟨hpks, hrows⟩ := h.readPage hsplit
    obtain ⟨rest, hrest⟩ : ∃ rest, keysAfter (completePks initial) state.lastPk
        = pageAfter (completePks initial) state.lastPk options.batchSize ++ rest :=
      ⟨_, (List.take_append_drop ..).symm⟩
    rw [recomposeLoop]
    dsimp only
    by_cases hempty : readPage options state = []
    · have hnone : keysAfter (completePks initial) state.lastPk = [] := by
        rw [hempty, pageAfter] at hpks
        have hsize := options.batchSize_pos
        simpa [hsize.ne'] using hpks.symm
      rw [hnone, List.append_nil] at hsplit
      refine .inr ⟨by simp [hnone], state, written, by simp [hempty], hsplit ▸ h⟩
    · have hnext := keysAfter_of_append (sorted_completePks initial) hrest
      rw [← hpks] at hrest hnext
      have hsplit' : (done ++ (readPage options state).map Prod.fst) ++ rest
          = completePks initial := by rw [List.append_assoc, ← hrest, hsplit]
      have hlength : rest.length < fuel := by
        have hpos : 0 < (readPage options state).length := List.length_pos_iff.mpr hempty
        rw [hrest, List.length_append, List.length_map] at hfuel
        omega
      have hstart : Recomposing options initial done written { state with
          lastPk := ((readPage options state).map Prod.fst).getLastD state.lastPk } :=
        { h with }
      simp only [List.isEmpty_iff, hempty, if_false]
      rcases foldlM_examineRow_cases _ hrows hstart with
        ⟨⟨pk, hpk, hraises⟩, abort, habort⟩ | ⟨hfine, state', hstate', hlast, hpage⟩
      · refine .inl ⟨⟨pk, by rw [hrest]; exact List.mem_append_left _ hpk, hraises⟩, abort, ?_⟩
        rw [habort]
        rfl
      · rw [hstate', ok_bind]
        have hnodup : (done ++ (readPage options state).map Prod.fst).Nodup :=
          (nodup_completePks initial).sublist (hsplit' ▸ List.sublist_append_left ..)
        obtain ⟨written', hflush, hlast'⟩ := hpage.flushIf hnodup
          (p := options.apply && options.batchSize ≤ state'.pending.length)
          (by simp only [Bool.and_eq_true]; exact And.left)
        have hafter : keysAfter (completePks initial) (if options.apply &&
            options.batchSize ≤ state'.pending.length then Denn.flush state' else state').lastPk
            = rest := by rw [hlast', hlast, hnext]
        rcases ih hflush (by rw [hafter, hsplit']) (by rwa [hafter]) with
          ⟨⟨pk, hpk, hraises⟩, habort⟩ | ⟨hfine', hfinal⟩
        · rw [hafter] at hpk
          exact .inl ⟨⟨pk, hrest ▸ List.mem_append_right _ hpk, hraises⟩, habort⟩
        · rw [hafter] at hfine'
          refine .inr ⟨fun pk hpk => ?_, hfinal⟩
          rw [hrest] at hpk
          exact (List.mem_append.mp hpk).elim (hfine pk) (hfine' pk)

/-- A run is aborted if a selected row makes the composer raise. Otherwise it writes the changed
    rows, or none at all. -/
theorem recompose_cases (options : RecomposeOptions) (rows : JudgmentRows) :
    ((∃ pk, Raises options rows.table pk) ∧
      ∃ abort, recompose options rows.table = .error abort) ∨
    ((∀ pk, ¬ Raises options rows.table pk) ∧
      ∃ final, recompose options rows.table = .ok (some final) ∧
        Recomposing options rows.table (completePks rows.table)
          (if options.apply then changedPks options rows.table (completePks rows.table) else [])
          final) := by
  have hall : keysAfter (completePks rows.table) 0 = completePks rows.table := by
    apply List.filter_eq_self.mpr
    intro pk hpk
    obtain ⟨row, hrow, -⟩ := mem_completePks.mp hpk
    simpa using rows.pk_pos hrow
  have hraises : ∀ pk, Raises options rows.table pk → pk ∈ completePks rows.table := by
    rintro pk ⟨row, hrow, hselected⟩
    rw [Bool.and_eq_true] at hselected
    exact mem_completePks.mpr ⟨row, hrow, (isSelected_eq_true hselected.1).1⟩
  have hlength : (completePks rows.table).length ≤ rows.table.rows.length := by
    rw [completePks, List.length_insertionSort, Table.keysWhere, List.length_map]
    exact List.length_filter_le ..
  rcases recomposeLoop_cases options (rows.table.rows.length + 1)
    (Recomposing.start rows.table) (by simpa using hall) (by rw [hall]; omega) with
    ⟨⟨pk, -, hpk⟩, abort, habort⟩ | ⟨hfine, state, written, hstate, hdone⟩
  · refine .inl ⟨⟨pk, hpk⟩, abort, ?_⟩
    rw [recompose, habort]
    rfl
  · rw [hall] at hfine
    refine .inr ⟨fun pk hpk => hfine pk (hraises pk hpk) hpk,
      if options.apply && !state.pending.isEmpty then Denn.flush state else state, ?_, ?_⟩
    · rw [recompose, hstate]
      rfl
    · cases happly : options.apply with
      | false =>
        rw [(hdone.dry happly).2] at hdone
        simpa using hdone
      | true =>
        have hflush := hdone.flush (nodup_completePks _) happly
        rw [← hdone.changed] at hflush
        cases hpending : state.pending with
        | nil =>
          have hwritten := hdone.changed
          rw [hpending, List.map_nil, List.append_nil] at hwritten
          simpa [hwritten] using hdone
        | cons entry pending => simpa using hflush

/-! ### Agreement with the classifier -/

/-- Three valid probabilities on the right side of their cutoffs. -/
def AnswersSafely (thresholds : PolicyThresholds) (nouls : Json) : Prop :=
  ∃ safe explicit review : ℚ,
    validatedProbability (rawProbabilityOf (nouls.get "safe_for_automatic_discovery"))
      = some (some safe) ∧
    validatedProbability (rawProbabilityOf (nouls.get "explicit_or_sensitive"))
      = some (some explicit) ∧
    validatedProbability (rawProbabilityOf (nouls.get "needs_review")) = some (some review) ∧
    thresholds.safeMin ≤ safe ∧ explicit < thresholds.explicitAt ∧ review < thresholds.reviewAt

/-- The row stores what the classifier would store for its raw answers. -/
structure StoresClassified (options : RecomposeOptions) (row new : JudgmentRow) : Prop where
  outcome : ∃ outcome, classifyAnswers (row.payload.get "provider_explicit")
      (row.payload.get "raw_nouls") options.thresholds = .ok outcome ∧
    new.classification = outcome.classification ∧
    (new.payload.get "policy").equals outcome.policy = true ∧
    (new.payload.get "policy_thresholds").equals outcome.policyThresholds = true
  revision : new.policyRevision = options.revision
  safe : new.classification = Classification.safe.text →
    AnswersSafely options.thresholds (row.payload.get "raw_nouls")
  columns : new = { row with
    classification := new.classification, policyRevision := new.policyRevision
    payload := new.payload }
  entries : ∀ key, key ≠ "policy" → key ≠ "policy_thresholds" →
    new.payload.get key = row.payload.get key

/-- A selected row stores what the classifier would store; every other row is as it was. -/
def TableAgrees (options : RecomposeOptions) (table table' : Table ℕ JudgmentRow) : Prop :=
  ∀ pk, match table.get? pk with
    | none => table'.get? pk = none
    | some row => ∃ new, table'.get? pk = some new ∧
      if isSelected options row then StoresClassified options row new else new = row

/-- The keys of the complete rows, each once. -/
def ExaminesOnce (table : Table ℕ JudgmentRow) (examined : List ℕ) : Prop :=
  examined.Nodup ∧ ∀ pk, pk ∈ examined ↔ ∃ row, table.get? pk = some row ∧ row.status = .complete

/-- The run ends in a state. -/
def Completes (options : RecomposeOptions) (apply : Bool) (table : Table ℕ JudgmentRow)
    (final : RecomposeState) : Prop :=
  recompose { options with apply } table = .ok (some final)

/-- Recomposition of a table agrees with classification: an applied run makes the table agree and a
    dry run reports what it changes; an applied run over all rows leaves nothing to another one. -/
def RecomposesAsClassified (options : RecomposeOptions) (table : Table ℕ JudgmentRow) : Prop :=
  ∃ applied dry, Completes options true table applied ∧ Completes options false table dry ∧
    TableAgrees options table applied.table ∧ dry.table = table ∧
    ExaminesOnce table applied.examined ∧ ExaminesOnce table dry.examined ∧
    dry.toChange { options with apply := false }
      = applied.toChange { options with apply := true } ∧
    (options.all = true → ∃ again, Completes options true applied.table again ∧
      (∀ pk, again.table.get? pk = applied.table.get? pk) ∧
      again.toChange { options with apply := true } = 0)

theorem storesClassified_recomposed {row : JudgmentRow} (hselected : isSelected options row = true)
    (hfine : overflows row = false) :
    StoresClassified options row (recomposed options row) := by
  have hrow := recomposes_recomposed hselected
  obtain ⟨-, -, -, raw, hraw⟩ := isSelected_eq_true hselected
  obtain ⟨-, hsafe, hexplicit, hreview⟩ := rawProbabilities_eq_some hraw
  have hcompose := @composePolicyOf_eq options.thresholds row raw hraw
  rw [hfine, hsafe, hexplicit, hreview] at hcompose
  refine ⟨⟨⟨(mapDecision (policyOf options.thresholds row).decision).text,
    (policyOf options.thresholds row).payload, options.thresholds.payload⟩, ?_, ?_, hrow.policy,
    hrow.thresholds⟩, hrow.revision, fun h => ?_, hrow.columns, hrow.entries⟩
  · rw [classifyAnswers, hcompose]
    rfl
  · rw [hrow.classification, mapDecision_text]
  · have hdecision : (policyOf options.thresholds row).decision = .safeForAutomaticDiscovery := by
      rw [hrow.classification] at h
      cases hd : (policyOf options.thresholds row).decision <;> rw [hd] at h <;>
        simp [Decision.text, Classification.text] at h ⊢
    exact composePolicy_safe hdecision

lemma isChanged_eq_true {row : JudgmentRow} (h : isChanged options row = true) :
    isSelected options row = true := by
  rw [isChanged, Bool.and_eq_true] at h
  exact h.1

/-- After an applied run every row is what the run makes of it. -/
theorem Recomposing.get?_table {initial : Table ℕ JudgmentRow} {state : RecomposeState}
    (h : Recomposing options initial (completePks initial)
      (changedPks options initial (completePks initial)) state) (pk : ℕ) :
    state.table.get? pk = (initial.get? pk).map (recomposed options) := by
  rw [h.table]
  split_ifs with hchanged
  · rfl
  · cases hrow : initial.get? pk with
    | none => rfl
    | some row =>
      have hsame : isChanged options row = false := by
        by_contra hne
        rw [Bool.not_eq_false] at hne
        refine hchanged (List.mem_filter.mpr ⟨mem_completePks.mpr ⟨row, hrow, ?_⟩, ?_⟩)
        · exact (isSelected_eq_true (isChanged_eq_true hne)).1
        · rw [hrow]
          exact hne
      rw [Option.map_some, recomposed_of_unchanged hsame]

lemma Recomposing.examinesOnce {initial : Table ℕ JudgmentRow} {written : List ℕ}
    {state : RecomposeState}
    (h : Recomposing options initial (completePks initial) written state) :
    ExaminesOnce initial state.examined := by
  rw [h.examined]
  exact ⟨nodup_completePks initial, fun pk => mem_completePks⟩

lemma tableAgrees_of_recomposed {table table' : Table ℕ JudgmentRow}
    (hfine : ∀ pk, ¬ Raises options table pk)
    (h : ∀ pk, table'.get? pk = (table.get? pk).map (recomposed options)) :
    TableAgrees options table table' := by
  intro pk
  have hpk := h pk
  cases hrow : table.get? pk with
  | none => simpa [hrow] using hpk
  | some row =>
    rw [hrow, Option.map_some] at hpk
    refine ⟨_, hpk, ?_⟩
    split_ifs with hselected
    · apply storesClassified_recomposed hselected
      by_contra hraises
      rw [Bool.not_eq_false] at hraises
      exact hfine pk ⟨row, hrow, by rw [hselected, hraises]; rfl⟩
    · exact recomposed_of_not_selected (by simpa using hselected)

/-- Another applied run over all rows finds nothing to change. -/
theorem recompose_again (rows again : JudgmentRows) (happly : options.apply = true)
    (hall : options.all = true) (hfine : ∀ pk, ¬ Raises options rows.table pk)
    (h : ∀ pk, again.table.get? pk = (rows.table.get? pk).map (recomposed options)) :
    ∃ final, recompose options again.table = .ok (some final) ∧
      (∀ pk, final.table.get? pk = again.table.get? pk) ∧ final.toChange options = 0 := by
  have hrow : ∀ {pk row}, again.table.get? pk = some row →
      ∃ old, rows.table.get? pk = some old ∧ recomposed options old = row := by
    intro pk row hget
    rw [h] at hget
    exact Option.map_eq_some_iff.mp hget
  have hnothing : changedPks options again.table (completePks again.table) = [] := by
    apply List.filter_eq_nil_iff.mpr
    intro pk hpk
    obtain ⟨row, hget, -⟩ := mem_completePks.mp hpk
    obtain ⟨old, -, rfl⟩ := hrow hget
    simp [hget, isChanged_recomposed hall]
  rcases recompose_cases options again with ⟨⟨pk, row, hget, hraises⟩, -⟩ | ⟨-, final, hfinal, hdone⟩
  · obtain ⟨old, hold, rfl⟩ := hrow hget
    rw [isSelected_recomposed hall, overflows_recomposed] at hraises
    exact absurd ⟨old, hold, hraises⟩ (hfine pk)
  · rw [if_pos happly, hnothing] at hdone
    refine ⟨final, hfinal, fun pk => by simpa using hdone.table pk, ?_⟩
    simp [RecomposeState.toChange, happly, hdone.updated]

/-- Recomposition agrees with classification exactly if no selected judgment has raw answers that
    make the composer raise. -/
theorem recomposesAsClassified_iff (options : RecomposeOptions) (rows : JudgmentRows) :
    RecomposesAsClassified options rows.table ↔
      ∀ pk row, rows.table.get? pk = some row → isSelected options row = true →
        overflows row = false := by
  rcases recompose_cases { options with apply := true } rows with
    ⟨⟨pk, row, hrow, hraises⟩, abort, habort⟩ | ⟨hfine, applied, happlied, hdone⟩
  · rw [Bool.and_eq_true] at hraises
    constructor
    · rintro ⟨applied, -, happlied, -⟩
      rw [Completes, habort] at happlied
      cases happlied
    · intro h
      exact absurd ((h pk row hrow hraises.1).symm.trans hraises.2) Bool.false_ne_true
  · have hfine' : ∀ pk row, rows.table.get? pk = some row → isSelected options row = true →
        overflows row = false := by
      intro pk row hrow hselected
      by_contra hraises
      rw [Bool.not_eq_false] at hraises
      refine hfine pk ⟨row, hrow, ?_⟩
      rw [Bool.and_eq_true]
      exact ⟨hselected, hraises⟩
    refine iff_of_true ?_ hfine'
    rcases recompose_cases { options with apply := false } rows with
      ⟨⟨pk, hraises⟩, -⟩ | ⟨-, dry, hdry, hdryDone⟩
    · exact absurd hraises (hfine pk)
    have htable := hdone.get?_table
    refine ⟨applied, dry, happlied, hdry, tableAgrees_of_recomposed hfine htable,
      (hdryDone.dry rfl).1, hdone.examinesOnce, hdryDone.examinesOnce, ?_, fun hall => ?_⟩
    · have hcount : dry.counts.selected = dry.counts.unchanged + applied.counts.updated :=
        hdone.updated ▸ hdryDone.counts
      simp [RecomposeState.toChange, hcount]
    · have hpos : ∀ {pk row}, applied.table.get? pk = some row → 0 < pk := by
        intro pk row hget
        rw [htable] at hget
        obtain ⟨old, hold, -⟩ := Option.map_eq_some_iff.mp hget
        exact rows.pk_pos hold
      exact recompose_again rows ⟨applied.table, hpos⟩ rfl hall hfine htable

/-- A judgment whose first raw answer is an integer beyond every float. -/
def overflowingRow : JudgmentRow where
  contentItem := 1
  sourceDataHash := "h"
  modelName := "jev-1.13.0"
  questionRevision := "q4"
  policyRevision := "p1"
  status := .complete
  classification := "needs_review"
  payload := .obj [("raw_nouls", .obj [("safe_for_automatic_discovery", .int (10 ^ 400)),
    ("explicit_or_sensitive", .float (1 / 5)), ("needs_review", .float (1 / 10))]),
    ("provider_explicit", .null)]
  errorCode := ""
  requestedAt := 0
  completedAt := some 0

/-- One such row aborts the run, so that the row keeps its old policy. -/
theorem recompose_aborts_on_overflow :
    ¬ RecomposesAsClassified { apply := true, revision := "p2" }
      (Table.empty.set 1 overflowingRow) := by
  let rows : JudgmentRows :=
    { table := Table.empty.set 1 overflowingRow
      pk_pos := fun {pk row} h => by
        rcases Table.get?_set_cases h with ⟨rfl, -⟩ | hold
        · exact Nat.one_pos
        · simp at hold }
  have hraises : Raises { apply := true, revision := "p2" } rows.table 1 := by
    refine ⟨overflowingRow, Table.get?_set_self .., ?_⟩
    decide +kernel
  rcases recompose_cases { apply := true, revision := "p2" } rows with
    ⟨-, abort, habort⟩ | ⟨hfine, -⟩
  · rintro ⟨applied, -, happlied, -⟩
    rw [Completes, habort] at happlied
    cases happlied
  · exact absurd hraises (hfine 1)

end Denn
