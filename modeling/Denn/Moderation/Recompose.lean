import Denn.Core.Json
import Denn.Core.Paging
import Denn.Moderation.Service
import Mathlib.Tactic.Linarith

/-!
# Recomposing stored judgments

`recompose_moderation_policy` reads the raw probabilities of complete judgments and composes the
policy again. Rows are read page by page in ascending key; what has changed is collected and
written when a batch is full, and once more at the end.
-/

namespace Denn

open Core

/-! ### Stored probabilities -/

/-- A stored value as the composer receives it. -/
def rawProbabilityOf : Json → RawProbability
  | .null => .absent
  | .int n => .number n
  | .float q => .number q
  | _ => .malformed

def providerFlagOf : Json → ProviderFlag
  | .bool true => .explicit
  | .bool false => .notExplicit
  | .null => .none
  | _ => .corrupt

/-- `float(value)` raises `OverflowError`: an integer that rounds beyond the largest float. -/
def overflowsFloat : Json → Bool
  | .int n => 2 ^ 1024 - 2 ^ 970 ≤ n.natAbs
  | _ => false

/-- The first of the values that `_validated_probability` refuses is refused by an
    `OverflowError`, which is no `ValueError`. -/
def overflowsFirst : List Json → Bool
  | [] => false
  | value :: values =>
    overflowsFloat value
      || ((validatedProbability (rawProbabilityOf value)).isSome && overflowsFirst values)

structure OverflowError where
  deriving DecidableEq

/-- `compose_policy` of stored values. -/
def composePolicyOf (providerExplicit safe explicit review : Json)
    (thresholds : PolicyThresholds) : Except OverflowError PolicyResult :=
  let flag := providerFlagOf providerExplicit
  if (flag = .notExplicit || flag = .none) && overflowsFirst [safe, explicit, review] then
    .error {}
  else
    .ok (composePolicy flag (rawProbabilityOf safe) (rawProbabilityOf explicit)
      (rawProbabilityOf review) thresholds)

def Decision.text : Decision → String
  | .safeForAutomaticDiscovery => "safe_for_automatic_discovery"
  | .explicitOrSensitive => "explicit_or_sensitive"
  | .needsReview => "needs_review"
  | .unknown => "unknown"

/-- The value of a classification in its column. -/
def Classification.text : Classification → String
  | .safe => "safe_for_automatic_discovery"
  | .explicit => "explicit_or_sensitive"
  | .needsReview => "needs_review"
  | .unknown => "unknown"

def PolicyResult.payload (result : PolicyResult) : Json :=
  .obj [("decision", .str result.decision.text), ("reason", .str result.reason)]

def PolicyThresholds.payload (thresholds : PolicyThresholds) : Json :=
  .obj [("safe_min", .float thresholds.safeMin), ("explicit_at", .float thresholds.explicitAt),
    ("review_at", .float thresholds.reviewAt)]

/-- What `classify_content_item` stores of the policy. -/
structure PolicyOutcome where
  classification : String
  policy : Json
  policyThresholds : Json

/-- `classify_content_item` on the answers of its remote call. -/
def classifyAnswers (providerExplicit nouls : Json) (thresholds : PolicyThresholds) :
    Except OverflowError PolicyOutcome :=
  (composePolicyOf providerExplicit (nouls.get "safe_for_automatic_discovery")
    (nouls.get "explicit_or_sensitive") (nouls.get "needs_review") thresholds).map fun result =>
      ⟨(mapDecision result.decision).text, result.payload, thresholds.payload⟩

/-! ### The command -/

/-- A `content_moderation_judgment` row with all its columns. -/
structure JudgmentRow where
  contentItem : ItemId
  sourceDataHash : SourceHash
  modelName : String
  questionRevision : String
  policyRevision : String
  status : JudgmentStatus
  classification : String
  payload : Json
  errorCode : String
  requestedAt : Time
  completedAt : Option Time

/-- The rows under their primary keys, which start at one. -/
structure JudgmentRows where
  table : Table ℕ JudgmentRow
  pk_pos : ∀ {pk row}, table.get? pk = some row → 0 < pk

def maxListedIds : ℕ := 20

/-- A value that is `None`, or a number and no boolean. -/
def isRawProbability : Json → Bool
  | .null | .int _ | .float _ => true
  | _ => false

/-- `_raw_probabilities`; a payload that is no object has no `raw_nouls`. -/
def rawProbabilities (payload : Json) : Option (Json × Json × Json) :=
  match payload.get "raw_nouls" with
  | .obj nouls =>
    match nouls.lookup "safe_for_automatic_discovery", nouls.lookup "explicit_or_sensitive",
        nouls.lookup "needs_review" with
    | some safe, some explicit, some review =>
      if [safe, explicit, review].all isRawProbability then some (safe, explicit, review) else none
    | _, _, _ => none
  | _ => none

/-- The options of the command, with the current policy. -/
structure RecomposeOptions where
  apply : Bool
  all : Bool := false
  batchSize : ℕ := 500
  batchSize_pos : 0 < batchSize := by decide
  revision : String
  thresholds : PolicyThresholds := {}

structure RecomposeCounts where
  examined : ℕ := 0
  skippedProviderRule : ℕ := 0
  skippedCurrentRevision : ℕ := 0
  skippedMalformedRawNouls : ℕ := 0
  selected : ℕ := 0
  unchanged : ℕ := 0
  updated : ℕ := 0
  deriving DecidableEq, Repr

/-- The state of a run. `examined` is kept for the statements only: the keys of the rows that the
    loop has gone through. -/
structure RecomposeState where
  table : Table ℕ JudgmentRow
  counts : RecomposeCounts := {}
  transitions : Table (String × String) ℕ := Table.empty
  malformedIds : List ℕ := []
  pending : List (ℕ × JudgmentRow) := []
  lastPk : ℕ := 0
  examined : List ℕ := []

/-- The rows that a run has written before it was aborted. -/
structure RecomposeAbort where
  table : Table ℕ JudgmentRow

variable (options : RecomposeOptions)

/-- `_recompose` with a composed policy: the row in memory, and whether anything differs. -/
def recomposeRow (row : JudgmentRow) (result : PolicyResult) : JudgmentRow × Bool :=
  let newClassification := (mapDecision result.decision).text
  let changed := row.classification ≠ newClassification || row.policyRevision ≠ options.revision
    || !(row.payload.get "policy").equals result.payload
    || !(row.payload.get "policy_thresholds").equals options.thresholds.payload
  if changed then
    ({ row with
      payload := (row.payload.set "policy" result.payload).set "policy_thresholds"
        options.thresholds.payload
      classification := newClassification
      policyRevision := options.revision }, true)
  else (row, false)

/-- A selected row: `_recompose`, and the row is pending if anything differs. -/
def examineSelected (state : RecomposeState) (pk : ℕ) (row : JudgmentRow)
    (probabilities : Json × Json × Json) : Except RecomposeAbort RecomposeState :=
  let (safe, explicit, review) := probabilities
  match composePolicyOf (row.payload.get "provider_explicit") safe explicit review
      options.thresholds with
  | .error _ => .error ⟨state.table⟩
  | .ok result =>
    let transition := (row.classification, (mapDecision result.decision).text)
    let (new, changed) := recomposeRow options row result
    .ok { state with
      counts.selected := state.counts.selected + 1
      counts.unchanged := state.counts.unchanged + if changed then 0 else 1
      transitions := state.transitions.set transition
        ((state.transitions.get? transition).getD 0 + 1)
      pending := if changed then state.pending ++ [(pk, new)] else state.pending }

/-- The body of the loop over the rows of a page. -/
def examineRow (state : RecomposeState) (entry : ℕ × JudgmentRow) :
    Except RecomposeAbort RecomposeState :=
  let (pk, row) := entry
  let state := { state with
    counts.examined := state.counts.examined + 1, examined := state.examined ++ [pk] }
  if row.modelName ∈ providerRuleModels then
    .ok { state with counts.skippedProviderRule := state.counts.skippedProviderRule + 1 }
  else if !options.all && row.policyRevision = options.revision then
    .ok { state with counts.skippedCurrentRevision := state.counts.skippedCurrentRevision + 1 }
  else
    match rawProbabilities row.payload with
    | none =>
      .ok { state with
        counts.skippedMalformedRawNouls := state.counts.skippedMalformedRawNouls + 1
        malformedIds := if state.malformedIds.length < maxListedIds then
          state.malformedIds ++ [pk] else state.malformedIds }
    | some probabilities => examineSelected options state pk row probabilities

/-- `bulk_update` of the three columns. -/
def bulkUpdate (table : Table ℕ JudgmentRow) (rows : List (ℕ × JudgmentRow)) :
    Table ℕ JudgmentRow :=
  table.updateWhere (fun pk _ => (rows.lookup pk).isSome) fun pk row =>
    let new := (rows.lookup pk).getD row
    { row with
      classification := new.classification, policyRevision := new.policyRevision
      payload := new.payload }

/-- `_flush` of what is pending. -/
def flush (state : RecomposeState) : RecomposeState :=
  { state with
    table := bulkUpdate state.table state.pending
    counts.updated := state.counts.updated + state.pending.length
    pending := [] }

/-- The keys of the complete judgments, in ascending order. -/
def completePks (table : Table ℕ JudgmentRow) : List ℕ :=
  (table.keysWhere fun _ row => row.status = .complete).insertionSort (· ≤ ·)

/-- `queryset.filter(pk__gt=last_pk)[:batch_size]`. -/
def readPage (state : RecomposeState) : List (ℕ × JudgmentRow) :=
  (pageAfter (completePks state.table) state.lastPk options.batchSize).filterMap fun pk =>
    (state.table.get? pk).map (pk, ·)

/-- The loop over the pages, for at most `fuel` pages; `none` if they do not suffice. -/
def recomposeLoop : ℕ → RecomposeState → Except RecomposeAbort (Option RecomposeState)
  | 0, _ => .ok none
  | fuel + 1, state =>
    let rows := readPage options state
    if rows.isEmpty then .ok (some state)
    else do
      let lastPk := (rows.map Prod.fst).getLastD state.lastPk
      let state ← rows.foldlM (examineRow options) { state with lastPk }
      recomposeLoop fuel
        (if options.apply && options.batchSize ≤ state.pending.length then flush state else state)

/-- `handle` up to its report. No page is empty but the last, so that there is fuel enough. -/
def recompose (table : Table ℕ JudgmentRow) : Except RecomposeAbort (Option RecomposeState) := do
  let final ← recomposeLoop options (table.rows.length + 1) { table }
  return final.map fun state =>
    if options.apply && !state.pending.isEmpty then flush state else state

/-- `counts["to_change"]` of a report. -/
def RecomposeState.toChange (state : RecomposeState) : ℕ :=
  if options.apply then state.counts.updated else state.counts.selected - state.counts.unchanged

end Denn
