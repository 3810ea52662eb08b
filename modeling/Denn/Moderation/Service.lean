import Denn.Core.Text
import Denn.Moderation.Job

/-!
# Classifying one item

The classifier reads the normalized detail of an item, short-circuits on a provider override,
reuses a judgment of the requested model, and otherwise makes one remote call whose answers it
turns into a judgment. A remote call takes time, so the classifier is two functions: what happens
up to the call, and what happens with its answer.
-/

namespace Denn

open Core

/-- Why a detail has no source hash: the state builder refuses it, or it fails in another way. -/
inductive StateFailure where
  | stateUnavailable
  | other
  deriving DecidableEq, Repr

/-- What moderation reads from a normalized detail, a main row `μ` and its child rows `χ`: the hash
    of its text, whether the provider marks it as explicit, and whether it is complete. -/
structure DetailSemantics (μ χ : Type) where
  sourceHash : μ → χ → Except StateFailure SourceHash
  providerExplicit : μ → Bool
  detailIsComplete : μ → χ → Bool
  sourceHash_ne_empty : ∀ {main children hash}, sourceHash main children = .ok hash → hash ≠ ""

/-- `current_moderation_source_hash`, and `None` where it raises. -/
def DetailSemantics.currentHash {μ χ : Type} (semantics : DetailSemantics μ χ) (main : μ)
    (children : χ) : Option SourceHash :=
  (semantics.sourceHash main children).toOption

lemma DetailSemantics.currentHash_ne_empty {μ χ : Type} (semantics : DetailSemantics μ χ) {main : μ}
    {children : χ} {hash : SourceHash} (h : semantics.currentHash main children = some hash) :
    hash ≠ "" := by
  unfold currentHash at h
  cases hsource : semantics.sourceHash main children with
  | error failure => simp [hsource, Except.toOption] at h
  | ok hash' =>
    rw [hsource] at h
    cases h
    exact semantics.sourceHash_ne_empty hsource

inductive ClassifierOutcome where
  | judgment (key : JudgmentIdentity) (row : Judgment)
  | skipped (code : String)
  | unavailable (code : String)
  deriving DecidableEq, Repr

/-- How the remote call ends: an unexpected exception, a typed failure, or an answer with the
    resolved model (`none` if it is not a string) and three probabilities. -/
inductive RemoteAnswer where
  | raised
  | unavailable (code : String)
  | answered (model : Option String) (safe explicit review : RawProbability)
  deriving DecidableEq, Repr

/-- The classifier before the remote call. -/
inductive ClassifierStart where
  | returned (outcome : ClassifierOutcome) (judgments : JudgmentTable)
  | raised
  | called (sourceHash : SourceHash)

def knownAliases : List String := ["jev-latest"]

def mapDecision : Decision → Classification
  | .safeForAutomaticDiscovery => .safe
  | .explicitOrSensitive => .explicit
  | .needsReview => .needsReview
  | .unknown => .unknown

/-- A new judgment row, complete from the start. -/
def JudgmentTable.insert (now : Time) (key : JudgmentIdentity) (classification : Classification)
    (requestedModel : String) (judgments : JudgmentTable) : Judgment × JudgmentTable :=
  let row : Judgment :=
    { id := judgments.nextId, status := .complete, classification, requestedModel,
      requestedAt := now, completedAt := some now }
  (row, { rows := judgments.rows.set key row, nextId := judgments.nextId + 1 })

/-- A judgment row for an identity; one that exists is returned as it is. -/
def getOrCreateJudgment (now : Time) (key : JudgmentIdentity) (classification : Classification)
    (requestedModel : String) (judgments : JudgmentTable) : Judgment × JudgmentTable :=
  match judgments.rows.get? key with
  | some row => (row, judgments)
  | none => judgments.insert now key classification requestedModel

variable {μ χ : Type} (semantics : DetailSemantics μ χ) (settings : ModerationSettings)

/-- `classify_content_item` up to its remote call. -/
def beginClassification (now : Time) (item : ItemId) (detail : Option (μ × χ)) (model : String)
    (judgments : JudgmentTable) : ClassifierStart :=
  if !settings.classificationEnabled then
    .returned (.skipped "moderation_disabled") judgments
  else
    match detail with
    | none => .returned (.skipped "state_unavailable") judgments
    | some (main, children) =>
      match semantics.sourceHash main children with
      | .error .stateUnavailable => .returned (.skipped "state_unavailable") judgments
      | .error .other => .raised
      | .ok hash =>
        let requestedModel := if model = "" then settings.moderationModel else model
        let key (modelName : String) : JudgmentIdentity :=
          ⟨item, hash, modelName, settings.questionRevision⟩
        if semantics.providerExplicit main then
          let (row, judgments) :=
            getOrCreateJudgment now (key providerRuleModel) .explicit requestedModel judgments
          .returned (.judgment (key providerRuleModel) row) judgments
        else
          let existing :=
            if requestedModel ∈ knownAliases then none
            else (judgments.rows.get? (key requestedModel)).filter (·.status = .complete)
          match existing with
          | some row => .returned (.judgment (key requestedModel) row) judgments
          | none => .called hash

/-- `classify_content_item` from the answer of its remote call on; `none` if it raises. -/
def endClassification (thresholds : PolicyThresholds) (now : Time) (item : ItemId)
    (hash : SourceHash) (model : String) (answer : RemoteAnswer) (judgments : JudgmentTable) :
    Option (ClassifierOutcome × JudgmentTable) :=
  match answer with
  | .raised => none
  | .unavailable code => some (.unavailable code, judgments)
  | .answered resolved safe explicit review =>
    let resolvedModel := strip (resolved.getD "")
    if resolvedModel = "" then some (.unavailable "typesafe_response_invalid", judgments)
    else
      let requestedModel := if model = "" then settings.moderationModel else model
      let result := composePolicy .none safe explicit review thresholds
      let key : JudgmentIdentity := ⟨item, hash, resolvedModel, settings.questionRevision⟩
      let (row, judgments) :=
        getOrCreateJudgment now key (mapDecision result.decision) requestedModel judgments
      some (.judgment key row, judgments)

end Denn
