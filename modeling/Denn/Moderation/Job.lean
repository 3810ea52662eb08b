import Denn.Content.Item
import Denn.Core.Table
import Denn.Moderation.Policy

/-!
# Moderation rows

The durable outbox of moderation work and the judgments it produces. A job is known by the item,
the hash of its normalized text, the requested model and the question revision; a judgment by the
item, the hash, the resolved model and the revision.
-/

namespace Denn

open Core

abbrev SourceHash := String

/-- A `uuid4` lease token. -/
abbrev Token := ℕ

abbrev WorkerId := ℕ

inductive JobStatus where
  | queued
  | leased
  | retry
  | done
  | superseded
  | failed
  | outcomeUnknown
  deriving DecidableEq, Repr

/-- The statuses in which a worker finishes a job. -/
inductive FinalStatus where
  | done
  | superseded
  | failed
  | outcomeUnknown
  deriving DecidableEq, Repr

def FinalStatus.toJobStatus : FinalStatus → JobStatus
  | .done => .done
  | .superseded => .superseded
  | .failed => .failed
  | .outcomeUnknown => .outcomeUnknown

/-- The columns of `unique_moderation_job_identity`. -/
structure JobIdentity where
  contentItem : ItemId
  sourceDataHash : SourceHash
  requestedModel : String
  questionRevision : String
  deriving DecidableEq, Repr

/-- A `content_moderation_job` row; its identity is the key it is stored under. -/
structure Job where
  id : ℕ
  status : JobStatus := .queued
  attempts : ℕ := 0
  availableAt : Time
  leaseToken : Option Token := none
  leaseUntil : Option Time := none
  lastErrorCode : String := ""
  completedAt : Option Time := none
  deriving DecidableEq, Repr

/-- The job table. `nextId` is the primary key the next row will get. -/
structure JobTable where
  rows : Table JobIdentity Job
  nextId : ℕ

inductive JudgmentStatus where
  | pending
  | complete
  | error
  | stale
  deriving DecidableEq, Repr

inductive Classification where
  | safe
  | explicit
  | needsReview
  | unknown
  deriving DecidableEq, Repr

/-- The columns of `unique_moderation_judgment_identity`. -/
structure JudgmentIdentity where
  contentItem : ItemId
  sourceDataHash : SourceHash
  modelName : String
  questionRevision : String
  deriving DecidableEq, Repr

/-- A `content_moderation_judgment` row. `requestedModel` is the entry of that name in its
    payload. -/
structure Judgment where
  id : ℕ
  status : JudgmentStatus
  classification : Classification
  requestedModel : String
  requestedAt : Time
  completedAt : Option Time
  deriving DecidableEq, Repr

structure JudgmentTable where
  rows : Table JudgmentIdentity Judgment
  nextId : ℕ

structure ModerationSettings where
  classificationEnabled : Bool
  moderationModel : String
  questionRevision : String
  deriving DecidableEq, Repr

/-- The job identity of an item's text under the current settings. -/
def ModerationSettings.identity (settings : ModerationSettings) (item : ItemId)
    (sourceHash : SourceHash) : JobIdentity where
  contentItem := item
  sourceDataHash := sourceHash
  requestedModel := settings.moderationModel
  questionRevision := settings.questionRevision

def providerRuleModel : String := "provider-rule:v2"

def providerRuleModels : List String := ["provider-rule:v1", providerRuleModel]

/-- `_matches_requested_model`: judged by the requested model, for it, or by a provider rule. -/
def matchesRequestedModel (requestedModel : String) (key : JudgmentIdentity) (row : Judgment) :
    Bool :=
  key.modelName = requestedModel || row.requestedModel = requestedModel
    || key.modelName ∈ providerRuleModels

/-- A complete judgment answers for the identity, `has_current_success`. -/
def hasCurrentSuccess (judgments : Table JudgmentIdentity Judgment) (job : JobIdentity) : Bool :=
  judgments.any fun key row =>
    key.contentItem = job.contentItem && key.sourceDataHash = job.sourceDataHash
      && key.questionRevision = job.questionRevision && row.status = .complete
      && matchesRequestedModel job.requestedModel key row

end Denn
