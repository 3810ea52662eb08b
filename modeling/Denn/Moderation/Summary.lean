import Denn.Content.State
import Denn.Moderation.Judging

/-!
# Moderation summaries

The public view of an item's moderation: its latest judgment, as long as that is a judgment of the
text that the reader has.
-/

namespace Denn

open Core

inductive SummaryStatus where
  | missing
  | pending
  | complete
  | error
  | stale
  deriving DecidableEq, Repr

inductive PublicClassification where
  | safe
  | explicit
  | needsReview
  deriving DecidableEq, Repr

structure ModerationSummary where
  status : SummaryStatus
  classification : Option PublicClassification
  deriving DecidableEq, Repr

def JudgmentStatus.toSummary : JudgmentStatus → SummaryStatus
  | pending => .pending
  | complete => .complete
  | error => .error
  | stale => .stale

/-- `_PUBLIC_CLASSIFICATIONS`; an unknown classification is shown as none. -/
def Classification.toPublic : Classification → Option PublicClassification
  | safe => some .safe
  | explicit => some .explicit
  | needsReview => some .needsReview
  | unknown => none

def Judgment.orderKey (row : Judgment) : Time ×ₗ ℕ := toLex (row.requestedAt, row.id)

/-- `_latest_judgment`: by `-requested_at`, then `-pk`. -/
def latestJudgment (item : ItemId) (judgments : Table JudgmentIdentity Judgment) :
    Option (JudgmentIdentity × Judgment) :=
  judgments.latest (fun key _ => key.contentItem = item) Judgment.orderKey

/-- The summary of a latest judgment for a reader of the text with the given hash; a text without a
    hash is as good as another one. -/
def summarize (latest : Option (JudgmentIdentity × Judgment)) (readHash : Option SourceHash) :
    ModerationSummary :=
  match latest with
  | none => ⟨.missing, none⟩
  | some (key, row) =>
    if row.status ≠ .complete then ⟨row.status.toSummary, none⟩
    else if readHash ≠ some key.sourceDataHash then ⟨.stale, none⟩
    else ⟨.complete, row.classification.toPublic⟩

/-- The hash of the text that a summary is for: of the source data of the response if the caller has
    them, of the persisted detail otherwise. -/
def readHash (sourceApi : SourceAPI) (contentType : ContentType)
    (currentModerationSourceHash : Option SourceHash) (sourceData : Option Json) :
    Option SourceHash :=
  match sourceData with
  | none => currentModerationSourceHash
  | some payload =>
    ((buildModerationState sourceApi contentType payload).map hashModerationState).toOption

/-- `moderation_summary`. -/
def moderationSummary (sourceApi : SourceAPI) (contentType : ContentType)
    (currentModerationSourceHash : Option SourceHash)
    (latest : Option (JudgmentIdentity × Judgment)) (sourceData : Option Json) :
    ModerationSummary :=
  summarize latest (readHash sourceApi contentType currentModerationSourceHash sourceData)

lemma summarize_of_current {key : JudgmentIdentity} {row : Judgment}
    (hstatus : row.status = .complete) :
    summarize (some (key, row)) (some key.sourceDataHash)
      = ⟨.complete, row.classification.toPublic⟩ := by
  simp [summarize, hstatus]

/-- A summary that is complete and safe is that of a safe judgment of the text that is read. -/
lemma summarize_eq_safe {latest : Option (JudgmentIdentity × Judgment)}
    {readHash : Option SourceHash} (h : summarize latest readHash = ⟨.complete, some .safe⟩) :
    ∃ key row, latest = some (key, row) ∧ readHash = some key.sourceDataHash ∧
      row.classification = .safe := by
  unfold summarize at h
  cases latest with
  | none => cases h
  | some judgment =>
    obtain ⟨key, row⟩ := judgment
    simp only at h
    by_cases hstatus : row.status = .complete
    · by_cases hread : readHash = some key.sourceDataHash
      · refine ⟨key, row, rfl, hread, ?_⟩
        simp only [hstatus, hread, ne_eq, not_true_eq_false, if_false] at h
        cases hclass : row.classification with
        | safe => rfl
        | explicit | needsReview | unknown => simp [hclass, Classification.toPublic] at h
      · simp [hstatus, hread] at h
    · simp [hstatus] at h

namespace ModerationState

variable {μ χ : Type} {config : ModerationConfig μ χ} {s : ModerationState μ χ}

/-- The summary of an item without source data. -/
def summary (s : ModerationState μ χ) (item : ItemId) : ModerationSummary :=
  summarize (latestJudgment item s.judgments.rows) (s.currentHash item)

/-- A row that is at least as new as every row of its item is the latest one. -/
lemma JudgmentInvariant.latestJudgment_eq (h : JudgmentInvariant config s)
    {key : JudgmentIdentity} {row : Judgment} (hrow : s.judgments.rows.get? key = some row)
    (hnewest : ∀ key' row', s.judgments.rows.get? key' = some row' →
      key'.contentItem = key.contentItem → row'.orderKey ≤ row.orderKey) :
    latestJudgment key.contentItem s.judgments.rows = some (key, row) := by
  have hexists : ∃ key' row', latestJudgment key.contentItem s.judgments.rows = some (key', row') :=
    Table.exists_latest hrow (by simp)
  obtain ⟨key', row', hlatest⟩ := hexists
  obtain ⟨hrow', hitem, hmax⟩ := Table.latest_spec hlatest
  have hsame : row'.orderKey = row.orderKey :=
    le_antisymm (hnewest key' row' hrow' (by simpa using hitem)) (hmax key row hrow (by simp))
  have hid : row'.id = row.id := congrArg (fun measure => (ofLex measure).2) hsame
  have hkey := h.distinct key' key row' row hrow' hrow hid
  subst hkey
  rw [hrow] at hrow'
  cases hrow'
  exact hlatest

end ModerationState

end Denn
