import Denn.Moderation.Detail
import Denn.Moderation.Summary

/-!
# Two notions of a current judgment

The enqueue looks for any judgment of the current text, the summary looks at the newest judgment of
the item. They agree as long as a text that is already judged comes back only while its judgment is
the newest one, and nothing is stored for another text while the current one is judged.
-/

namespace Denn

open Core

variable {μ χ : Type} {config : ModerationConfig μ χ} {s s' : ModerationState μ χ}

namespace ModerationState

/-- The enqueue skips the item, because its current text has a judgment. -/
def isSkipped (config : ModerationConfig μ χ) (s : ModerationState μ χ) (item : ItemId) : Bool :=
  (s.currentHash item).any fun hash =>
    hasCurrentSuccess s.judgments.rows (config.settings.identity item hash)

/-- A judged text comes back only while it has the newest judgment, and a judgment is stored for
    the current text or while the current text has none. -/
def keepsNewest (config : ModerationConfig μ χ) (s : ModerationState μ χ) :
    ModerationAction μ χ → Bool
  | .writeDetail item main children =>
    (config.semantics.currentHash main children).all fun hash =>
      !hasCurrentSuccess s.judgments.rows (config.settings.identity item hash)
        || (latestJudgment item s.judgments.rows).any fun judgment =>
          judgment.1.sourceDataHash = hash
  | a =>
    (judgmentToStore config s a).all fun new =>
      s.currentHash new.key.contentItem = some new.key.sourceDataHash
        || !s.isSkipped config new.key.contentItem

/-- If the enqueue skips the item, the newest judgment is one of the current text. -/
def SummaryAgrees (config : ModerationConfig μ χ) (s : ModerationState μ χ) : Prop :=
  ∀ item hash, s.currentHash item = some hash →
    hasCurrentSuccess s.judgments.rows (config.settings.identity item hash) = true →
    ∃ key row, latestJudgment item s.judgments.rows = some (key, row) ∧ key.sourceDataHash = hash

lemma keepsNewest_store {a : ModerationAction μ χ} {new : NewJudgment}
    (hok : s.keepsNewest config a = true) (hnew : judgmentToStore config s a = some new) :
    s.currentHash new.key.contentItem = some new.key.sourceDataHash ∨
    s.isSkipped config new.key.contentItem = false := by
  cases a with
  | advance token | answer token answer =>
    simpa [keepsNewest, hnew] using hok
  | _ => cases hnew

/-- A stored judgment is the newest one of its item. -/
lemma latestJudgment_of_store {new : NewJudgment}
    (h : JudgmentInvariant config s) (h' : JudgmentInvariant config s')
    (hjudgments : s'.judgments = s.judgments.store s.clock (some new)) :
    ∃ row, latestJudgment new.key.contentItem s'.judgments.rows = some (new.key, row) := by
  have hget : ∀ key, s'.judgments.rows.get? key = if key = new.key then
      some (s.judgments.insert s.clock new.key new.classification new.requestedModel).1
      else s.judgments.rows.get? key := by
    intro key
    rw [hjudgments]
    exact Table.get?_set ..
  refine ⟨_, h'.latestJudgment_eq (by rw [hget, if_pos rfl]) fun key' row' hrow' _ => ?_⟩
  rw [hget] at hrow'
  split_ifs at hrow'
  · cases hrow'
    exact le_rfl
  · have htime := h.requestedAt key' row' hrow'
    have hid := h.id key' row' hrow'
    simp only [Judgment.orderKey, JudgmentTable.insert, Prod.Lex.toLex_le_toLex]
    rcases htime.lt_or_eq with hlt | heq
    · exact .inl hlt
    · exact .inr ⟨heq, hid.le⟩

lemma SummaryAgrees.store {new : NewJudgment} (hagrees : SummaryAgrees config s)
    (h : JudgmentInvariant config s) (h' : JudgmentInvariant config s')
    (hok : s.currentHash new.key.contentItem = some new.key.sourceDataHash ∨
      s.isSkipped config new.key.contentItem = false)
    (hjudgments : s'.judgments = s.judgments.store s.clock (some new))
    (hcurrent : ∀ item, s'.currentHash item = s.currentHash item) : SummaryAgrees config s' := by
  -- a judgment is the new one or was there before
  have hcases : ∀ key row, s'.judgments.rows.get? key = some row →
      key = new.key ∨ s.judgments.rows.get? key = some row := by
    intro key row hrow
    rw [hjudgments] at hrow
    exact (Table.get?_set_cases hrow).imp And.left id
  intro item hash hread hjudged
  rw [hcurrent] at hread
  obtain ⟨key, row, hrow, hitem, hhash⟩ := h'.hasCurrentSuccess_iff.mp hjudged
  by_cases hnew : new.key.contentItem = item
  · subst hnew
    obtain ⟨row', hlatest⟩ := latestJudgment_of_store h h' hjudgments
    refine ⟨new.key, row', hlatest, ?_⟩
    rcases hok with hsame | hskipped
    · rw [hsame] at hread
      exact Option.some.inj hread
    · rcases hcases key row hrow with rfl | hold
      · exact hhash
      · have hsuccess := h.hasCurrentSuccess_iff.mpr ⟨key, row, hold, hitem, hhash⟩
        simp [isSkipped, hread, hsuccess] at hskipped
  · have hold : ∀ key row, s'.judgments.rows.get? key = some row → key.contentItem = item →
        s.judgments.rows.get? key = some row := by
      intro key row hrow hitem
      rcases hcases key row hrow with rfl | hold
      · exact absurd hitem hnew
      · exact hold
    obtain ⟨key', row', hlatest, hhash'⟩ := hagrees item hash hread
      (h.hasCurrentSuccess_iff.mpr ⟨key, row, hold key row hrow hitem, hitem, hhash⟩)
    obtain ⟨hrow', hitem', hmax⟩ := Table.latest_spec hlatest
    have hkey : key'.contentItem = item := by simpa using hitem'
    refine ⟨key', row', ?_, hhash'⟩
    have hkept : s'.judgments.rows.get? key' = some row' := by
      rw [hjudgments]
      have hne : key' ≠ new.key := by
        rintro rfl
        exact hnew hkey
      simp only [JudgmentTable.store, JudgmentTable.insert, Table.get?_set_ne _ _ hne]
      exact hrow'
    rw [← hkey]
    refine h'.latestJudgment_eq hkept fun key'' row'' hrow'' hitem'' => ?_
    exact hmax key'' row'' (hold key'' row'' hrow'' (hitem''.trans hkey))
      (by simpa using hitem''.trans hkey)

/-- A detail write leaves the judgments as they are. -/
lemma SummaryAgrees.writeDetail (hagrees : SummaryAgrees config s) {item : ItemId} {main : μ}
    {children : χ} (hok : s.keepsNewest config (.writeDetail item main children) = true) :
    SummaryAgrees config (s.writeDetail config item main children) := by
  intro item' hash hread hjudged
  by_cases hitem : item' = item
  · subst hitem
    have hhash : config.semantics.currentHash main children = some hash := by
      simpa [currentHash, ModerationState.writeDetail] using hread
    have hsuccess : hasCurrentSuccess s.judgments.rows (config.settings.identity item' hash) = true :=
      hjudged
    rw [keepsNewest, hhash, Option.all_some, hsuccess, Bool.not_true, Bool.false_or] at hok
    obtain ⟨⟨key, row⟩, hlatest, hsame⟩ := (Option.any_eq_true _ _).mp hok
    exact ⟨key, row, hlatest, by simpa using hsame⟩
  · have hsame : (s.writeDetail config item main children).currentHash item' = s.currentHash item' := by
      simp only [currentHash, ModerationState.writeDetail, Table.get?_set_ne _ _ hitem]
    rw [hsame] at hread
    exact hagrees item' hash hread hjudged

lemma SummaryAgrees.step {a : ModerationAction μ χ} (hagrees : SummaryAgrees config s)
    (h : JudgmentInvariant config s) (hi : IdentityInvariant config s)
    (hok : s.keepsNewest config a = true) (hstep : s.step config a = some s') :
    SummaryAgrees config s' := by
  by_cases hwrite : ∃ item main children, a = .writeDetail item main children
  · obtain ⟨item, main, children, rfl⟩ := hwrite
    cases hstep
    exact hagrees.writeDetail hok
  · have hcurrent : ∀ item, s'.currentHash item = s.currentHash item := fun item =>
      currentHash_of_step hstep fun main children heq => hwrite ⟨item, main, children, heq⟩
    have hjudgments := step_judgments hstep
    cases hnew : judgmentToStore config s a with
    | none =>
      rw [hnew] at hjudgments
      intro item hash hread hjudged
      rw [hcurrent] at hread
      rw [hjudgments] at hjudged ⊢
      exact hagrees item hash hread hjudged
    | some new =>
      rw [hnew] at hjudgments
      exact hagrees.store h (h.step hi hstep) (keepsNewest_store hok hnew) hjudgments hcurrent

end ModerationState

/-- In every run that keeps the newest judgments for the current texts, an item that the enqueue
    skips is summarized by a complete judgment of its current text. -/
theorem summary_of_keepsNewest
    (h : (moderationSystem config).ReachableUnder (fun s a => s.keepsNewest config a = true) s)
    {item : ItemId} {hash : SourceHash} (hcurrent : s.currentHash item = some hash)
    (hskipped : hasCurrentSuccess s.judgments.rows (config.settings.identity item hash) = true) :
    ∃ key row, latestJudgment item s.judgments.rows = some (key, row) ∧
      key.contentItem = item ∧ key.sourceDataHash = hash ∧
      matchesRequestedModel config.settings.moderationModel key row = true ∧
      key.questionRevision = config.settings.questionRevision ∧
      s.summary item = ⟨.complete, row.classification.toPublic⟩ := by
  have hagrees : s.SummaryAgrees config := by
    refine h.invariant_of (J := fun t => t.JudgmentInvariant config ∧ t.IdentityInvariant config)
      ?_ ?_ ?_
    · exact fun t ht => ⟨ModerationState.reachable_judgmentInvariant ht,
        ModerationState.reachable_identityInvariant ht⟩
    · rintro _ rfl item hash hread
      simp [ModerationState.currentHash, ModerationState.empty] at hread
    · exact fun t a t' ht hI hok hstep => hI.step ht.1 ht.2 hok hstep
  have hinv := ModerationState.reachable_judgmentInvariant h.reachable
  obtain ⟨key, row, hlatest, rfl⟩ := hagrees item hash hcurrent hskipped
  obtain ⟨hrow, hitem, -⟩ := Table.latest_spec hlatest
  refine ⟨key, row, hlatest, by simpa using hitem, rfl, ?_, hinv.revision key row hrow, ?_⟩
  · simp [matchesRequestedModel, hinv.requested key row hrow]
  · rw [ModerationState.summary, hlatest, hcurrent]
    exact summarize_of_current (hinv.status key row hrow)

/-- A worker classifies the next ready job, of the first item, and the provider finds it safe. -/
def classifySafely (token : Token) : List (ModerationAction LoadedDetail ChildRows) :=
  [ .claimJobs 1 1 120 [], .advance token, .advance token, .advance token, .advance token,
    .answer token (.answered "jev-1.13.0" (.number 1) (.number 0) (.number 0)), .advance token,
    .advance token ]

/-- Two texts are judged, one after the other. -/
theorem summary_of_keepsNewest_two_texts :
    ∃ s, (moderationSystem standardConfig).Reachable s ∧ s.currentHash 1 = some sourceHashOfB ∧
      s.judgments.nextId = 2 ∧ (s.summary 1).status = .complete := by
  obtain ⟨s, hs, hskipped⟩ := exists_standardRun (fun config s a => s.keepsNewest config a)
    (fun s => s.currentHash 1 = some sourceHashOfB && s.judgments.nextId = 2
      && hasCurrentSuccess s.judgments.rows (standardConfig.settings.identity 1 sourceHashOfB))
    ([.writeDetail 1 (titledMovie "A" none) {}] ++ classifySafely 0
      ++ [.writeDetail 1 (titledMovie "B" none) {}] ++ classifySafely 1) (by decide +kernel)
  simp only [Bool.and_eq_true, decide_eq_true_eq] at hskipped
  obtain ⟨⟨hcurrent, hcount⟩, hskipped⟩ := hskipped
  obtain ⟨key, row, -, -, -, -, -, hsummary⟩ := summary_of_keepsNewest hs hcurrent hskipped
  exact ⟨s, hs.reachable, hcurrent, hcount, by rw [hsummary]⟩

/-- Two texts are judged, and the first one comes back. -/
theorem returning_text_is_stale :
    ¬ ∀ s, (moderationSystem standardConfig).Reachable s → ∀ item,
      s.isSkipped standardConfig item = true → (s.summary item).status = .complete := by
  intro hclaim
  obtain ⟨s, hs, hstale⟩ := exists_standardRun (fun _ _ _ => true)
    (fun s => s.isSkipped standardConfig 1 && (s.summary 1).status = .stale)
    ([.writeDetail 1 (titledMovie "A" none) {}] ++ classifySafely 0
      ++ [.writeDetail 1 (titledMovie "B" none) {}] ++ classifySafely 1
      ++ [.writeDetail 1 (titledMovie "A" none) {}]) (by decide +kernel)
  simp only [Bool.and_eq_true, decide_eq_true_eq] at hstale
  have hcomplete := hclaim s hs.reachable 1 hstale.1
  rw [hstale.2] at hcomplete
  cases hcomplete

end Denn
