import Denn.Moderation.Detail
import Denn.Moderation.Judging

/-!
# No lost work

An item whose text has been written is judged, or a job for the text is pending or finished. A detail
write makes it so. What undoes it is a worker that compared the hash of its job with the item
before the text returned to the job's, and that supersedes the job afterwards: the write that brought
the text back found the job leased and left it alone.
-/

namespace Denn

open Core

variable {μ χ : Type} {config : ModerationConfig μ χ} {s s' : ModerationState μ χ}

/-- The statuses of a job that is still to be worked on. -/
def activeStatuses : List JobStatus := [.queued, .retry, .leased]

/-- The statuses in which work on a job has come to its end. -/
def finishedStatuses : List JobStatus := [.done, .failed, .outcomeUnknown]

lemma mem_finishedStatuses {status : JobStatus} (hsuperseded : status ≠ .superseded)
    (hactive : status ∉ activeStatuses) : status ∈ finishedStatuses := by
  cases status <;> simp [activeStatuses, finishedStatuses] at hsuperseded hactive ⊢

/-- Classification is enabled, for some model and revision. -/
structure ModerationSettings.Classifies (settings : ModerationSettings) : Prop where
  enabled : settings.classificationEnabled = true
  model : settings.moderationModel ≠ ""
  revision : settings.questionRevision ≠ ""

namespace ModerationState

/-- Every item without an active job is judged for its current text, or work on the job for that
    text has come to its end. -/
def WorkKept (config : ModerationConfig μ χ) (s : ModerationState μ χ) : Prop :=
  ∀ item hash, s.currentHash item = some hash →
    (∀ key job, s.jobs.rows.get? key = some job → key.contentItem = item →
      job.status ∉ activeStatuses) →
    hasCurrentSuccess s.judgments.rows (config.settings.identity item hash) = true ∨
    ∃ job, s.jobs.rows.get? (config.settings.identity item hash) = some job ∧
      job.status ∈ finishedStatuses

/-- A written detail is complete. -/
def writesComplete (config : ModerationConfig μ χ) : ModerationAction μ χ → Bool
  | .writeDetail _ main children => config.semantics.detailIsComplete main children
  | _ => true

/-- A worker that holds the lease of a job supersedes it only if the text of the item is not the
    one of the job, or is judged. -/
def supersedesOutdated (s : ModerationState μ χ) : ModerationAction μ χ → Bool
  | .advance token =>
    match s.claims.get? token with
    | some claim =>
      match claim.phase with
      | .finishing .superseded _ _ _ =>
        (heldRow claim.job token s.jobs.rows).isNone
          || s.currentHash claim.job.contentItem ≠ some claim.job.sourceDataHash
          || hasCurrentSuccess s.judgments.rows claim.job
      | _ => true
    | none => true
  | _ => true

/-- The current text is judged, or its job is not superseded. -/
def WorkInvariant (config : ModerationConfig μ χ) (s : ModerationState μ χ) : Prop :=
  ∀ item hash, s.currentHash item = some hash →
    hasCurrentSuccess s.judgments.rows (config.settings.identity item hash) = true ∨
    ∃ job, s.jobs.rows.get? (config.settings.identity item hash) = some job ∧
      job.status ≠ .superseded

lemma WorkInvariant.workKept (h : WorkInvariant config s) : WorkKept config s := by
  intro item hash hcurrent hidle
  rcases h item hash hcurrent with hjudged | ⟨job, hrow, hsuperseded⟩
  · exact .inl hjudged
  · exact .inr ⟨job, hrow, mem_finishedStatuses hsuperseded (hidle _ job hrow rfl)⟩

/-- A detail write of the item itself. -/
lemma workInvariant_writeDetail (hsettings : config.settings.Classifies) {item : ItemId} {main : μ}
    {children : χ} (hcomplete : config.semantics.detailIsComplete main children = true)
    {hash : SourceHash} (hhash : config.semantics.currentHash main children = some hash) :
    hasCurrentSuccess (s.writeDetail config item main children).judgments.rows
      (config.settings.identity item hash) = true ∨
    ∃ job, (s.writeDetail config item main children).jobs.rows.get?
      (config.settings.identity item hash) = some job ∧ job.status ≠ .superseded := by
  simp only [writeDetail, hhash, hcomplete]
  exact enqueueCurrentModerationJob_admits s.jobs hsettings.enabled hsettings.model
    hsettings.revision (config.semantics.currentHash_ne_empty hhash)

/-- A write to the row for the current text does not supersede it, or the text is judged. -/
lemma JobChange.not_superseded {a : ModerationAction μ χ} {key : JobIdentity} {job : Job}
    {row' : Option Job} (h : JobChange config s a key (some job) row')
    (hok : s.supersedesOutdated a = true)
    (hwrite : ∀ main children, a ≠ .writeDetail key.contentItem main children)
    (hrow : s.jobs.rows.get? key = some job)
    (hcurrent : s.currentHash key.contentItem = some key.sourceDataHash)
    (hsuperseded : job.status ≠ .superseded) :
    hasCurrentSuccess s.judgments.rows key = true ∨
    ∃ job', row' = some job' ∧ job'.status ≠ .superseded := by
  cases h with
  | keep => exact .inr ⟨job, rfl, hsuperseded⟩
  | enqueue henqueue =>
    cases henqueue with
    | keep => exact .inr ⟨job, rfl, hsuperseded⟩
    | supersede hitem =>
      subst hitem
      exact absurd rfl (hwrite _ _)
    | settle => exact .inr ⟨_, rfl, by simp [Job.settle]⟩
    | revive _ _ hold => exact absurd hold hsuperseded
  | expire => exact .inr ⟨_, rfl, by simp [Job.expire]⟩
  | claim => exact .inr ⟨_, rfl, by simp [Job.lease]⟩
  | retry => exact .inr ⟨_, rfl, by simp [Job.scheduleRetry]⟩
  | @finish token claim status code result otherwise _ hclaim hphase hheld =>
    by_cases hstatus : status = .superseded
    · subst hstatus
      simp only [supersedesOutdated, hclaim, hphase, heldRow_eq_some hrow hheld, hcurrent,
        Option.isNone_some, ne_eq, not_true_eq_false, decide_false, Bool.false_or] at hok
      exact .inl hok
    · refine .inr ⟨_, rfl, ?_⟩
      cases status with
      | superseded => exact absurd rfl hstatus
      | done | failed | outcomeUnknown => simp [Job.finish, FinalStatus.toJobStatus]

lemma WorkInvariant.step {a : ModerationAction μ χ} (hsettings : config.settings.Classifies)
    (h : WorkInvariant config s) (hcomplete : writesComplete config a = true)
    (hok : s.supersedesOutdated a = true) (hstep : s.step config a = some s') :
    WorkInvariant config s' := by
  intro item hash hcurrent
  by_cases hwrite : ∃ main children, a = .writeDetail item main children
  · obtain ⟨main, children, rfl⟩ := hwrite
    cases hstep
    have hhash : config.semantics.currentHash main children = some hash := by
      simpa [currentHash, writeDetail] using hcurrent
    exact workInvariant_writeDetail hsettings hcomplete hhash
  · have hother : ∀ main children, a ≠ .writeDetail item main children :=
      fun main children heq => hwrite ⟨main, children, heq⟩
    rw [currentHash_of_step hstep hother] at hcurrent
    have hjudged : hasCurrentSuccess s.judgments.rows (config.settings.identity item hash) = true →
        hasCurrentSuccess s'.judgments.rows (config.settings.identity item hash) = true :=
      hasCurrentSuccess_of_step hstep
    rcases h item hash hcurrent with hold | ⟨job, hrow, hsuperseded⟩
    · exact .inl (hjudged hold)
    · have hchange := step_jobChange hstep (config.settings.identity item hash)
      rw [hrow] at hchange
      exact (hchange.not_superseded hok hother hrow hcurrent hsuperseded).imp_left hjudged

end ModerationState

/-- In every run in which details are written complete and no worker supersedes a job for a text
    that has come back, no work is lost. -/
theorem workKept_of_supersedesOutdated (hsettings : config.settings.Classifies)
    (h : (moderationSystem config).ReachableUnder (fun s a =>
      (ModerationState.writesComplete config a && s.supersedesOutdated a) = true) s) :
    s.WorkKept config := by
  have hinv : s.WorkInvariant config := by
    refine h.invariant ?_ fun t a t' hI hok hstep => ?_
    · rintro _ rfl item hash hcurrent
      simp [ModerationState.currentHash, ModerationState.empty] at hcurrent
    · obtain ⟨hcomplete, hok⟩ := Bool.and_eq_true_iff.mp hok
      exact hI.step hsettings hcomplete hok hstep
  exact hinv.workKept

lemma standardConfig_classifies : standardConfig.settings.Classifies where
  enabled := rfl
  model := by decide
  revision := by decide

/-- No job is active. -/
def ModerationState.allIdle (s : ModerationState μ χ) : Bool :=
  !s.jobs.rows.any fun _ job => job.status ∈ activeStatuses

lemma ModerationState.not_active_of_allIdle (h : s.allIdle = true) {key : JobIdentity} {job : Job}
    (hrow : s.jobs.rows.get? key = some job) : job.status ∉ activeStatuses := by
  intro hactive
  have hany : s.jobs.rows.any (fun _ job => job.status ∈ activeStatuses) = true :=
    (Table.any_eq_true_iff _ _).mpr ⟨key, job, hrow, by simpa using hactive⟩
  simp [allIdle, hany] at h

/-- A job is superseded while another text is current; the text returns and its call times out. -/
theorem workKept_of_supersedesOutdated_timeout :
    ∃ s, (moderationSystem standardConfig).Reachable s ∧ s.allIdle = true ∧
      s.currentHash 1 = some sourceHashOfA ∧ s.WorkKept standardConfig := by
  obtain ⟨s, hs, hidle⟩ := exists_standardRun
    (fun config s a => ModerationState.writesComplete config a && s.supersedesOutdated a)
    (fun s => s.allIdle && s.currentHash 1 = some sourceHashOfA)
    [ .writeDetail 1 (titledMovie "A" none) {}, .claimJobs 1 1 120 [],
      .writeDetail 1 (titledMovie "B" none) {}, .advance 0, .advance 0,
      .writeDetail 1 (titledMovie "A" none) {}, .claimJobs 1 1 120 [],
      .advance 1, .advance 1, .advance 1, .advance 1, .answer 1 (.unavailable "typesafe_timeout"),
      .advance 1, .advance 1 ] (by decide +kernel)
  simp only [Bool.and_eq_true, decide_eq_true_eq] at hidle
  exact ⟨s, hs.reachable, hidle.1, hidle.2,
    workKept_of_supersedesOutdated standardConfig_classifies hs⟩

/-- The worker reads the other text, the text of its job comes back, and the job is superseded. -/
theorem returning_text_loses_work :
    ¬ ∀ s, (moderationSystem standardConfig).ReachableUnder
      (fun _ a => ModerationState.writesComplete standardConfig a = true) s →
      s.WorkKept standardConfig := by
  intro hclaim
  obtain ⟨s, hs, hlost⟩ := exists_standardRun
    (fun config _ a => ModerationState.writesComplete config a)
    (fun s => s.allIdle && s.currentHash 1 = some sourceHashOfA
      && !hasCurrentSuccess s.judgments.rows (standardConfig.settings.identity 1 sourceHashOfA)
      && (s.jobs.rows.get? (standardConfig.settings.identity 1 sourceHashOfA)).all
        fun job => job.status = .superseded)
    [ .writeDetail 1 (titledMovie "A" none) {}, .claimJobs 1 1 120 [],
      .writeDetail 1 (titledMovie "B" none) {}, .advance 0,
      .writeDetail 1 (titledMovie "A" none) {}, .advance 0 ] (by decide +kernel)
  simp only [Bool.and_eq_true, decide_eq_true_eq, Bool.not_eq_true'] at hlost
  obtain ⟨⟨⟨hidle, hcurrent⟩, hjudged⟩, hsuperseded⟩ := hlost
  rcases hclaim s hs 1 sourceHashOfA hcurrent
    (fun key job hrow _ => ModerationState.not_active_of_allIdle hidle hrow)
    with hsuccess | ⟨job, hrow, hfinished⟩
  · rw [hjudged] at hsuccess
    cases hsuccess
  · rw [hrow] at hsuperseded
    simp only [Option.all_some, decide_eq_true_eq] at hsuperseded
    simp [hsuperseded, finishedStatuses] at hfinished

end Denn
