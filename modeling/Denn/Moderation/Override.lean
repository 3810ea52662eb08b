import Denn.Moderation.Currency
import Denn.Moderation.Work

/-!
# Provider overrides

A provider rule is decided on columns that are no part of the hashed text, by the worker that
classifies the text. So a safe judgment shows only that the item had rows with the judged text when
the provider did not mark it as explicit.
-/

namespace Denn

open Core

variable {μ χ : Type} {config : ModerationConfig μ χ} {s s' : ModerationState μ χ}

namespace ModerationState

/-- The main rows that an item has had. -/
def mainRows (s : ModerationState μ χ) (item : ItemId) : Set μ :=
  {main | ∃ children, (item, main, children) ∈ s.versions}

/-- The child rows that an item has had, all at one time. -/
def childRows (s : ModerationState μ χ) (item : ItemId) : Set χ :=
  {children | ∃ main, (item, main, children) ∈ s.versions}

/-- Rows that the item has had give the text with this hash, and no provider rule applies to them.
    A worker keeps its main row while the child rows change, so the rows can be of two versions. -/
def IsPlain (config : ModerationConfig μ χ) (s : ModerationState μ χ) (item : ItemId)
    (hash : SourceHash) : Prop :=
  ∃ main ∈ s.mainRows item, ∃ children ∈ s.childRows item,
    config.semantics.currentHash main children = some hash ∧
      config.semantics.providerExplicit main = false

lemma mainRows_mono (h : s.versions ⊆ s'.versions) (item : ItemId) :
    s.mainRows item ⊆ s'.mainRows item := by
  rintro main ⟨children, hmem⟩
  exact ⟨children, h hmem⟩

lemma IsPlain.mono {item : ItemId} {hash : SourceHash} (hplain : IsPlain config s item hash)
    (h : s.versions ⊆ s'.versions) : IsPlain config s' item hash := by
  obtain ⟨main, hmain, children, ⟨main', hchildren⟩, hrows⟩ := hplain
  exact ⟨main, mainRows_mono h item hmain, children, ⟨main', h hchildren⟩, hrows⟩

/-- What a claim has read are rows of its item, and the call under way is for a plain text. -/
def ReadsDetail (config : ModerationConfig μ χ) (s : ModerationState μ χ) (claim : Claim μ) : Prop :=
  match claim.phase with
  | .classifying _ (some main) => main ∈ s.mainRows claim.job.contentItem
  | .calling _ hash => IsPlain config s claim.job.contentItem hash
  | _ => True

/-- Where the safe judgments come from. -/
structure OverrideInvariant (config : ModerationConfig μ χ) (s : ModerationState μ χ) : Prop where
  claim : ∀ token claim, s.claims.get? token = some claim → ReadsDetail config s claim
  judgment : ∀ key row, s.judgments.rows.get? key = some row → row.classification = .safe →
    IsPlain config s key.contentItem key.sourceDataHash

lemma OverrideInvariant.empty : OverrideInvariant config (.empty μ χ) := by
  constructor <;> simp [ModerationState.empty]

/-! ### Claims -/

lemma ReadsDetail.mono {claim : Claim μ} (hreads : ReadsDetail config s claim)
    (h : s.versions ⊆ s'.versions) : ReadsDetail config s' claim := by
  obtain ⟨worker, job, leaseUntil, phase⟩ := claim
  cases phase with
  | classifying attempts main =>
    cases main with
    | none => trivial
    | some main => exact mainRows_mono h job.contentItem hreads
  | calling attempts hash => exact IsPlain.mono hreads h
  | _ => trivial

lemma readsDetail_afterCall {currentHash : Option SourceHash} {attempts : ℕ}
    {outcome : ClassifierOutcome} (claim : Claim μ) :
    ReadsDetail config s { claim with
      phase := afterCall config.settings config.worker currentHash claim.job attempts outcome } := by
  unfold afterCall
  split_ifs
  · cases outcome with
    | judgment key row =>
      simp only [afterCurrentCall]
      split_ifs <;> trivial
    | skipped code =>
      simp only [afterCurrentCall]
      split_ifs <;> trivial
    | unavailable code =>
      simp only [afterCurrentCall]
      split_ifs <;> trivial
  · trivial

lemma PhaseMove.readsDetail {token : Token} {claim : Claim μ} {phase : ClaimPhase μ}
    (hmove : PhaseMove config s token claim phase) (hd : DetailInvariant config s) :
    ReadsDetail config s { claim with phase } := by
  cases hmove with
  | fresh hphase =>
    cases hrow : s.items.get? claim.job.contentItem with
    | none => trivial
    | some row => exact ⟨row.children, hd.version _ row hrow⟩
  | recheck hphase => exact readsDetail_afterCall claim
  | _ => trivial

/-- The text of a call is made of the main row of the claim and the child rows as they are. -/
lemma isPlain_of_called {claim : Claim μ} {attempts : ℕ} {main : Option μ} {hash : SourceHash}
    (hreads : ReadsDetail config s claim) (hd : DetailInvariant config s)
    (hphase : claim.phase = .classifying attempts main)
    (hcalled : beginClassification config.semantics config.settings s.clock claim.job.contentItem
      (s.loadedDetail claim.job.contentItem main) claim.job.requestedModel s.judgments
        = .called hash) :
    IsPlain config s claim.job.contentItem hash := by
  obtain ⟨main', children, hloaded, hhash, hexplicit⟩ := beginClassification_called _ _ hcalled
  obtain ⟨main'', rfl, hloaded⟩ := Option.bind_eq_some_iff.mp hloaded
  obtain ⟨row, hrow, hpair⟩ := Option.map_eq_some_iff.mp hloaded
  cases hpair
  simp only [ReadsDetail, hphase] at hreads
  exact ⟨main', hreads, row.children, ⟨row.main, hd.version _ row hrow⟩, hhash, hexplicit⟩

lemma readsDetail_classify {token : Token} {claim : Claim μ} {attempts : ℕ} {main : Option μ}
    (hreads : ReadsDetail config s claim) (hd : DetailInvariant config s)
    (hphase : claim.phase = .classifying attempts main) :
    ∃ phase, (s.classify config token claim attempts main).claims
      = s.claims.set token { claim with phase } ∧ ReadsDetail config s { claim with phase } := by
  unfold classify
  simp only
  split
  · next hash hcalled =>
    have hplain : IsPlain config s claim.job.contentItem hash :=
      isPlain_of_called hreads hd hphase hcalled
    exact ⟨.calling attempts hash, rfl, hplain⟩
  · exact ⟨_, rfl, trivial⟩
  · exact ⟨_, rfl, trivial⟩

lemma readsDetail_endCall (config : ModerationConfig μ χ) (s : ModerationState μ χ) {token : Token}
    {claim : Claim μ} {attempts : ℕ} {hash : SourceHash} {answer : RemoteAnswer} :
    ∃ phase, (s.endCall config token claim attempts hash answer).claims
      = s.claims.set token { claim with phase } ∧ ReadsDetail config s { claim with phase } := by
  unfold endCall
  split <;> exact ⟨_, rfl, trivial⟩

/-- Claims move on one at a time, and new ones have read nothing. -/
lemma OverrideInvariant.claim_step {a : ModerationAction μ χ} (h : OverrideInvariant config s)
    (hd : DetailInvariant config s) (hstep : s.step config a = some s') :
    ∀ token claim, s'.claims.get? token = some claim → ReadsDetail config s' claim := by
  have hmono := versions_subset_of_step hstep
  have hsame : s'.claims = s.claims →
      ∀ token claim, s'.claims.get? token = some claim → ReadsDetail config s' claim := by
    intro hclaims token claim hclaim
    rw [hclaims] at hclaim
    exact (h.claim token claim hclaim).mono hmono
  have hmoved : ∀ token claim, ReadsDetail config s claim →
      s'.claims = s.claims.set token claim →
      ∀ token claim, s'.claims.get? token = some claim → ReadsDetail config s' claim := by
    intro token claim hreads hclaims token' claim' hclaim'
    rcases Table.get?_set_cases (hclaims ▸ hclaim') with ⟨-, rfl⟩ | hclaim'
    · exact hreads.mono hmono
    · exact (h.claim token' claim' hclaim').mono hmono
  cases step_cases hstep with
  | tick | writeDetail | readMissing | createMissing | expireLeases => exact hsame rfl
  | claimJobs worker batchSize leaseSeconds locked =>
    refine claimModerationJobs_induction config (fun t => ∀ token claim,
      t.claims.get? token = some claim → ReadsDetail config t claim) h.claim (fun _ ht => ht) ?_
    intro t identity job _ _ _ ht token claim hclaim
    rcases Table.get?_set_cases hclaim with ⟨-, rfl⟩ | hclaim
    · trivial
    · exact ht token claim hclaim
  | @advance token claim _ hclaim hclaimed =>
    cases hclaimed with
    | move hmove => exact hmoved token _ (hmove.readsDetail hd) rfl
    | classify hphase =>
      obtain ⟨phase, hclaims, hreads⟩ := readsDetail_classify (h.claim token claim hclaim) hd hphase
      exact hmoved token _ hreads hclaims
    | retry | finish => exact hmoved token { claim with phase := .ended _ } trivial rfl
  | @answer token _ _ _ answer _ _ =>
    obtain ⟨phase, hclaims, hreads⟩ := readsDetail_endCall config s
    exact hmoved token _ hreads hclaims

/-! ### Judgments -/

/-- A safe judgment is stored for a plain text. -/
lemma Stores.isPlain {a : ModerationAction μ χ} {new : NewJudgment} (hstores : Stores config s new a)
    (h : OverrideInvariant config s) (hsafe : new.classification = .safe) :
    IsPlain config s new.key.contentItem new.key.sourceDataHash := by
  cases hstores with
  | rule _ _ hnew =>
    obtain ⟨main, children, hash, -, -, -, rfl⟩ := ruleJudgment_eq_some _ _ hnew
    cases hsafe
  | answer hclaim hphase hnew =>
    obtain ⟨modelName, classification, rfl⟩ := answerJudgment_eq_some _ hnew
    have hreads := h.claim _ _ hclaim
    simpa only [ReadsDetail, hphase] using hreads

lemma OverrideInvariant.step {a : ModerationAction μ χ} (h : OverrideInvariant config s)
    (hd : DetailInvariant config s) (hstep : s.step config a = some s') :
    OverrideInvariant config s' where
  claim := h.claim_step hd hstep
  judgment := by
    intro key row hrow hsafe
    have hmono := versions_subset_of_step hstep
    rw [step_judgments hstep] at hrow
    cases hnew : judgmentToStore config s a with
    | none =>
      rw [hnew] at hrow
      exact (h.judgment key row hrow hsafe).mono hmono
    | some new =>
      rw [hnew] at hrow
      rcases Table.get?_set_cases hrow with ⟨rfl, rfl⟩ | hrow
      · exact ((stores_of_judgmentToStore hnew).1.isPlain h hsafe).mono hmono
      · exact (h.judgment key row hrow hsafe).mono hmono

theorem reachable_overrideInvariant (h : (moderationSystem config).Reachable s) :
    OverrideInvariant config s := by
  refine h.invariant_of (fun _ => reachable_detailInvariant) ?_
    fun _ _ _ hd hI hstep => hI.step hd hstep
  rintro _ rfl
  exact .empty

end ModerationState

/-! ### Summaries of persisted detail -/

section

variable {config : ModerationConfig LoadedDetail ChildRows}
  {s : ModerationState LoadedDetail ChildRows}

/-- The hash that a reader of an item compares with the latest judgment. -/
def ModeratedItem.readHash (row : ModeratedItem LoadedDetail ChildRows) (sourceData : Option Json) :
    Option SourceHash :=
  Denn.readHash row.main.sourceApi row.main.row.contentType row.currentModerationSourceHash sourceData

/-- The summary of an item with detail, with or without source data. -/
def ModerationState.publishedSummary (s : ModerationState LoadedDetail ChildRows) (item : ItemId)
    (row : ModeratedItem LoadedDetail ChildRows) (sourceData : Option Json) : ModerationSummary :=
  moderationSummary row.main.sourceApi row.main.row.contentType row.currentModerationSourceHash
    (latestJudgment item s.judgments.rows) sourceData

/-- The payload of the persisted rows is read as the persisted rows are. -/
theorem readHash_fromLocal (hsemantics : config.semantics = detailSemantics)
    (h : (moderationSystem config).Reachable s) {item : ItemId}
    {row : ModeratedItem LoadedDetail ChildRows} (hrow : s.items.get? item = some row) :
    row.readHash (some (fromLocal row.main.row row.main.tvShowTitle row.children))
      = row.readHash none := by
  have hhash := (ModerationState.reachable_detailInvariant h).hash item row hrow
  rw [hsemantics] at hhash
  simp only [ModeratedItem.readHash, readHash, hhash, DetailSemantics.currentHash, detailSemantics,
    LoadedDetail.sourceHash, LoadedDetail.state]
  cases buildModerationState row.main.sourceApi row.main.row.contentType
    (fromLocal row.main.row row.main.tvShowTitle row.children) <;> rfl

/-- If a provider rule applied to the item whenever it had the text that is read, then the summary
    is not safe. -/
theorem publishedSummary_of_override (hsemantics : config.semantics = detailSemantics)
    (h : (moderationSystem config).Reachable s) {item : ItemId}
    {row : ModeratedItem LoadedDetail ChildRows} {sourceData : Option Json}
    (hexplicit : ∀ main ∈ s.mainRows item, ∀ children ∈ s.childRows item, ∀ hash,
      main.sourceHash children = .ok hash → row.readHash sourceData = some hash →
      providerExplicit main = true) :
    s.publishedSummary item row sourceData ≠ ⟨.complete, some .safe⟩ := by
  intro hsummary
  obtain ⟨key, judgment, hlatest, hread, hsafe⟩ := summarize_eq_safe hsummary
  obtain ⟨hrow, hitem, -⟩ := Table.latest_spec hlatest
  have hkey : key.contentItem = item := by simpa using hitem
  subst hkey
  obtain ⟨main, hmain, children, hchildren, hhash, hplain⟩ :=
    (ModerationState.reachable_overrideInvariant h).judgment key judgment hrow hsafe
  rw [hsemantics] at hhash hplain
  have hsource : main.sourceHash children = .ok key.sourceDataHash := by
    simp only [DetailSemantics.currentHash, detailSemantics] at hhash
    cases hsource : main.sourceHash children with
    | error failure => simp [hsource, Except.toOption] at hhash
    | ok hash => simpa [hsource, Except.toOption] using hhash
  have hmarked : providerExplicit main = true :=
    hexplicit main hmain children hchildren _ hsource hread
  rw [show providerExplicit main = false from hplain] at hmarked
  cases hmarked

end

/-- A movie that has always been marked is judged by the provider rule. -/
theorem publishedSummary_of_override_marked :
    ∃ s row, (moderationSystem standardConfig).Reachable s ∧ s.items.get? 1 = some row ∧
      (s.publishedSummary 1 row none).status = .complete ∧
      s.publishedSummary 1 row none ≠ ⟨.complete, some .safe⟩ := by
  obtain ⟨s, hs, hmarked⟩ := exists_standardRun (fun _ _ _ => true)
    (fun s => (s.items.get? 1).any (fun row => (s.publishedSummary 1 row none).status = .complete)
      && s.versions.all fun version => providerExplicit version.2.1)
    ([.writeDetail 1 (titledMovie "A" (some true)) {}, .claimJobs 1 1 120 [], .advance 0,
      .advance 0, .advance 0, .advance 0, .advance 0, .advance 0]) (by decide +kernel)
  obtain ⟨hrow, hmarked⟩ := Bool.and_eq_true_iff.mp hmarked
  obtain ⟨row, hrow, hcomplete⟩ := (Option.any_eq_true _ _).mp hrow
  refine ⟨s, row, hs.reachable, hrow, by simpa using hcomplete, ?_⟩
  refine publishedSummary_of_override rfl hs.reachable ?_
  rintro main ⟨children, hmain⟩ _ _ _ _ _
  exact List.all_eq_true.mp hmarked _ hmain

/-- A movie is judged safe, and then marked under the same text. -/
theorem marked_later_stays_safe :
    ¬ ∀ s, (moderationSystem standardConfig).Reachable s → ∀ item row, s.items.get? item = some row →
      (∀ key job, s.jobs.rows.get? key = some job → key.contentItem = item →
        job.status ∉ activeStatuses) →
      providerExplicit row.main = true →
      s.publishedSummary item row none ≠ ⟨.complete, some .safe⟩ := by
  intro hclaim
  obtain ⟨s, hs, hsafe⟩ := exists_standardRun (fun _ _ _ => true)
    (fun s => s.allIdle && (s.items.get? 1).any fun row => providerExplicit row.main
      && s.publishedSummary 1 row none = ⟨.complete, some .safe⟩)
    ([.writeDetail 1 (titledMovie "A" (some false)) {}] ++ classifySafely 0
      ++ [.writeDetail 1 (titledMovie "A" (some true)) {}]) (by decide +kernel)
  obtain ⟨hidle, hrow⟩ := Bool.and_eq_true_iff.mp hsafe
  obtain ⟨row, hrow, hsafe⟩ := (Option.any_eq_true _ _).mp hrow
  simp only [Bool.and_eq_true, decide_eq_true_eq] at hsafe
  exact hclaim s hs.reachable 1 row hrow
    (fun key job hrow _ => ModerationState.not_active_of_allIdle hidle hrow) hsafe.1 hsafe.2

end Denn
