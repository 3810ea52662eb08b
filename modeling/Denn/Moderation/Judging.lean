import Denn.Moderation.Changes

/-!
# Judgments

A judgment is stored at two places: by a provider rule before the remote call, and from the answer
of the call. Rows are only inserted, and every row is complete, of the configured revision and
requested for the configured model; so an identity has a current success exactly if its text has a
judgment.
-/

namespace Denn

open Core

/-- A judgment to be inserted: its identity, classification and requested model. -/
structure NewJudgment where
  key : JudgmentIdentity
  classification : Classification
  requestedModel : String

def JudgmentTable.store (now : Time) (new : Option NewJudgment) (judgments : JudgmentTable) :
    JudgmentTable :=
  match new with
  | none => judgments
  | some new => (judgments.insert now new.key new.classification new.requestedModel).2

/-- `get_or_create` inserts only under a new identity. -/
def NewJudgment.filterNew (judgments : JudgmentTable) (new : NewJudgment) : Option NewJudgment :=
  if (judgments.rows.get? new.key).isNone then some new else none

lemma getOrCreateJudgment_table (now : Time) (judgments : JudgmentTable) (new : NewJudgment) :
    (getOrCreateJudgment now new.key new.classification new.requestedModel judgments).2
      = judgments.store now (new.filterNew judgments) := by
  unfold getOrCreateJudgment NewJudgment.filterNew
  cases judgments.rows.get? new.key with
  | some row => rfl
  | none => rfl

/-! ### The classifier -/

section

variable {μ χ : Type} (semantics : DetailSemantics μ χ) (settings : ModerationSettings)

/-- The judgment that a provider rule gives. -/
def ruleJudgment (item : ItemId) (detail : Option (μ × χ)) (model : String) : Option NewJudgment :=
  detail.bind fun (main, children) =>
    (semantics.currentHash main children).bind fun hash =>
      if settings.classificationEnabled && semantics.providerExplicit main then
        some ⟨⟨item, hash, providerRuleModel, settings.questionRevision⟩, .explicit,
          if model = "" then settings.moderationModel else model⟩
      else none

/-- The judgment that an answer to the call for a text gives. -/
def answerJudgment (thresholds : PolicyThresholds) (item : ItemId) (hash : SourceHash)
    (model : String) : RemoteAnswer → Option NewJudgment
  | .answered resolved safe explicit review =>
    if strip (resolved.getD "") = "" then none
    else some ⟨⟨item, hash, strip (resolved.getD ""), settings.questionRevision⟩,
      mapDecision (composePolicy .none safe explicit review thresholds).decision,
      if model = "" then settings.moderationModel else model⟩
  | _ => none

def ClassifierStart.judgments (start : ClassifierStart) (before : JudgmentTable) : JudgmentTable :=
  match start with
  | .returned _ judgments => judgments
  | _ => before

/-- Before the call, the classifier stores the judgment of a provider rule and nothing else. -/
theorem beginClassification_judgments (now : Time) (item : ItemId) (detail : Option (μ × χ))
    (model : String) (judgments : JudgmentTable) :
    (beginClassification semantics settings now item detail model judgments).judgments judgments
      = judgments.store now
        ((ruleJudgment semantics settings item detail model).bind (·.filterNew judgments)) := by
  unfold beginClassification ruleJudgment DetailSemantics.currentHash
  cases henabled : settings.classificationEnabled with
  | false =>
    cases detail with
    | none => rfl
    | some detail =>
      obtain ⟨main, children⟩ := detail
      simp only [Option.bind_some]
      cases semantics.sourceHash main children <;> rfl
  | true =>
    cases detail with
    | none => rfl
    | some detail =>
      obtain ⟨main, children⟩ := detail
      simp only [Option.bind_some]
      cases hsource : semantics.sourceHash main children with
      | error failure => cases failure <;> rfl
      | ok hash =>
        cases hexplicit : semantics.providerExplicit main with
        | true => exact getOrCreateJudgment_table now judgments ⟨⟨item, hash, providerRuleModel,
            settings.questionRevision⟩, .explicit, _⟩
        | false =>
          simp only [Bool.not_true, Bool.false_eq_true, if_false]
          split <;> rfl

/-- The call is made for the hash of the loaded detail, if no provider rule applies to it. -/
theorem beginClassification_called {now : Time} {item : ItemId} {detail : Option (μ × χ)}
    {model : String} {judgments : JudgmentTable} {hash : SourceHash}
    (h : beginClassification semantics settings now item detail model judgments = .called hash) :
    ∃ main children, detail = some (main, children) ∧
      semantics.currentHash main children = some hash ∧ semantics.providerExplicit main = false := by
  unfold beginClassification at h
  cases henabled : settings.classificationEnabled with
  | false => simp [henabled] at h
  | true =>
  rw [henabled] at h
  cases detail with
  | none => cases h
  | some detail =>
    obtain ⟨main, children⟩ := detail
    simp only [Bool.not_true, Bool.false_eq_true, if_false] at h
    cases hsource : semantics.sourceHash main children with
    | error failure => cases failure <;> simp [hsource] at h
    | ok hash' =>
      simp only [hsource] at h
      cases hexplicit : semantics.providerExplicit main with
      | true => simp [hexplicit] at h
      | false =>
        simp only [hexplicit, Bool.false_eq_true, if_false] at h
        split at h
        · cases h
        · cases h
          exact ⟨main, children, rfl, by rw [DetailSemantics.currentHash, hsource]; rfl, hexplicit⟩

lemma ruleJudgment_eq_some {item : ItemId} {detail : Option (μ × χ)} {model : String}
    {new : NewJudgment} (h : ruleJudgment semantics settings item detail model = some new) :
    ∃ main children hash, detail = some (main, children) ∧
      semantics.currentHash main children = some hash ∧ semantics.providerExplicit main = true ∧
      new = ⟨⟨item, hash, providerRuleModel, settings.questionRevision⟩, .explicit,
        if model = "" then settings.moderationModel else model⟩ := by
  obtain ⟨⟨main, children⟩, hdetail, h⟩ := Option.bind_eq_some_iff.mp h
  obtain ⟨hash, hhash, h⟩ := Option.bind_eq_some_iff.mp h
  by_cases hexplicit : (settings.classificationEnabled && semantics.providerExplicit main) = true
  · rw [if_pos hexplicit, Option.some.injEq] at h
    exact ⟨main, children, hash, hdetail, hhash, (Bool.and_eq_true_iff.mp hexplicit).2, h.symm⟩
  · rw [if_neg hexplicit] at h
    cases h

lemma answerJudgment_eq_some {thresholds : PolicyThresholds} {item : ItemId} {hash : SourceHash}
    {model : String} {answer : RemoteAnswer} {new : NewJudgment}
    (h : answerJudgment settings thresholds item hash model answer = some new) :
    ∃ modelName classification, new = ⟨⟨item, hash, modelName, settings.questionRevision⟩,
      classification, if model = "" then settings.moderationModel else model⟩ := by
  cases answer with
  | raised => cases h
  | unavailable code => cases h
  | answered resolved safe explicit review =>
    simp only [answerJudgment] at h
    by_cases hblank : strip (resolved.getD "") = ""
    · rw [if_pos hblank] at h
      cases h
    · rw [if_neg hblank, Option.some.injEq] at h
      exact ⟨_, _, h.symm⟩

/-- The answer stores its judgment and nothing else. -/
theorem endClassification_judgments {thresholds : PolicyThresholds} {now : Time} {item : ItemId}
    {hash : SourceHash} {model : String} {answer : RemoteAnswer} {judgments : JudgmentTable} :
    ((endClassification settings thresholds now item hash model answer judgments).elim judgments
        Prod.snd)
      = judgments.store now ((answerJudgment settings thresholds item hash model answer).bind
        (·.filterNew judgments)) := by
  unfold endClassification answerJudgment
  cases answer with
  | raised => rfl
  | unavailable code => rfl
  | answered resolved safe explicit review =>
    by_cases hblank : strip (resolved.getD "") = ""
    · simp only [if_pos hblank]
      rfl
    · simp only [if_neg hblank]
      exact getOrCreateJudgment_table now judgments ⟨⟨item, hash, strip (resolved.getD ""),
        settings.questionRevision⟩, _, _⟩

end

/-! ### Steps -/

variable {μ χ : Type} {config : ModerationConfig μ χ} {s s' : ModerationState μ χ}

namespace ModerationState

/-- The rows that a claim classifies: the main row it has loaded, and the child rows as they are. -/
def loadedDetail (s : ModerationState μ χ) (item : ItemId) (main : Option μ) : Option (μ × χ) :=
  main.bind fun main => (s.items.get? item).map fun item => (main, item.children)

/-- The judgment that a step stores. -/
def judgmentToStore (config : ModerationConfig μ χ) (s : ModerationState μ χ) :
    ModerationAction μ χ → Option NewJudgment
  | .advance token => (s.claims.get? token).bind fun claim =>
    match claim.phase with
    | .classifying _ main =>
      (ruleJudgment config.semantics config.settings claim.job.contentItem
        (s.loadedDetail claim.job.contentItem main) claim.job.requestedModel).bind
        (·.filterNew s.judgments)
    | _ => none
  | .answer token answer => (s.claims.get? token).bind fun claim =>
    match claim.phase with
    | .calling _ hash =>
      (answerJudgment config.settings config.thresholds claim.job.contentItem hash
        claim.job.requestedModel answer).bind (·.filterNew s.judgments)
    | _ => none
  | _ => none

lemma classify_judgments (token : Token) (claim : Claim μ) (attempts : ℕ) (main : Option μ) :
    (s.classify config token claim attempts main).judgments
      = s.judgments.store s.clock ((ruleJudgment config.semantics config.settings
        claim.job.contentItem (s.loadedDetail claim.job.contentItem main)
        claim.job.requestedModel).bind (·.filterNew s.judgments)) := by
  rw [← beginClassification_judgments]
  unfold classify loadedDetail
  simp only
  cases beginClassification config.semantics config.settings s.clock claim.job.contentItem
    (main.bind fun main => (s.items.get? claim.job.contentItem).map fun item =>
      (main, item.children)) claim.job.requestedModel s.judgments <;> rfl

lemma endCall_judgments (token : Token) (claim : Claim μ) (attempts : ℕ) (hash : SourceHash)
    (answer : RemoteAnswer) :
    (s.endCall config token claim attempts hash answer).judgments
      = s.judgments.store s.clock ((answerJudgment config.settings config.thresholds
        claim.job.contentItem hash claim.job.requestedModel answer).bind
        (·.filterNew s.judgments)) := by
  rw [← endClassification_judgments]
  unfold endCall
  cases endClassification config.settings config.thresholds s.clock claim.job.contentItem hash
    claim.job.requestedModel answer s.judgments <;> rfl

/-- The judgments after a step. -/
theorem step_judgments {a : ModerationAction μ χ} (h : s.step config a = some s') :
    s'.judgments = s.judgments.store s.clock (judgmentToStore config s a) := by
  cases step_cases h with
  | tick | writeDetail | readMissing | createMissing | expireLeases => rfl
  | claimJobs worker batchSize leaseSeconds locked =>
    apply claimModerationJobs_induction config fun t => t.judgments = s.judgments
    · rfl
    · exact fun _ ht => ht
    · exact fun _ _ _ _ _ _ ht => ht
  | advance hclaim hclaimed =>
    simp only [judgmentToStore, hclaim, Option.bind_some]
    cases hclaimed with
    | move hmove =>
      cases hmove with
      | fenced hphase | current hphase | notCurrent hphase | judged hphase | unjudged hphase
      | outdated hphase | fresh hphase | recheck hphase | retryFenced hphase | exhausted hphase
      | retryDue hphase =>
        rw [hphase]
        rfl
    | classify hphase =>
      rw [hphase]
      exact classify_judgments ..
    | retry hphase | finish hphase =>
      rw [hphase]
      rfl
  | answer answer hclaim hphase =>
    simp only [judgmentToStore, hclaim, Option.bind_some, hphase]
    exact endCall_judgments ..

/-- The two places where a judgment is stored. -/
inductive Stores (config : ModerationConfig μ χ) (s : ModerationState μ χ) (new : NewJudgment) :
    ModerationAction μ χ → Prop
  | rule {token : Token} {claim : Claim μ} {attempts : ℕ} {main : Option μ}
      (hclaim : s.claims.get? token = some claim) (hphase : claim.phase = .classifying attempts main)
      (hnew : ruleJudgment config.semantics config.settings claim.job.contentItem
        (s.loadedDetail claim.job.contentItem main) claim.job.requestedModel = some new) :
      Stores config s new (.advance token)
  | answer {token : Token} {claim : Claim μ} {attempts : ℕ} {hash : SourceHash}
      {answer : RemoteAnswer} (hclaim : s.claims.get? token = some claim)
      (hphase : claim.phase = .calling attempts hash)
      (hnew : answerJudgment config.settings config.thresholds claim.job.contentItem hash
        claim.job.requestedModel answer = some new) :
      Stores config s new (.answer token answer)

/-- A judgment is stored under a new identity. -/
theorem stores_of_judgmentToStore {a : ModerationAction μ χ} {new : NewJudgment}
    (h : judgmentToStore config s a = some new) :
    Stores config s new a ∧ s.judgments.rows.get? new.key = none := by
  have hfilter : ∀ new' : Option NewJudgment, new'.bind (·.filterNew s.judgments) = some new →
      new' = some new ∧ s.judgments.rows.get? new.key = none := by
    intro new' hnew
    obtain ⟨new'', hnew', hnew⟩ := Option.bind_eq_some_iff.mp hnew
    unfold NewJudgment.filterNew at hnew
    split_ifs at hnew with hnone
    cases hnew
    exact ⟨hnew', Option.isNone_iff_eq_none.mp hnone⟩
  cases a with
  | advance token =>
    obtain ⟨claim, hclaim, h⟩ := Option.bind_eq_some_iff.mp h
    split at h
    · next hphase =>
      obtain ⟨hrule, hnone⟩ := hfilter _ h
      exact ⟨.rule hclaim hphase hrule, hnone⟩
    · cases h
  | answer token answer =>
    obtain ⟨claim, hclaim, h⟩ := Option.bind_eq_some_iff.mp h
    split at h
    · next hphase =>
      obtain ⟨hanswer, hnone⟩ := hfilter _ h
      exact ⟨.answer hclaim hphase hanswer, hnone⟩
    · cases h
  | _ => cases h

/-- Judgments are never changed or deleted. -/
lemma get?_judgments_of_step {a : ModerationAction μ χ} (h : s.step config a = some s')
    {key : JudgmentIdentity} {row : Judgment} (hrow : s.judgments.rows.get? key = some row) :
    s'.judgments.rows.get? key = some row := by
  rw [step_judgments h]
  cases hnew : judgmentToStore config s a with
  | none => exact hrow
  | some new =>
    have hne : key ≠ new.key := by
      intro heq
      rw [heq, (stores_of_judgmentToStore hnew).2] at hrow
      cases hrow
    simp only [JudgmentTable.store, JudgmentTable.insert, Table.get?_set_ne _ _ hne]
    exact hrow

lemma hasCurrentSuccess_of_step {a : ModerationAction μ χ} (h : s.step config a = some s')
    {job : JobIdentity} (hjudged : hasCurrentSuccess s.judgments.rows job = true) :
    hasCurrentSuccess s'.judgments.rows job = true := by
  rw [hasCurrentSuccess, Table.any_eq_true_iff] at hjudged ⊢
  obtain ⟨key, row, hrow, hmatch⟩ := hjudged
  exact ⟨key, row, get?_judgments_of_step h hrow, hmatch⟩

end ModerationState

/-! ### Identities under the settings -/

/-- An identity for the model and the revision of the settings. -/
def JobIdentity.IsConfigured (settings : ModerationSettings) (key : JobIdentity) : Prop :=
  key = settings.identity key.contentItem key.sourceDataHash

lemma isConfigured_identity (settings : ModerationSettings) (item : ItemId) (hash : SourceHash) :
    (settings.identity item hash).IsConfigured settings := rfl

lemma isConfigured_of_mem_missing {settings : ModerationSettings}
    {judgments : Table JudgmentIdentity Judgment} {jobs : Table JobIdentity Job}
    {contentItems : List AnnotatedItem} {key : JobIdentity}
    (h : key ∈ missingModerationJobs settings judgments jobs contentItems) :
    key.IsConfigured settings := by
  unfold missingModerationJobs at h
  split_ifs at h
  · cases h
  · obtain ⟨annotated, -, hannotated⟩ := List.mem_filterMap.mp h
    split at hannotated
    · cases hannotated
    · simp only at hannotated
      split_ifs at hannotated
      cases hannotated
      rfl

namespace ModerationState

/-- Every job, claimed or about to be inserted, is for the model and the revision of the run. -/
structure IdentityInvariant (config : ModerationConfig μ χ) (s : ModerationState μ χ) : Prop where
  job : ∀ key job, s.jobs.rows.get? key = some job → key.IsConfigured config.settings
  admission : ∀ new ∈ s.admissions, ∀ key ∈ new.2, JobIdentity.IsConfigured config.settings key
  claim : ∀ token claim, s.claims.get? token = some claim →
    claim.job.IsConfigured config.settings

lemma IdentityInvariant.empty : IdentityInvariant config (.empty μ χ) where
  job key job h := by simp [ModerationState.empty] at h
  admission new h := by simp [ModerationState.empty] at h
  claim token claim h := by simp [ModerationState.empty] at h

lemma JobChange.isConfigured {a : ModerationAction μ χ} {key : JobIdentity} {row : Option Job}
    {job' : Job} (hchange : JobChange config s a key row (some job'))
    (h : IdentityInvariant config s) (hrow : s.jobs.rows.get? key = row) :
    key.IsConfigured config.settings := by
  cases hchange with
  | keep => exact h.job key job' hrow
  | enqueue henqueue =>
    cases henqueue with
    | keep => exact h.job key job' hrow
    | supersede => exact h.job key _ hrow
    | settle _ hkey => exact hkey ▸ isConfigured_identity ..
    | create _ hkey => exact hkey ▸ isConfigured_identity ..
    | revive _ hkey => exact hkey ▸ isConfigured_identity ..
  | insert id availableAt hnew hkey => exact h.admission _ (List.mem_of_getElem? hnew) key hkey
  | expire | claim | finish | retry => exact h.job _ _ hrow

/-- No lease is granted, and the read path adds nothing but configured identities. -/
lemma IdentityInvariant.of_ungranting (h : IdentityInvariant config s) (hu : Ungranting s s')
    {a : ModerationAction μ χ} (hstep : s.step config a = some s')
    (hadmissions : ∀ new ∈ s'.admissions, new ∈ s.admissions ∨
      ∀ key ∈ new.2, JobIdentity.IsConfigured config.settings key) :
    IdentityInvariant config s' where
  job key job' hrow' := by
    have hchange := step_jobChange hstep key
    rw [hrow'] at hchange
    exact hchange.isConfigured h rfl
  admission new hnew := by
    rcases hadmissions new hnew with hold | hconfigured
    · exact h.admission new hold
    · exact hconfigured
  claim token claim' hclaim' := by
    obtain ⟨claim, hclaim, hjob, -⟩ := hu.claims token claim' hclaim'
    rw [hjob]
    exact h.claim token claim hclaim

lemma classify_admissions {token : Token} {claim : Claim μ} {attempts : ℕ} {main : Option μ} :
    (s.classify config token claim attempts main).admissions = s.admissions := by
  unfold classify
  simp only
  split <;> rfl

lemma endCall_admissions {token : Token} {claim : Claim μ} {attempts : ℕ} {hash : SourceHash}
    {answer : RemoteAnswer} :
    (s.endCall config token claim attempts hash answer).admissions = s.admissions := by
  unfold endCall
  split <;> rfl

lemma IdentityInvariant.step {a : ModerationAction μ χ} (h : IdentityInvariant config s)
    (hstep : s.step config a = some s') : IdentityInvariant config s' := by
  have hsame : (∀ worker batchSize leaseSeconds locked,
      a ≠ .claimJobs worker batchSize leaseSeconds locked) → s'.admissions = s.admissions →
      IdentityInvariant config s' := fun ha hadmissions =>
    h.of_ungranting (step_ungranting hstep ha) hstep fun new hnew => .inl (hadmissions ▸ hnew)
  cases step_cases hstep with
  | tick | writeDetail | expireLeases => exact hsame (by simp) rfl
  | readMissing contentItems =>
    refine h.of_ungranting (step_ungranting hstep (by simp)) hstep fun new hnew => ?_
    rcases List.mem_append.mp hnew with hold | hread
    · exact .inl hold
    · rw [List.mem_singleton.mp hread]
      exact .inr fun key hkey => isConfigured_of_mem_missing hkey
  | createMissing _ =>
    refine h.of_ungranting (step_ungranting hstep (by simp)) hstep fun new hnew => .inl ?_
    exact List.mem_of_mem_eraseIdx hnew
  | claimJobs worker batchSize leaseSeconds locked =>
    apply claimModerationJobs_induction config (IdentityInvariant config)
    · have hexpire : s.step config .expireLeases = some s.expireLeases := rfl
      exact h.of_ungranting (step_ungranting hexpire (by simp)) hexpire fun new hnew => .inl hnew
    · exact fun t ht => ⟨ht.job, ht.admission, ht.claim⟩
    · intro t identity job _ hrow _ ht
      have hidentity := ht.job identity job hrow
      constructor
      · intro key job' hget
        rcases Table.get?_set_cases hget with ⟨rfl, -⟩ | hget
        · exact hidentity
        · exact ht.job key job' hget
      · exact ht.admission
      · intro token claim hget
        rcases Table.get?_set_cases hget with ⟨-, rfl⟩ | hget
        · exact hidentity
        · exact ht.claim token claim hget
  | advance _ hclaimed =>
    apply hsame (by simp)
    cases hclaimed with
    | move | retry | finish => rfl
    | classify => exact classify_admissions
  | answer =>
    apply hsame (by simp)
    exact endCall_admissions

theorem reachable_identityInvariant (h : (moderationSystem config).Reachable s) :
    IdentityInvariant config s := by
  refine h.invariant ?_ fun _ _ _ hI hstep => hI.step hstep
  rintro _ rfl
  exact .empty

/-! ### The judgment table -/

/-- What holds of the judgments in every reachable state. -/
structure JudgmentInvariant (config : ModerationConfig μ χ) (s : ModerationState μ χ) : Prop where
  status : ∀ key row, s.judgments.rows.get? key = some row → row.status = .complete
  revision : ∀ key row, s.judgments.rows.get? key = some row →
    key.questionRevision = config.settings.questionRevision
  requested : ∀ key row, s.judgments.rows.get? key = some row →
    row.requestedModel = config.settings.moderationModel
  requestedAt : ∀ key row, s.judgments.rows.get? key = some row → row.requestedAt ≤ s.clock
  id : ∀ key row, s.judgments.rows.get? key = some row → row.id < s.judgments.nextId
  distinct : ∀ key key' row row', s.judgments.rows.get? key = some row →
    s.judgments.rows.get? key' = some row' → row.id = row'.id → key = key'

lemma JudgmentInvariant.empty : JudgmentInvariant config (.empty μ χ) := by
  constructor <;> simp [ModerationState.empty]

/-- What is stored is for the revision and the model of the settings. -/
lemma Stores.configured {a : ModerationAction μ χ} {new : NewJudgment}
    (h : Stores config s new a) (hi : IdentityInvariant config s) :
    new.key.questionRevision = config.settings.questionRevision ∧
    new.requestedModel = config.settings.moderationModel := by
  have hmodel : ∀ token claim, s.claims.get? token = some claim →
      (if claim.job.requestedModel = "" then config.settings.moderationModel
        else claim.job.requestedModel) = config.settings.moderationModel := by
    intro token claim hclaim
    rw [hi.claim token claim hclaim]
    split_ifs <;> rfl
  cases h with
  | rule hclaim _ hnew =>
    obtain ⟨main, children, hash, -, -, -, rfl⟩ := ruleJudgment_eq_some _ _ hnew
    exact ⟨rfl, hmodel _ _ hclaim⟩
  | answer hclaim _ hnew =>
    obtain ⟨modelName, classification, rfl⟩ := answerJudgment_eq_some _ hnew
    exact ⟨rfl, hmodel _ _ hclaim⟩

lemma JudgmentInvariant.step {a : ModerationAction μ χ} (h : JudgmentInvariant config s)
    (hi : IdentityInvariant config s) (hstep : s.step config a = some s') :
    JudgmentInvariant config s' := by
  have hclock := clock_le_of_step hstep
  have hjudgments := step_judgments hstep
  cases hnew : judgmentToStore config s a with
  | none =>
    rw [hnew] at hjudgments
    have hsame : s'.judgments = s.judgments := hjudgments
    constructor <;> rw [hsame]
    · exact h.status
    · exact h.revision
    · exact h.requested
    · exact fun key row hrow => (h.requestedAt key row hrow).trans hclock
    · exact h.id
    · exact h.distinct
  | some new =>
    rw [hnew] at hjudgments
    obtain ⟨hrevision, hrequested⟩ := (stores_of_judgmentToStore hnew).1.configured hi
    -- a row is the new one or was there before
    have hcases : ∀ key row, s'.judgments.rows.get? key = some row →
        (key = new.key ∧ row = (s.judgments.insert s.clock new.key new.classification
          new.requestedModel).1) ∨ s.judgments.rows.get? key = some row := by
      intro key row hrow
      rw [hjudgments] at hrow
      exact Table.get?_set_cases hrow
    have hnext : s'.judgments.nextId = s.judgments.nextId + 1 := by rw [hjudgments]; rfl
    constructor
    · intro key row hrow
      rcases hcases key row hrow with ⟨rfl, rfl⟩ | hold
      · rfl
      · exact h.status key row hold
    · intro key row hrow
      rcases hcases key row hrow with ⟨rfl, rfl⟩ | hold
      · exact hrevision
      · exact h.revision key row hold
    · intro key row hrow
      rcases hcases key row hrow with ⟨rfl, rfl⟩ | hold
      · exact hrequested
      · exact h.requested key row hold
    · intro key row hrow
      rcases hcases key row hrow with ⟨rfl, rfl⟩ | hold
      · exact hclock
      · exact (h.requestedAt key row hold).trans hclock
    · intro key row hrow
      rw [hnext]
      rcases hcases key row hrow with ⟨rfl, rfl⟩ | hold
      · exact Nat.lt_succ_self _
      · exact (h.id key row hold).trans (Nat.lt_succ_self _)
    · intro key key' row row' hrow hrow' hid
      rcases hcases key row hrow with ⟨rfl, rfl⟩ | hold
      · rcases hcases key' row' hrow' with ⟨rfl, rfl⟩ | hold'
        · rfl
        · exact absurd hid (h.id key' row' hold').ne'
      · rcases hcases key' row' hrow' with ⟨rfl, rfl⟩ | hold'
        · exact absurd hid (h.id key row hold).ne
        · exact h.distinct key key' row row' hold hold' hid

theorem reachable_judgmentInvariant (h : (moderationSystem config).Reachable s) :
    JudgmentInvariant config s := by
  refine h.invariant_of (fun _ => reachable_identityInvariant) ?_
    fun _ _ _ hi hI hstep => hI.step hi hstep
  rintro _ rfl
  exact .empty

/-- Under one model and revision, every judgment of a text is a success for its identity. -/
lemma JudgmentInvariant.hasCurrentSuccess_iff (h : JudgmentInvariant config s) {item : ItemId}
    {hash : SourceHash} :
    hasCurrentSuccess s.judgments.rows (config.settings.identity item hash) = true ↔
    ∃ key row, s.judgments.rows.get? key = some row ∧ key.contentItem = item ∧
      key.sourceDataHash = hash := by
  rw [hasCurrentSuccess, Table.any_eq_true_iff]
  constructor
  · rintro ⟨key, row, hrow, hmatch⟩
    simp only [Bool.and_eq_true, decide_eq_true_eq] at hmatch
    exact ⟨key, row, hrow, hmatch.1.1.1.1, hmatch.1.1.1.2⟩
  · rintro ⟨key, row, hrow, rfl, rfl⟩
    refine ⟨key, row, hrow, ?_⟩
    have hmatch : matchesRequestedModel config.settings.moderationModel key row = true := by
      simp [matchesRequestedModel, h.requested key row hrow]
    simp [ModerationSettings.identity, h.revision key row hrow, h.status key row hrow, hmatch]

end ModerationState

end Denn
