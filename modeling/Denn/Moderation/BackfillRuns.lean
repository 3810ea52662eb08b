import Denn.Core.Except
import Denn.Moderation.Backfill
import Mathlib.Algebra.GroupWithZero.Nat

/-!
# Backfill runs

A run is a fold of `attemptItem` over the first items that its limit allows, whatever the size of
its pages. What holds of a run, and of several runs that resume from each other, is read off the
fold.
-/

namespace Denn

open Core

/-! ### Reading pages -/

/-- The page is the beginning of what is left, and all of it if it was short. -/
structure PageIterator.Reads (keys : List ItemId) (iterator : PageIterator) : Prop where
  page : iterator.page <+: keysAfter keys iterator.lastId
  all : iterator.short = true → iterator.page = keysAfter keys iterator.lastId

/-- What a call of the generator returns. -/
inductive PageIterator.Yields (keys : List ItemId) (cursor : ItemId) :
    Option (ItemId × PageIterator) → Prop
  | stop (hover : keysAfter keys cursor = []) : Yields keys cursor none
  | item {item : ItemId} {iterator : PageIterator}
      (hcons : keysAfter keys cursor = item :: keysAfter keys iterator.lastId)
      (hlast : iterator.lastId = item) (hreads : iterator.Reads keys) :
      Yields keys cursor (some (item, iterator))

variable {keys : List ItemId} {fetch : FetchPage}

lemma PageIterator.Reads.take {iterator : PageIterator} (h : iterator.Reads keys)
    (hkeys : keys.Pairwise (· < ·))
    (hover : iterator.page = [] → keysAfter keys iterator.lastId = []) :
    ∃ next, iterator.take = .ok next ∧ PageIterator.Yields keys iterator.lastId next := by
  unfold PageIterator.take
  cases hpage : iterator.page with
  | nil => exact ⟨none, rfl, .stop (hover hpage)⟩
  | cons item page =>
    obtain ⟨rest, hrest⟩ := h.page
    rw [hpage] at hrest
    have hcons : keysAfter keys iterator.lastId = item :: (page ++ rest) := hrest.symm
    have htail := keysAfter_of_cons hkeys hcons
    have hlt : iterator.lastId < item := (mem_keysAfter.mp (hcons ▸ List.mem_cons_self ..)).2
    simp only [not_le.mpr hlt, if_false]
    refine ⟨_, rfl, .item ?_ rfl ⟨?_, fun hshort => ?_⟩⟩
    · rw [htail]
      exact hcons
    · rw [htail]
      exact List.prefix_append ..
    · have hall := h.all hshort
      rw [hpage, hcons, List.cons.injEq] at hall
      rw [htail]
      exact hall.2

theorem PageIterator.Reads.next {iterator : PageIterator} (h : iterator.Reads keys)
    (hfetch : FetchesKeys keys fetch) {batchSize : ℕ} (hsize : 0 < batchSize) :
    ∃ next, iterator.next fetch batchSize = .ok next ∧
      PageIterator.Yields keys iterator.lastId next := by
  unfold PageIterator.next
  by_cases hnew : (iterator.page = [] && !iterator.short) = true
  · rw [if_pos hnew, hfetch.page]
    have hreads : PageIterator.Reads keys { iterator with
        page := pageAfter keys iterator.lastId batchSize
        short := (pageAfter keys iterator.lastId batchSize).length < batchSize } := by
      refine ⟨List.take_prefix .., fun hshort => ?_⟩
      simp only [pageAfter, List.length_take, decide_eq_true_eq] at hshort
      apply List.take_of_length_le
      omega
    refine hreads.take hfetch.sorted fun hempty => ?_
    rcases List.take_eq_nil_iff.mp hempty with hzero | hover
    · omega
    · exact hover
  · rw [if_neg hnew]
    refine h.take hfetch.sorted fun hempty => ?_
    have hshort : iterator.short = true := by simpa [hempty] using hnew
    rw [← h.all hshort, hempty]

/-! ### The loop as a fold -/

section

variable {σ : Type} {classify : σ → ItemId → ClassifyResult × σ} {config : BackfillRunConfig}

/-- The items that a run with the limit takes of those that are there. -/
def BackfillRunConfig.first (config : BackfillRunConfig) (attempted : ℕ) (items : List ItemId) :
    List ItemId :=
  if config.limit = 0 then items else items.take (config.limit - attempted)

lemma BackfillRunConfig.first_nil (attempted : ℕ) : config.first attempted [] = [] := by
  simp [BackfillRunConfig.first]

lemma BackfillRunConfig.first_of_not_hasLeft {attempted : ℕ}
    (h : config.hasLeft attempted = false) (items : List ItemId) :
    config.first attempted items = [] := by
  simp only [BackfillRunConfig.hasLeft, Bool.or_eq_false_iff, decide_eq_false_iff_not, not_lt] at h
  simp [BackfillRunConfig.first, h.1, Nat.sub_eq_zero_of_le h.2]

lemma BackfillRunConfig.first_of_hasLeft {attempted : ℕ} (h : config.hasLeft attempted = true)
    (item : ItemId) (items : List ItemId) :
    config.first attempted (item :: items) = item :: config.first (attempted + 1) items := by
  simp only [BackfillRunConfig.hasLeft, Bool.or_eq_true, decide_eq_true_eq] at h
  unfold BackfillRunConfig.first
  split_ifs with hlimit
  · rfl
  · have hsub : config.limit - attempted = config.limit - (attempted + 1) + 1 := by omega
    rw [hsub, List.take_succ_cons]

lemma attemptItem_attempted {state state' : RunState σ} {item : ItemId}
    (h : attemptItem classify config state item = .ok state') :
    state'.attempted = state.attempted + 1 := by
  unfold attemptItem at h
  simp only at h
  obtain ⟨⟨metrics, event⟩, -, h⟩ := bind_eq_ok h
  cases h
  rfl

/-- What the loop does from a pending item on: each item that the limit allows is attempted in its
    turn. -/
theorem runLoop_eq (hfetch : FetchesKeys keys fetch) {cursor : ItemId}
    {pending : Option (ItemId × PageIterator)} (state : RunState σ)
    (hpending : PageIterator.Yields keys cursor pending ∨
      (pending = none ∧ config.hasLeft state.attempted = false))
    {fuel : ℕ} (hfuel : (keysAfter keys cursor).length < fuel) :
    runLoop classify fetch config fuel pending state
      = ((config.first state.attempted (keysAfter keys cursor)).foldlM
          (attemptItem classify config) state).map some := by
  induction fuel generalizing cursor pending state with
  | zero => omega
  | succ fuel ih =>
    cases hleft : config.hasLeft state.attempted with
    | false =>
      rw [BackfillRunConfig.first_of_not_hasLeft hleft]
      cases pending with
      | none => rfl
      | some pending =>
        simp only [runLoop, hleft, Bool.false_eq_true, if_false]
        rfl
    | true =>
      rcases hpending with hyields | ⟨-, hnot⟩
      · cases hyields with
        | stop hover =>
          rw [hover, BackfillRunConfig.first_nil]
          rfl
        | @item item iterator hcons hlast hreads =>
          rw [hcons, BackfillRunConfig.first_of_hasLeft hleft, List.foldlM_cons]
          simp only [runLoop, hleft, if_true]
          cases hattempt : attemptItem classify config state item with
          | error error => rfl
          | ok state' =>
            have hattempted := attemptItem_attempted hattempt
            have hfuel' : (keysAfter keys iterator.lastId).length < fuel := by
              rw [hcons, List.length_cons] at hfuel
              omega
            rw [← hattempted, ok_bind, ok_bind]
            cases hleft' : config.hasLeft state'.attempted with
            | false => exact ih state' (.inr ⟨rfl, hleft'⟩) hfuel'
            | true =>
              obtain ⟨next, hnext, hyields⟩ := hreads.next hfetch config.batchSize_pos
              rw [if_pos rfl, hnext, ok_bind]
              exact ih state' (.inl hyields) hfuel'
      · simp [hleft] at hnot

/-- A run attempts the first items after its start, in ascending order, as many as its limit
    allows. -/
theorem runBackfill_eq (hfetch : FetchesKeys keys fetch) (classifier : σ) {fuel : ℕ}
    (hfuel : (keysAfter keys config.afterId).length < fuel) :
    runBackfill classify fetch config fuel classifier
      = ((config.first 0 (keysAfter keys config.afterId)).foldlM (attemptItem classify config)
          (startState config classifier)).map some := by
  have hstart : ({ lastId := config.afterId } : PageIterator).Reads keys :=
    ⟨List.nil_prefix, fun h => by cases h⟩
  obtain ⟨pending, hnext, hyields⟩ := hstart.next hfetch config.batchSize_pos
  unfold runBackfill
  simp only [hnext]
  exact runLoop_eq hfetch (startState config classifier) (.inl hyields) hfuel

/-! ### Outcomes -/

/-- Token counts as the provider reports them. -/
def Observation.CountsTokens (observation : Observation) : Prop :=
  ∀ usage ∈ observation.usage,
    (∀ count ∈ usage.inputTokens, 0 ≤ count) ∧ ∀ count ∈ usage.outputTokens, 0 ≤ count

/-- The shape of what `classify_content_item` does. -/
def ClassifyResult.HasShape : ClassifyResult → Prop
  | .raised => True
  | .outcome kind _ observation =>
    (kind = "skipped" ∨ kind = "unavailable") ∧ observation.CountsTokens
  | .judgment _ _ _ observation => observation.CountsTokens

/-- The outcomes that are counted. -/
def BackfillMetrics.outcomes (metrics : BackfillMetrics) : ℕ :=
  metrics.created + metrics.reused + metrics.skipped + metrics.unavailable + metrics.error

/-- The outcome of one item is counted once, and what says how far the run is stays. -/
structure Accounted (metrics metrics' : BackfillMetrics) : Prop where
  outcomes : metrics'.outcomes = metrics.outcomes + 1
  scanned : metrics'.scanned = metrics.scanned
  lastId : metrics'.lastId = metrics.lastId

lemma countOutcome_accounted (metrics : BackfillMetrics) (itemId : ItemId) (kind : String)
    (reused : Bool) (classification : Option String) (providerOverride : Bool) :
    Accounted metrics
      (countOutcome metrics itemId kind reused classification providerOverride) := by
  unfold countOutcome
  split_ifs with hclassified hskipped hunavailable
  · constructor
    · cases reused <;> simp [BackfillMetrics.outcomes] <;> omega
    · rfl
    · rfl
  all_goals
    constructor
    · simp [BackfillMetrics.outcomes]
      try omega
    · rfl
    · rfl

lemma requireTokenCount_ok {value : Option ℤ} (h : ∀ count ∈ value, 0 ≤ count) (field : String) :
    requireTokenCount value field = .ok value := by
  cases value with
  | none => rfl
  | some count =>
    have hcount : 0 ≤ count := h count rfl
    simp [requireTokenCount, not_lt.mpr hcount]

lemma countTokens_ok (metrics : BackfillMetrics) {usage : Option Usage}
    (h : ∀ u ∈ usage, (∀ count ∈ u.inputTokens, 0 ≤ count) ∧ ∀ count ∈ u.outputTokens, 0 ≤ count) :
    ∃ metrics', countTokens metrics usage = .ok metrics' ∧ metrics'.outcomes = metrics.outcomes ∧
      metrics'.scanned = metrics.scanned ∧ metrics'.lastId = metrics.lastId := by
  have hinput : ∀ count ∈ usage.bind (·.inputTokens), 0 ≤ count := by
    intro count hcount
    obtain ⟨u, hu, hcount⟩ := Option.bind_eq_some_iff.mp hcount
    exact (h u hu).1 count hcount
  have houtput : ∀ count ∈ usage.bind (·.outputTokens), 0 ≤ count := by
    intro count hcount
    obtain ⟨u, hu, hcount⟩ := Option.bind_eq_some_iff.mp hcount
    exact (h u hu).2 count hcount
  unfold countTokens
  rw [requireTokenCount_ok hinput, ok_bind, requireTokenCount_ok houtput, ok_bind]
  split_ifs
  · exact ⟨_, rfl, rfl, rfl, rfl⟩
  · exact ⟨_, rfl, rfl, rfl, rfl⟩

lemma accountItem_ok (metrics : BackfillMetrics) (itemId : ItemId) {kind : String}
    (hkind : kind ∈ outcomeKinds) {observation : Observation} (h : observation.CountsTokens)
    (classification modelName : Option String) (providerOverride : Bool) (code : Option String) :
    ∃ metrics' event, accountItem metrics itemId kind observation classification modelName
        providerOverride code = .ok (metrics', event) ∧ Accounted metrics metrics' ∧
      event.itemId = itemId := by
  have hcount := countOutcome_accounted metrics itemId kind observation.reused classification
    providerOverride
  unfold accountItem
  rw [if_neg (not_not.mpr hkind)]
  cases observation.called with
  | false => exact ⟨_, _, rfl, hcount, rfl⟩
  | true =>
    obtain ⟨metrics', hok, houtcomes, hscanned, hlast⟩ := countTokens_ok
      (countOutcome metrics itemId kind observation.reused classification providerOverride) h
    simp only [if_true, hok]
    exact ⟨metrics', _, rfl, ⟨houtcomes.trans hcount.outcomes, hscanned.trans hcount.scanned,
      hlast.trans hcount.lastId⟩, rfl⟩

/-- Whatever the classifier does within its shape is accounted for. -/
lemma accountResult_ok (metrics : BackfillMetrics) (itemId : ItemId) {result : ClassifyResult}
    (h : result.HasShape) :
    ∃ metrics' event, accountResult metrics itemId result = .ok (metrics', event) ∧
      Accounted metrics metrics' ∧ event.itemId = itemId := by
  cases result with
  | raised =>
    have hkind : "error" ∈ outcomeKinds := by decide
    have hcounts : ({} : Observation).CountsTokens := by simp [Observation.CountsTokens]
    exact accountItem_ok metrics itemId hkind hcounts none none false _
  | outcome kind code observation =>
    refine accountItem_ok metrics itemId ?_ h.2 none none false code
    rcases h.1 with rfl | rfl <;> decide
  | judgment classification modelName providerExplicit observation =>
    exact accountItem_ok metrics itemId (by decide) h _ _ _ none

/-- The items of the item events. -/
def eventItems (events : List BackfillEvent) : List ItemId :=
  events.filterMap fun
    | .item event => some event.itemId
    | .progress _ _ _ _ _ _ _ => none

/-- What holds when some items have been attempted. -/
structure Attempted (classify : σ → ItemId → ClassifyResult × σ) (config : BackfillRunConfig)
    (classifier : σ) (done : List ItemId) (state : RunState σ) : Prop where
  classified : state.classified = done
  events : eventItems state.events = done
  classifier : state.classifier = done.foldl (fun s item => (classify s item).2) classifier
  scanned : state.metrics.scanned = done.length
  outcomes : state.metrics.scanned = state.metrics.outcomes
  lastId : state.metrics.lastId = done.getLastD config.afterId

lemma Attempted.start (classifier : σ) :
    Attempted classify config classifier [] (startState config classifier) := by
  constructor <;> rfl

lemma Attempted.attempt {classifier : σ} (hshape : ∀ s item, (classify s item).1.HasShape)
    (done : List ItemId) (item : ItemId) (state : RunState σ)
    (h : Attempted classify config classifier done state) :
    ∃ state', attemptItem classify config state item = .ok state' ∧
      Attempted classify config classifier (done ++ [item]) state' := by
  obtain ⟨metrics, event, hok, haccounted, hitem⟩ := accountResult_ok
    { state.metrics with scanned := state.metrics.scanned + 1, lastId := item } item
    (hshape state.classifier item)
  unfold attemptItem
  simp only [hok]
  refine ⟨_, rfl, ?_⟩
  constructor
  · simp only [h.classified]
  · simp only [eventItems, List.filterMap_append, List.filterMap_cons, hitem]
    rw [← eventItems, h.events]
    split_ifs <;> rfl
  · simp only [List.foldl_append, List.foldl_cons, List.foldl_nil, h.classifier]
  · rw [haccounted.scanned, List.length_append, h.scanned]
    rfl
  · rw [haccounted.scanned, haccounted.outcomes, h.outcomes]
    rfl
  · rw [haccounted.lastId]
    simp

/-- A run whose classifier keeps to its shape attempts each of the first items. -/
theorem exists_runBackfill (hfetch : FetchesKeys keys fetch)
    (hshape : ∀ s item, (classify s item).1.HasShape) (classifier : σ) {fuel : ℕ}
    (hfuel : (keysAfter keys config.afterId).length < fuel) :
    ∃ state, runBackfill classify fetch config fuel classifier = .ok (some state) ∧
      Attempted classify config classifier (config.first 0 (keysAfter keys config.afterId))
        state := by
  obtain ⟨state, hok, hattempted⟩ := exists_foldlM_eq_ok (Attempted.attempt hshape)
    (config.first 0 (keysAfter keys config.afterId)) []
    (Attempted.start classifier)
  refine ⟨state, ?_, hattempted⟩
  rw [runBackfill_eq hfetch classifier hfuel, hok]
  rfl

/-! ### Resuming -/

/-- What a sequence of runs leaves: the items handed to the classifier, the last id, and the state of
    the classifier. -/
structure BackfillTrace (σ : Type) where
  classified : List ItemId
  lastId : ItemId
  classifier : σ

def RunState.trace (state : RunState σ) : BackfillTrace σ :=
  ⟨state.classified, state.metrics.lastId, state.classifier⟩

/-- Runs that each resume from the last id of the one before. -/
def runBackfills (classify : σ → ItemId → ClassifyResult × σ) (fetch : FetchPage) (fuel : ℕ) :
    List BackfillRunConfig → ItemId → σ → Except BackfillError (Option (BackfillTrace σ))
  | [], afterId, classifier => .ok (some ⟨[], afterId, classifier⟩)
  | config :: configs, afterId, classifier => do
    match ← runBackfill classify fetch { config with afterId } fuel classifier with
    | none => return none
    | some state =>
      let rest ← runBackfills classify fetch fuel configs state.metrics.lastId state.classifier
      return rest.map fun rest => { rest with classified := state.classified ++ rest.classified }

/-- The trace of a run over given items. -/
def traceOf (classify : σ → ItemId → ClassifyResult × σ) (afterId : ItemId) (classifier : σ)
    (items : List ItemId) : BackfillTrace σ :=
  ⟨items, items.getLastD afterId, items.foldl (fun s item => (classify s item).2) classifier⟩

lemma Attempted.trace {classifier : σ} {done : List ItemId} {state : RunState σ}
    (h : Attempted classify config classifier done state) :
    state.trace = traceOf classify config.afterId classifier done := by
  rw [RunState.trace, h.classified, h.lastId, h.classifier, traceOf]

lemma getLastD_append {α : Type} (xs ys : List α) (a : α) :
    (xs ++ ys).getLastD a = ys.getLastD (xs.getLastD a) := by
  induction xs generalizing a with
  | nil => rfl
  | cons x xs ih =>
    rw [List.cons_append, List.getLastD_cons, List.getLastD_cons]
    exact ih x

/-- Runs with limits attempt what one run with the sum of the limits does. -/
theorem runBackfills_eq (hfetch : FetchesKeys keys fetch)
    (hshape : ∀ s item, (classify s item).1.HasShape) {fuel : ℕ} (configs : List BackfillRunConfig)
    (hlimits : ∀ config ∈ configs, config.limit ≠ 0) (afterId : ItemId) (classifier : σ)
    (hfuel : (keysAfter keys afterId).length < fuel) :
    runBackfills classify fetch fuel configs afterId classifier
      = .ok (some (traceOf classify afterId classifier
          ((keysAfter keys afterId).take (configs.map (·.limit)).sum))) := by
  induction configs generalizing afterId classifier with
  | nil => rfl
  | cons config configs ih =>
    have hlimit : config.limit ≠ 0 := hlimits config (List.mem_cons_self ..)
    obtain ⟨state, hrun, hattempted⟩ := @exists_runBackfill keys fetch σ classify
      { config with afterId } hfetch hshape classifier fuel hfuel
    have hfirst : BackfillRunConfig.first { config with afterId } 0 (keysAfter keys afterId)
        = (keysAfter keys afterId).take config.limit := by
      simp [BackfillRunConfig.first, hlimit]
    rw [hfirst] at hattempted
    have hsplit := List.take_append_drop config.limit (keysAfter keys afterId)
    have hresume := keysAfter_of_append hfetch.sorted hsplit.symm
    have hrest : (keysAfter keys state.metrics.lastId).length < fuel := by
      rw [hattempted.lastId, hresume, List.length_drop]
      omega
    have hconfigs := ih (fun config hmem => hlimits config (List.mem_cons_of_mem _ hmem))
      state.metrics.lastId state.classifier hrest
    rw [runBackfills, hrun, ok_bind]
    simp only [hconfigs, ok_bind]
    rw [hattempted.lastId, hresume]
    simp only [traceOf, hattempted.classified, hattempted.classifier, List.map_cons, List.sum_cons,
      Option.map_some]
    rw [List.take_add, List.foldl_append, getLastD_append]
    rfl

end

/-- The two fetchers of the command: of the whole table, and of ids that have passed the
    preflight. -/
inductive BackfillFetcher (catalogue : Finset ItemId) : List ItemId → FetchPage → Prop
  | table : BackfillFetcher catalogue catalogue.sort (fetchPage catalogue)
  | exact {ids resolved : List ItemId} (hnodup : ids.Nodup)
      (hresolved : resolveExactIds catalogue ids = .ok resolved) :
      BackfillFetcher catalogue resolved (fetchExactPage catalogue resolved)

lemma BackfillFetcher.fetchesKeys {catalogue : Finset ItemId} {keys : List ItemId}
    {fetch : FetchPage} (h : BackfillFetcher catalogue keys fetch) : FetchesKeys keys fetch := by
  cases h with
  | table => exact fetchesKeys_fetchPage catalogue
  | exact hnodup hresolved =>
    obtain ⟨hsorted, -, hexist⟩ := resolveExactIds_ok hnodup hresolved
    exact fetchesKeys_fetchExactPage hsorted hexist

/-- A run classifies exactly the first items after its start, as many as its limit (all if that is
    zero), once and in ascending order, and counts each outcome once; runs with limits that resume
    from each other classify what one run with the sum of the limits does. -/
theorem backfill_exact {σ : Type} {catalogue : Finset ItemId} {keys : List ItemId}
    {fetch : FetchPage} (hfetch : BackfillFetcher catalogue keys fetch)
    {classify : σ → ItemId → ClassifyResult × σ}
    (hshape : ∀ s item, (classify s item).1.HasShape) (config : BackfillRunConfig) (classifier : σ)
    {fuel : ℕ} (hfuel : (keysAfter keys config.afterId).length < fuel) :
    ∃ state, runBackfill classify fetch config fuel classifier = .ok (some state) ∧
      state.classified = (if config.limit = 0 then keysAfter keys config.afterId
        else (keysAfter keys config.afterId).take config.limit) ∧
      state.classified.Pairwise (· < ·) ∧
      eventItems state.events = state.classified ∧
      state.classifier = state.classified.foldl (fun s item => (classify s item).2) classifier ∧
      state.metrics.scanned = state.metrics.created + state.metrics.reused + state.metrics.skipped
        + state.metrics.unavailable + state.metrics.error ∧
      ∀ configs : List BackfillRunConfig, configs ≠ [] → (∀ part ∈ configs, part.limit ≠ 0) →
        (configs.map (·.limit)).sum = config.limit →
        runBackfills classify fetch fuel configs config.afterId classifier
          = .ok (some state.trace) := by
  have hkeys := hfetch.fetchesKeys
  obtain ⟨state, hrun, hattempted⟩ := exists_runBackfill hkeys hshape classifier hfuel
  have hsorted := sorted_keysAfter hkeys.sorted config.afterId
  refine ⟨state, hrun, ?_, ?_, ?_, ?_, hattempted.outcomes, ?_⟩
  · rw [hattempted.classified, BackfillRunConfig.first, Nat.sub_zero]
  · rw [hattempted.classified, BackfillRunConfig.first]
    split_ifs
    · exact hsorted
    · exact hsorted.sublist (List.take_sublist ..)
  · rw [hattempted.events, hattempted.classified]
  · rw [hattempted.classifier, hattempted.classified]
  · intro configs hne hlimits hsum
    have hlimit : config.limit ≠ 0 := by
      obtain ⟨part, hpart⟩ := List.exists_mem_of_ne_nil configs hne
      rw [← hsum]
      intro hzero
      exact hlimits part hpart
        (List.sum_eq_zero_iff_forall_eq_nat.mp hzero _ (List.mem_map.mpr ⟨part, hpart, rfl⟩))
    rw [runBackfills_eq hkeys hshape configs hlimits config.afterId classifier hfuel, hsum,
      hattempted.trace, BackfillRunConfig.first, if_neg hlimit, Nat.sub_zero]

/-- A classifier that raises for one item. -/
def raisingClassifier (raising : ItemId) (state : Unit) (item : ItemId) : ClassifyResult × Unit :=
  (if item = raising then .raised else .judgment "unknown" "jev-1.13.0" false {}, state)

lemma raisingClassifier_hasShape (raising : ItemId) (state : Unit) (item : ItemId) :
    (raisingClassifier raising state item).1.HasShape := by
  unfold raisingClassifier
  split_ifs
  · trivial
  · simp [ClassifyResult.HasShape, Observation.CountsTokens]

lemma keysAfter_range_four : keysAfter (Finset.range 4).sort 0 = [1, 2, 3] := by
  rw [Finset.sort_range]
  decide

/-- The classifier raises for the first of two items, and a page holds one item. -/
theorem backfill_exact_raising :
    ∃ state, runBackfill (raisingClassifier 1) (fetchPage (Finset.range 4))
        { limit := 2, batchSize := 1 } 4 () = .ok (some state) ∧
      state.classified = [1, 2] ∧
      state.metrics.scanned = state.metrics.created + state.metrics.reused + state.metrics.skipped
        + state.metrics.unavailable + state.metrics.error := by
  have hfuel : (keysAfter (Finset.range 4).sort 0).length < 4 := by
    rw [keysAfter_range_four]
    decide
  obtain ⟨state, hrun, hclassified, -, -, -, houtcomes, -⟩ := backfill_exact
    (.table : BackfillFetcher (Finset.range 4) _ _) (raisingClassifier_hasShape 1)
    { limit := 2, batchSize := 1 } () hfuel
  refine ⟨state, hrun, ?_, houtcomes⟩
  rw [hclassified, keysAfter_range_four]
  rfl

/-- A limit of zero is no limit: all items are classified, and not the first zero of them. -/
theorem unlimited_backfill_classifies_all :
    ¬ ∀ (config : BackfillRunConfig) (fuel : ℕ) (state : RunState Unit),
      runBackfill (raisingClassifier 1) (fetchPage (Finset.range 4)) config fuel ()
        = .ok (some state) →
      state.classified = (keysAfter (Finset.range 4).sort config.afterId).take config.limit := by
  intro hclaim
  obtain ⟨state, hrun, hattempted⟩ := @exists_runBackfill _ _ _ _ { limit := 0 }
    (fetchesKeys_fetchPage (Finset.range 4)) (raisingClassifier_hasShape 1) () 4
    (by rw [keysAfter_range_four]; decide)
  have hnone := hclaim { limit := 0 } 4 state hrun
  rw [hattempted.classified, keysAfter_range_four] at hnone
  cases hnone

end Denn
