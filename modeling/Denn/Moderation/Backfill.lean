import Denn.Content.Item
import Denn.Core.Paging
import Denn.Core.Table
import Mathlib.Data.Finset.Sort

/-!
# The moderation backfill

`run_backfill` reads content items page by page in ascending id, classifies each and accounts for
the outcome. The classifier is a parameter with a state of its own, which stands for everything its
calls depend on and change. Durations and delays are left out.
-/

namespace Denn

open Core

/-! ### Metrics -/

/-- Why a run aborts. -/
inductive BackfillError where
  | unknownOutcomeKind (kind : String)
  | invalidTokenCount (field : String)
  | nonAdvancingPage (after got : ItemId)
  | missingIds (ids : List ItemId)
  deriving DecidableEq, Repr

/-- Retry identifiers, of which only the first are kept. -/
structure RetryIds where
  maxIds : ℕ
  ids : List ItemId := []
  dropped : ℕ := 0

def RetryIds.add (retry : RetryIds) (item : ItemId) : RetryIds :=
  if retry.ids.length < retry.maxIds then { retry with ids := retry.ids ++ [item] }
  else { retry with dropped := retry.dropped + 1 }

def classificationBuckets : List String :=
  ["safe_for_automatic_discovery", "explicit_or_sensitive", "needs_review", "unknown"]

structure BackfillMetrics where
  lastId : ItemId
  scanned : ℕ := 0
  created : ℕ := 0
  reused : ℕ := 0
  providerOverride : ℕ := 0
  skipped : ℕ := 0
  unavailable : ℕ := 0
  error : ℕ := 0
  inputTokens : ℤ := 0
  outputTokens : ℤ := 0
  missingUsage : ℕ := 0
  buckets : Table String ℕ := Table.empty.assign (fun _ => some 0) classificationBuckets
  failedIds : RetryIds
  unavailableIds : RetryIds

structure Usage where
  inputTokens : Option ℤ
  outputTokens : Option ℤ
  deriving DecidableEq, Repr

/-- The facts of one call that the classifier fills in. -/
structure Observation where
  reused : Bool := false
  called : Bool := false
  usage : Option Usage := none
  deriving DecidableEq, Repr

structure ItemEvent where
  itemId : ItemId
  outcome : String
  code : Option String
  classification : Option String
  modelName : Option String
  providerOverride : Option Bool
  reused : Bool
  usage : Option Usage
  deriving DecidableEq, Repr

def outcomeKinds : List String := ["classified", "skipped", "unavailable", "error"]

def requireTokenCount (value : Option ℤ) (field : String) : Except BackfillError (Option ℤ) :=
  match value with
  | none => .ok none
  | some count => if count < 0 then .error (.invalidTokenCount field) else .ok (some count)

/-- The counters of an outcome. -/
def countOutcome (metrics : BackfillMetrics) (itemId : ItemId) (kind : String) (reused : Bool)
    (classification : Option String) (providerOverride : Bool) : BackfillMetrics :=
  if kind = "classified" then
    { metrics with
      providerOverride := metrics.providerOverride + if providerOverride then 1 else 0
      reused := metrics.reused + if reused then 1 else 0
      created := metrics.created + if reused then 0 else 1
      buckets :=
        match classification.filter (· ≠ "") with
        | some bucket => metrics.buckets.set bucket ((metrics.buckets.get? bucket).getD 0 + 1)
        | none => metrics.buckets }
  else if kind = "skipped" then { metrics with skipped := metrics.skipped + 1 }
  else if kind = "unavailable" then
    { metrics with
      unavailable := metrics.unavailable + 1, unavailableIds := metrics.unavailableIds.add itemId }
  else { metrics with error := metrics.error + 1, failedIds := metrics.failedIds.add itemId }

/-- The tokens of a call. -/
def countTokens (metrics : BackfillMetrics) (usage : Option Usage) :
    Except BackfillError BackfillMetrics := do
  let inputTokens ← requireTokenCount (usage.bind (·.inputTokens)) "input_tokens"
  let outputTokens ← requireTokenCount (usage.bind (·.outputTokens)) "output_tokens"
  if inputTokens.isNone && outputTokens.isNone then
    return { metrics with missingUsage := metrics.missingUsage + 1 }
  else
    return { metrics with
      inputTokens := metrics.inputTokens + inputTokens.getD 0
      outputTokens := metrics.outputTokens + outputTokens.getD 0 }

def accountItem (metrics : BackfillMetrics) (itemId : ItemId) (kind : String)
    (observation : Observation) (classification modelName : Option String)
    (providerOverride : Bool) (code : Option String) :
    Except BackfillError (BackfillMetrics × ItemEvent) :=
  if kind ∉ outcomeKinds then .error (.unknownOutcomeKind kind)
  else do
    let usage := if observation.called then observation.usage else none
    let metrics :=
      countOutcome metrics itemId kind observation.reused classification providerOverride
    let metrics ← if observation.called then countTokens metrics usage else .ok metrics
    return (metrics,
      { itemId, outcome := kind, code, classification, modelName
        providerOverride := if kind = "classified" then some providerOverride else none
        reused := observation.reused, usage })

/-! ### Pages -/

/-- A fetcher of pages: a cursor and a size. -/
abbrev FetchPage := ItemId → ℕ → Except BackfillError (List ItemId)

/-- `_fetch_page`: the items of the table after the cursor. -/
def fetchPage (catalogue : Finset ItemId) : FetchPage := fun afterId pageSize =>
  .ok (((catalogue.filter (afterId < ·)).sort).take pageSize)

/-- The number of ids up to a bound, in an ascending list. -/
def bisectRight (ids : List ItemId) (bound : ItemId) : ℕ := (ids.takeWhile (· ≤ bound)).length

/-- `_chunks` with the size of one query. -/
def chunks {α : Type} (values : List α) (size : ℕ) : List (List α) :=
  (List.range ((values.length + size - 1) / size)).map fun n => (values.drop (n * size)).take size

def idQueryChunkSize : ℕ := 500

/-- `ContentItem.objects.filter(pk__in=...)` in chunks, each ordered by the key. -/
def selectByIds (catalogue : Finset ItemId) (ids : List ItemId) : List ItemId :=
  (chunks ids idQueryChunkSize).flatMap fun chunk => (catalogue.filter (· ∈ chunk)).sort

/-- `_resolve_exact_ids`. -/
def resolveExactIds (catalogue : Finset ItemId) (ids : List ItemId) :
    Except BackfillError (List ItemId) :=
  let existing := selectByIds catalogue ids
  let missing := (ids.toFinset.filter (· ∉ existing)).sort
  if missing = [] then .ok (ids.insertionSort (· ≤ ·)) else .error (.missingIds missing)

/-- `_fetch_exact_page`: the next of the given ids, which have to be in the table. -/
def fetchExactPage (catalogue : Finset ItemId) (ids : List ItemId) : FetchPage :=
  fun afterId pageSize =>
    let pageIds := (ids.drop (bisectRight ids afterId)).take pageSize
    let items := selectByIds catalogue pageIds
    let missing := (pageIds.toFinset.filter (· ∉ items)).sort
    if missing = [] then .ok (items.insertionSort (· ≤ ·)) else .error (.missingIds missing)

/-- The generator `iter_ordered`: the last id that it has checked, what is left of its page, and
    whether that page was a short one. -/
structure PageIterator where
  lastId : ItemId
  page : List ItemId := []
  short : Bool := false

/-- The next item of a page, which has to be beyond the last one. -/
def PageIterator.take (iterator : PageIterator) :
    Except BackfillError (Option (ItemId × PageIterator)) :=
  match iterator.page with
  | [] => .ok none
  | item :: page =>
    if item ≤ iterator.lastId then .error (.nonAdvancingPage iterator.lastId item)
    else .ok (some (item, { iterator with lastId := item, page }))

/-- The next item, from a new page when one is over that was not short. -/
def PageIterator.next (fetch : FetchPage) (batchSize : ℕ) (iterator : PageIterator) :
    Except BackfillError (Option (ItemId × PageIterator)) :=
  if iterator.page = [] && !iterator.short then do
    let page ← fetch iterator.lastId batchSize
    { iterator with page, short := page.length < batchSize }.take
  else iterator.take

/-! ### The run -/

/-- A limit of zero is none. -/
structure BackfillRunConfig where
  afterId : ItemId := 0
  limit : ℕ := 0
  batchSize : ℕ := 200
  progressEvery : ℕ := 50
  maxRetryIds : ℕ := 100
  batchSize_pos : 0 < batchSize := by decide
  progressEvery_pos : 0 < progressEvery := by decide

/-- What the injected classifier does for an item: it raises, or returns a typed outcome or a
    judgment, having filled in its observation. -/
inductive ClassifyResult where
  | raised
  | outcome (kind : String) (code : Option String) (observation : Observation)
  | judgment (classification modelName : String) (providerExplicit : Bool)
      (observation : Observation)

inductive BackfillEvent where
  | item (event : ItemEvent)
  | progress (scanned created reused skipped unavailable error lastId : ℕ)

/-- The state of a run. `classified` is kept for the statements only: the items handed to the
    classifier. -/
structure RunState (σ : Type) where
  classifier : σ
  metrics : BackfillMetrics
  attempted : ℕ := 0
  sinceProgress : ℕ := 0
  events : List BackfillEvent := []
  classified : List ItemId := []

def progressEvent (metrics : BackfillMetrics) : BackfillEvent :=
  .progress metrics.scanned metrics.created metrics.reused metrics.skipped metrics.unavailable
    metrics.error metrics.lastId

/-- `_item_event`, and the handler of an exception. -/
def accountResult (metrics : BackfillMetrics) (itemId : ItemId) :
    ClassifyResult → Except BackfillError (BackfillMetrics × ItemEvent)
  | .raised => accountItem metrics itemId "error" {} none none false (some "unhandled_exception")
  | .outcome kind code observation =>
    accountItem metrics itemId kind observation none none false code
  | .judgment classification modelName providerExplicit observation =>
    accountItem metrics itemId "classified" observation (some classification) (some modelName)
      providerExplicit none

section

variable {σ : Type} (classify : σ → ItemId → ClassifyResult × σ) (fetch : FetchPage)
  (config : BackfillRunConfig)

/-- One attempted item. -/
def attemptItem (state : RunState σ) (item : ItemId) : Except BackfillError (RunState σ) := do
  let metrics := { state.metrics with scanned := state.metrics.scanned + 1, lastId := item }
  let (result, classifier) := classify state.classifier item
  let (metrics, event) ← accountResult metrics item result
  let sinceProgress := state.sinceProgress + 1
  let due := config.progressEvery ≤ sinceProgress
  return {
    classifier, metrics
    attempted := state.attempted + 1
    sinceProgress := if due then 0 else sinceProgress
    events := state.events ++ .item event :: if due then [progressEvent metrics] else []
    classified := state.classified ++ [item] }

/-- The run may attempt another item. -/
def BackfillRunConfig.hasLeft (config : BackfillRunConfig) (attempted : ℕ) : Bool :=
  config.limit = 0 || attempted < config.limit

/-- The loop over the pending item, for at most `fuel` turns; `none` if they do not suffice. -/
def runLoop : ℕ → Option (ItemId × PageIterator) → RunState σ →
    Except BackfillError (Option (RunState σ))
  | 0, _, _ => .ok none
  | _ + 1, none, state => .ok (some state)
  | fuel + 1, some (item, iterator), state =>
    if config.hasLeft state.attempted then do
      let state ← attemptItem classify config state item
      let pending ← if config.hasLeft state.attempted then iterator.next fetch config.batchSize
        else .ok none
      runLoop fuel pending state
    else .ok (some state)

def startState (classifier : σ) : RunState σ where
  classifier
  metrics :=
    { lastId := config.afterId
      failedIds := { maxIds := config.maxRetryIds }
      unavailableIds := { maxIds := config.maxRetryIds } }

/-- `run_backfill`; the summary is the metrics of the final state. -/
def runBackfill (fuel : ℕ) (classifier : σ) : Except BackfillError (Option (RunState σ)) := do
  let iterator : PageIterator := { lastId := config.afterId }
  let pending ← iterator.next fetch config.batchSize
  runLoop classify fetch config fuel pending (startState config classifier)

end

/-! ### The fetchers -/

/-- The fetcher returns the next of the keys, which are in ascending order. -/
structure FetchesKeys (keys : List ItemId) (fetch : FetchPage) : Prop where
  sorted : keys.Pairwise (· < ·)
  page : ∀ cursor size, fetch cursor size = .ok (pageAfter keys cursor size)

lemma sort_filter_eq (catalogue : Finset ItemId) (p : ItemId → Prop) [DecidablePred p] :
    (catalogue.filter p).sort = catalogue.sort.filter p := by
  refine (Finset.sortedLT_sort _).eq_of_mem_iff ?_ fun item => ?_
  · exact ((Finset.sortedLT_sort catalogue).pairwise.filter _).sortedLT
  · simp

theorem fetchesKeys_fetchPage (catalogue : Finset ItemId) :
    FetchesKeys catalogue.sort (fetchPage catalogue) where
  sorted := (Finset.sortedLT_sort catalogue).pairwise
  page cursor size := by
    rw [fetchPage, sort_filter_eq, pageAfter, keysAfter]

/-- In an ascending list the ids up to the bound come first. -/
lemma drop_bisectRight {ids : List ItemId} (h : ids.Pairwise (· < ·)) (bound : ItemId) :
    ids.drop (bisectRight ids bound) = keysAfter ids bound := by
  unfold bisectRight keysAfter
  induction ids with
  | nil => rfl
  | cons id ids ih =>
    obtain ⟨hhead, htail⟩ := List.pairwise_cons.mp h
    rw [List.takeWhile_cons, List.filter_cons]
    by_cases hid : id ≤ bound
    · simp only [hid, decide_true, if_true, List.length_cons, List.drop_succ_cons, not_lt.mpr hid,
        decide_false, Bool.false_eq_true, if_false]
      exact ih htail
    · have hall : ids.filter (bound < ·) = ids := by
        apply List.filter_eq_self.mpr
        intro other hother
        simpa using (not_le.mp hid).trans (hhead other hother)
      simp [hid, not_le.mp hid, hall]

lemma flatten_chunks {α : Type} (values : List α) {size : ℕ} (hsize : 0 < size) :
    (chunks values size).flatten = values := by
  have hprefix : ∀ n, ((List.range n).map fun i => (values.drop (i * size)).take size).flatten
      = values.take (n * size) := by
    intro n
    induction n with
    | zero => simp
    | succ n ih =>
      rw [List.range_succ, List.map_append, List.flatten_append, ih, Nat.succ_mul, List.take_add]
      simp
  rw [chunks, hprefix]
  apply List.take_of_length_le
  have hdiv := Nat.div_add_mod (values.length + size - 1) size
  have hmod := Nat.mod_lt (values.length + size - 1) hsize
  rw [Nat.mul_comm]
  omega

/-- Ascending ids that are in the table are selected as they are. -/
lemma selectByIds_eq {catalogue : Finset ItemId} {ids : List ItemId} (h : ids.Pairwise (· < ·))
    (hexist : ∀ id ∈ ids, id ∈ catalogue) : selectByIds catalogue ids = ids := by
  have hchunk : ∀ chunk ∈ chunks ids idQueryChunkSize,
      (catalogue.filter (· ∈ chunk)).sort = chunk := by
    intro chunk hmem
    have hsublist : chunk.Sublist ids := by
      obtain ⟨n, -, rfl⟩ := List.mem_map.mp hmem
      exact (List.take_sublist ..).trans (List.drop_sublist ..)
    refine (Finset.sortedLT_sort _).eq_of_mem_iff (h.sublist hsublist).sortedLT fun id => ?_
    rw [Finset.mem_sort, Finset.mem_filter]
    exact ⟨fun hid => hid.2, fun hid => ⟨hexist id (hsublist.subset hid), hid⟩⟩
  rw [selectByIds, List.flatMap_def, List.map_congr_left hchunk, List.map_id']
  exact flatten_chunks ids (by decide)

theorem fetchesKeys_fetchExactPage {catalogue : Finset ItemId} {ids : List ItemId}
    (h : ids.Pairwise (· < ·)) (hexist : ∀ id ∈ ids, id ∈ catalogue) :
    FetchesKeys ids (fetchExactPage catalogue ids) where
  sorted := h
  page cursor size := by
    have hsublist : (pageAfter ids cursor size).Sublist ids :=
      (List.take_sublist ..).trans List.filter_sublist
    have hpage := h.sublist hsublist
    have hselect := selectByIds_eq hpage fun id hid => hexist id (hsublist.subset hid)
    have hmissing : ((pageAfter ids cursor size).toFinset.filter
        (· ∉ pageAfter ids cursor size)).sort = [] := by
      rw [Finset.filter_false_of_mem, Finset.sort_empty]
      intro id hid
      simpa using hid
    unfold fetchExactPage
    simp only [drop_bisectRight h]
    rw [← pageAfter, hselect, if_pos hmissing]
    exact congrArg Except.ok (hpage.imp le_of_lt).insertionSort_eq

/-- What the preflight hands to the exact fetcher. -/
theorem resolveExactIds_ok {catalogue : Finset ItemId} {ids resolved : List ItemId}
    (hnodup : ids.Nodup) (h : resolveExactIds catalogue ids = .ok resolved) :
    resolved.Pairwise (· < ·) ∧ resolved.Perm ids ∧ ∀ id ∈ resolved, id ∈ catalogue := by
  unfold resolveExactIds at h
  simp only at h
  split_ifs at h with hmissing
  cases h
  have hperm := List.perm_insertionSort (· ≤ ·) ids
  refine ⟨?_, hperm, fun id hid => ?_⟩
  · have hle := List.pairwise_insertionSort (· ≤ ·) ids
    have hne : (ids.insertionSort (· ≤ ·)).Pairwise (· ≠ ·) := hperm.nodup_iff.mpr hnodup
    exact (hle.and hne).imp fun hab => lt_of_le_of_ne hab.1 hab.2
  · have hfound : id ∈ selectByIds catalogue ids := by
      by_contra hnot
      have hmem : id ∈ (ids.toFinset.filter (· ∉ selectByIds catalogue ids)).sort := by
        simp [hperm.mem_iff.mp hid, hnot]
      rw [hmissing] at hmem
      cases hmem
    obtain ⟨chunk, -, hchunk⟩ := List.mem_flatMap.mp hfound
    rw [Finset.mem_sort, Finset.mem_filter] at hchunk
    exact hchunk.1

end Denn
