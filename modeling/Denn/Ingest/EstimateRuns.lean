import Denn.Core.Transition
import Denn.Ingest.Tolerance

/-!
# Runs of ingests of a game

An ingest whose lookup of the completion times has failed keeps the stored times and counts the failures.
The game is complete once a lookup has succeeded, once times are stored, or after three failures.
-/

namespace Denn.Ingest

open Denn.Core

variable {slugify : String → String}

namespace Store

def estimate (store : Store slugify) (item : ContentItem) : Option EstimateRow :=
  (store.games.get? item).bind (·.estimate)

/-- `detail_is_complete` of a game. -/
def gameIsComplete (store : Store slugify) (item : ContentItem) : Bool :=
  match store.games.get? item with
  | some record => record.estimate.any fun estimate =>
      estimate.status ≠ .error || maxGameDurationRetries ≤ estimate.retryCount
  | none => false

end Store

/-! ### Runs -/

structure IngestEvent where
  item : ContentItem
  country : String
  payload : Payload

/-- The event is an ingest of the item with a game payload. -/
def IngestEvent.gamePayload (event : IngestEvent) (item : ContentItem) : Option GamePayload :=
  match event.payload with
  | .game payload => if event.item = item then some payload else none
  | _ => none

/-- An ingest of the game: whether its lookup failed, and whether it left the game complete. -/
structure GameIngest where
  failed : Bool
  complete : Bool
  deriving DecidableEq

/-- `history` is kept for the statements only: the ingests of the game, the newest first. -/
structure IngestState (slugify : String → String) where
  store : Store slugify
  history : List GameIngest := []

/-- An ingest that raises is rolled back. -/
def IngestState.step (item : ContentItem) (s : IngestState slugify) (event : IngestEvent) :
    IngestState slugify :=
  match upsert s.store event.item event.country event.payload with
  | .error _ => s
  | .ok store =>
    { store
      history := ((event.gamePayload item).map fun payload =>
        (⟨payload.durationStatus = .error, store.gameIsComplete item⟩ : GameIngest)).toList ++
          s.history }

/-- The ingests of all items, observed at one game that has no estimate at first. -/
def ingestSystem (slugify : String → String) (item : ContentItem) :
    TransitionSystem (IngestState slugify) IngestEvent where
  initial s := s.store.estimate item = none ∧ s.history = []
  step s event := some (s.step item event)

/-- The payloads of the game carry a `duration` that is not empty. -/
def CarriesDuration (item : ContentItem) (_ : IngestState slugify) (event : IngestEvent) : Prop :=
  ∀ payload, event.gamePayload item = some payload → payload.duration.isSome = true

/-- The failed lookups since the last one that did not fail. -/
def failures (history : List GameIngest) : ℕ := (history.takeWhile (·.failed)).length

/-- The ingests since the last one that left the game complete. -/
def incompletes (history : List GameIngest) : ℕ := (history.takeWhile (!·.complete)).length

/-! ### One ingest -/

variable {store : Store slugify} {item : ContentItem} {payload : GamePayload} {country : String}

lemma games_foldl_afterNestedSeason (tvShow : ContentItem) (payload : TvShowPayload)
    (country : String) (entries : List (ℤ × SeasonPayload)) (store : Store slugify) :
    (entries.foldl (afterNestedSeason tvShow payload country) store).games = store.games := by
  induction entries generalizing store with
  | nil => rfl
  | cons entry entries ih =>
    rw [List.foldl_cons, ih, afterNestedSeason, afterSeason, Store.getOrCreateItem]
    split_ifs <;> rfl

/-- Only a game payload of the item itself changes the rows of the game. -/
lemma get?_games_afterUpsert {event : IngestEvent} (h : event.gamePayload item = none) :
    (afterUpsert store event.item event.country event.payload).games.get? item =
      store.games.get? item := by
  rw [IngestEvent.gamePayload] at h
  cases hpayload : event.payload with
  | game payload =>
    rw [hpayload] at h
    have hne : item ≠ event.item := fun heq => by simp [heq] at h
    exact Table.get?_set_ne _ _ hne
  | tvShow payload =>
    exact congrArg (Table.get? · item) (games_foldl_afterNestedSeason _ _ _ _ _)
  | movie payload => rfl
  | season payload => rfl
  | album payload => rfl
  | book payload => rfl

lemma estimate_afterGame (hduration : payload.duration.isSome = true) :
    (afterGame store item payload).estimate item =
      some (payload.toEstimate item (store.estimate item)) := by
  rw [Store.estimate, afterGame, Table.get?_set_self, Option.bind_some, GamePayload.estimateAfter,
    if_pos (by rw [GamePayload.hasDurationData, hduration, Bool.true_or])]
  rfl

lemma gameIsComplete_eq (store : Store slugify) (item : ContentItem) :
    store.gameIsComplete item = (store.estimate item).any fun estimate =>
      estimate.status ≠ .error || maxGameDurationRetries ≤ estimate.retryCount := by
  rw [Store.gameIsComplete, Store.estimate]
  cases store.games.get? item with
  | none => rfl
  | some record => rfl

/-- A failed lookup keeps values and sample count, makes values stale, and counts. -/
lemma toEstimate_of_error (hfailed : payload.durationStatus = .error) (old : Option EstimateRow) :
    payload.toEstimate item old = .failed (textOr payload.id item.externalId) old := by
  rw [GamePayload.toEstimate, dif_pos hfailed]

/-- A lookup that does not fail resolves the estimate. -/
lemma toEstimate_of_ne_error (item : ContentItem) (hfailed : payload.durationStatus ≠ .error)
    (old : Option EstimateRow) :
    (payload.toEstimate item old).status ≠ .error ∧ (payload.toEstimate item old).retryCount = 0 := by
  rw [GamePayload.toEstimate, dif_neg hfailed]
  exact ⟨hfailed, rfl⟩

/-- The estimate settles whether the game is complete. -/
def EstimateRow.resolved (estimate : EstimateRow) : Bool :=
  estimate.status ≠ .error || maxGameDurationRetries ≤ estimate.retryCount

variable {s s' : IngestState slugify} {event : IngestEvent}

/-- What a step does: it leaves the game as it is, or writes the estimate of an ingest of the game. -/
lemma step_cases (hcarries : CarriesDuration item s event) :
    ((s.step item event).store.estimate item = s.store.estimate item ∧
      (s.step item event).history = s.history) ∨
    ∃ payload estimate, event.gamePayload item = some payload ∧
      estimate = payload.toEstimate item (s.store.estimate item) ∧
      (s.step item event).store.estimate item = some estimate ∧
      (s.step item event).history =
        ⟨payload.durationStatus = .error, estimate.resolved⟩ :: s.history := by
  cases hupsert : upsert s.store event.item event.country event.payload with
  | error err =>
    rw [IngestState.step, hupsert]
    exact .inl ⟨rfl, rfl⟩
  | ok store =>
    obtain ⟨-, rfl⟩ := (yields_upsert _ _ _ _ store).mp hupsert
    cases hgame : event.gamePayload item with
    | none =>
      refine .inl ?_
      rw [IngestState.step, hupsert]
      refine ⟨?_, by rw [hgame]; rfl⟩
      rw [Store.estimate, get?_games_afterUpsert hgame]
      rfl
    | some payload =>
      have hitem : event.item = item ∧ event.payload = .game payload := by
        rw [IngestEvent.gamePayload] at hgame
        cases hpayload : event.payload with
        | game other =>
          rw [hpayload] at hgame
          obtain ⟨hitem, heq⟩ := Option.ite_none_right_eq_some.mp hgame
          exact ⟨hitem, congrArg Payload.game (Option.some.inj heq)⟩
        | _ =>
          rw [hpayload] at hgame
          cases hgame
      have hestimate : (afterUpsert s.store event.item event.country event.payload).estimate item =
          some (payload.toEstimate item (s.store.estimate item)) := by
        rw [hitem.1, hitem.2]
        exact estimate_afterGame (hcarries payload hgame)
      refine .inr ⟨payload, _, rfl, rfl, ?_, ?_⟩
      · rw [IngestState.step, hupsert]
        exact hestimate
      · rw [IngestState.step, hupsert, hgame]
        simp only [Option.map_some, Option.toList_some, List.singleton_append, gameIsComplete_eq,
          hestimate, Option.any_some]
        rfl

/-! ### The invariant -/

/-- The counter counts the failures, and the ingests since the game was last complete are failed ones
    that it has counted. -/
structure EstimateInv (item : ContentItem) (s : IngestState slugify) : Prop where
  retryCount : (s.store.estimate item).elim 0 (·.retryCount) =
    min (failures s.history) maxGameDurationRetries
  incompletes_le : incompletes s.history ≤ 2
  pending : 0 < incompletes s.history → ∃ estimate, s.store.estimate item = some estimate ∧
    estimate.status = .error ∧ incompletes s.history ≤ estimate.retryCount
  windows : ∀ front a b c rest, s.history = front ++ a :: b :: c :: rest →
    a.complete = true ∨ b.complete = true ∨ c.complete = true

lemma failures_cons (ingest : GameIngest) (history : List GameIngest) :
    failures (ingest :: history) = if ingest.failed then failures history + 1 else 0 := by
  rw [failures, List.takeWhile_cons]
  split_ifs <;> rfl

lemma incompletes_cons (ingest : GameIngest) (history : List GameIngest) :
    incompletes (ingest :: history) =
      if ingest.complete then 0 else incompletes history + 1 := by
  rw [incompletes, List.takeWhile_cons]
  cases ingest.complete <;> rfl

/-- Three incomplete ingests in a row would all be counted. -/
lemma windows_cons {ingest : GameIngest} {history : List GameIngest}
    (hle : incompletes (ingest :: history) ≤ 2)
    (h : ∀ front a b c rest, history = front ++ a :: b :: c :: rest →
      a.complete = true ∨ b.complete = true ∨ c.complete = true)
    (front : List GameIngest) (a b c : GameIngest) (rest : List GameIngest)
    (heq : ingest :: history = front ++ a :: b :: c :: rest) :
    a.complete = true ∨ b.complete = true ∨ c.complete = true := by
  cases front with
  | nil =>
    rw [List.nil_append] at heq
    rw [heq, incompletes_cons, incompletes_cons, incompletes_cons] at hle
    split_ifs at hle with ha hb hc
    · exact .inl ha
    · exact .inr (.inl hb)
    · exact .inr (.inr hc)
    · omega
  | cons first front => exact h front a b c rest (List.cons.inj heq).2

/-- The estimate of a failed lookup that does not resolve it has counted one failure more. -/
lemma EstimateInv.incompletes_lt (h : EstimateInv item s) {id : String}
    (hresolved : (EstimateRow.failed id (s.store.estimate item)).resolved = false) :
    (EstimateRow.failed id (s.store.estimate item)).status = .error ∧
      incompletes s.history < (EstimateRow.failed id (s.store.estimate item)).retryCount ∧
      (EstimateRow.failed id (s.store.estimate item)).retryCount ≤ 2 := by
  rw [EstimateRow.resolved, Bool.or_eq_false_iff] at hresolved
  obtain ⟨hstatus, hretry⟩ := hresolved
  have hcount : (EstimateRow.failed id (s.store.estimate item)).retryCount =
      min ((s.store.estimate item).elim 0 (·.retryCount) + 1) maxGameDurationRetries := rfl
  have hmax : maxGameDurationRetries = 3 := rfl
  have hle : incompletes s.history ≤ (s.store.estimate item).elim 0 (·.retryCount) := by
    rcases Nat.eq_zero_or_pos (incompletes s.history) with hzero | hpos
    · omega
    · obtain ⟨estimate, hestimate, -, hle⟩ := h.pending hpos
      rwa [hestimate]
  have hlt := of_decide_eq_false hretry
  refine ⟨by simpa using hstatus, ?_, ?_⟩ <;> omega

lemma EstimateInv.step (h : EstimateInv item s) (hcarries : CarriesDuration item s event) :
    EstimateInv item (s.step item event) := by
  rcases step_cases hcarries with ⟨hestimate, hhistory⟩ |
    ⟨payload, estimate, -, hnew, hestimate, hhistory⟩
  · constructor <;> rw [hhistory]
    · rw [hestimate]
      exact h.retryCount
    · exact h.incompletes_le
    · rw [hestimate]
      exact h.pending
    · exact h.windows
  · by_cases hfailed : payload.durationStatus = .error
    · rw [toEstimate_of_error hfailed] at hnew
      have hretry : (s.step item event).store.estimate item = some estimate →
          ((s.step item event).store.estimate item).elim 0 (·.retryCount) =
            min (failures (s.step item event).history) maxGameDurationRetries := by
        have hcount : estimate.retryCount =
            min ((s.store.estimate item).elim 0 (·.retryCount) + 1) maxGameDurationRetries := by
          rw [hnew]
          rfl
        have hold := h.retryCount
        rw [hestimate, hhistory, failures_cons, if_pos (by simpa using hfailed), Option.elim_some]
        omega
      cases hresolved : estimate.resolved with
      | true =>
        have hnone : incompletes (s.step item event).history = 0 := by
          rw [hhistory, incompletes_cons, if_pos hresolved]
        refine ⟨hretry hestimate, by omega, fun hpos => by omega, ?_⟩
        rw [hhistory] at hnone ⊢
        exact windows_cons (by omega) h.windows
      | false =>
        have hone : incompletes (s.step item event).history = incompletes s.history + 1 := by
          rw [hhistory, incompletes_cons, hresolved]
          rfl
        rw [hnew] at hresolved
        obtain ⟨hstatus, hlt, hle⟩ := h.incompletes_lt hresolved
        rw [← hnew] at hstatus hlt hle
        refine ⟨hretry hestimate, by omega, fun _ => ⟨estimate, hestimate, hstatus, by omega⟩, ?_⟩
        rw [hhistory] at hone ⊢
        exact windows_cons (by omega) h.windows
    · obtain ⟨hstatus, hretry⟩ := toEstimate_of_ne_error item hfailed (s.store.estimate item)
      rw [← hnew] at hstatus hretry
      have hresolved : estimate.resolved = true := by simp [EstimateRow.resolved, hstatus]
      have hnone : incompletes (s.step item event).history = 0 := by
        rw [hhistory, incompletes_cons, if_pos hresolved]
      refine ⟨?_, by omega, fun hpos => by omega, ?_⟩
      · rw [hestimate, hhistory, failures_cons, if_neg (by simpa using hfailed)]
        exact hretry
      · rw [hhistory] at hnone ⊢
        exact windows_cons (by omega) h.windows

lemma estimateInv_of_reachable
    (h : (ingestSystem slugify item).ReachableUnder (CarriesDuration item) s) :
    EstimateInv item s := by
  refine h.invariant (fun s hs => ?_) fun s event s' hinv hcarries hstep => ?_
  · obtain ⟨hnone, hhistory⟩ := hs
    refine ⟨by rw [hnone, hhistory]; rfl, by rw [hhistory]; exact Nat.zero_le _, ?_, ?_⟩
    · rw [hhistory]
      exact fun hpos => absurd hpos (Nat.lt_irrefl 0)
    · intro front a b c rest heq
      rw [hhistory] at heq
      simp at heq
  · obtain rfl := Option.some.inj hstep
    exact hinv.step hcarries

/-- A failed lookup keeps what is stored and marks it as stale. -/
lemma estimate_of_failed {store' : Store slugify} (hduration : payload.duration.isSome = true)
    (hfailed : payload.durationStatus = .error)
    (hupsert : upsert store item country (.game payload) = .ok store') :
    storedValues (store'.estimate item) = storedValues (store.estimate item) ∧
    (store'.estimate item).elim 0 (·.sampleCount) = (store.estimate item).elim 0 (·.sampleCount) ∧
    (hasDuration (storedValues (store.estimate item)) = true →
      (store'.estimate item).map (·.status) = some .stale) := by
  obtain ⟨-, rfl⟩ := (yields_upsert _ _ _ _ store').mp hupsert
  have hestimate : (afterUpsert store item country (.game payload)).estimate item =
      some (.failed (textOr payload.id item.externalId) (store.estimate item)) := by
    rw [← toEstimate_of_error hfailed]
    exact estimate_afterGame hduration
  rw [hestimate]
  refine ⟨rfl, rfl, fun hvalues => ?_⟩
  rw [Option.map_some, EstimateRow.failed]
  dsimp only
  rw [if_pos hvalues]

/-- In every run of ingests of a game with durations, the counter counts the failed lookups since the
    last one that did not fail, up to three; of three ingests in a row one leaves the game complete; and
    a failed lookup keeps the stored values and the sample count and makes values stale. -/
theorem estimates_converge
    (h : (ingestSystem slugify item).ReachableUnder (CarriesDuration item) s) :
    (s.store.estimate item).elim 0 (·.retryCount) ≤ 3 ∧
    (s.store.estimate item).elim 0 (·.retryCount) = min (failures s.history) 3 ∧
    (∀ front a b c rest, s.history = front ++ a :: b :: c :: rest →
      a.complete = true ∨ b.complete = true ∨ c.complete = true) ∧
    ∀ payload country store', payload.duration.isSome = true → payload.durationStatus = .error →
      upsert s.store item country (.game payload) = .ok store' →
      storedValues (store'.estimate item) = storedValues (s.store.estimate item) ∧
      (store'.estimate item).elim 0 (·.sampleCount) =
        (s.store.estimate item).elim 0 (·.sampleCount) ∧
      (hasDuration (storedValues (s.store.estimate item)) = true →
        (store'.estimate item).map (·.status) = some .stale) := by
  have hinv := estimateInv_of_reachable h
  have hcount : (s.store.estimate item).elim 0 (·.retryCount) = min (failures s.history) 3 :=
    hinv.retryCount
  exact ⟨hcount ▸ min_le_right _ _, hcount, hinv.windows,
    fun payload country store' hduration hfailed => estimate_of_failed hduration hfailed⟩

/-- A game whose lookup has failed. -/
def failedLookup : IngestEvent where
  item := ⟨.igdb, "25076", .game⟩
  country := "US"
  payload := .game {
    id := some "25076", type := some "game", duration := some { status := some "error" } }

theorem estimates_converge_failedLookup :
    let s := (⟨{}, []⟩ : IngestState id).step failedLookup.item failedLookup
    (s.store.estimate failedLookup.item).elim 0 (·.retryCount) = min (failures s.history) 3 := by
  have hcarries : CarriesDuration failedLookup.item (⟨{}, []⟩ : IngestState id) failedLookup := by
    intro payload hpayload
    obtain rfl := Option.some.inj hpayload
    rfl
  have hreachable : (ingestSystem id failedLookup.item).ReachableUnder
      (CarriesDuration failedLookup.item)
      ((⟨{}, []⟩ : IngestState id).step failedLookup.item failedLookup) :=
    .step (.initial ⟨rfl, rfl⟩) hcarries rfl
  exact (estimates_converge hreachable).2.1

end Denn.Ingest
