import Denn.Ingest.Durations
import Denn.Ingest.Writes
import Denn.Proxy.Trending

/-!
# Completion times in the two services

The proxy cleans the completion times of IGDB with the rules that Core applies again, once when it
stores a game and once when it reconstructs it.
-/

namespace Denn.Proxy

open Denn.Core Denn.Ingest

/-- The object as Core reads it; a count of zero is left out. -/
def GameDuration.toPayload (duration : GameDuration) : DurationPayload where
  source := some duration.source
  status := some duration.status
  hastilySeconds := duration.hastilySeconds
  normallySeconds := duration.normallySeconds
  completelySeconds := duration.completelySeconds
  sampleCount := (some duration.sampleCount).filter (· ≠ 0)

/-- The times of a row as they come from IGDB. -/
def IgdbTimeToBeat.toPayload (t : IgdbTimeToBeat) : DurationPayload where
  hastilySeconds := some t.hastily
  normallySeconds := some t.normally
  completelySeconds := some t.completely

/-- What Core's normalization would keep of the times that IGDB has. -/
def upstreamValues (timeToBeat : Option IgdbTimeToBeat) : DurationValues :=
  normalizeGameDurationValues ((timeToBeat.map IgdbTimeToBeat.toPayload).getD {}).values

/-- Of the times that can be used, a shorter one follows a longer one. -/
def IgdbTimeToBeat.Contradictory (t : IgdbTimeToBeat) : Prop :=
  ¬ ([t.hastily, t.normally, t.completely].filter fun value =>
    0 < value && value ≤ maxGameDurationSeconds).Pairwise (· ≤ ·)

/-! ### The rules of the proxy -/

/-- One time is cleaned alike. -/
lemma normalizeGameDurationSeconds_eq (value : ℤ) :
    normalizeGameDurationSeconds value = (usable ((some value).bind Int.toNat?)).map (↑) := by
  have hmax : maxGameDurationSeconds = (Denn.maxGameDurationSeconds : ℤ) := rfl
  rw [normalizeGameDurationSeconds, hmax, Option.bind_some]
  cases value with
  | ofNat n =>
    change _ = (usable (some n)).map _
    by_cases hbound : 0 < n ∧ n ≤ Denn.maxGameDurationSeconds
    · rw [if_neg (by simp only [Int.ofNat_eq_natCast]; omega)]
      simp [usable, Option.filter, hbound]
    · rw [if_pos (by simp only [Int.ofNat_eq_natCast]; omega)]
      simp [usable, Option.filter, hbound]
  | negSucc n => exact if_pos (.inl (Int.negSucc_lt_zero n).le)

/-- The values are compared alike. -/
lemma hasOrderedGameDurations_map (values : List (Option ℕ)) :
    hasOrderedGameDurations (values.map (Option.map (↑))) = true ↔
      values.reduceOption.Pairwise (· ≤ ·) := by
  have hvalues : (values.map (Option.map ((↑) : ℕ → ℤ))).filterMap id
      = values.reduceOption.map (↑) := by
    show _ = (values.filterMap id).map _
    rw [List.filterMap_map, List.map_filterMap]
    rfl
  rw [hasOrderedGameDurations, decide_eq_true_eq, hvalues, List.isChain_iff_pairwise,
    List.pairwise_map]
  simp

/-- The duration of a row has the values that Core would keep of it, and their status. -/
lemma extractDuration_eq (timeToBeat : Option IgdbTimeToBeat) :
    extractDuration timeToBeat false =
      { source := "igdb"
        status := durationStatusText
          (normalizedGameDurationStatus .noData (upstreamValues timeToBeat))
        hastilySeconds := (upstreamValues timeToBeat).hastilySeconds.map (↑)
        normallySeconds := (upstreamValues timeToBeat).normallySeconds.map (↑)
        completelySeconds := (upstreamValues timeToBeat).completelySeconds.map (↑)
        sampleCount := timeToBeat.elim 0 fun t => if 0 < t.count then t.count else 0 } := by
  cases timeToBeat with
  | none => rfl
  | some t =>
    simp only [extractDuration, normalizeGameDurationSeconds_eq, Bool.false_eq_true, if_false,
      Option.elim_some]
    generalize hhastily : usable ((some t.hastily).bind Int.toNat?) = hastily
    generalize hnormally : usable ((some t.normally).bind Int.toNat?) = normally
    generalize hcompletely : usable ((some t.completely).bind Int.toNat?) = completely
    have hiff := hasOrderedGameDurations_map [hastily, normally, completely]
    rw [← hhastily, ← hnormally, ← hcompletely] at hiff
    cases hordered : hasOrderedGameDurations ([hastily, normally, completely].map (Option.map (↑)))
      with
    | true =>
      have hvalues : upstreamValues (some t) = ⟨hastily, normally, completely⟩ := by
        rw [← hhastily, ← hnormally, ← hcompletely] at hordered ⊢
        exact normalizeGameDurationValues_of_ordered (hiff.mp hordered)
      rw [List.map_cons, List.map_cons, List.map_cons, List.map_nil] at hordered
      rw [hordered, hvalues]
      cases hastily <;> cases normally <;> cases completely <;> rfl
    | false =>
      have hvalues : upstreamValues (some t) = ⟨none, normally, none⟩ := by
        rw [← hhastily, ← hnormally, ← hcompletely] at hordered
        rw [← hnormally]
        refine normalizeGameDurationValues_of_contradictory fun hpairwise => ?_
        rw [hiff.mpr hpairwise] at hordered
        cases hordered
      rw [List.map_cons, List.map_cons, List.map_cons, List.map_nil] at hordered
      rw [hordered, hvalues]
      cases normally <;> rfl

/-- The times that can be used contradict each other as Core reads them, too. -/
lemma contradictory_iff (t : IgdbTimeToBeat) : t.Contradictory ↔
    hasOrderedGameDurations [normalizeGameDurationSeconds t.hastily,
      normalizeGameDurationSeconds t.normally, normalizeGameDurationSeconds t.completely] = false := by
  have hvalues : [t.hastily, t.normally, t.completely].filter (fun value =>
      0 < value && value ≤ maxGameDurationSeconds) = [normalizeGameDurationSeconds t.hastily,
        normalizeGameDurationSeconds t.normally, normalizeGameDurationSeconds t.completely].filterMap
          id := by
    change _ = ([t.hastily, t.normally, t.completely].map normalizeGameDurationSeconds).filterMap id
    rw [List.filterMap_map, ← List.filterMap_eq_filter]
    refine List.filterMap_congr fun value _ => ?_
    by_cases h : value ≤ 0 ∨ maxGameDurationSeconds < value
    · simp [Option.guard, normalizeGameDurationSeconds, h]
      omega
    · simp [Option.guard, normalizeGameDurationSeconds, h]
      omega
  rw [IgdbTimeToBeat.Contradictory, hvalues, ← List.isChain_iff_pairwise,
    hasOrderedGameDurations, decide_eq_false_iff_not]

/-! ### The rules of Core -/

lemma values_toPayload_extractDuration (timeToBeat : Option IgdbTimeToBeat) :
    (extractDuration timeToBeat false).toPayload.values = upstreamValues timeToBeat := by
  rw [extractDuration_eq]
  simp only [GameDuration.toPayload, DurationPayload.values, bind_toNat?]

section

variable {slugify : String → String} {payload : GamePayload} {timeToBeat : Option IgdbTimeToBeat}

lemma durationValues_of_extracted
    (h : payload.duration = some (extractDuration timeToBeat false).toPayload) :
    payload.durationValues = upstreamValues timeToBeat := by
  rw [GamePayload.durationValues, h, Option.getD_some, values_toPayload_extractDuration,
    upstreamValues, normalizeGameDurationValues_idem]

lemma durationStatus_of_extracted
    (h : payload.duration = some (extractDuration timeToBeat false).toPayload) :
    payload.durationStatus = normalizedGameDurationStatus .noData (upstreamValues timeToBeat) := by
  have hstatus : (extractDuration timeToBeat false).toPayload.status
      = some (durationStatusText
          (normalizedGameDurationStatus .noData (upstreamValues timeToBeat))) := by
    rw [extractDuration_eq]
    rfl
  rw [GamePayload.durationStatus, durationValues_of_extracted h, h, Option.getD_some, hstatus,
    readDurationStatus_text, normalizedGameDurationStatus_idem]

lemma sampleCount_of_extracted
    (h : payload.duration = some (extractDuration timeToBeat false).toPayload) :
    payload.sampleCount = (extractDuration timeToBeat false).sampleCount := by
  rw [GamePayload.sampleCount, h, Option.getD_some]
  simp only [GameDuration.toPayload]
  by_cases hzero : (extractDuration timeToBeat false).sampleCount = 0 <;>
    simp [Option.filter, hzero]

/-- The estimate that a duration of the proxy leaves is serialized as that duration. -/
lemma serializeDuration_of_extracted
    (h : payload.duration = some (extractDuration timeToBeat false).toPayload) (item : Ingest.ContentItem)
    (old : Option EstimateRow) :
    serializeDuration (payload.toEstimate item old)
      = (extractDuration timeToBeat false).toPayload := by
  have hstatus := durationStatus_of_extracted h
  have hok : payload.durationStatus ≠ .error := by
    rw [hstatus, normalizedGameDurationStatus]
    split_ifs <;> simp_all
  rw [GamePayload.toEstimate, dif_neg hok]
  simp only [serializeDuration, hstatus, durationValues_of_extracted h, sampleCount_of_extracted h]
  rw [upstreamValues, normalizeGameDurationValues_idem, normalizedGameDurationStatus_idem,
    extractDuration_eq]
  rfl

end

/-- The services agree on the completion times of a row: what the proxy makes of them is stored and
    reconstructed as it is, it is normal, and it is what Core would have made of the row itself. -/
structure DurationsAgree (timeToBeat : Option IgdbTimeToBeat) : Prop where
  stored : ∀ {slugify : String → String} (store store' : Store slugify) (item : Ingest.ContentItem)
    (payload : GamePayload), payload.duration = some (extractDuration timeToBeat false).toPayload →
      upsertGame store item payload = .ok store' → ∃ record estimate,
        store'.games.get? item = some record ∧ record.estimate = some estimate ∧
          serializeDuration estimate = (extractDuration timeToBeat false).toPayload
  storable : ∀ payload : GamePayload,
    payload.duration = some (extractDuration timeToBeat false).toPayload →
      payload.checkEstimate = true
  values : (extractDuration timeToBeat false).toPayload.values = upstreamValues timeToBeat
  fixpoint : normalizeGameDurationValues (extractDuration timeToBeat false).toPayload.values
    = (extractDuration timeToBeat false).toPayload.values
  normal : NormalDurations (extractDuration timeToBeat false).toPayload.values
  contradictory : ∀ t ∈ timeToBeat, t.Contradictory →
    (extractDuration timeToBeat false).toPayload.values = ⟨none, usable t.normally.toNat?, none⟩ ∧
    upstreamValues timeToBeat = ⟨none, usable t.normally.toNat?, none⟩

theorem durationsAgree (timeToBeat : Option IgdbTimeToBeat) : DurationsAgree timeToBeat where
  stored store store' item payload hduration hstored := by
    obtain ⟨-, hstore⟩ := (yields_upsertGame store item payload store').mp hstored
    have hdata : payload.hasDurationData = true := by
      rw [GamePayload.hasDurationData, hduration]
      rfl
    subst hstore
    refine ⟨_, payload.toEstimate item ((store.games.get? item).bind (·.estimate)),
      Table.get?_set_self _ _ _, ?_, serializeDuration_of_extracted hduration item _⟩
    exact if_pos hdata
  storable payload hduration := by
    have hcount : 0 ≤ payload.sampleCount := by
      rw [sampleCount_of_extracted hduration, extractDuration_eq]
      cases timeToBeat with
      | none => exact le_refl 0
      | some t =>
        rw [Option.elim_some]
        split_ifs with hpos
        · exact hpos.le
        · exact le_refl 0
    simp [GamePayload.checkEstimate, hcount]
  values := values_toPayload_extractDuration timeToBeat
  fixpoint := by
    rw [values_toPayload_extractDuration, upstreamValues, normalizeGameDurationValues_idem]
  normal := by
    rw [values_toPayload_extractDuration]
    exact normalDurations_normalize _
  contradictory := by
    rintro t ht hcontradictory
    obtain rfl : timeToBeat = some t := ht
    rw [values_toPayload_extractDuration, and_self]
    refine normalizeGameDurationValues_of_contradictory fun hpairwise => ?_
    rw [contradictory_iff] at hcontradictory
    simp only [normalizeGameDurationSeconds_eq] at hcontradictory
    have hordered := (hasOrderedGameDurations_map _).mpr hpairwise
    exact Bool.false_ne_true (hcontradictory.symm.trans hordered)

end Denn.Proxy
