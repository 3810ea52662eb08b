import Denn.Ingest.Reconstruct

/-!
# Completion times of games

The completion times of a game are normalized when they are stored and again when they are read. What
has been normalized once stays as it is, and so does the status that goes with it.
-/

namespace Denn.Ingest

open Denn.Core

/-! ### Normal values -/

/-- A time that can be used. -/
def usable (value : Option ℕ) : Option ℕ :=
  value.filter fun value => 0 < value && value ≤ maxGameDurationSeconds

section

variable {values : DurationValues}

/-- Usable times that do not contradict each other are kept. -/
lemma normalizeGameDurationValues_of_ordered
    (h : [usable values.hastilySeconds, usable values.normallySeconds,
      usable values.completelySeconds].reduceOption.Pairwise (· ≤ ·)) :
    normalizeGameDurationValues values = ⟨usable values.hastilySeconds,
      usable values.normallySeconds, usable values.completelySeconds⟩ :=
  if_pos h

/-- Of times that contradict each other the normal one is kept. -/
lemma normalizeGameDurationValues_of_contradictory
    (h : ¬ [usable values.hastilySeconds, usable values.normallySeconds,
      usable values.completelySeconds].reduceOption.Pairwise (· ≤ ·)) :
    normalizeGameDurationValues values = ⟨none, usable values.normallySeconds, none⟩ :=
  if_neg h

end

/-- Values as normalization leaves them: positive, at most 3000 hours, and not decreasing from one to
    the next that is there. -/
structure NormalDurations (values : DurationValues) : Prop where
  bounds : ∀ value, some value ∈ values.values → 0 < value ∧ value ≤ maxGameDurationSeconds
  ordered : values.values.reduceOption.Pairwise (· ≤ ·)

lemma bounds_of_usable {value : ℕ} {source : Option ℕ} (h : some value = usable source) :
    0 < value ∧ value ≤ maxGameDurationSeconds := by
  simpa using (Option.filter_eq_some_iff.mp h.symm).2

lemma normalDurations_normalize (values : DurationValues) :
    NormalDurations (normalizeGameDurationValues values) := by
  by_cases hordered : [usable values.hastilySeconds, usable values.normallySeconds,
      usable values.completelySeconds].reduceOption.Pairwise (· ≤ ·)
  · rw [normalizeGameDurationValues_of_ordered hordered]
    refine ⟨fun value hvalue => ?_, hordered⟩
    simp only [DurationValues.values, List.mem_cons, List.not_mem_nil, or_false] at hvalue
    rcases hvalue with h | h | h <;> exact bounds_of_usable h
  · rw [normalizeGameDurationValues_of_contradictory hordered]
    refine ⟨fun value hvalue => ?_, ?_⟩
    · simp only [DurationValues.values, List.mem_cons, List.not_mem_nil, or_false, reduceCtorEq,
        false_or] at hvalue
      exact bounds_of_usable hvalue
    · show ([none, usable values.normallySeconds, none].filterMap id).Pairwise (· ≤ ·)
      cases usable values.normallySeconds <;> simp

/-- Normal values are kept. -/
lemma NormalDurations.normalize_eq {values : DurationValues} (h : NormalDurations values) :
    normalizeGameDurationValues values = values := by
  have husable : ∀ value ∈ values.values, usable value = value := by
    intro value hvalue
    cases value with
    | none => rfl
    | some value => simpa [usable, Option.filter] using h.bounds value hvalue
  have hordered := h.ordered
  obtain ⟨hastily, normally, completely⟩ := values
  simp only [DurationValues.values, List.forall_mem_cons] at husable hordered
  obtain ⟨hhastily, hnormally, hcompletely, -⟩ := husable
  rw [normalizeGameDurationValues_of_ordered (by rwa [hhastily, hnormally, hcompletely]), hhastily,
    hnormally, hcompletely]

lemma normalizeGameDurationValues_idem (values : DurationValues) :
    normalizeGameDurationValues (normalizeGameDurationValues values)
      = normalizeGameDurationValues values :=
  (normalDurations_normalize values).normalize_eq

lemma normalizedGameDurationStatus_idem (status : DurationStatus) (values : DurationValues) :
    normalizedGameDurationStatus (normalizedGameDurationStatus status values) values
      = normalizedGameDurationStatus status values := by
  cases status <;> cases h : values.values.any (·.isSome) <;>
    simp [normalizedGameDurationStatus, h]

/-! ### Estimates -/

lemma readDurationStatus_text (status : DurationStatus) :
    readDurationStatus (some (durationStatusText status)) = status := by
  cases status <;> rfl

lemma bind_toNat? (value : Option ℕ) : (value.map ((↑) : ℕ → ℤ)).bind Int.toNat? = value := by
  cases value <;> rfl

lemma values_serializeDuration (estimate : EstimateRow) :
    (serializeDuration estimate).values = normalizeGameDurationValues estimate.values := by
  simp only [serializeDuration, DurationPayload.values, bind_toNat?]

/-- A play time comes with an estimate, whose number of samples is not negative. -/
structure SettledEstimate (detail : GameRow) (estimate : Option EstimateRow) : Prop where
  playTime : estimate = none → detail.playTimeMin = none ∧ detail.playTimeMax = none
  sampleCount : ∀ row ∈ estimate, 0 ≤ row.sampleCount

section

variable {payload : GamePayload} {row : EstimateRow}

lemma durationValues_of_serialized (h : payload.duration = some (serializeDuration row)) :
    payload.durationValues = normalizeGameDurationValues row.values := by
  rw [GamePayload.durationValues, h, Option.getD_some, values_serializeDuration,
    normalizeGameDurationValues_idem]

lemma durationStatus_of_serialized (h : payload.duration = some (serializeDuration row)) :
    payload.durationStatus
      = normalizedGameDurationStatus row.status (normalizeGameDurationValues row.values) := by
  rw [GamePayload.durationStatus, durationValues_of_serialized h, h, Option.getD_some,
    serializeDuration, readDurationStatus_text, normalizedGameDurationStatus_idem]

lemma sampleCount_of_serialized (h : payload.duration = some (serializeDuration row)) :
    payload.sampleCount = row.sampleCount := by
  rw [GamePayload.sampleCount, h, Option.getD_some, serializeDuration]
  by_cases hzero : row.sampleCount = 0 <;> simp [Option.filter, hzero]

lemma status_eq_error (values : DurationValues) :
    normalizedGameDurationStatus row.status values = .error ↔ row.status = .error := by
  unfold normalizedGameDurationStatus
  cases row.status <;> split_ifs <;> simp_all

/-- The estimate of a serialized one is serialized alike; after a failed lookup it stays without
    values. -/
lemma serializeDuration_toEstimate (h : payload.duration = some (serializeDuration row))
    (item : ContentItem) :
    serializeDuration (payload.toEstimate item (some row)) = serializeDuration row := by
  have hstatus := durationStatus_of_serialized h
  unfold GamePayload.toEstimate
  split_ifs with herror
  · rw [hstatus, status_eq_error] at herror
    have hvalues := row.values_of_error herror
    have hnone : hasDuration ⟨none, none, none⟩ = false := rfl
    simp [serializeDuration, EstimateRow.failed, storedValues, hvalues, herror, hnone]
  · simp only [serializeDuration, hstatus, durationValues_of_serialized h, sampleCount_of_serialized h,
      normalizeGameDurationValues_idem, normalizedGameDurationStatus_idem]

end

section

variable {payload : GamePayload} {detail : GameRow} {estimate old : Option EstimateRow}

lemma SettledEstimate.hasDurationData_eq (h : SettledEstimate detail estimate)
    (hduration : payload.duration = estimate.map serializeDuration)
    (hplayTime : payload.playTime = serializePlayTime detail.playTimeMin detail.playTimeMax) :
    payload.hasDurationData = estimate.isSome := by
  rw [GamePayload.hasDurationData, hduration, hplayTime]
  cases estimate with
  | none =>
    obtain ⟨hmin, hmax⟩ := h.playTime rfl
    rw [hmin, hmax]
    rfl
  | some row => rfl

lemma SettledEstimate.map_estimateAfter (h : SettledEstimate detail estimate)
    (hduration : payload.duration = estimate.map serializeDuration)
    (hplayTime : payload.playTime = serializePlayTime detail.playTimeMin detail.playTimeMax)
    (item : ContentItem) :
    (payload.estimateAfter item estimate).map serializeDuration
      = estimate.map serializeDuration := by
  rw [GamePayload.estimateAfter, h.hasDurationData_eq hduration hplayTime]
  cases estimate with
  | none => rfl
  | some row => exact congrArg some (serializeDuration_toEstimate hduration item)

lemma SettledEstimate.checkEstimate (h : SettledEstimate detail estimate)
    (hduration : payload.duration = estimate.map serializeDuration)
    (hplayTime : payload.playTime = serializePlayTime detail.playTimeMin detail.playTimeMax) :
    payload.checkEstimate = true := by
  rw [GamePayload.checkEstimate, h.hasDurationData_eq hduration hplayTime]
  cases estimate with
  | none => rfl
  | some row => simp [sampleCount_of_serialized hduration, h.sampleCount row rfl]

lemma settledEstimate_estimateAfter (item : ContentItem) (hcheck : payload.checkEstimate = true)
    (hold : ∀ row ∈ old, 0 ≤ row.sampleCount) :
    SettledEstimate payload.toRow (payload.estimateAfter item old) where
  playTime hnone := by
    rw [GamePayload.estimateAfter] at hnone
    split_ifs at hnone with hdata
    have hplayTime : payload.playTime = none := by simp_all [GamePayload.hasDurationData]
    simp [GamePayload.toRow, hplayTime]
  sampleCount row hrow := by
    rw [GamePayload.estimateAfter] at hrow
    split_ifs at hrow with hdata
    · obtain rfl := Option.some.inj hrow
      unfold GamePayload.toEstimate
      split_ifs with herror
      · cases old with
        | none => exact le_refl _
        | some row => exact hold row rfl
      · simpa [GamePayload.checkEstimate, hdata, herror] using hcheck
    · exact hold row hrow

end

end Denn.Ingest
