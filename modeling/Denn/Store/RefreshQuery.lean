import Denn.Store.RefreshPolicy

/-!
# The refresh policy as a query

`build_age_band_expression` and `build_refresh_due_at_expression` repeat the refresh policy as SQL
`CASE`s over the columns of a detail and the database clock. They compare timestamps, know the
bounds of most bands by name, and search the status with a regular expression.
-/

namespace Denn

open Core

/-! ### Conditions of the query -/

/-- A reading of the database clock. -/
structure Instant where
  seconds : Time
  micros : Fin 1000000

/-- `Now()`, in microseconds. -/
def Instant.timestamp (now : Instant) : ℤ := now.seconds * 1000000 + now.micros

/-- The clock reads exactly the beginning of a day. -/
def Instant.atMidnight (now : Instant) : Bool :=
  now.seconds % secondsPerDay = 0 && now.micros = 0

/-- The bands whose ages are written out: from the first number of days to before the second. -/
def writtenRange : String → Option (ℤ × ℤ)
  | "hot" => some (0, 30)
  | "recent" => some (30, 180)
  | "first_year" => some (180, 365)
  | "stable" => some (365, 1095)
  | "aged" => some (1095, 3650)
  | _ => none

/-- `_regex_union`. -/
def regexUnion (values : List String) : String :=
  "|".intercalate (values.map fun value =>
    String.ofList (value.toList.flatMap fun c => if c = ' ' then "\\s+".toList else [c]))

/-- The detail model of the type has a status column. -/
def ContentType.hasStatus : ContentType → Bool
  | .movie => true
  | .tvShow => true
  | _ => false

/-! ### The expressions -/

/-- `_active_statuses` with the rest of the override, if there are any. -/
def activeOverride (config : RefreshPolicyConfig) (contentType : ContentType) :
    Option ActiveOverride :=
  (config.typeOverrides contentType).active.filter fun active => active.statuses ≠ []

section

variable (iregex : String → String → Bool) (config : RefreshPolicyConfig)
  (contentType : ContentType) (releaseDate : Option Date) (status : Option String) (now : Instant)

end

/-- `compute_refresh_policy` from the stripped and lower-cased status on. -/
def refreshPolicyOf (config : RefreshPolicyConfig) (contentType : ContentType)
    (releaseDate : Option Date) (status : String) (now : Time) : RefreshPolicy :=
  let override := config.typeOverrides contentType
  match releaseDate with
  | none =>
    { ttlDays := applyPostBandOverrides override "unknown" config.unknownTtlDays
      ageBand := "unknown", reason := "missing_release_date", ageDays := none }
  | some releaseDate =>
    let ageDays := dateOf now - releaseDate
    match activeStatusOverride override status with
    | some active =>
      { ttlDays := active.ttlDays, ageBand := active.band, reason := "active_status:" ++ status,
        ageDays := some ageDays }
    | none =>
      let band := selectBand config ageDays
      { ttlDays := applyPostBandOverrides override band.name band.ttlDays
        ageBand := band.name, reason := "age_days:" ++ toString ageDays, ageDays := some ageDays }

lemma computeRefreshPolicy_eq (config : RefreshPolicyConfig) (contentType : ContentType)
    (releaseDate : Option Date) (status : String) (now : Time) :
    computeRefreshPolicy config contentType releaseDate status now
      = refreshPolicyOf config contentType releaseDate (strip status).toLower now := by
  cases releaseDate with
  | none => rfl
  | some releaseDate => rfl

/-! ### Ages in days -/

/-- The ages for which `_band_when` holds. -/
def bandCovers (ageDays : ℤ) (atMidnight : Bool) (band : AgeBand) : Bool :=
  if band.maxAgeDays = some (-1) then ageDays < 0
  else
    match band.maxAgeDays with
    | none => 3650 ≤ ageDays
    | some maxAgeDays =>
      match writtenRange band.name with
      | some (first, past) => ageDays < past && first ≤ ageDays
      | none => ageDays < maxAgeDays || (ageDays = maxAgeDays && atMidnight)

/-- What decides the policy of a detail with a release date. -/
inductive PolicyBranch where
  | active (override : ActiveOverride)
  | band (band : AgeBand)
  | fallback

/-- The result of a branch. -/
def PolicyBranch.result {β : Type} (active : ActiveOverride → β) (band : AgeBand → β) (default : β) :
    PolicyBranch → β
  | .active override => active override
  | .band row => band row
  | .fallback => default

/-- The band name and the days of a branch. -/
def PolicyBranch.label (override : TypeOverride) (branch : PolicyBranch) : String × ℕ :=
  (branch.result (·.band) (·.name) "classic",
    branch.result (·.ttlDays) (fun band => applyPostBandOverrides override band.name band.ttlDays)
      180)

section

variable (iregex : String → String → Bool) (config : RefreshPolicyConfig)
  (contentType : ContentType)

/-- The override that the query finds for a status. -/
def searchedOverride (status : Option String) : Option ActiveOverride :=
  (activeOverride config contentType).filter fun active =>
    status.any (iregex (regexUnion active.statuses))

/-- The branch that `compute_refresh_policy` takes for a stripped and lower-cased status. -/
def pythonBranch (status : String) (ageDays : ℤ) : PolicyBranch :=
  match activeStatusOverride (config.typeOverrides contentType) status with
  | some active => .active active
  | none => .band (selectBand config ageDays)

/-- The branch that the `CASE` takes. -/
def queryBranch (status : Option String) (ageDays : ℤ) (atMidnight : Bool) : PolicyBranch :=
  match searchedOverride iregex config contentType status with
  | some active => .active active
  | none => (config.bands.find? (bandCovers ageDays atMidnight)).elim .fallback .band

end

section

variable {iregex : String → String → Bool} {config : RefreshPolicyConfig}
  {contentType : ContentType} {now : Instant}

/-- The status column of a detail, for the types that have one. -/
def detailStatus (contentType : ContentType) (status : String) : Option String :=
  if contentType.hasStatus then some status else none

/-- The status is an active one for both or for neither, and if it is not, the first band that
    admits the age is the first one whose written condition holds. -/
def takesSameBranch (lower : String → String) (iregex : String → String → Bool)
    (config : RefreshPolicyConfig) (contentType : ContentType) (status : String) (ageDays : ℤ)
    (atMidnight : Bool) : Prop :=
  let column := detailStatus contentType status
  let exact := activeStatusOverride (config.typeOverrides contentType)
    (lower (strip (column.getD "")))
  exact.isSome = (searchedOverride iregex config contentType column).isSome ∧
    (exact.isSome = true ∨
      config.bands.find? (bandCovers ageDays atMidnight) = some (selectBand config ageDays))

variable {lower : String → String} {status : String}

lemma takesSameBranch.eq {ageDays : ℤ} {atMidnight : Bool}
    (h : takesSameBranch lower iregex config contentType status ageDays atMidnight) :
    pythonBranch config contentType (lower (strip ((detailStatus contentType status).getD "")))
        ageDays
      = queryBranch iregex config contentType (detailStatus contentType status) ageDays
        atMidnight := by
  obtain ⟨hstatus, hband⟩ := h
  unfold pythonBranch queryBranch
  cases hexact : activeStatusOverride (config.typeOverrides contentType)
      (lower (strip ((detailStatus contentType status).getD ""))) with
  | none =>
    rw [hexact] at hstatus hband
    have hsearched : searchedOverride iregex config contentType (detailStatus contentType status)
        = none := by simpa using hstatus.symm
    rw [hsearched]
    rcases hband with hband | hband
    · cases hband
    · rw [hband]
      rfl
  | some exact =>
    rw [hexact] at hstatus
    obtain ⟨searched, hsearched⟩ := Option.isSome_iff_exists.mp hstatus.symm
    -- both are the override of the type
    have hboth : exact = searched := by
      have hleft := (Option.filter_eq_some_iff.mp hexact).1
      have hright := (Option.filter_eq_some_iff.mp (Option.filter_eq_some_iff.mp hsearched).1).1
      rw [hleft] at hright
      exact Option.some.inj hright
    rw [hsearched, hboth]

end

/-! ### Disagreement -/

end Denn
