import Denn.Content.Item
import Denn.Core.Text
import Mathlib.Algebra.Order.Field.Rat
import Mathlib.Data.Rat.Floor

/-!
# The refresh policy

How long a persisted detail counts as fresh. Its age since the release picks a band, and a content
type can override what the band says.
-/

namespace Denn

open Core

/-- A calendar day, counted from the epoch. -/
abbrev Date := ℤ

def secondsPerDay : ℕ := 86400

/-- `now.date()`. -/
def dateOf (now : Time) : Date := (now / secondsPerDay : ℕ)

structure AgeBand where
  name : String
  maxAgeDays : Option ℤ
  ttlDays : ℕ
  deriving DecidableEq

/-- A fixed lifetime for details with one of some statuses. -/
structure ActiveOverride where
  statuses : List String
  ttlDays : ℕ
  band : String

structure TypeOverride where
  multiplier : Option ℚ := none
  classicTtlDays : Option ℕ := none
  active : Option ActiveOverride := none

/-- `CONTENT_REHYDRATION_POLICY`. -/
structure RefreshPolicyConfig where
  bands : List AgeBand
  unknownTtlDays : ℕ
  typeOverrides : ContentType → TypeOverride
  bands_ne_nil : bands ≠ []

def defaultPolicy : RefreshPolicyConfig where
  bands :=
    [ ⟨"pre_release", some (-1), 1⟩, ⟨"hot", some 29, 2⟩, ⟨"recent", some 179, 7⟩,
      ⟨"first_year", some 364, 14⟩, ⟨"stable", some 1094, 30⟩, ⟨"aged", some 3649, 90⟩,
      ⟨"classic", none, 180⟩ ]
  unknownTtlDays := 30
  typeOverrides
    | .book => { multiplier := some 2, classicTtlDays := some 365 }
    | .album => { classicTtlDays := some 365 }
    | .tvShow => { active := some ⟨["returning series", "in production"], 2, "hot"⟩ }
    | _ => {}
  bands_ne_nil := by simp

structure RefreshPolicy where
  ttlDays : ℕ
  ageBand : String
  reason : String
  ageDays : Option ℤ

def RefreshPolicy.ttl (policy : RefreshPolicy) : ℕ := policy.ttlDays * secondsPerDay

def selectBand (config : RefreshPolicyConfig) (ageDays : ℤ) : AgeBand :=
  (config.bands.find? fun band => band.maxAgeDays.all (ageDays ≤ ·)).getD
    (config.bands.getLast config.bands_ne_nil)

def applyPostBandOverrides (override : TypeOverride) (ageBand : String) (ttlDays : ℕ) : ℕ :=
  let ttlDays := if ageBand = "classic" then override.classicTtlDays.getD ttlDays else ttlDays
  match override.multiplier with
  | some multiplier => max 1 ⌊ttlDays * multiplier⌋.toNat
  | none => ttlDays

def activeStatusOverride (override : TypeOverride) (status : String) : Option ActiveOverride :=
  override.active.filter fun active => status ≠ "" && status ∈ active.statuses

/-- `compute_refresh_policy` for a detail with a release date and a status. -/
def computeRefreshPolicy (config : RefreshPolicyConfig) (contentType : ContentType)
    (releaseDate : Option Date) (status : String) (now : Time) : RefreshPolicy :=
  let override := config.typeOverrides contentType
  let status := (strip status).toLower
  match releaseDate with
  | none =>
    { ttlDays := applyPostBandOverrides override "unknown" config.unknownTtlDays
      ageBand := "unknown", reason := "missing_release_date", ageDays := none }
  | some releaseDate =>
    let ageDays := dateOf now - releaseDate
    match activeStatusOverride override status with
    | some active =>
      { ttlDays := active.ttlDays, ageBand := active.band, reason := "active_status:" ++ status,
        ageDays := some ageDays }
    | none =>
      let band := selectBand config ageDays
      { ttlDays := applyPostBandOverrides override band.name band.ttlDays
        ageBand := band.name, reason := "age_days:" ++ toString ageDays, ageDays := some ageDays }

end Denn
