import Mathlib.Algebra.Order.Field.Rat
import Mathlib.Tactic.NormNum

/-!
# The moderation policy

The decision that three raw probabilities and the provider's explicit flag lead to. The provider
flag overrides; what is missing or malformed fails closed.
-/

namespace Denn

/-- A raw answer as the client hands it over: absent, a number, or something that is not a finite
    real number. -/
inductive RawProbability where
  | absent
  | number (q : ℚ)
  | malformed
  deriving DecidableEq, Repr

/-- Cutoffs within `[0, 1]`. -/
structure PolicyThresholds where
  safeMin : ℚ := 3 / 4
  explicitAt : ℚ := 11 / 20
  reviewAt : ℚ := 3 / 4
  safeMin_mem : 0 ≤ safeMin ∧ safeMin ≤ 1 := by norm_num
  explicitAt_mem : 0 ≤ explicitAt ∧ explicitAt ≤ 1 := by norm_num
  reviewAt_mem : 0 ≤ reviewAt ∧ reviewAt ≤ 1 := by norm_num

inductive Decision where
  | safeForAutomaticDiscovery
  | explicitOrSensitive
  | needsReview
  | unknown
  deriving DecidableEq, Repr

structure PolicyResult where
  decision : Decision
  reason : String
  deriving DecidableEq, Repr

/-- A probability is absent or in `[0, 1]`; anything else is refused. -/
def validatedProbability : RawProbability → Option (Option ℚ)
  | .absent => some none
  | .number q => if 0 ≤ q ∧ q ≤ 1 then some (some q) else none
  | .malformed => none

/-- The provider flag as the composer receives it: `True`, `False`, `None` or anything else. -/
inductive ProviderFlag where
  | explicit
  | notExplicit
  | none
  | corrupt
  deriving DecidableEq, Repr

def composePolicy (providerExplicit : ProviderFlag) (safe explicit review : RawProbability)
    (thresholds : PolicyThresholds) : PolicyResult :=
  match providerExplicit with
  | .explicit => ⟨.explicitOrSensitive, "provider_explicit_override"⟩
  | .corrupt => ⟨.unknown, "corrupt_provider_explicit_input"⟩
  | .notExplicit | .none =>
    match validatedProbability safe, validatedProbability explicit,
        validatedProbability review with
    | some safeProb, some explicitProb, some reviewProb =>
      if explicitProb.any fun p => thresholds.explicitAt ≤ p then
        ⟨.explicitOrSensitive, "jev_explicit_at_or_above_threshold"⟩
      else if reviewProb.any fun p => thresholds.reviewAt ≤ p then
        ⟨.needsReview, "jev_review_at_or_above_threshold"⟩
      else
        match safeProb, explicitProb, reviewProb with
        | some safeProb, some _, some _ =>
          if thresholds.safeMin ≤ safeProb then
            ⟨.safeForAutomaticDiscovery, "jev_safe_at_or_above_threshold"⟩
          else ⟨.needsReview, "safe_below_threshold"⟩
        | _, _, _ => ⟨.needsReview, "incomplete_jev_answers"⟩
    | _, _, _ => ⟨.unknown, "invalid_probability_input"⟩

end Denn
