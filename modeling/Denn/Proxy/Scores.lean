import Denn.Proxy.Trending
import Mathlib.Tactic.Linarith
import Mathlib.Tactic.Ring

/-!
# Trending scores

What the score of a game makes of its popularity and its age, computed without rounding: how it
changes with more interest and a newer release, and whether it depends on the units of the upstream.
-/

namespace Denn.Proxy

open Denn.Core

/-! ### Scores with any rounding -/

section Scores

variable (round : ℚ → ℚ)

/-- `calculateRecencyMultiplier`, with the constants rounded as given. -/
def recencyMultiplier (releaseDate : Option String) (now : Instant) : ℚ :=
  match releaseDate.bind parseFullDate with
  | none => 1
  | some t =>
    if now < t then 0
    else
      let daysOld := now / day - t / day
      if daysOld < 30 then maxRecencyBoost
      else if daysOld < 60 then round (maxRecencyBoost * (8 / 10))
      else if daysOld < 90 then round (maxRecencyBoost * (6 / 10))
      else if daysOld < 180 then round (maxRecencyBoost * (4 / 10))
      else if daysOld < 365 then round (maxRecencyBoost * (2 / 10))
      else 1

/-- The share of a maximum. -/
def shareOf (m : PopularityMap) (maximum : ℚ) (gid : ℤ) : ℚ :=
  match m.get? gid with
  | some v => if 0 < maximum then round (v / maximum) else 0
  | none => 0

/-- The two shares are weighted if both are positive; else the positive one counts. -/
def baseScore (valWant valVisits : ℚ) : ℚ :=
  if 0 < valWant ∧ 0 < valVisits then
    round (round (round (7 / 10) * valWant) + round (round (3 / 10) * valVisits))
  else if 0 < valWant then valWant
  else if 0 < valVisits then valVisits
  else 0

/-- `calculateSingleGameScore`. -/
def singleGameScore (game : Game) (wantMap visitsMap : PopularityMap) (maxWant maxVisits : ℚ)
    (now : Instant) : ℚ :=
  round (baseScore round (shareOf round wantMap maxWant (atoi game.id))
    (shareOf round visitsMap maxVisits (atoi game.id)) *
      recencyMultiplier round game.releaseDate now)

end Scores

/-- With double precision this is the score of the service. -/
lemma calculateSingleGameScore_eq (game : Game) (wantMap visitsMap : PopularityMap) (now : Instant) :
    calculateSingleGameScore game wantMap visitsMap now =
      singleGameScore toBinary64 game wantMap visitsMap (findMax wantMap) (findMax visitsMap) now :=
  rfl

/-- The score without rounding. -/
def exactScore (game : Game) (wantMap visitsMap : PopularityMap) (maxWant maxVisits : ℚ)
    (now : Instant) : ℚ :=
  singleGameScore id game wantMap visitsMap maxWant maxVisits now

/-! ### More interest and a newer release -/

section Monotone

variable {valWant valVisits valWant' valVisits' maximum : ℚ} {m : PopularityMap} {gid gid' : ℤ}
  {date date' : Option String} {t t' now : Instant}

/-- The interest in a game; none is recorded as zero. -/
def interest (m : PopularityMap) (game : Game) : ℚ := (m.get? (atoi game.id)).getD 0

/-- The age of a game in days. -/
def daysOld (t now : Instant) : ℤ := now / day - t / day

/-- The part of a game's base score that is left when a signal that it lacked comes in: the weight of
    the signal that it had. -/
def keptWeight (want visits want' visits' : ℚ) : ℚ :=
  if 0 < want ∧ visits ≤ 0 ∧ 0 < visits' then 7 / 10
  else if want ≤ 0 ∧ 0 < visits ∧ 0 < want' then 3 / 10
  else 1

lemma baseScore_nonneg : 0 ≤ baseScore id valWant valVisits := by
  unfold baseScore
  split_ifs with hboth hwant hvisits
  · simp only [id_eq]
    linarith [hboth.1, hboth.2]
  · exact hwant.le
  · exact hvisits.le
  · exact le_rfl

lemma shareOf_eq : shareOf id m maximum gid = if 0 < maximum then (m.get? gid).getD 0 / maximum else 0 := by
  unfold shareOf
  cases m.get? gid with
  | none => simp
  | some v => simp

lemma shareOf_pos_iff : 0 < shareOf id m maximum gid ↔ 0 < maximum ∧ 0 < (m.get? gid).getD 0 := by
  rw [shareOf_eq]
  split_ifs with hmax
  · rw [div_pos_iff_of_pos_right hmax]
    exact (and_iff_right hmax).symm
  · simp [hmax]

lemma shareOf_le (h : (m.get? gid).getD 0 ≤ (m.get? gid').getD 0) :
    shareOf id m maximum gid ≤ shareOf id m maximum gid' := by
  rw [shareOf_eq, shareOf_eq]
  split_ifs with hmax
  · exact div_le_div_of_nonneg_right h hmax.le
  · exact le_rfl

/-- Greater shares make at least the kept part of a base score. -/
lemma baseScore_mono (hwant : valWant ≤ valWant') (hvisits : valVisits ≤ valVisits') :
    keptWeight valWant valVisits valWant' valVisits' * baseScore id valWant valVisits ≤
      baseScore id valWant' valVisits' := by
  unfold keptWeight baseScore
  simp only [id_eq]
  split_ifs <;> simp_all <;> linarith

lemma keptWeight_le_one {want visits want' visits' : ℚ} : keptWeight want visits want' visits' ≤ 1 := by
  unfold keptWeight
  split_ifs <;> norm_num

lemma keptWeight_congr {want visits want' visits' : ℚ} (hwant : 0 < want ↔ 0 < valWant)
    (hvisits : 0 < visits ↔ 0 < valVisits) (hwant' : 0 < want' ↔ 0 < valWant')
    (hvisits' : 0 < visits' ↔ 0 < valVisits') :
    keptWeight want visits want' visits' = keptWeight valWant valVisits valWant' valVisits' := by
  unfold keptWeight
  simp only [hwant, hwant', hvisits', hvisits, ← not_lt]

/-- A signal without a maximum counts for no game. -/
lemma keptWeight_le (wantMap visitsMap : PopularityMap) (maxWant maxVisits : ℚ) (game game' : Game) :
    keptWeight (interest wantMap game) (interest visitsMap game) (interest wantMap game')
        (interest visitsMap game') ≤
      keptWeight (shareOf id wantMap maxWant (atoi game.id))
        (shareOf id visitsMap maxVisits (atoi game.id)) (shareOf id wantMap maxWant (atoi game'.id))
        (shareOf id visitsMap maxVisits (atoi game'.id)) := by
  by_cases hwant : 0 < maxWant
  · by_cases hvisits : 0 < maxVisits
    · refine (keptWeight_congr ?_ ?_ ?_ ?_).le <;> simp [shareOf_pos_iff, interest, hwant, hvisits]
    · refine keptWeight_le_one.trans_eq ?_
      simp [keptWeight, shareOf_eq, hvisits]
  · refine keptWeight_le_one.trans_eq ?_
    simp [keptWeight, shareOf_eq, hwant]

lemma recencyMultiplier_eq (hdate : date.bind parseFullDate = some t) (hnow : t ≤ now) :
    recencyMultiplier id date now =
      if daysOld t now < 30 then 4
      else if daysOld t now < 60 then 32 / 10
      else if daysOld t now < 90 then 24 / 10
      else if daysOld t now < 180 then 16 / 10
      else if daysOld t now < 365 then 8 / 10
      else 1 := by
  unfold recencyMultiplier daysOld
  simp only [hdate, not_lt.mpr hnow, if_false, id_eq, maxRecencyBoost]
  norm_num

lemma recencyMultiplier_nonneg : 0 ≤ recencyMultiplier id date now := by
  cases hdate : date.bind parseFullDate with
  | none => simp [recencyMultiplier, hdate]
  | some t =>
    rcases le_or_gt t now with hnow | hnow
    · rw [recencyMultiplier_eq hdate hnow]
      split_ifs <;> norm_num
    · simp [recencyMultiplier, hdate, hnow]

/-- A newer game is multiplied by as much, if it is not one of half a year to a year beside an older
    one. -/
lemma recencyMultiplier_mono (hdate : date.bind parseFullDate = some t)
    (hdate' : date'.bind parseFullDate = some t') (hle : t ≤ t') (hnow : t' ≤ now)
    (hbands : ¬ (365 ≤ daysOld t now ∧ 180 ≤ daysOld t' now ∧ daysOld t' now < 365)) :
    recencyMultiplier id date now ≤ recencyMultiplier id date' now := by
  have hdays : daysOld t' now ≤ daysOld t now :=
    Int.sub_le_sub_left (Int.ediv_le_ediv (by decide) hle) _
  rw [recencyMultiplier_eq hdate (hle.trans hnow), recencyMultiplier_eq hdate' hnow]
  split_ifs <;> first | omega | norm_num

end Monotone

/-- A game with at least as much interest and no earlier release has at least the score of another
    one, up to the weight that remains for the other's signals where it has one that the other lacks. -/
theorem exactScore_mono (wantMap visitsMap : PopularityMap) (maxWant maxVisits : ℚ) (now : Instant)
    (game game' : Game) {t t' : Instant}
    (hwant : interest wantMap game ≤ interest wantMap game')
    (hvisits : interest visitsMap game ≤ interest visitsMap game')
    (hdate : game.releaseDate.bind parseFullDate = some t)
    (hdate' : game'.releaseDate.bind parseFullDate = some t') (hle : t ≤ t') (hnow : t' ≤ now)
    (hbands : ¬ (365 ≤ daysOld t now ∧ 180 ≤ daysOld t' now ∧ daysOld t' now < 365)) :
    keptWeight (interest wantMap game) (interest visitsMap game) (interest wantMap game')
        (interest visitsMap game') * exactScore game wantMap visitsMap maxWant maxVisits now ≤
      exactScore game' wantMap visitsMap maxWant maxVisits now := by
  have hkept := keptWeight_le wantMap visitsMap maxWant maxVisits game game'
  have hbase := baseScore_mono (shareOf_le hwant : shareOf id wantMap maxWant _ ≤ _)
    (shareOf_le hvisits : shareOf id visitsMap maxVisits _ ≤ _)
  have hmultiplier := recencyMultiplier_mono hdate hdate' hle hnow hbands
  have hnonneg : 0 ≤ recencyMultiplier id game.releaseDate now := recencyMultiplier_nonneg
  simp only [exactScore, singleGameScore, id_eq]
  rw [← mul_assoc]
  refine mul_le_mul ?_ hmultiplier hnonneg baseScore_nonneg
  exact (mul_le_mul_of_nonneg_right hkept baseScore_nonneg).trans hbase

/-- An old game that is only wanted, and one that is visited as well. -/
def wantedGame : Game := { id := "1", contentType := "game", title := "", releaseDate := some "2000-01-01" }

def visitedGame : Game := { wantedGame with id := "2" }

def wantedBoth : PopularityMap := .ofList [(1, 100), (2, 100)]

def visitedOne : PopularityMap := .ofList [(2, 10)]

lemma wantedGame_date : wantedGame.releaseDate.bind parseFullDate = some (10957 * day) := by
  decide +kernel

/-- The visits that come in leave seven tenths of the score at least. -/
theorem exactScore_mono_visited :
    keptWeight 100 0 100 10 * exactScore wantedGame wantedBoth visitedOne 100 100 (20000 * day) ≤
      exactScore visitedGame wantedBoth visitedOne 100 100 (20000 * day) :=
  exactScore_mono wantedBoth visitedOne 100 100 (20000 * day) wantedGame visitedGame
    (by decide +kernel) (by decide +kernel) wantedGame_date wantedGame_date le_rfl
    (by decide +kernel) (by decide +kernel)

/-- They lower it. -/
theorem exactScore_not_mono : ¬ ∀ (wantMap visitsMap : PopularityMap) (maxWant maxVisits : ℚ)
    (now : Instant) (game game' : Game) (t t' : Instant),
    interest wantMap game ≤ interest wantMap game' →
    interest visitsMap game ≤ interest visitsMap game' →
    game.releaseDate.bind parseFullDate = some t →
    game'.releaseDate.bind parseFullDate = some t' → t ≤ t' → t' ≤ now →
    exactScore game wantMap visitsMap maxWant maxVisits now ≤
      exactScore game' wantMap visitsMap maxWant maxVisits now := by
  intro h
  have hle := h wantedBoth visitedOne 100 100 (20000 * day) wantedGame visitedGame _ _
    (by decide +kernel) (by decide +kernel) wantedGame_date wantedGame_date le_rfl
    (by decide +kernel)
  revert hle
  decide +kernel

/-! ### The units of the upstream -/

section Units

variable {m want visits : PopularityMap} {c d v : ℚ} {gid : ℤ}

/-- All values in another unit. -/
def scaled (c : ℚ) (m : PopularityMap) : PopularityMap where
  entries := m.entries.map fun entry => (entry.1, c * entry.2)
  nodup := by
    rw [List.map_map]
    exact m.nodup

/-- The score that `calculateScores` gives a game. -/
def scoreOf (want visits : PopularityMap) (now : Instant) (game : Game) : ℚ :=
  exactScore game want visits (findMax want) (findMax visits) now

def HasPositive (m : PopularityMap) : Prop := ∃ v ∈ m.values, 0 < v

instance (m : PopularityMap) : Decidable (HasPositive m) := inferInstanceAs (Decidable (∃ v ∈ _, _))

/-- The largest share is 1. -/
def Normalised (m : PopularityMap) : Prop :=
  (∃ gid, shareOf id m (findMax m) gid = 1) ∧ ∀ gid, shareOf id m (findMax m) gid ≤ 1

/-- The scores do not depend on the units, and the maps are normalised in both. -/
def UnitFree (c d : ℚ) (want visits : PopularityMap) : Prop :=
  (∀ now game, scoreOf (scaled c want) (scaled d visits) now game = scoreOf want visits now game) ∧
    ∀ m ∈ [want, visits, scaled c want, scaled d visits], HasPositive m → Normalised m

lemma findMax_spec (m : PopularityMap) :
    1 ≤ findMax m ∧ (∀ v ∈ m.values, v ≤ findMax m) ∧ (findMax m = 1 ∨ findMax m ∈ m.values) := by
  have hfold : ∀ (values : List ℚ) (start : ℚ), start ≤ values.foldl max start ∧
      (∀ v ∈ values, v ≤ values.foldl max start) ∧
        (values.foldl max start = start ∨ values.foldl max start ∈ values) := by
    intro values
    induction values with
    | nil => simp
    | cons value values ih =>
      intro start
      obtain ⟨hstart, hle, hattained⟩ := ih (max start value)
      rw [List.foldl_cons]
      refine ⟨(le_max_left ..).trans hstart, List.forall_mem_cons.mpr
        ⟨(le_max_right ..).trans hstart, hle⟩, ?_⟩
      rcases hattained with heq | hmem
      · rw [heq]
        rcases max_choice start value with hmax | hmax
        · exact .inl hmax
        · exact .inr (by simp [hmax])
      · exact .inr (List.mem_cons_of_mem _ hmem)
  exact hfold m.values 1

lemma findMax_pos (m : PopularityMap) : 0 < findMax m := zero_lt_one.trans_le (findMax_spec m).1

/-- The maximum is that of the map exactly if a value reaches the start of the loop. -/
lemma findMax_mem_iff : findMax m ∈ m.values ↔ ∃ v ∈ m.values, 1 ≤ v := by
  obtain ⟨hone, hle, hattained⟩ := findMax_spec m
  constructor
  · exact fun hmem => ⟨_, hmem, hone⟩
  · rintro ⟨v, hv, hge⟩
    rcases hattained with heq | hmem
    · rwa [heq, ← le_antisymm (heq ▸ hle v hv) hge]
    · exact hmem

lemma shareOf_findMax : shareOf id m (findMax m) gid = (m.get? gid).getD 0 / findMax m := by
  rw [shareOf_eq, if_pos (findMax_pos m)]

lemma normalised_iff : Normalised m ↔ ∃ v ∈ m.values, 1 ≤ v := by
  obtain ⟨-, hle, -⟩ := findMax_spec m
  have hpos := findMax_pos m
  rw [← findMax_mem_iff]
  constructor
  · rintro ⟨⟨gid, hgid⟩, -⟩
    rw [shareOf_findMax, div_eq_one_iff_eq hpos.ne'] at hgid
    cases hget : m.get? gid with
    | none => simp [hget, hpos.ne] at hgid
    | some v =>
      rw [hget, Option.getD_some] at hgid
      exact OrderedMap.mem_values.mpr ⟨gid, hgid ▸ hget⟩
  · intro hmem
    obtain ⟨gid, hgid⟩ := OrderedMap.mem_values.mp hmem
    refine ⟨⟨gid, ?_⟩, fun gid' => ?_⟩
    · rw [shareOf_findMax, hgid, Option.getD_some, div_self hpos.ne']
    · rw [shareOf_findMax, div_le_one hpos]
      cases hget : m.get? gid' with
      | none => exact hpos.le
      | some v => exact hle v (OrderedMap.mem_values.mpr ⟨gid', hget⟩)

lemma get?_scaled : (scaled c m).get? gid = (m.get? gid).map (c * ·) := by
  have hlookup : ∀ entries : List (ℤ × ℚ), (entries.map fun entry => (entry.1, c * entry.2)).lookup gid =
      (entries.lookup gid).map (c * ·) := by
    intro entries
    induction entries with
    | nil => rfl
    | cons entry entries ih =>
      rw [List.map_cons, OrderedMap.lookup_cons, OrderedMap.lookup_cons, ih]
      split_ifs <;> rfl
  exact hlookup m.entries

lemma mem_values_scaled : v ∈ (scaled c m).values ↔ ∃ w ∈ m.values, c * w = v := by
  have hvalues : (scaled c m).values = m.values.map (c * ·) := by
    simp only [OrderedMap.values, scaled, List.map_map]
    rfl
  rw [hvalues, List.mem_map]

/-- A map that keeps its maximum in both units has the same shares in both. -/
lemma shareOf_scaled (hc : 0 < c) (hm : ∃ v ∈ m.values, 1 ≤ v)
    (hscaled : ∃ v ∈ (scaled c m).values, 1 ≤ v) :
    shareOf id (scaled c m) (findMax (scaled c m)) gid = shareOf id m (findMax m) gid := by
  have hmax : findMax (scaled c m) = c * findMax m := by
    apply le_antisymm
    · obtain ⟨w, hw, heq⟩ := mem_values_scaled.mp (findMax_mem_iff.mpr hscaled)
      rw [← heq]
      exact mul_le_mul_of_nonneg_left ((findMax_spec m).2.1 w hw) hc.le
    · exact (findMax_spec _).2.1 _ (mem_values_scaled.mpr ⟨_, findMax_mem_iff.mpr hm, rfl⟩)
  rw [shareOf_findMax, shareOf_findMax, hmax, get?_scaled]
  cases m.get? gid with
  | none => simp
  | some v => exact mul_div_mul_left _ _ hc.ne'

/-- So has a map in which no value is positive. -/
lemma shareOf_scaled_of_not (hnonneg : ∀ v ∈ m.values, 0 ≤ v) (hm : ¬ HasPositive m) :
    shareOf id (scaled c m) (findMax (scaled c m)) gid = shareOf id m (findMax m) gid := by
  rw [shareOf_findMax, shareOf_findMax, get?_scaled]
  cases hget : m.get? gid with
  | none => simp
  | some v =>
    have hv : v ∈ m.values := OrderedMap.mem_values.mpr ⟨gid, hget⟩
    have hzero : v = 0 := le_antisymm (not_lt.mp fun hpos => hm ⟨v, hv, hpos⟩) (hnonneg v hv)
    simp [hzero]

lemma hasPositive_scaled (hc : 0 < c) (h : HasPositive m) : HasPositive (scaled c m) := by
  obtain ⟨v, hv, hpos⟩ := h
  exact ⟨c * v, mem_values_scaled.mpr ⟨v, hv, rfl⟩, mul_pos hc hpos⟩

/-- Scores do not depend on the units, and maps are normalised, exactly if each map with a positive
    value has one of at least 1 in both units. -/
theorem unitFree_iff (hwant : ∀ v ∈ want.values, 0 ≤ v) (hvisits : ∀ v ∈ visits.values, 0 ≤ v)
    (hc : 0 < c) (hd : 0 < d) : UnitFree c d want visits ↔
      ∀ m ∈ [want, visits, scaled c want, scaled d visits], HasPositive m → ∃ v ∈ m.values, 1 ≤ v := by
  rw [UnitFree]
  simp only [normalised_iff]
  refine and_iff_right_of_imp fun h now game => ?_
  have hshare : ∀ {e m}, 0 < e → (∀ v ∈ m.values, 0 ≤ v) →
      m ∈ [want, visits, scaled c want, scaled d visits] →
      scaled e m ∈ [want, visits, scaled c want, scaled d visits] → ∀ gid,
      shareOf id (scaled e m) (findMax (scaled e m)) gid = shareOf id m (findMax m) gid := by
    intro e m he hnonneg hm hscaled gid
    by_cases hpositive : HasPositive m
    · exact shareOf_scaled he (h m hm hpositive) (h _ hscaled (hasPositive_scaled he hpositive))
    · exact shareOf_scaled_of_not hnonneg hpositive
  simp only [scoreOf, exactScore, singleGameScore]
  rw [hshare hc hwant (by simp) (by simp), hshare hd hvisits (by simp) (by simp)]

/-- Values of one and two hundred can be counted in hundreds. -/
theorem unitFree_hundreds :
    UnitFree (1 / 100) 1 (.ofList [(1, 100), (2, 200)]) (.ofList []) :=
  (unitFree_iff (by decide +kernel) (by decide +kernel) (by decide +kernel) (by decide +kernel)).mpr
    (by decide +kernel)

/-- Values below one are not normalised. -/
theorem not_unitFree : ¬ ∀ (c d : ℚ) (want visits : PopularityMap), (∀ v ∈ want.values, 0 ≤ v) →
    (∀ v ∈ visits.values, 0 ≤ v) → 0 < c → 0 < d → UnitFree c d want visits := by
  intro h
  have hfree := h 2 1 (.ofList [(1, 1 / 4)]) (.ofList []) (by decide +kernel) (by decide +kernel)
    (by decide +kernel) (by decide +kernel)
  have hvalue := normalised_iff.mp (hfree.2 _ (List.mem_cons_self ..) (by decide +kernel))
  revert hvalue
  decide +kernel

end Units

end Denn.Proxy
