import Denn.Core.Apportion
import Denn.Core.Except
import Denn.Core.Rounding
import Mathlib.Data.String.Basic

/-!
# Stratified sampling of evaluation candidates

The command that exports candidates for an evaluation splits the sample over the strata and draws from
each of them, sensitive candidates first.
-/

namespace Denn.Moderation

open Denn.Core

variable {κ σ : Type} [LinearOrder κ]

/-! ### The allocation -/

/-- `_allocate`. -/
def allocate (counts : OrderedMap κ ℕ) (sampleSize minPerStratum : ℕ) : OrderedMap κ ℕ :=
  let total := min sampleSize counts.values.sum
  let floors := counts.mapValues fun _ count => min minPerStratum count
  let floorTotal := floors.values.sum
  if total ≤ floorTotal then apportion total floors
  else
    let spare := counts.mapValues fun key count => count - (floors.get? key).getD 0
    let extra := apportion (total - floorTotal) spare
    counts.mapValues fun key _ => (floors.get? key).getD 0 + (extra.get? key).getD 0

variable {counts : OrderedMap κ ℕ} {sampleSize minPerStratum : ℕ}

/-- The floors together, which are what a small sample is apportioned to. -/
def floorTotal (counts : OrderedMap κ ℕ) (minPerStratum : ℕ) : ℕ :=
  (counts.mapValues fun _ count => min minPerStratum count).values.sum

omit [LinearOrder κ] in
lemma floors_add_spare (counts : OrderedMap κ ℕ) (minPerStratum : ℕ) :
    floorTotal counts minPerStratum +
      (counts.mapValues fun _ count => count - min minPerStratum count).values.sum =
      counts.values.sum := by
  have hentries : ∀ entries : List (κ × ℕ),
      (entries.map fun entry => min minPerStratum entry.2).sum +
        (entries.map fun entry => entry.2 - min minPerStratum entry.2).sum =
        (entries.map Prod.snd).sum := by
    intro entries
    induction entries with
    | nil => rfl
    | cons entry entries ih =>
      simp only [List.map_cons, List.sum_cons]
      omega
  rw [floorTotal, OrderedMap.values_mapValues, OrderedMap.values_mapValues]
  exact hentries counts.entries

/-- The spare capacity is read off the floors. -/
lemma spare_eq (counts : OrderedMap κ ℕ) (minPerStratum : ℕ) :
    (counts.mapValues fun key count =>
      count - ((counts.mapValues fun _ count => min minPerStratum count).get? key).getD 0) =
    counts.mapValues fun _ count => count - min minPerStratum count := by
  have hentries : ∀ entry ∈ counts.entries,
      (entry.1, entry.2 -
        ((counts.mapValues fun _ count => min minPerStratum count).get? entry.1).getD 0) =
      (entry.1, entry.2 - min minPerStratum entry.2) := by
    intro entry hmem
    rw [OrderedMap.get?_mapValues, OrderedMap.mem_entries.mp hmem]
    rfl
  simp only [OrderedMap.mapValues] at hentries ⊢
  congr 1
  exact List.map_congr_left hentries

lemma allocate_eq (counts : OrderedMap κ ℕ) (sampleSize minPerStratum : ℕ) :
    allocate counts sampleSize minPerStratum =
      if min sampleSize counts.values.sum ≤ floorTotal counts minPerStratum then
        apportion (min sampleSize counts.values.sum)
          (counts.mapValues fun _ count => min minPerStratum count)
      else
        counts.mapValues fun key _ =>
          ((counts.mapValues fun _ count => min minPerStratum count).get? key).getD 0 +
          ((apportion (min sampleSize counts.values.sum - floorTotal counts minPerStratum)
            (counts.mapValues fun _ count => count - min minPerStratum count)).get? key).getD 0 := by
  rw [← spare_eq]
  rfl

lemma keys_allocate (counts : OrderedMap κ ℕ) (sampleSize minPerStratum : ℕ) :
    (allocate counts sampleSize minPerStratum).entries.map Prod.fst =
      counts.entries.map Prod.fst := by
  rw [allocate_eq]
  split_ifs
  · rw [keys_apportion, OrderedMap.keys_mapValues]
  · rw [OrderedMap.keys_mapValues]

/-- The whole sample is allocated. -/
lemma sum_allocate (counts : OrderedMap κ ℕ) (sampleSize minPerStratum : ℕ) :
    (allocate counts sampleSize minPerStratum).values.sum = min sampleSize counts.values.sum := by
  rw [allocate_eq]
  split_ifs with hsmall
  · exact sum_apportion hsmall
  · have hspare := floors_add_spare counts minPerStratum
    have hextra : (apportion (min sampleSize counts.values.sum - floorTotal counts minPerStratum)
        (counts.mapValues fun _ count => count - min minPerStratum count)).values.sum =
        min sampleSize counts.values.sum - floorTotal counts minPerStratum :=
      sum_apportion (by omega)
    set floors := counts.mapValues fun _ count => min minPerStratum count with hfloors
    set extra := apportion (min sampleSize counts.values.sum - floorTotal counts minPerStratum)
      (counts.mapValues fun _ count => count - min minPerStratum count) with hdef
    have hfloorKeys : floors.entries.map Prod.fst = counts.entries.map Prod.fst :=
      OrderedMap.keys_mapValues _ _
    have hextraKeys : extra.entries.map Prod.fst = counts.entries.map Prod.fst := by
      rw [hdef, keys_apportion, OrderedMap.keys_mapValues]
    have hsplit : (counts.entries.map fun entry =>
        (floors.get? entry.1).getD 0 + (extra.get? entry.1).getD 0).sum =
        ((counts.entries.map Prod.fst).map fun key => (floors.get? key).getD 0).sum +
        ((counts.entries.map Prod.fst).map fun key => (extra.get? key).getD 0).sum := by
      rw [List.map_map, List.map_map]
      exact List.sum_map_add
    rw [OrderedMap.values_mapValues, hsplit, ← hfloorKeys, OrderedMap.map_get?_keys, hfloorKeys,
      ← hextraKeys, OrderedMap.map_get?_keys, hextra]
    have htotal : floors.values.sum = floorTotal counts minPerStratum := rfl
    omega

/-- What a stratum gets, by whether the floors fit. -/
lemma get?_allocate {stratum : κ} {count : ℕ} (hcount : counts.get? stratum = some count) :
    ∃ allocated, (allocate counts sampleSize minPerStratum).get? stratum = some allocated ∧
      allocated ≤ count ∧
      (floorTotal counts minPerStratum ≤ sampleSize → min minPerStratum count ≤ allocated) := by
  have hspare := floors_add_spare counts minPerStratum
  have hfloor : (counts.mapValues fun _ count => min minPerStratum count).get? stratum =
      some (min minPerStratum count) := by
    rw [OrderedMap.get?_mapValues, hcount, Option.map_some]
  rw [allocate_eq]
  split_ifs with hsmall
  · have hmem : stratum ∈ (apportion (min sampleSize counts.values.sum)
        (counts.mapValues fun _ count => min minPerStratum count)).entries.map Prod.fst := by
      rw [keys_apportion, OrderedMap.keys_mapValues]
      exact List.mem_map_of_mem (OrderedMap.mem_entries.mpr hcount)
    obtain ⟨⟨key, allocated⟩, hentry, rfl⟩ := List.mem_map.mp hmem
    have hget := OrderedMap.mem_entries.mp hentry
    obtain ⟨weight, hweight, hle⟩ := apportion_le hsmall hget
    obtain rfl := Option.some.inj (hfloor.symm.trans hweight)
    refine ⟨allocated, hget, hle.trans (min_le_right _ _), fun hfit => ?_⟩
    -- the floors are all there is to give
    have htotal : min sampleSize counts.values.sum =
        (counts.mapValues fun _ count => min minPerStratum count).values.sum := by
      refine le_antisymm hsmall (le_min hfit ?_)
      exact Nat.le.intro hspare
    rw [htotal, get?_apportion_sum, hfloor] at hget
    exact (Option.some.inj hget).le
  · refine ⟨_, by rw [OrderedMap.get?_mapValues, hcount, Option.map_some], ?_, fun _ => ?_⟩
    · rw [hfloor, Option.getD_some]
      cases hextra : (apportion (min sampleSize counts.values.sum - floorTotal counts minPerStratum)
          (counts.mapValues fun _ count => count - min minPerStratum count)).get? stratum with
      | none => simp
      | some extra =>
        obtain ⟨weight, hweight, hle⟩ := apportion_le (by omega) hextra
        rw [OrderedMap.get?_mapValues, hcount, Option.map_some, Option.some_inj] at hweight
        rw [Option.getD_some]
        omega
    · rw [hfloor, Option.getD_some]
      exact Nat.le_add_right _ _

/-! ### The draw -/

structure Candidate where
  pk : ℕ
  sensitive : Bool
deriving DecidableEq

/-- The candidates of a stratum: rows of the catalog, each once, in a list in memory. A list of `2 ^ 53`
    references alone fills the address space of a process. -/
structure Pool where
  candidates : List Candidate
  nodup : (candidates.map Candidate.pk).Nodup
  length_lt : candidates.length < 2 ^ 53

inductive SampleError where
  | largerThanPopulation
  | unknownStratum
deriving DecidableEq

/-- A random generator: what `rng.sample` draws from a population that is large enough. -/
structure Sampler (σ : Type) where
  draw : σ → List Candidate → ℕ → List Candidate × σ
  subperm (state : σ) (population : List Candidate) (k : ℕ) :
    (draw state population k).1.Subperm population
  length {state : σ} {population : List Candidate} {k : ℕ} (hk : k ≤ population.length) :
    (draw state population k).1.length = k

/-- `rng.sample`. -/
def Sampler.sample (rng : Sampler σ) (population : List Candidate) (k : ℤ) (state : σ) :
    Except SampleError (List Candidate × σ) :=
  if 0 ≤ k ∧ k ≤ population.length then .ok (rng.draw state population k.toNat)
  else .error .largerThanPopulation

/-- How many sensitive candidates to draw. Rounding first removes the noise of the product. -/
def quota (sensitive : List Candidate) (count : ℕ) (sensitiveShare : ℚ) : ℤ :=
  min (sensitive.length : ℤ) ⌊roundDigits 9 (toBinary64 (toBinary64 count * sensitiveShare))⌋

/-- The candidates of a pool that are not chosen. -/
def rest (pool chosen : List Candidate) : List Candidate :=
  pool.filter fun candidate => candidate.pk ∉ chosen.map Candidate.pk

/-- `_select`. -/
def select (rng : Sampler σ) (pool : List Candidate) (count : ℕ) (sensitiveShare : ℚ) (state : σ) :
    Except SampleError (List Candidate × σ) := do
  let sensitive := pool.filter Candidate.sensitive
  let chosen ← rng.sample sensitive (quota sensitive count sensitiveShare) state
  let others ← rng.sample (rest pool chosen.1) ((count : ℤ) - chosen.1.length) chosen.2
  return (chosen.1 ++ others.1, others.2)

structure Summary where
  eligible : ℕ
  sensitiveEligible : ℕ
  selected : ℕ
  selectedSensitive : ℕ
deriving DecidableEq

/-- `_stratum_summary`. -/
def stratumSummary (pool chosen : List Candidate) : Summary where
  eligible := pool.length
  sensitiveEligible := pool.countP Candidate.sensitive
  selected := chosen.length
  selectedSensitive := chosen.countP Candidate.sensitive

/-- What has been drawn from the strata so far. -/
structure Selection (κ σ : Type) where
  selected : List Candidate
  strata : List (κ × Summary)
  state : σ

/-- `entries[stratum]`. -/
def subscript {ρ : Type} (entries : OrderedMap κ ρ) (stratum : κ) : Except SampleError ρ :=
  (entries.get? stratum).elim (.error .unknownStratum) .ok

/-- One turn of the loop of `_sample`. -/
def sampleStratum (rng : Sampler σ) (eligible : OrderedMap κ Pool) (allocation : OrderedMap κ ℕ)
    (sensitiveShare : ℚ) (selection : Selection κ σ) (stratum : κ) :
    Except SampleError (Selection κ σ) := do
  let pool ← subscript eligible stratum
  let count ← subscript allocation stratum
  let chosen ← select rng pool.candidates count sensitiveShare selection.state
  return {
    selected := selection.selected ++ chosen.1
    strata := selection.strata ++ [(stratum, stratumSummary pool.candidates chosen.1)]
    state := chosen.2 }

/-- The sizes of the pools. -/
def sizes (eligible : OrderedMap κ Pool) : OrderedMap κ ℕ :=
  eligible.mapValues fun _ pool => pool.candidates.length

/-- `_sample`. -/
def sample (rng : Sampler σ) (eligible : OrderedMap κ Pool) (sampleSize minPerStratum : ℕ)
    (sensitiveShare : ℚ) (state : σ) : Except SampleError (Selection κ σ) :=
  let allocation := allocate (sizes eligible) sampleSize minPerStratum
  ((eligible.entries.map Prod.fst).insertionSort (· ≤ ·)).foldlM
    (sampleStratum rng eligible allocation sensitiveShare) ⟨[], [], state⟩

variable {rng : Sampler σ} {pool : Pool} {count : ℕ} {sensitiveShare : ℚ} {state : σ}

/-- The allocated number of different candidates of a pool. -/
structure Draws (pool : Pool) (count : ℕ) (chosen : List Candidate) : Prop where
  length : chosen.length = count
  nodup : (chosen.map Candidate.pk).Nodup
  subset : chosen ⊆ pool.candidates

lemma sample_eq_ok (rng : Sampler σ) {population : List Candidate} {k : ℕ}
    (hk : k ≤ population.length) (state : σ) :
    rng.sample population k state = .ok (rng.draw state population k) := by
  rw [Sampler.sample, if_pos ⟨Int.natCast_nonneg k, Int.ofNat_le.mpr hk⟩, Int.toNat_natCast]

/-- The quota is a number of sensitive candidates that is at most the number to draw. -/
lemma exists_quota (sensitive : List Candidate) (hcount : count < 2 ^ 53)
    (hnonneg : 0 ≤ sensitiveShare) (hone : sensitiveShare ≤ 1) :
    ∃ k : ℕ, quota sensitive count sensitiveShare = k ∧ k ≤ sensitive.length ∧ k ≤ count := by
  have hfloat := toBinary64_nonneg (Nat.cast_nonneg (α := ℚ) count)
  have hfloatLe : toBinary64 count ≤ count := toBinary64_le (Nat.cast_nonneg _) le_rfl hcount
  have hproduct := mul_nonneg hfloat hnonneg
  have hproductLe : toBinary64 count * sensitiveShare ≤ count :=
    (mul_le_of_le_one_right hfloat hone).trans hfloatLe
  have hshare := toBinary64_nonneg hproduct
  have hround : 0 ≤ ⌊roundDigits 9 (toBinary64 (toBinary64 count * sensitiveShare))⌋ :=
    Int.floor_nonneg.mpr (roundDigits_nonneg hshare)
  have hfloorLe : ⌊roundDigits 9 (toBinary64 (toBinary64 count * sensitiveShare))⌋ ≤ count := by
    exact_mod_cast (Int.floor_le _).trans
      (roundDigits_le hshare (toBinary64_le hproduct hproductLe hcount) hcount)
  refine ⟨(quota sensitive count sensitiveShare).toNat, ?_, ?_, ?_⟩ <;> rw [quota] <;> omega

/-- Candidates that are some of others have as different keys as these. -/
lemma nodup_of_subperm {chosen population : List Candidate} (hsub : chosen.Subperm population)
    (hnodup : (population.map Candidate.pk).Nodup) : (chosen.map Candidate.pk).Nodup := by
  obtain ⟨sublist, hperm, hsublist⟩ := hsub
  exact (hperm.map _).nodup_iff.mp (hnodup.sublist (hsublist.map _))

/-- Chosen candidates and the rest make up the pool. -/
lemma length_add_length_rest {chosen : List Candidate} (hsub : chosen ⊆ pool.candidates)
    (hnodup : (chosen.map Candidate.pk).Nodup) :
    chosen.length + (rest pool.candidates chosen).length = pool.candidates.length := by
  have hperm : (pool.candidates.filter fun candidate =>
      candidate.pk ∈ chosen.map Candidate.pk).Perm chosen := by
    refine (List.perm_ext_iff_of_nodup (pool.nodup.of_map.filter _) hnodup.of_map).mpr
      fun candidate => ?_
    rw [List.mem_filter, decide_eq_true_eq]
    constructor
    · rintro ⟨hmem, hpk⟩
      obtain ⟨other, hother, heq⟩ := List.mem_map.mp hpk
      rwa [← List.inj_on_of_nodup_map pool.nodup (hsub hother) hmem heq]
    · exact fun hmem => ⟨hsub hmem, List.mem_map_of_mem hmem⟩
  rw [← hperm.length_eq, rest, ← List.countP_eq_length_filter, ← List.countP_eq_length_filter,
    List.length_eq_countP_add_countP fun candidate =>
      decide (candidate.pk ∈ chosen.map Candidate.pk)]
  simp

/-- Sensitive candidates and as many of the rest as are missing are drawn from the pool. -/
lemma Draws.append {chosen others : List Candidate} {k : ℕ} (hchosen : Draws pool k chosen)
    (hsub : others.Subperm (rest pool.candidates chosen)) (hlength : others.length = count - k)
    (hk : k ≤ count) : Draws pool count (chosen ++ others) := by
  have hrest : (rest pool.candidates chosen).Sublist pool.candidates := List.filter_sublist
  refine ⟨?_, ?_, ?_⟩
  · rw [List.length_append, hchosen.length, hlength]
    exact Nat.add_sub_cancel' hk
  · rw [List.map_append]
    refine List.Nodup.append hchosen.nodup
      (nodup_of_subperm (hsub.trans hrest.subperm) pool.nodup) fun pk hfirst hsecond => ?_
    obtain ⟨candidate, hmem, rfl⟩ := List.mem_map.mp hsecond
    exact of_decide_eq_true (List.mem_filter.mp (hsub.subset hmem)).2 hfirst
  · exact List.append_subset.mpr ⟨hchosen.subset, fun candidate hmem =>
      hrest.subset (hsub.subset hmem)⟩

/-- As many candidates are drawn as the stratum has to give, each once. -/
theorem exists_select (hcount : count ≤ pool.candidates.length) (hnonneg : 0 ≤ sensitiveShare)
    (hone : sensitiveShare ≤ 1) (rng : Sampler σ) (state : σ) :
    ∃ chosen, select rng pool.candidates count sensitiveShare state = .ok chosen ∧
      Draws pool count chosen.1 := by
  set sensitive := pool.candidates.filter Candidate.sensitive with hdef
  obtain ⟨k, hquota, hsensitive, hle⟩ :=
    exists_quota sensitive (hcount.trans_lt pool.length_lt) hnonneg hone
  set chosen := rng.draw state sensitive k with hchosen
  have hfilter : sensitive.Subperm pool.candidates := List.filter_sublist.subperm
  have hsub := (rng.subperm state sensitive k).trans hfilter
  have hdraws : Draws pool k chosen.1 :=
    ⟨rng.length hsensitive, nodup_of_subperm hsub pool.nodup, hsub.subset⟩
  have hrest := length_add_length_rest hdraws.subset hdraws.nodup
  rw [hdraws.length] at hrest
  have hothers : count - k ≤ (rest pool.candidates chosen.1).length := by omega
  set others := rng.draw chosen.2 (rest pool.candidates chosen.1) (count - k) with hdraw
  refine ⟨(chosen.1 ++ others.1, others.2), ?_,
    hdraws.append (rng.subperm chosen.2 _ (count - k)) (rng.length hothers) hle⟩
  have hmissing : (count : ℤ) - chosen.1.length = ((count - k : ℕ) : ℤ) := by
    rw [hdraws.length]
    omega
  rw [select, ← hdef, hquota, sample_eq_ok rng hsensitive, ← hchosen, ok_bind, hmissing,
    sample_eq_ok rng hothers, ok_bind]
  rfl

/-! ### The run over the strata -/

variable {eligible : OrderedMap κ Pool} {allocation : OrderedMap κ ℕ}

/-- The strata are drawn from, each exactly, and the selection holds what was drawn. -/
structure Selects (eligible : OrderedMap κ Pool) (allocation : OrderedMap κ ℕ)
    (draws : List (κ × Pool × List Candidate)) (selection : Selection κ σ) : Prop where
  selected : selection.selected = draws.flatMap fun drawn => drawn.2.2
  strata : selection.strata =
    draws.map fun drawn => (drawn.1, stratumSummary drawn.2.1.candidates drawn.2.2)
  exact : ∀ drawn ∈ draws, eligible.get? drawn.1 = some drawn.2.1 ∧
    ∃ count, allocation.get? drawn.1 = some count ∧ Draws drawn.2.1 count drawn.2.2

/-- A turn of the loop draws from its stratum. -/
lemma exists_sampleStratum (rng : Sampler σ) {draws : List (κ × Pool × List Candidate)}
    {selection : Selection κ σ} {stratum : κ} (hpool : eligible.get? stratum = some pool)
    (hallocated : allocation.get? stratum = some count) (hcount : count ≤ pool.candidates.length)
    (hnonneg : 0 ≤ sensitiveShare) (hone : sensitiveShare ≤ 1)
    (h : Selects eligible allocation draws selection) :
    ∃ selection' chosen,
      sampleStratum rng eligible allocation sensitiveShare selection stratum = .ok selection' ∧
      Selects eligible allocation (draws ++ [(stratum, pool, chosen)]) selection' := by
  obtain ⟨chosen, hselect, hdraws⟩ := exists_select hcount hnonneg hone rng selection.state
  refine ⟨⟨selection.selected ++ chosen.1,
    selection.strata ++ [(stratum, stratumSummary pool.candidates chosen.1)], chosen.2⟩,
    chosen.1, ?_, ?_⟩
  · rw [sampleStratum, subscript, subscript, hpool, hallocated]
    simp only [Option.elim_some, ok_bind, hselect]
    rfl
  · refine ⟨?_, ?_, fun drawn hmem => ?_⟩
    · rw [h.selected]
      simp
    · rw [h.strata]
      simp
    · rcases List.mem_append.mp hmem with hmem | hmem
      · exact h.exact drawn hmem
      · obtain rfl := List.mem_singleton.mp hmem
        exact ⟨hpool, count, hallocated, hdraws⟩

/-- The loop draws from every stratum, in its order. -/
lemma exists_foldlM_sampleStratum (rng : Sampler σ) (hnonneg : 0 ≤ sensitiveShare) (hone : sensitiveShare ≤ 1)
    (strata : List κ) (hstrata : ∀ stratum ∈ strata, ∃ pool count,
      eligible.get? stratum = some pool ∧ allocation.get? stratum = some count ∧
      count ≤ pool.candidates.length) {draws : List (κ × Pool × List Candidate)}
    {selection : Selection κ σ} (h : Selects eligible allocation draws selection) :
    ∃ selection' draws', strata.foldlM (sampleStratum rng eligible allocation sensitiveShare)
        selection = .ok selection' ∧
      draws'.map Prod.fst = draws.map Prod.fst ++ strata ∧
      Selects eligible allocation draws' selection' := by
  induction strata generalizing draws selection with
  | nil => exact ⟨selection, draws, rfl, (List.append_nil _).symm, h⟩
  | cons stratum strata ih =>
    obtain ⟨hstratum, hstrata⟩ := List.forall_mem_cons.mp hstrata
    obtain ⟨pool, count, hpool, hallocated, hcount⟩ := hstratum
    obtain ⟨next, chosen, hturn, hnext⟩ :=
      exists_sampleStratum rng hpool hallocated hcount hnonneg hone h
    obtain ⟨selection', draws', hloop, hkeys, hselects⟩ := ih hstrata hnext
    refine ⟨selection', draws', ?_, ?_, hselects⟩
    · rw [List.foldlM_cons, hturn, ok_bind, hloop]
    · rw [hkeys, List.map_append, List.append_assoc]
      rfl

/-- The sample is allocated to the last unit, within the sizes of the strata and above their floors
    where these fit, and every stratum gives exactly what is allocated to it. -/
theorem sampling_exact (hnonneg : 0 ≤ sensitiveShare) (hone : sensitiveShare ≤ 1) :
    (∀ (counts : OrderedMap κ ℕ) (sampleSize minPerStratum : ℕ),
      (allocate counts sampleSize minPerStratum).entries.map Prod.fst =
        counts.entries.map Prod.fst ∧
      (allocate counts sampleSize minPerStratum).values.sum = min sampleSize counts.values.sum ∧
      ∀ stratum count, counts.get? stratum = some count →
        ∃ allocated, (allocate counts sampleSize minPerStratum).get? stratum = some allocated ∧
          allocated ≤ count ∧
          (floorTotal counts minPerStratum ≤ sampleSize → min minPerStratum count ≤ allocated)) ∧
    ∀ (rng : Sampler σ) (eligible : OrderedMap κ Pool) (sampleSize minPerStratum : ℕ) (state : σ),
      (∀ stratum pool count, eligible.get? stratum = some pool →
        (allocate (sizes eligible) sampleSize minPerStratum).get? stratum = some count →
        ∀ state, ∃ chosen, select rng pool.candidates count sensitiveShare state = .ok chosen ∧
          Draws pool count chosen.1) ∧
      ∃ selection draws,
        sample rng eligible sampleSize minPerStratum sensitiveShare state = .ok selection ∧
        (draws.map Prod.fst).Perm (eligible.entries.map Prod.fst) ∧
        Selects eligible (allocate (sizes eligible) sampleSize minPerStratum) draws selection := by
  refine ⟨fun counts sampleSize minPerStratum =>
    ⟨keys_allocate counts _ _, sum_allocate counts _ _, fun stratum count => get?_allocate⟩,
    fun rng eligible sampleSize minPerStratum state => ?_⟩
  have hsize : ∀ stratum pool, eligible.get? stratum = some pool → ∃ count,
      (allocate (sizes eligible) sampleSize minPerStratum).get? stratum = some count ∧
      count ≤ pool.candidates.length := by
    intro stratum pool hpool
    have hcount : (sizes eligible).get? stratum = some pool.candidates.length := by
      rw [sizes, OrderedMap.get?_mapValues, hpool, Option.map_some]
    obtain ⟨count, hallocated, hle, -⟩ := get?_allocate hcount
    exact ⟨count, hallocated, hle⟩
  constructor
  · intro stratum pool count hpool hallocated state
    obtain ⟨count', hallocated', hle⟩ := hsize stratum pool hpool
    obtain rfl := Option.some.inj (hallocated.symm.trans hallocated')
    exact exists_select hle hnonneg hone rng state
  · have hperm := List.perm_insertionSort (· ≤ ·) (eligible.entries.map Prod.fst)
    have hstrata : ∀ stratum ∈ (eligible.entries.map Prod.fst).insertionSort (· ≤ ·),
        ∃ pool count, eligible.get? stratum = some pool ∧
          (allocate (sizes eligible) sampleSize minPerStratum).get? stratum = some count ∧
          count ≤ pool.candidates.length := by
      intro stratum hmem
      obtain ⟨entry, hentry, rfl⟩ := List.mem_map.mp (hperm.mem_iff.mp hmem)
      have hpool := OrderedMap.mem_entries.mp hentry
      obtain ⟨count, hallocated, hle⟩ := hsize entry.1 entry.2 hpool
      exact ⟨entry.2, count, hpool, hallocated, hle⟩
    have hempty : Selects eligible (allocate (sizes eligible) sampleSize minPerStratum) []
        (⟨[], [], state⟩ : Selection κ σ) :=
      ⟨rfl, rfl, List.forall_mem_nil _⟩
    obtain ⟨selection, draws, hloop, hkeys, hselects⟩ :=
      exists_foldlM_sampleStratum rng hnonneg hone _ hstrata hempty
    refine ⟨selection, draws, hloop, ?_, hselects⟩
    rw [hkeys]
    exact hperm

/-- A generator that draws in the order of the population. -/
def inOrder : Sampler Unit where
  draw _ population k := (population.take k, ())
  subperm _ _ _ := (List.take_sublist _ _).subperm
  length hk := List.length_take_of_le hk

/-- Two strata that are drawn from in full. -/
def twoStrata : OrderedMap String Pool where
  entries := [("tmdb/MOVIE", ⟨[⟨1, true⟩, ⟨2, false⟩], by decide, by decide⟩),
    ("igdb/GAME", ⟨[⟨3, false⟩], by decide, by decide⟩)]
  nodup := by decide

theorem sampling_exact_twoStrata :
    ∃ selection draws, sample inOrder twoStrata 3 1 1 () = .ok selection ∧
      (draws.map Prod.fst).Perm (twoStrata.entries.map Prod.fst) ∧
      Selects twoStrata (allocate (sizes twoStrata) 3 1) draws selection :=
  ((sampling_exact zero_le_one le_rfl).2 inOrder twoStrata 3 1 ()).2

end Denn.Moderation
