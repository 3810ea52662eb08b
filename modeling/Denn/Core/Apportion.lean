import Denn.Core.OrderedMap
import Mathlib.Algebra.BigOperators.Group.List.Basic
import Mathlib.Algebra.Order.BigOperators.Group.List
import Mathlib.Data.List.Sort
import Mathlib.Tactic.Ring

/-!
# Apportionment by largest remainder

A total is split in proportion to weights: each weight gets its share rounded down, and the units that
are left go to the largest remainders, one each.
-/

namespace Denn.Core

variable {κ : Type*} [LinearOrder κ]

/-- The entries by the remainder of their share, the largest first, and by key where these tie. -/
def byRemainder (total weightSum : ℕ) (entries : List (κ × ℕ)) : List (κ × ℕ) :=
  entries.insertionSort fun a b => total * b.2 % weightSum < total * a.2 % weightSum ∨
    total * a.2 % weightSum = total * b.2 % weightSum ∧ a.1 ≤ b.1

def apportion (total : ℕ) (weights : OrderedMap κ ℕ) : OrderedMap κ ℕ :=
  let weightSum := weights.values.sum
  if total = 0 ∨ weightSum = 0 then weights.mapValues fun _ _ => 0
  else
    let shares := weights.mapValues fun _ weight => total * weight / weightSum
    let raised := ((byRemainder total weightSum weights.entries).take
      (total - shares.values.sum)).map Prod.fst
    shares.mapValues fun key share => if key ∈ raised then share + 1 else share

variable {total weightSum : ℕ} {entries : List (κ × ℕ)} {weights : OrderedMap κ ℕ}

lemma byRemainder_perm (total weightSum : ℕ) (entries : List (κ × ℕ)) :
    (byRemainder total weightSum entries).Perm entries :=
  List.perm_insertionSort _ _

lemma pairwise_byRemainder (total weightSum : ℕ) (entries : List (κ × ℕ)) :
    (byRemainder total weightSum entries).Pairwise fun a b =>
      total * b.2 % weightSum ≤ total * a.2 % weightSum := by
  have htotal : Std.Total fun a b : κ × ℕ => total * b.2 % weightSum < total * a.2 % weightSum ∨
      total * a.2 % weightSum = total * b.2 % weightSum ∧ a.1 ≤ b.1 := by
    refine ⟨fun a b => ?_⟩
    rcases lt_trichotomy (total * a.2 % weightSum) (total * b.2 % weightSum) with hlt | heq | hlt
    · exact .inr (.inl hlt)
    · rcases le_total a.1 b.1 with hle | hle
      · exact .inl (.inr ⟨heq, hle⟩)
      · exact .inr (.inr ⟨heq.symm, hle⟩)
    · exact .inl (.inl hlt)
  have htrans : IsTrans (κ × ℕ) fun a b => total * b.2 % weightSum < total * a.2 % weightSum ∨
      total * a.2 % weightSum = total * b.2 % weightSum ∧ a.1 ≤ b.1 := by
    refine ⟨fun a b c hab hbc => ?_⟩
    rcases hab with hab | ⟨hab, hle⟩ <;> rcases hbc with hbc | ⟨hbc, hle'⟩
    · exact .inl (hbc.trans hab)
    · exact .inl (hbc ▸ hab)
    · exact .inl (hab ▸ hbc)
    · exact .inr ⟨hab.trans hbc, hle.trans hle'⟩
  refine (List.pairwise_insertionSort _ entries).imp fun h => ?_
  rcases h with hlt | ⟨heq, -⟩
  · exact hlt.le
  · exact heq.ge

omit [LinearOrder κ] in
/-- The shares and the remainders make up the total. -/
lemma sum_shares_add (total weightSum : ℕ) (entries : List (κ × ℕ)) :
    weightSum * (entries.map fun entry => total * entry.2 / weightSum).sum +
      (entries.map fun entry => total * entry.2 % weightSum).sum =
      total * (entries.map Prod.snd).sum := by
  induction entries with
  | nil => simp
  | cons entry entries ih =>
    have hdiv := Nat.div_add_mod (total * entry.2) weightSum
    simp only [List.map_cons, List.sum_cons, Nat.mul_add]
    omega

omit [LinearOrder κ] in
lemma sum_remainders_le (total : ℕ) (hsum : 0 < weightSum) (entries : List (κ × ℕ)) :
    (entries.map fun entry => total * entry.2 % weightSum).sum ≤ entries.length * weightSum := by
  induction entries with
  | nil => simp
  | cons entry entries ih =>
    have hlt := Nat.mod_lt (total * entry.2) hsum
    rw [List.map_cons, List.sum_cons, List.length_cons, Nat.succ_mul]
    omega

omit [LinearOrder κ] in
/-- The units that are left make up the remainders. -/
lemma left_mul_eq (total : ℕ) (hsum : weightSum = weights.values.sum) :
    (total - (weights.mapValues fun _ weight => total * weight / weightSum).values.sum) * weightSum =
      (weights.entries.map fun entry => total * entry.2 % weightSum).sum := by
  have hadd := sum_shares_add total weightSum weights.entries
  have hvalues : (weights.entries.map Prod.snd).sum = weightSum := hsum.symm
  rw [OrderedMap.values_mapValues, Nat.sub_mul, Nat.mul_comm _ weightSum]
  rw [hvalues] at hadd
  rw [Nat.mul_comm (List.sum _) weightSum, Nat.mul_comm weightSum total]
  omega

/-- A share that is raised has a remainder. -/
lemma remainder_pos_of_mem_take {units : ℕ} {entry : κ × ℕ} (hpos : 0 < weightSum)
    (hunits : units * weightSum = (entries.map fun entry => total * entry.2 % weightSum).sum)
    (hmem : entry ∈ (byRemainder total weightSum entries).take units) :
    0 < total * entry.2 % weightSum := by
  by_contra hzero
  -- the entries behind it have no remainder either, and those before are too few
  obtain ⟨front, back, htake⟩ := List.append_of_mem hmem
  have hsorted := pairwise_byRemainder total weightSum entries
  rw [← List.take_append_drop units (byRemainder total weightSum entries), htake,
    List.append_assoc, List.cons_append, List.pairwise_append] at hsorted
  have hback : ∀ other ∈ back ++ (byRemainder total weightSum entries).drop units,
      total * other.2 % weightSum = 0 := by
    intro other hother
    have hle := (List.pairwise_cons.mp hsorted.2.1).1 other hother
    omega
  have hlength : front.length < units := by
    have htakeLength := List.length_take_le units (byRemainder total weightSum entries)
    rw [htake, List.length_append, List.length_cons] at htakeLength
    omega
  have hsum : (entries.map fun entry => total * entry.2 % weightSum).sum =
      (front.map fun entry => total * entry.2 % weightSum).sum := by
    rw [← ((byRemainder_perm total weightSum entries).map _).sum_eq,
      ← List.take_append_drop units (byRemainder total weightSum entries), htake,
      List.append_assoc, List.cons_append, List.map_append, List.map_cons, List.sum_append,
      List.sum_cons, List.map_congr_left hback]
    simp
    omega
  have hle := sum_remainders_le total hpos front
  have hlt : front.length * weightSum < units * weightSum :=
    Nat.mul_lt_mul_of_pos_right hlength hpos
  omega

lemma keys_apportion (total : ℕ) (weights : OrderedMap κ ℕ) :
    (apportion total weights).entries.map Prod.fst = weights.entries.map Prod.fst := by
  dsimp only [apportion]
  split_ifs <;> simp only [OrderedMap.keys_mapValues]

/-- The shares of the raised keys go up by one, so the sum does by their number. -/
lemma sum_raise (entries : List (κ × ℕ)) (raised : List κ) :
    (entries.map fun entry => if entry.1 ∈ raised then entry.2 + 1 else entry.2).sum =
      (entries.map Prod.snd).sum + ((entries.map Prod.fst).filter (· ∈ raised)).length := by
  induction entries with
  | nil => rfl
  | cons entry entries ih =>
    simp only [List.map_cons, List.sum_cons, List.filter_cons, decide_eq_true_eq, ih]
    split_ifs
    · rw [List.length_cons]
      omega
    · omega

/-- The keys that are taken occur among all keys as often as they are taken. -/
lemma length_filter_taken (weights : OrderedMap κ ℕ) {units : ℕ}
    (hunits : units ≤ weights.entries.length) :
    ((weights.entries.map Prod.fst).filter
      (· ∈ ((byRemainder total weightSum weights.entries).take units).map Prod.fst)).length = units := by
  have hperm := (byRemainder_perm total weightSum weights.entries).map Prod.fst
  have hsub : (((byRemainder total weightSum weights.entries).take units).map Prod.fst).Sublist
      ((byRemainder total weightSum weights.entries).map Prod.fst) :=
    (List.take_sublist _ _).map _
  have htaken : ((weights.entries.map Prod.fst).filter
      (· ∈ ((byRemainder total weightSum weights.entries).take units).map Prod.fst)).Perm
      (((byRemainder total weightSum weights.entries).take units).map Prod.fst) := by
    refine (List.perm_ext_iff_of_nodup (weights.nodup.filter _)
      ((hperm.nodup_iff.mpr weights.nodup).sublist hsub)).mpr fun key => ?_
    rw [List.mem_filter, decide_eq_true_eq]
    exact ⟨And.right, fun hmem => ⟨hperm.mem_iff.mp (hsub.subset hmem), hmem⟩⟩
  rw [htaken.length_eq, List.length_map, List.length_take,
    (byRemainder_perm total weightSum weights.entries).length_eq]
  exact min_eq_left hunits

/-- The total is split without a rest. -/
theorem sum_apportion (hle : total ≤ weights.values.sum) :
    (apportion total weights).values.sum = total := by
  dsimp only [apportion]
  split_ifs with hzero
  · have htotal : total = 0 := by omega
    rw [OrderedMap.values_mapValues, htotal]
    simp
  · have hpos : 0 < weights.values.sum := by omega
    have hleft := left_mul_eq total (Eq.refl weights.values.sum)
    have hshares := sum_shares_add total weights.values.sum weights.entries
    have hremainders := sum_remainders_le total hpos weights.entries
    set shares := weights.mapValues fun _ weight => total * weight / weights.values.sum with hdef
    have hunits : total - shares.values.sum ≤ weights.entries.length := by
      rw [← hleft] at hremainders
      exact Nat.le_of_mul_le_mul_right hremainders hpos
    have hkeys : shares.entries.map Prod.fst = weights.entries.map Prod.fst := by
      rw [hdef, OrderedMap.keys_mapValues]
    have hsum : shares.values.sum ≤ total := by
      have hvalues : (weights.entries.map Prod.snd).sum = weights.values.sum := rfl
      rw [hvalues, Nat.mul_comm total] at hshares
      rw [hdef, OrderedMap.values_mapValues]
      exact Nat.le_of_mul_le_mul_left (Nat.le.intro hshares) hpos
    rw [OrderedMap.values_mapValues, sum_raise, hkeys, length_filter_taken weights hunits]
    exact Nat.add_sub_cancel' hsum

/-- No weight gets more than itself. -/
theorem apportion_le (hle : total ≤ weights.values.sum) {key : κ} {share : ℕ}
    (hget : (apportion total weights).get? key = some share) :
    ∃ weight, weights.get? key = some weight ∧ share ≤ weight := by
  dsimp only [apportion] at hget
  split_ifs at hget with hzero
  · rw [OrderedMap.get?_mapValues, Option.map_eq_some_iff] at hget
    obtain ⟨weight, hweight, rfl⟩ := hget
    exact ⟨weight, hweight, Nat.zero_le _⟩
  · have hpos : 0 < weights.values.sum := by omega
    rw [OrderedMap.get?_mapValues, OrderedMap.get?_mapValues, Option.map_map,
      Option.map_eq_some_iff] at hget
    obtain ⟨weight, hweight, rfl⟩ := hget
    have hquotient : total * weight / weights.values.sum ≤ weight :=
      Nat.div_le_of_le_mul (Nat.mul_le_mul_right _ hle)
    refine ⟨weight, hweight, ?_⟩
    rw [Function.comp_apply]
    split_ifs with hraised
    · -- what is raised has a remainder, so its share is less than the weight
      obtain ⟨entry, hmem, rfl⟩ := List.mem_map.mp hraised
      have hentry : entry.2 = weight := by
        have hin := (byRemainder_perm _ _ _).mem_iff.mp (List.mem_of_mem_take hmem)
        exact Option.some.inj ((OrderedMap.mem_entries.mp hin).symm.trans hweight)
      have hremainder := remainder_pos_of_mem_take hpos (left_mul_eq total rfl) hmem
      rw [hentry] at hremainder
      refine Nat.lt_of_le_of_ne hquotient fun heq => ?_
      have hdiv := Nat.div_add_mod (total * weight) weights.values.sum
      have hmul := Nat.mul_le_mul_right weight hle
      rw [heq] at hdiv
      omega
    · exact hquotient

/-- A total that is the sum of the weights gives each weight itself. -/
theorem get?_apportion_sum (weights : OrderedMap κ ℕ) (key : κ) :
    (apportion weights.values.sum weights).get? key = weights.get? key := by
  dsimp only [apportion]
  split_ifs with hzero
  · rw [OrderedMap.get?_mapValues]
    cases hweight : weights.get? key with
    | none => rfl
    | some weight =>
      have hle := List.single_le_sum (fun _ _ => Nat.zero_le _) weight
        (OrderedMap.mem_values.mpr ⟨key, hweight⟩)
      rw [Option.map_some, Option.some_inj]
      omega
  · have hpos : 0 < weights.values.sum := by omega
    have hshares : (weights.mapValues fun _ weight =>
        weights.values.sum * weight / weights.values.sum).values.sum = weights.values.sum := by
      rw [OrderedMap.values_mapValues]
      simp only [Nat.mul_div_cancel_left _ hpos]
      rfl
    rw [hshares, Nat.sub_self, List.take_zero, List.map_nil, OrderedMap.get?_mapValues,
      OrderedMap.get?_mapValues, Option.map_map]
    cases weights.get? key with
    | none => rfl
    | some weight => simp [Nat.mul_div_cancel_left _ hpos]

end Denn.Core
