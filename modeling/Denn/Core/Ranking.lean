import Mathlib.Data.List.Sort
import Mathlib.Tactic.Common

/-!
# Rankings

A list that is sorted by a score, the highest first. Nothing is said about the order of elements with
the same score, so a list has one ranking exactly if no two of its elements share a score.
-/

namespace Denn.Core

variable {α σ : Type*} [LinearOrder σ] {score : α → σ} {bound : σ} {xs ys zs : List α}

/-- A permutation of the list, the highest scores first. -/
structure Ranks (score : α → σ) (xs ranking : List α) : Prop where
  perm : ranking.Perm xs
  sorted : ranking.Pairwise fun a b => score b ≤ score a

lemma ranks_insertionSort (score : α → σ) (xs : List α) :
    Ranks score xs (xs.insertionSort fun a b => score b ≤ score a) := by
  have htotal : Std.Total fun a b => score b ≤ score a := ⟨fun a b => le_total _ _⟩
  have htrans : IsTrans α fun a b => score b ≤ score a := ⟨fun _ _ _ hab hbc => hbc.trans hab⟩
  exact ⟨List.perm_insertionSort _ _, List.pairwise_insertionSort _ _⟩

lemma Ranks.perm_left (h : Ranks score xs ys) (hperm : xs.Perm zs) : Ranks score zs ys :=
  ⟨h.perm.trans hperm, h.sorted⟩

/-- No two different elements that are scored above the bound have the same score. -/
def TiesEqual (score : α → σ) (bound : σ) (xs : List α) : Prop :=
  ∀ a ∈ xs, ∀ b ∈ xs, bound < score a → score a = score b → a = b

/-- The elements that are scored above the bound. -/
def above (score : α → σ) (bound : σ) (xs : List α) : List α := xs.filter fun a => bound < score a

lemma mem_above {a : α} : a ∈ above score bound xs ↔ a ∈ xs ∧ bound < score a := by
  simp [above]

lemma Ranks.above (h : Ranks score xs ys) : Ranks score (above score bound xs) (above score bound ys) :=
  ⟨h.perm.filter _, h.sorted.filter _⟩

/-- Without ties there is one ranking. -/
theorem Ranks.above_eq (hy : Ranks score xs ys) (hz : Ranks score xs zs)
    (hties : TiesEqual score bound xs) : Core.above score bound ys = Core.above score bound zs := by
  refine List.Perm.eq_of_pairwise (fun a b ha hb hba hab => ?_) hy.above.sorted hz.above.sorted
    (hy.above.perm.trans hz.above.perm.symm)
  obtain ⟨ha, habove⟩ := mem_above.mp ha
  obtain ⟨hb, -⟩ := mem_above.mp hb
  exact hties a (hy.perm.subset ha) b (hz.perm.subset hb) habove (le_antisymm hab hba)

/-! ### Pages of a ranking -/

lemma Ranks.eq_append (h : Ranks score xs ys) :
    ys = Core.above score bound ys ++ ys.filter fun a => score a ≤ bound := by
  have hsorted := h.sorted
  clear h
  induction ys with
  | nil => rfl
  | cons a ys ih =>
    obtain ⟨hhead, htail⟩ := List.pairwise_cons.mp hsorted
    by_cases ha : bound < score a
    · have hskip : ¬ score a ≤ bound := not_le.mpr ha
      have ih := ih htail
      rw [Core.above] at ih ⊢
      simp only [List.filter_cons, ha, hskip, decide_true, decide_false, if_true, List.cons_append,
        List.cons.injEq, true_and]
      exact ih
    · have hnone : ∀ b ∈ a :: ys, score b ≤ bound := by
        intro b hb
        rcases List.mem_cons.mp hb with rfl | hb
        · exact not_lt.mp ha
        · exact (hhead b hb).trans (not_lt.mp ha)
      have hempty : Core.above score bound (a :: ys) = [] := by
        rw [Core.above, List.filter_eq_nil_iff]
        intro b hb
        simpa using hnone b hb
      rw [hempty, List.nil_append, List.filter_eq_self.mpr]
      intro b hb
      simpa using hnone b hb

/-- The elements above the bound on a page are a page of the elements above the bound. -/
lemma Ranks.above_page (h : Ranks score xs ys) (start size : ℕ) :
    Core.above score bound ((ys.drop start).take size)
      = ((Core.above score bound ys).drop start).take size := by
  set front := Core.above score bound ys with hfront
  set back := ys.filter fun a => score a ≤ bound
  have hys : ys = front ++ back := h.eq_append
  have hkeep : ∀ n, Core.above score bound ((front.drop start).take n) = (front.drop start).take n := by
    intro n
    refine List.filter_eq_self.mpr fun a ha => ?_
    have hmem := List.drop_subset _ _ (List.take_subset _ _ ha)
    simpa using (mem_above.mp hmem).2
  have hdrop : ∀ m n, Core.above score bound ((back.drop m).take n) = [] := by
    intro m n
    refine List.filter_eq_nil_iff.mpr fun a ha => ?_
    have hmem := List.drop_subset _ _ (List.take_subset _ _ ha)
    simpa using (List.mem_filter.mp hmem).2
  rw [hys, List.drop_append, List.take_append, Core.above, List.filter_append]
  have hleft := hkeep size
  have hright := hdrop (start - front.length) (size - (front.drop start).length)
  rw [Core.above] at hleft hright
  rw [hleft, hright, List.append_nil]

/-! ### Ties -/

/-- Two elements with the same score can be ranked either way. -/
lemma exists_ranks_swapped {a b : α} (ha : a ∈ xs) (hb : b ∈ xs) (hne : a ≠ b)
    (htie : score a = score b) :
    ∃ front back, (∀ c ∈ front, score a < score c) ∧
      Ranks score xs (front ++ a :: b :: back) ∧ Ranks score xs (front ++ b :: a :: back) := by
  classical
  let rest := (xs.erase a).erase b
  let sorted := rest.insertionSort fun a b => score b ≤ score a
  have hrest : xs.Perm (a :: b :: rest) :=
    (List.perm_cons_erase ha).trans
      ((List.perm_cons_erase ((List.mem_erase_of_ne hne.symm).mpr hb)).cons a)
  have hsorted : Ranks score rest sorted := ranks_insertionSort score rest
  let front := Core.above score (score a) sorted
  let back := sorted.filter fun c => score c ≤ score a
  have hfront : ∀ c ∈ front, score a < score c := fun c hc => (mem_above.mp hc).2
  have hback : ∀ c ∈ back, score c ≤ score a := fun c hc => by
    simpa using (List.mem_filter.mp hc).2
  have hsplit : sorted = front ++ back := hsorted.eq_append
  have hranks : ∀ c d, score c = score a → score d = score a → (a :: b :: rest).Perm (c :: d :: rest) →
      Ranks score xs (front ++ c :: d :: back) := by
    intro c d hc hd hperm
    refine ⟨?_, ?_⟩
    · have hfirst : (front ++ c :: d :: back).Perm (c :: d :: (front ++ back)) :=
        List.perm_middle.trans (List.perm_middle.cons c)
      have hsecond : (c :: d :: (front ++ back)).Perm (c :: d :: rest) :=
        ((hsplit ▸ hsorted.perm).cons d).cons c
      exact hfirst.trans (hsecond.trans (hperm.symm.trans hrest.symm))
    · have hparts := hsorted.sorted
      rw [hsplit, List.pairwise_append] at hparts
      obtain ⟨hleft, hright, hacross⟩ := hparts
      refine List.pairwise_append.mpr ⟨hleft, ?_, ?_⟩
      · refine List.pairwise_cons.mpr ⟨?_, List.pairwise_cons.mpr ⟨?_, hright⟩⟩
        · intro e he
          rcases List.mem_cons.mp he with rfl | he
          · rw [hc, hd]
          · rw [hc]
            exact hback e he
        · intro e he
          rw [hd]
          exact hback e he
      · intro e he f hf
        rcases List.mem_cons.mp hf with rfl | hf
        · rw [hc]
          exact (hfront e he).le
        · rcases List.mem_cons.mp hf with rfl | hf
          · rw [hd]
            exact (hfront e he).le
          · exact hacross e he f hf
  exact ⟨front, back, hfront, hranks a b rfl htie.symm (.refl _),
    hranks b a htie.symm rfl (.swap b a rest)⟩

end Denn.Core
