import Denn.Core.Except
import Mathlib.Data.List.Perm.Basic
import Mathlib.Data.List.Sort

/-!
# Computations with the same results

Computations that succeed with the same values, and the loops over rearranged lists that do: what
sorts the values of its elements does not see their order, and what removes repetitions before does
not see those either.
-/

namespace Denn.Core

section Agreement

universe u v

variable {ε : Type u} {α β : Type v}

/-- The computations succeed with the same values. They may fail with different errors. -/
def SameResult (x y : Except ε α) : Prop := ∀ a, x = .ok a ↔ y = .ok a

namespace SameResult

variable {x y : Except ε α} {f g : α → Except ε β}

lemma refl (x : Except ε α) : SameResult x x := fun _ => Iff.rfl

lemma of_eq (h : x = y) : SameResult x y := h ▸ refl x

lemma symm (h : SameResult x y) : SameResult y x := fun a => (h a).symm

/-- Values that are related are made the same. -/
lemma of_related (related : α → α → Prop) (hxy : ∀ a, x = .ok a → ∃ a', y = .ok a' ∧ related a a')
    (hyx : ∀ a', y = .ok a' → ∃ a, x = .ok a ∧ related a a')
    (hfg : ∀ a a', x = .ok a → related a a' → SameResult (f a) (g a')) :
    SameResult (x >>= f) (y >>= g) := by
  intro b
  constructor
  · intro h
    obtain ⟨a, ha, hb⟩ := bind_eq_ok h
    obtain ⟨a', ha', hrelated⟩ := hxy a ha
    rw [ha', ok_bind]
    exact (hfg a a' ha hrelated b).mp hb
  · intro h
    obtain ⟨a', ha', hb⟩ := bind_eq_ok h
    obtain ⟨a, ha, hrelated⟩ := hyx a' ha'
    rw [ha, ok_bind]
    exact (hfg a a' ha hrelated b).mpr hb

lemma bind (hxy : SameResult x y) (hfg : ∀ a, SameResult (f a) (g a)) :
    SameResult (x >>= f) (y >>= g) := by
  apply of_related Eq
  · exact fun a ha => ⟨a, (hxy a).mp ha, rfl⟩
  · exact fun a ha => ⟨a, (hxy a).mpr ha, rfl⟩
  · rintro a _ - rfl
    exact hfg a

lemma map (h : SameResult x y) (k : α → β) : SameResult (x.map k) (y.map k) := by
  intro b
  constructor
  · intro hb
    obtain ⟨a, ha, rfl⟩ := map_eq_ok hb
    rw [(h a).mp ha]
    rfl
  · intro hb
    obtain ⟨a, ha, rfl⟩ := map_eq_ok hb
    rw [(h a).mpr ha]
    rfl

end SameResult

/-! ### Loops -/

variable {γ : Type*} {f : γ → Except ε α} {R : γ → γ → Prop} {l l' m : List γ} {r : List α}

/-- Lists of the same elements, each of them repeated any number of times. -/
def SameMembers (R : γ → γ → Prop) (l l' : List γ) : Prop :=
  (∀ x ∈ l, ∃ y ∈ l', R x y) ∧ ∀ y ∈ l', ∃ x ∈ l, R x y

lemma mem_mapM (h : l.mapM f = .ok r) {b : α} : b ∈ r ↔ ∃ x ∈ l, f x = .ok b := by
  rw [mapM_eq_ok_iff] at h
  induction h with
  | nil => simp
  | cons hx _ ih =>
    rw [List.mem_cons, ih]
    simp only [List.mem_cons, exists_eq_or_imp, hx, Except.ok.injEq, eq_comm (a := b)]

lemma exists_mapM_eq_ok : (∃ r, l.mapM f = .ok r) ↔ ∀ x ∈ l, ∃ b, f x = .ok b := by
  simp only [mapM_eq_ok_iff]
  induction l with
  | nil => simp
  | cons x l ih =>
    rw [List.forall_mem_cons, ← ih]
    constructor
    · rintro ⟨r, hr⟩
      obtain ⟨b, r', hb, hr', -⟩ := List.forall₂_cons_left_iff.mp hr
      exact ⟨⟨b, hb⟩, r', hr'⟩
    · rintro ⟨⟨b, hb⟩, r, hr⟩
      exact ⟨b :: r, .cons hb hr⟩

/-- A loop over the same elements has the same values. -/
lemma exists_mapM_of_sameMembers (hR : ∀ x y, R x y → SameResult (f x) (f y))
    (hsame : SameMembers R l l') (h : l.mapM f = .ok r) :
    ∃ r', l'.mapM f = .ok r' ∧ ∀ b, b ∈ r ↔ b ∈ r' := by
  have hall := exists_mapM_eq_ok.mp ⟨r, h⟩
  obtain ⟨r', hr'⟩ : ∃ r', l'.mapM f = .ok r' := by
    rw [exists_mapM_eq_ok]
    intro y hy
    obtain ⟨x, hx, hxy⟩ := hsame.2 y hy
    obtain ⟨b, hb⟩ := hall x hx
    exact ⟨b, (hR x y hxy b).mp hb⟩
  refine ⟨r', hr', fun b => ?_⟩
  rw [mem_mapM h, mem_mapM hr']
  constructor
  · rintro ⟨x, hx, hb⟩
    obtain ⟨y, hy, hxy⟩ := hsame.1 x hx
    exact ⟨y, hy, (hR x y hxy b).mp hb⟩
  · rintro ⟨y, hy, hb⟩
    obtain ⟨x, hx, hxy⟩ := hsame.2 y hy
    exact ⟨x, hx, (hR x y hxy b).mpr hb⟩

lemma SameMembers.flip (h : SameMembers R l l') : SameMembers (fun x y => R y x) l' l :=
  ⟨h.2, h.1⟩

/-- What a loop makes of the set of its values. -/
lemma sameResult_mapM_of_sameMembers {g : List α → Except ε β}
    (hR : ∀ x y, R x y → SameResult (f x) (f y))
    (hg : ∀ r r', l.mapM f = .ok r → (∀ b, b ∈ r ↔ b ∈ r') → g r = g r')
    (hsame : SameMembers R l l') : SameResult (l.mapM f >>= g) (l'.mapM f >>= g) := by
  apply SameResult.of_related fun r r' => ∀ b, b ∈ r ↔ b ∈ r'
  · exact fun r hr => exists_mapM_of_sameMembers hR hsame hr
  · intro r' hr'
    obtain ⟨r, hr, hmem⟩ :=
      exists_mapM_of_sameMembers (fun y x hxy => (hR x y hxy).symm) hsame.flip hr'
    exact ⟨r, hr, fun b => (hmem b).symm⟩
  · exact fun r r' hr hmem => .of_eq (hg r r' hr hmem)

/-- A loop over related elements has the same values, in the same order. -/
lemma mapM_of_forall₂ (hR : ∀ x y, R x y → SameResult (f x) (f y)) (hrelated : List.Forall₂ R l l') :
    SameResult (l.mapM f) (l'.mapM f) := by
  intro r
  rw [mapM_eq_ok_iff, mapM_eq_ok_iff]
  induction hrelated generalizing r with
  | nil => exact Iff.rfl
  | cons hxy _ ih =>
    rw [List.forall₂_cons_left_iff, List.forall₂_cons_left_iff]
    simp only [ih, hR _ _ hxy _]

/-- A loop over rearranged elements has the values in another order. -/
lemma exists_mapM_of_perm (hperm : l.Perm l') (h : l.mapM f = .ok r) :
    ∃ r', l'.mapM f = .ok r' ∧ r.Perm r' := by
  rw [mapM_eq_ok_iff] at h
  obtain ⟨r', hr', hperm'⟩ := List.perm_comp_forall₂ hperm.symm h
  exact ⟨r', mapM_eq_ok_iff.mpr hr', hperm'.symm⟩

/-- Related records in any order. -/
def SameRecords (R : γ → γ → Prop) (l l' : List γ) : Prop := ∃ m, l.Perm m ∧ List.Forall₂ R m l'

/-- What a loop over records makes of its values without regard to their order. -/
lemma sameResult_mapM_of_sameRecords {g : List α → Except ε β} (hR : ∀ x y, R x y → SameResult (f x) (f y))
    (hg : ∀ r r', r.Perm r' → g r = g r') (hsame : SameRecords R l l') :
    SameResult (l.mapM f >>= g) (l'.mapM f >>= g) := by
  obtain ⟨m, hperm, hrelated⟩ := hsame
  have hmapM := mapM_of_forall₂ hR hrelated
  apply SameResult.of_related List.Perm
  · intro r hr
    obtain ⟨r', hr', hperm'⟩ := exists_mapM_of_perm hperm hr
    exact ⟨r', (hmapM r').mp hr', hperm'⟩
  · intro r' hr'
    obtain ⟨r, hr, hperm'⟩ := exists_mapM_of_perm hperm.symm ((hmapM r').mpr hr')
    exact ⟨r, hr, hperm'.symm⟩
  · exact fun r r' _ hperm' => .of_eq (hg r r' hperm')

end Agreement

/-! ### Sorting -/

/-- Sorted by a key that tells the elements apart, a list does not depend on its order. -/
lemma insertionSort_eq_of_perm {α κ : Type*} [LinearOrder κ] (key : α → κ)
    (hkey : Function.Injective key) {l l' : List α} (hperm : l.Perm l') :
    (l.insertionSort fun a b => key a ≤ key b) = l'.insertionSort fun a b => key a ≤ key b := by
  have htotal : Std.Total fun a b => key a ≤ key b := ⟨fun a b => le_total _ _⟩
  have htrans : IsTrans α fun a b => key a ≤ key b := ⟨fun a b c => le_trans⟩
  have hsorted : ∀ l : List α,
      (l.insertionSort fun a b => key a ≤ key b).Pairwise fun a b => key a ≤ key b := fun l =>
    List.pairwise_insertionSort _ l
  refine List.Perm.eq_of_pairwise (fun a b _ _ hab hba => hkey (le_antisymm hab hba))
    (hsorted l) (hsorted l') ?_
  exact (List.perm_insertionSort _ l).trans (hperm.trans (List.perm_insertionSort _ l').symm)

end Denn.Core
