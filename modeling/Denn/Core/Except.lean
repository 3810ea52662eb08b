import Mathlib.Data.List.Forall2
import Mathlib.Tactic.Common

/-!
# Inversion of successful computations
-/

namespace Denn.Core

variable {ε α β : Type*}

/-- A mapped computation succeeds only if the computation does. -/
lemma map_eq_ok {f : α → β} {x : Except ε α} {b : β} (h : x.map f = .ok b) :
    ∃ a, x = .ok a ∧ f a = b := by
  cases x with
  | error e => cases h
  | ok a =>
    cases h
    exact ⟨a, rfl, rfl⟩

/-- A sequence of two computations succeeds only if both do. -/
lemma bind_eq_ok {x : Except ε α} {f : α → Except ε β} {b : β} (h : x.bind f = .ok b) :
    ∃ a, x = .ok a ∧ f a = .ok b := by
  cases x with
  | error e => cases h
  | ok a => exact ⟨a, rfl, h⟩

section

universe u v

variable {ε : Type u} {α β : Type v}

lemma ok_bind (a : α) (f : α → Except ε β) : (Except.ok a >>= f) = f a := rfl

/-- A list of computations succeeds exactly with the list of their values. -/
lemma mapM_eq_ok_iff {γ : Type*} {f : γ → Except ε α} {xs : List γ} {ys : List α} :
    xs.mapM f = .ok ys ↔ List.Forall₂ (fun x y => f x = .ok y) xs ys := by
  induction xs generalizing ys with
  | nil =>
    rw [List.mapM_nil, List.forall₂_nil_left_iff]
    exact ⟨fun h => (Except.ok.inj h).symm, fun h => congrArg _ h.symm⟩
  | cons x xs ih =>
    rw [List.mapM_cons, List.forall₂_cons_left_iff]
    constructor
    · intro h
      obtain ⟨y, hy, hrest⟩ := bind_eq_ok h
      obtain ⟨ys', hys', heq⟩ := bind_eq_ok hrest
      exact ⟨y, ys', hy, ih.mp hys', (Except.ok.inj heq).symm⟩
    · rintro ⟨y, ys', hy, hys', rfl⟩
      rw [hy, ok_bind, ih.mpr hys', ok_bind]
      rfl

/-- The rule for loops: if each turn succeeds and keeps what holds of the turns done, the loop does. -/
theorem exists_foldlM_eq_ok {step : β → α → Except ε β} {P : List α → β → Prop}
    (hstep : ∀ done x b, P done b → ∃ b', step b x = .ok b' ∧ P (done ++ [x]) b')
    (xs done : List α) {b : β} (h : P done b) :
    ∃ b', xs.foldlM step b = .ok b' ∧ P (done ++ xs) b' := by
  induction xs generalizing done b with
  | nil => exact ⟨b, rfl, by rwa [List.append_nil]⟩
  | cons x xs ih =>
    obtain ⟨b', hb', hP⟩ := hstep done x b h
    rw [List.foldlM_cons, hb', ok_bind, List.append_cons]
    exact ih (done ++ [x]) hP

/-- The computation succeeds on the condition and only then, with the value. -/
def Yields (x : Except ε α) (p : Prop) (a : α) : Prop := ∀ a', x = .ok a' ↔ p ∧ a' = a

namespace Yields

variable {x : Except ε α} {f : α → Except ε β} {p q : Prop} {a : α} {b : β}

lemma eq_ok (h : Yields x p a) (hp : p) : x = .ok a := (h a).mpr ⟨hp, rfl⟩

lemma isOk_iff (h : Yields x p a) : (∃ a', x = .ok a') ↔ p := by
  constructor
  · rintro ⟨a', ha'⟩
    exact ((h a').mp ha').1
  · intro hp
    exact ⟨a, h.eq_ok hp⟩

lemma congr (h : Yields x p a) (hpq : p ↔ q) : Yields x q a := fun a' => by rw [h a', hpq]

lemma of_ok (a : α) : Yields (Except.ok a : Except ε α) True a := by
  intro a'
  rw [Except.ok.injEq, true_and, eq_comm]

/-- A test that fails with an error. -/
lemma of_if (e : ε) [Decidable p] (a : α) : Yields (if p then .ok a else .error e) p a := by
  intro a'
  by_cases hp : p
  · rw [if_pos hp, Except.ok.injEq, and_iff_right hp, eq_comm]
  · rw [if_neg hp]
    exact ⟨nofun, fun h => absurd h.1 hp⟩

lemma bind (hx : Yields x p a) (hf : p → Yields (f a) q b) : Yields (x >>= f) (p ∧ q) b := by
  intro b'
  constructor
  · intro h
    obtain ⟨a', ha', hb'⟩ := bind_eq_ok h
    obtain ⟨hp, rfl⟩ := (hx a').mp ha'
    obtain ⟨hq, rfl⟩ := (hf hp b').mp hb'
    exact ⟨⟨hp, hq⟩, rfl⟩
  · rintro ⟨⟨hp, hq⟩, rfl⟩
    rw [hx.eq_ok hp, ok_bind, (hf hp).eq_ok hq]

/-- A computation whose value is only rearranged. -/
lemma bind_return (h : Yields x p a) (g : α → β) :
    Yields (do let a ← x; return g a) p (g a) :=
  (h.bind fun _ => of_ok (g a)).congr (and_iff_left trivial)

lemma map (h : Yields x p a) (g : α → β) : Yields (x.map g) p (g a) := by
  intro b'
  constructor
  · intro hb
    obtain ⟨a', ha', rfl⟩ := map_eq_ok hb
    obtain ⟨hp, rfl⟩ := (h a').mp ha'
    exact ⟨hp, rfl⟩
  · rintro ⟨hp, rfl⟩
    rw [h.eq_ok hp]
    rfl

lemma mapError {ε' : Type u} (h : Yields x p a) (g : ε → ε') : Yields (x.mapError g) p a := by
  intro a'
  rw [← h a']
  cases x with
  | error e => exact ⟨nofun, nofun⟩
  | ok a₀ =>
    rw [Except.mapError, Except.ok.injEq, Except.ok.injEq]

/-- A loop whose turns succeed on a condition succeeds if each turn's condition holds where the turn
    starts. -/
theorem foldlM {step : β → α → Except ε β} {good : β → α → Prop} {next : β → α → β}
    (hstep : ∀ b x, Yields (step b x) (good b x) (next b x)) (xs : List α) (b : β) :
    Yields (xs.foldlM step b)
      (∀ done x rest, xs = done ++ x :: rest → good (done.foldl next b) x) (xs.foldl next b) := by
  induction xs generalizing b with
  | nil => exact (of_ok b).congr ⟨fun _ done x rest heq => by simp at heq, fun _ => trivial⟩
  | cons x xs ih =>
    rw [List.foldlM_cons]
    refine ((hstep b x).bind fun _ => ih (next b x)).congr ?_
    constructor
    · rintro ⟨hgood, hall⟩ done y rest heq
      cases done with
      | nil =>
        obtain ⟨rfl, -⟩ := List.cons.inj heq
        exact hgood
      | cons z done =>
        obtain ⟨rfl, htail⟩ := List.cons.inj heq
        exact hall done y rest htail
    · intro hall
      exact ⟨hall [] x xs rfl, fun done y rest heq => hall (x :: done) y rest (heq ▸ rfl)⟩

/-- A loop each of whose turns has its own condition. -/
theorem foldlM_forall {step : β → α → Except ε β} {good : α → Prop} {next : β → α → β}
    (hstep : ∀ b x, Yields (step b x) (good x) (next b x)) (xs : List α) (b : β) :
    Yields (xs.foldlM step b) (∀ x ∈ xs, good x) (xs.foldl next b) := by
  refine (foldlM hstep xs b).congr ⟨fun h x hx => ?_, fun h done x rest heq => ?_⟩
  · obtain ⟨done, rest, heq⟩ := List.append_of_mem hx
    exact h done x rest heq
  · exact h x (heq ▸ by simp)

end Yields

end

end Denn.Core
