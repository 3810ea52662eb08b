import Mathlib.Data.Option.Basic
import Mathlib.Tactic.Common

/-!
# Transition systems

A transition system steps a state under a label; a label that is not enabled in a state has no
successor. Nondeterminism (which party moves, what the environment answers) is in the label.

`ReachableUnder ok` collects the states of the runs all of whose steps satisfy `ok`, so that a
property of every run and a property of the runs that avoid some step share one induction.
-/

namespace Denn.Core

/-- A labelled transition system with a set of initial states. -/
structure TransitionSystem (σ ι : Type*) where
  initial : σ → Prop
  step : σ → ι → Option σ

namespace TransitionSystem

variable {σ ι : Type*} (S : TransitionSystem σ ι)

/-- The states of the runs in which every step satisfies `ok`, a condition on the state before
    the step and on its label. -/
inductive ReachableUnder (ok : σ → ι → Prop) : σ → Prop
  | initial {s : σ} (h : S.initial s) : ReachableUnder ok s
  | step {s s' : σ} {a : ι} (hs : ReachableUnder ok s) (hok : ok s a)
      (h : S.step s a = some s') : ReachableUnder ok s'

/-- The states of all runs. -/
def Reachable : σ → Prop := S.ReachableUnder fun _ _ => True

variable {S} {ok : σ → ι → Prop}

lemma ReachableUnder.reachable {s : σ} (h : S.ReachableUnder ok s) : S.Reachable s := by
  induction h with
  | initial h => exact .initial h
  | step _ _ h ih => exact .step ih trivial h

/-- The invariant rule: what holds initially and is kept by every admitted step holds in every
    state of every admitted run. -/
theorem ReachableUnder.invariant {I : σ → Prop} (hinit : ∀ s, S.initial s → I s)
    (hstep : ∀ s a s', I s → ok s a → S.step s a = some s' → I s')
    {s : σ} (h : S.ReachableUnder ok s) : I s := by
  induction h with
  | initial h => exact hinit _ h
  | step _ hok h ih => exact hstep _ _ _ ih hok h

/-- The invariant rule relative to an invariant `J` that is already known. -/
theorem ReachableUnder.invariant_of {I J : σ → Prop} (hJ : ∀ s, S.Reachable s → J s)
    (hinit : ∀ s, S.initial s → I s)
    (hstep : ∀ s a s', J s → I s → ok s a → S.step s a = some s' → I s')
    {s : σ} (h : S.ReachableUnder ok s) : I s := by
  induction h with
  | initial h => exact hinit _ h
  | step hs hok h ih => exact hstep _ _ _ (hJ _ hs.reachable) ih hok h

theorem Reachable.invariant {I : σ → Prop} (hinit : ∀ s, S.initial s → I s)
    (hstep : ∀ s a s', I s → S.step s a = some s' → I s')
    {s : σ} (h : S.Reachable s) : I s :=
  ReachableUnder.invariant hinit (fun s a s' hI _ => hstep s a s' hI) h

theorem Reachable.invariant_of {I J : σ → Prop} (hJ : ∀ s, S.Reachable s → J s)
    (hinit : ∀ s, S.initial s → I s)
    (hstep : ∀ s a s', J s → I s → S.step s a = some s' → I s')
    {s : σ} (h : S.Reachable s) : I s :=
  ReachableUnder.invariant_of hJ hinit (fun s a s' hj hI _ => hstep s a s' hj hI) h

/-! ### Labelled runs -/

/-- The labels, newest first, lead from `s` to another state. -/
inductive Run (S : TransitionSystem σ ι) (s : σ) : List ι → σ → Prop
  | nil : S.Run s [] s
  | cons {s' s'' : σ} {as : List ι} {a : ι} (hrun : S.Run s as s') (h : S.step s' a = some s'') :
      S.Run s (a :: as) s''

lemma Run.reachable {s s' : σ} {as : List ι} (hs : S.Reachable s) (h : S.Run s as s') :
    S.Reachable s' := by
  induction h with
  | nil => exact hs
  | cons _ h ih => exact .step ih trivial h

lemma Run.append {s s' s'' : σ} {as bs : List ι} (h : S.Run s as s') (h' : S.Run s' bs s'') :
    S.Run s (bs ++ as) s'' := by
  induction h' with
  | nil => exact h
  | cons _ hstep ih => exact .cons ih hstep

/-- What every step from a reachable state keeps is kept by every run from one. -/
theorem Run.keeps {P : σ → Prop}
    (hstep : ∀ s a s', S.Reachable s → P s → S.step s a = some s' → P s')
    {s s' : σ} {as : List ι} (hs : S.Reachable s) (hP : P s) (h : S.Run s as s') : P s' := by
  induction h with
  | nil => exact hP
  | cons hrun h ih => exact hstep _ _ _ (hrun.reachable hs) ih h

/-! ### Replaying a run -/

variable (S) (ok)

/-- Replay labels from a state, giving up at the first one that is not admitted or enabled. -/
def replay [∀ s a, Decidable (ok s a)] : σ → List ι → Option σ
  | s, [] => some s
  | s, a :: as => if ok s a then (S.step s a).bind fun s' => replay s' as else none

/-- A replayed run shows that a state with an observed property is reached. -/
theorem exists_reachableUnder_of_replay [∀ s a, Decidable (ok s a)] (P : σ → Bool) (as : List ι)
    {s : σ} (hs : S.ReachableUnder ok s) (h : (S.replay ok s as).any P = true) :
    ∃ s', S.ReachableUnder ok s' ∧ P s' = true := by
  induction as generalizing s with
  | nil => exact ⟨s, hs, by simpa [replay] using h⟩
  | cons a as ih =>
    simp only [replay] at h
    split_ifs at h with hok
    · cases hstep : S.step s a with
      | none => simp [hstep] at h
      | some s' =>
        rw [hstep, Option.bind_some] at h
        exact ih (.step hs hok hstep) h
    · simp at h

end TransitionSystem

end Denn.Core
