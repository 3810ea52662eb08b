import Denn.Core.Requests

/-!
# Serializable runs

A run of concurrent requests is serializable if the rows that it leaves are those of the accepted
requests run alone, one after another. Under `READ COMMITTED` nothing ensures this. It holds of the
runs in which a request writes and commits only while its reads are current: run again on the rows
that are committed now, its statements so far would do the same.
-/

namespace Denn.Core

variable {τ κ ρ α σ ι : Type*} [DecidableEq τ] [DecidableEq κ]

/-- The row clashes with another one. -/
def clashes (clash : ρ → ρ → Bool) (t : Table κ ρ) (k : κ) (row : Option ρ) : Bool :=
  row.any fun r => t.any fun k' r' => k' ≠ k && clash r r'

/-- The requests that have committed, newest first. -/
def Session.accepted (s : Session τ κ ρ α σ ι) : List α :=
  s.log.filterMap fun x => (s.calls.get? x).map (·.request)

def Statement.changes : Statement κ ρ σ → Bool
  | .query _ => false
  | .write .. => true
  | .commit => true
  | .abort => false

/-- A statement that fits succeeds, and an assertion holds of what it leaves: `I` of the next state
    and its rows, `Q` of the rows that are committed. -/
def Statement.Follows (clash : ρ → ρ → Bool) (fits : Bool) (view : Table κ ρ)
    (I : σ → Table κ ρ → Prop) (Q : Prop) : Statement κ ρ σ → Prop
  | .query next => I next view
  | .write fresh k row next => (fits = true → clashes clash view k row = false) ∧
    ((fresh = true → view.get? k = none) → clashes clash view k row = false →
      I next (applyWrites view [(k, row)]))
  | .commit => Q
  | .abort => True

lemma clashes_eq_false {clash : ρ → ρ → Bool} {t : Table κ ρ} {k : κ} {row : Option ρ} :
    clashes clash t k row = false ↔ ∀ r k' r', row = some r → t.get? k' = some r' → k' ≠ k →
      clash r r' = false := by
  rw [← Bool.not_eq_true, clashes]
  simp only [Option.any_eq_true, Table.any_eq_true_iff, Bool.and_eq_true, decide_eq_true_eq]
  constructor
  · intro h r k' r' hrow hr' hne
    by_contra hclash
    exact h ⟨r, hrow, k', r', hr', hne, by simpa using hclash⟩
  · rintro h ⟨r, hrow, k', r', hr', hne, hclash⟩
    rw [h r k' r' hrow hr' hne] at hclash
    cases hclash

namespace Program

variable (p : Program κ ρ α σ ι)

/-- The next statement of a request that runs alone, with its state and its writes. -/
def aloneStep (t : Table κ ρ) (done : σ × List (κ × Option ρ)) (choice : ι) :
    Option (σ × List (κ × Option ρ)) :=
  (p.next done.1 choice (applyWrites t done.2)).bind fun statement =>
    match statement with
    | .query next => some (next, done.2)
    | .write fresh k row next =>
      if (fresh ∧ ((applyWrites t done.2).get? k).isSome) ∨
          clashes p.clash (applyWrites t done.2) k row then none
      else some (next, done.2 ++ [(k, row)])
    | .commit => none
    | .abort => none

/-- What a request that runs alone on some rows has done after some choices, newest first. -/
def alone (t : Table κ ρ) (request : α) : List ι → Option (σ × List (κ × Option ρ))
  | [] => some (p.init request, [])
  | choice :: choices => (alone t request choices).bind fun done => p.aloneStep t done choice

/-- A request that runs alone on some rows commits others. -/
def Accepts (t : Table κ ρ) (request : α) (t' : Table κ ρ) : Prop :=
  ∃ choices done choice, p.alone t request choices = some done ∧
    p.next done.1 choice (applyWrites t done.2) = some .commit ∧ t' = applyWrites t done.2

section

variable [DecidableEq σ] [DecidableEq ρ]

/-- Run again on the committed rows, the request would do what it has done. -/
def current (s : Session τ κ ρ α σ ι) (x : τ) (call : Call α σ ι) : Bool :=
  p.alone s.store.committed call.request call.choices = some (call.state, s.store.writesOf x)

/-- A request that writes or commits is current, and what it is about to do fits. -/
def undisturbed (fits : σ → ι → Table κ ρ → Bool) (s : Session τ κ ρ α σ ι) :
    Action τ α ι → Bool
  | .start _ _ => true
  | .run x choice => (s.calls.get? x).all fun call =>
    (p.next call.state choice (s.store.view x)).all fun statement =>
      !statement.changes || p.current s x call && fits call.state choice (s.store.view x)

end

/-- A proof outline of requests that run alone on rows with a property: what holds of these rows, of
    the state of a request, and of the rows that it sees. -/
structure Outline (fits : σ → ι → Table κ ρ → Bool) (P : Table κ ρ → Prop)
    (I : Table κ ρ → σ → Table κ ρ → Prop) : Prop where
  init : ∀ t request, P t → I t (p.init request) t
  next : ∀ t state choice view statement, P t → I t state view →
    p.next state choice view = some statement →
    statement.Follows p.clash (fits state choice view) view (I t) (P view)

variable {p} {fits : σ → ι → Table κ ρ → Bool} {P : Table κ ρ → Prop}
  {I : Table κ ρ → σ → Table κ ρ → Prop} {base t t' : Table κ ρ} {request : α}
  {choices : List ι} {done done' : σ × List (κ × Option ρ)} {s : Session τ κ ρ α σ ι} {x : τ} {call : Call α σ ι} {choice : ι}

/-- A statement of a request that runs alone reads or writes. -/
lemma aloneStep_cases (h : p.aloneStep t done choice = some done') :
    (p.next done.1 choice (applyWrites t done.2) = some (.query done'.1) ∧ done'.2 = done.2) ∨
    ∃ fresh k row, p.next done.1 choice (applyWrites t done.2) =
        some (.write fresh k row done'.1) ∧
      (fresh = true → (applyWrites t done.2).get? k = none) ∧
      clashes p.clash (applyWrites t done.2) k row = false ∧ done'.2 = done.2 ++ [(k, row)] := by
  obtain ⟨statement, hnext, h⟩ := Option.bind_eq_some_iff.mp h
  rw [hnext]
  cases statement with
  | query next =>
    obtain rfl := Option.some.inj h
    exact .inl ⟨rfl, rfl⟩
  | write fresh k row next =>
    simp only at h
    split_ifs at h with hrefused
    obtain rfl := Option.some.inj h
    obtain ⟨hfresh, hclash⟩ := not_or.mp hrefused
    refine .inr ⟨fresh, k, row, rfl, fun htrue => ?_, by simpa using hclash, rfl⟩
    simpa [htrue] using hfresh
  | commit => cases h
  | abort => cases h

/-- The outline holds throughout a request that runs alone. -/
theorem Outline.alone (h : p.Outline fits P I) (ht : P t)
    (halone : p.alone t request choices = some done) : I t done.1 (applyWrites t done.2) := by
  induction choices generalizing done with
  | nil =>
    obtain rfl := Option.some.inj halone
    exact h.init t request ht
  | cons choice choices ih =>
    obtain ⟨done', hdone', hstep⟩ := Option.bind_eq_some_iff.mp halone
    rcases aloneStep_cases hstep with ⟨hnext, hwrites⟩ |
      ⟨fresh, k, row, hnext, hfresh, hclash, hwrites⟩
    · rw [hwrites]
      exact h.next t _ choice _ _ ht (ih hdone') hnext
    · rw [hwrites, applyWrites_append]
      exact (h.next t _ choice _ _ ht (ih hdone') hnext).2 hfresh hclash

lemma Outline.keeps (h : p.Outline fits P I) (ht : P t) (haccepts : p.Accepts t request t') :
    P t' := by
  obtain ⟨choices, done, choice, halone, hnext, rfl⟩ := haccepts
  exact h.next t _ choice _ _ ht (h.alone ht halone) hnext

section Accepted

omit [DecidableEq κ]

end Accepted

variable [DecidableEq σ] [DecidableEq ρ]

end Program

end Denn.Core
