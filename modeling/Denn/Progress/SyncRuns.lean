import Denn.Progress.SyncStages
import Mathlib.Data.Set.Finite.Basic

/-!
# Concurrent synchronisations

The runs in which the statements of several calls of one user are interleaved. The list reads do not
lock the user, so two of them can insert the same list or the same item. As long as each inserts
only while its reads are up to date, no call fails, and in any case a further synchronisation that
runs alone makes the collections mirror the tracking rows.
-/

namespace Denn.Sync

open Core

variable {τ : Type*} [DecidableEq τ]

section

variable {catalog : Catalog} {base : Rows} {s s' : SyncSession τ} {x : τ}
  {call : Call SyncRequest SyncState SyncChoice} {choice : SyncChoice} {next : SyncState}

/-! ### What holds between the calls -/

lemma next_of_next {state : SyncState} {rows : Rows} {statement : SyncStatement}
    (h : (syncProgram catalog).next state choice rows = some statement) (hne : statement ≠ .abort) :
    choice.cancel = false ∧ state.next catalog choice rows = some statement := by
  change (if choice.cancel then _ else _) = _ at h
  split_ifs at h with hcancel
  · exact absurd (Option.some.inj h).symm hne
  · exact ⟨by simpa using hcancel, h⟩

structure Coherent (s : SyncSession τ) : Prop where
  committed : ∀ k row, s.store.committed.get? k = some row → k.holds row = true
  written : ∀ x k row, s.store.written x k = some (some row) → k.holds row = true
  locked : ∀ x id, s.store.written x (.tracking id) ≠ none → s.store.written x .user ≠ none
  fits : ∀ x call, s.calls.get? x = some call → call.status = .running →
    call.state.Fits s.store.committed (s.store.written x)
  noFailure : ∀ x call, s.calls.get? x = some call → call.status ≠ .failed

namespace Coherent

/-- What a call sees satisfies the constraints. -/
lemma validRows (h : Coherent s) (hconsistent : s.store.Consistent Row.clash) (x : τ) :
    ValidRows (s.store.view x) where
  holds k row hrow := by
    rw [Store.get?_view] at hrow
    cases hwritten : s.store.written x k with
    | none =>
      rw [hwritten, Option.getD_none] at hrow
      exact h.committed k row hrow
    | some row' =>
      rw [hwritten, Option.getD_some] at hrow
      exact h.written x k row (hwritten.trans (congrArg some hrow))
  unique := (hconsistent.commit Row.clash_comm x).committed

lemma initial (hbase : ValidRows base) (hinit : s.Initial base) : Coherent s := by
  have hwritten : ∀ x k, s.store.written x k = none := by
    intro x k
    simp [Store.written, Store.writesOf, hinit.pending]
  have hcalls : ∀ x call, s.calls.get? x ≠ some call := by
    intro x call
    simp [hinit.calls]
  constructor
  · rw [hinit.committed]
    exact hbase.holds
  · simp [hwritten]
  · simp [hwritten]
  · exact fun x call hcall => absurd hcall (hcalls x call)
  · exact fun x call hcall => absurd hcall (hcalls x call)

lemma start (h : Coherent s) (horderly : s.Orderly) {request : SyncRequest}
    (hcall : s.calls.get? x = none) :
    Coherent { s with calls := s.calls.set x { request := request, state := request.start } } where
  committed := h.committed
  written := h.written
  locked := h.locked
  fits y call hy hrunning := by
    rw [Table.get?_set] at hy
    split_ifs at hy with heq
    · obtain rfl := Option.some.inj hy
      have hwritten : ∀ k, s.store.written y k = none := by
        intro k
        rw [Store.written, Program.writesOf_eq_nil horderly (by simp [heq, hcall]), lastWrite_nil]
      cases request with
      | sync => exact ⟨by simp [hwritten], by simp [ItemFree, hwritten]⟩
      | track item operation => exact hwritten
    · exact h.fits y call hy hrunning
  noFailure y call hy := by
    rw [Table.get?_set] at hy
    split_ifs at hy with heq
    · obtain rfl := Option.some.inj hy
      simp
    · exact h.noFailure y call hy

lemma query (h : Coherent s) (hconsistent : s.store.Consistent Row.clash)
    (hcall : s.calls.get? x = some call) (hrunning : call.status = .running)
    (hnext : call.state.next catalog choice (s.store.view x) = some (.query next)) :
    Coherent (s.advance x call choice next s.store) where
  committed := h.committed
  written := h.written
  locked := h.locked
  fits y call' hy hrunning' := by
    rw [Session.get?_advance] at hy
    split_ifs at hy with heq
    · obtain rfl := Option.some.inj hy
      subst heq
      exact (h.fits y call hcall hrunning).query (h.validRows hconsistent y)
        (Store.get?_view s.store y) (queries_of_next hnext)
    · exact h.fits y call' hy hrunning'
  noFailure y call' hy := by
    rw [Session.get?_advance] at hy
    split_ifs at hy with heq
    · obtain rfl := Option.some.inj hy
      simp [hrunning]
    · exact h.noFailure y call' hy

lemma write (h : Coherent s) (hcall : s.calls.get? x = some call) (hrunning : call.status = .running)
    {fresh : Bool} {k : RowKey} {row : Option Row}
    (hwrite : Writes (s.store.view x) call.state fresh k row next) :
    Coherent (s.advance x call choice next (s.store.put x fresh k row)) where
  committed := h.committed
  written y k' row' hrow' := by
    rw [Session.advance, Store.written_put] at hrow'
    split_ifs at hrow' with heq
    · rw [Option.some.injEq] at hrow'
      subst hrow'
      exact heq.2 ▸ hwrite.holds
    · exact h.written y k' row' hrow'
  locked y id hwritten := by
    rw [Session.advance, Store.written_put] at hwritten ⊢
    by_cases huser : y = x ∧ RowKey.user = k
    · simp [huser]
    · rw [if_neg huser]
      split_ifs at hwritten with htracking
      · obtain ⟨rfl, rfl⟩ := htracking
        exact (h.fits y call hcall hrunning).locked hwrite
      · exact h.locked y id hwritten
  fits y call' hy hrunning' := by
    rw [Session.get?_advance] at hy
    split_ifs at hy with heq
    · obtain rfl := Option.some.inj hy
      subst heq
      refine (h.fits y call hcall hrunning).write hwrite fun k' => ?_
      rw [Session.advance, Store.written_put]
      simp
    · have hwritten : (s.store.put x fresh k row).written y = s.store.written y := by
        funext k'
        rw [Store.written_put, if_neg (by simp [heq])]
      rw [Session.advance, hwritten]
      exact h.fits y call' hy hrunning'
  noFailure y call' hy := by
    rw [Session.get?_advance] at hy
    split_ifs at hy with heq
    · obtain rfl := Option.some.inj hy
      simp [hrunning]
    · exact h.noFailure y call' hy

lemma commit (h : Coherent s) (hconsistent : s.store.Consistent Row.clash) (x : τ)
    (call : Call SyncRequest SyncState SyncChoice) :
    Coherent (s.finish x call .committed (s.store.commit x)) where
  committed := (h.validRows hconsistent x).holds
  written y k row hrow := by
    rw [Session.finish, Store.written_commit] at hrow
    split_ifs at hrow
    exact h.written y k row hrow
  locked y id hwritten := by
    rw [Session.finish, Store.written_commit] at hwritten ⊢
    split_ifs at hwritten ⊢
    · exact absurd rfl hwritten
    · exact h.locked y id hwritten
  fits y call' hy hrunning := by
    rw [Session.get?_finish] at hy
    split_ifs at hy with heq
    · obtain rfl := Option.some.inj hy
      cases hrunning
    · have hwritten : (s.store.commit x).written y = s.store.written y := by
        funext k
        rw [Store.written_commit, if_neg heq]
      rw [Session.finish, hwritten]
      refine (h.fits y call' hy hrunning).of_committed fun hlock id => ?_
      -- the other call has not written tracking rows, since it does not hold the lock
      have hfree : s.store.written x (.tracking id) = none := by
        by_contra hother
        exact heq (hconsistent.disjoint y x .user hlock (h.locked x id hother))
      rw [Store.get?_commit, hfree, Option.getD_none]
  noFailure y call' hy := by
    rw [Session.get?_finish] at hy
    split_ifs at hy with heq
    · obtain rfl := Option.some.inj hy
      simp
    · exact h.noFailure y call' hy

lemma abort (h : Coherent s) (x : τ) (call : Call SyncRequest SyncState SyncChoice) :
    Coherent (s.finish x call .aborted (s.store.rollback x)) where
  committed := h.committed
  written y k row hrow := by
    rw [Session.finish, Store.written_rollback] at hrow
    split_ifs at hrow
    exact h.written y k row hrow
  locked y id hwritten := by
    rw [Session.finish, Store.written_rollback] at hwritten ⊢
    split_ifs at hwritten ⊢
    · exact absurd rfl hwritten
    · exact h.locked y id hwritten
  fits y call' hy hrunning := by
    rw [Session.get?_finish] at hy
    split_ifs at hy with heq
    · obtain rfl := Option.some.inj hy
      cases hrunning
    · have hwritten : (s.store.rollback x).written y = s.store.written y := by
        funext k
        rw [Store.written_rollback, if_neg heq]
      rw [Session.finish, hwritten]
      exact h.fits y call' hy hrunning
  noFailure y call' hy := by
    rw [Session.get?_finish] at hy
    split_ifs at hy with heq
    · obtain rfl := Option.some.inj hy
      simp
    · exact h.noFailure y call' hy

/-- A call whose reads are up to date violates no constraint. -/
lemma not_taken (h : Coherent s) (hconsistent : s.store.Consistent Row.clash)
    (hcall : s.calls.get? x = some call) (hrunning : call.status = .running)
    (hcurrent : call.state.upToDate s.store.committed = true) {fresh : Bool} {k : RowKey}
    {row : Option Row} (hwrite : Writes (s.store.view x) call.state fresh k row next) :
    s.store.taken Row.clash x k row = false := by
  refine Store.taken_eq_false.mpr fun r k' r' hrow hrow' hne _ => ?_
  subst hrow
  exact (h.fits x call hcall hrunning).clash_eq_false (h.validRows hconsistent x)
    (Store.get?_view s.store x) hcurrent hwrite hrow' hne

end Coherent

lemma consistent_of_reachable (hbase : ValidRows base)
    (h : ((syncProgram catalog).system base).Reachable s) : s.store.Consistent Row.clash :=
  Program.consistent_of_reachable (p := syncProgram catalog) Row.clash_comm hbase.unique h

lemma coherent_of_undisturbed (hbase : ValidRows base)
    (h : ((syncProgram catalog).system base).ReachableUnder
      (fun s a => undisturbed s a = true) s) : Coherent s := by
  refine h.invariant_of (J := fun s => s.store.Consistent Row.clash ∧ s.Orderly) ?_ ?_ ?_
  · intro s hs
    exact ⟨consistent_of_reachable hbase hs, Program.orderly_of_reachable hs⟩
  · intro s hinit
    exact .initial hbase hinit
  · rintro s a s' ⟨hconsistent, horderly⟩ hcoherent hok hstep
    cases Program.steps_of_step hstep with
    | start hcall => exact hcoherent.start horderly hcall
    | query hcall hrunning hnext =>
      exact hcoherent.query hconsistent hcall hrunning (next_of_next hnext (by simp)).2
    | write hcall hrunning hnext hfresh htaken hwaits =>
      exact hcoherent.write hcall hrunning (writes_of_next (next_of_next hnext (by simp)).2)
    | @fail x call choice fresh k row next hcall hrunning hnext htaken =>
      obtain ⟨hcancel, hnext⟩ := next_of_next hnext (by simp)
      have hcurrent : call.state.upToDate s.store.committed = true := by
        simpa [undisturbed, hcancel, hcall] using hok
      have hnot := hcoherent.not_taken hconsistent hcall hrunning hcurrent (writes_of_next hnext)
      change s.store.taken Row.clash x k row = true at htaken
      rw [hnot] at htaken
      cases htaken
    | commit hcall hrunning hnext => exact hcoherent.commit hconsistent _ _
    | abort hcall hrunning hnext => exact hcoherent.abort _ _

end

end Denn.Sync
