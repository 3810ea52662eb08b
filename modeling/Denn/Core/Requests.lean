import Denn.Core.ReadCommitted

/-!
# Requests that run concurrently

A request is a program whose next statement depends on its state, on the rows that it sees, and on a
choice of the database. Each request runs in a transaction of its own, and the statements of several
requests are interleaved.
-/

namespace Denn.Core

/-- What a request does next: it reads, writes one row, or ends. -/
inductive Statement (κ ρ σ : Type*) where
  | query (next : σ)
  /-- A row under a fresh key is inserted, and no key is given out twice. -/
  | write (fresh : Bool) (k : κ) (row : Option ρ) (next : σ)
  | commit
  | abort

structure Program (κ ρ α σ ι : Type*) where
  clash : ρ → ρ → Bool
  init : α → σ
  next : σ → ι → Table κ ρ → Option (Statement κ ρ σ)

inductive CallStatus where
  | running
  | committed
  | aborted
  /-- A statement has violated a unique constraint. -/
  | failed
  deriving DecidableEq

/-- A request, with its state and the choices so far, newest first. -/
structure Call (α σ ι : Type*) where
  request : α
  state : σ
  choices : List ι := []
  status : CallStatus := .running

/-- The rows, the requests, and those that have committed, newest first. -/
structure Session (τ κ ρ α σ ι : Type*) where
  store : Store τ κ ρ
  calls : Table τ (Call α σ ι)
  log : List τ

inductive Action (τ α ι : Type*) where
  | start (x : τ) (request : α)
  | run (x : τ) (choice : ι)

variable {τ κ ρ α σ ι : Type*} [DecidableEq τ] [DecidableEq κ]

namespace Session

def advance (s : Session τ κ ρ α σ ι) (x : τ) (call : Call α σ ι) (choice : ι) (next : σ)
    (store : Store τ κ ρ) : Session τ κ ρ α σ ι :=
  { s with
    store := store
    calls := s.calls.set x { call with state := next, choices := choice :: call.choices } }

def finish (s : Session τ κ ρ α σ ι) (x : τ) (call : Call α σ ι) (status : CallStatus)
    (store : Store τ κ ρ) : Session τ κ ρ α σ ι where
  store := store
  calls := s.calls.set x { call with status := status }
  log := if status = .committed then x :: s.log else s.log

section

variable {s : Session τ κ ρ α σ ι} {x : τ} {call : Call α σ ι} {store : Store τ κ ρ}

omit [DecidableEq κ] in
@[simp] lemma log_advance {choice : ι} {next : σ} :
    (s.advance x call choice next store).log = s.log := rfl

omit [DecidableEq κ] in
@[simp] lemma get?_advance {choice : ι} {next : σ} (y : τ) :
    (s.advance x call choice next store).calls.get? y =
      if y = x then some { call with state := next, choices := choice :: call.choices }
      else s.calls.get? y :=
  Table.get?_set ..

omit [DecidableEq κ] in
@[simp] lemma get?_finish {status : CallStatus} (y : τ) :
    (s.finish x call status store).calls.get? y =
      if y = x then some { call with status := status } else s.calls.get? y :=
  Table.get?_set ..

end

/-- No request has run yet. -/
structure Initial (base : Table κ ρ) (s : Session τ κ ρ α σ ι) : Prop where
  committed : s.store.committed = base
  pending : s.store.pending = []
  used : ∀ k r, base.get? k = some r → k ∈ s.store.used
  calls : s.calls = .empty
  log : s.log = []

end Session

namespace Program

variable (p : Program κ ρ α σ ι)

/-- Run one statement. A write waits for the transactions that it conflicts with. -/
def execute (s : Session τ κ ρ α σ ι) (x : τ) (call : Call α σ ι) (choice : ι) :
    Statement κ ρ σ → Option (Session τ κ ρ α σ ι)
  | .query next => some (s.advance x call choice next s.store)
  | .write fresh k row next =>
    if fresh ∧ k ∈ s.store.used then none
    else if s.store.taken p.clash x k row then
      some (s.finish x call .failed (s.store.rollback x))
    else if s.store.waits p.clash x k row then none
    else some (s.advance x call choice next (s.store.put x fresh k row))
  | .commit => some (s.finish x call .committed (s.store.commit x))
  | .abort => some (s.finish x call .aborted (s.store.rollback x))

def step (s : Session τ κ ρ α σ ι) : Action τ α ι → Option (Session τ κ ρ α σ ι)
  | .start x request =>
    if (s.calls.get? x).isSome then none
    else some { s with calls := s.calls.set x { request := request, state := p.init request } }
  | .run x choice =>
    (s.calls.get? x).bind fun call =>
      if call.status = .running then
        (p.next call.state choice (s.store.view x)).bind (p.execute s x call choice)
      else none

/-- The runs of a program from some committed rows. -/
def system (base : Table κ ρ) :
    TransitionSystem (Session τ κ ρ α σ ι) (Action τ α ι) where
  initial := Session.Initial base
  step := p.step

/-- What can happen in a step. -/
inductive Steps (s : Session τ κ ρ α σ ι) : Action τ α ι → Session τ κ ρ α σ ι → Prop
  | start {x : τ} {request : α} (hcall : s.calls.get? x = none) :
      Steps s (.start x request)
        { s with calls := s.calls.set x { request := request, state := p.init request } }
  | query {x : τ} {call : Call α σ ι} {choice : ι} {next : σ} (hcall : s.calls.get? x = some call)
      (hrunning : call.status = .running)
      (hnext : p.next call.state choice (s.store.view x) = some (.query next)) :
      Steps s (.run x choice) (s.advance x call choice next s.store)
  | write {x : τ} {call : Call α σ ι} {choice : ι} {fresh : Bool} {k : κ} {row : Option ρ}
      {next : σ} (hcall : s.calls.get? x = some call) (hrunning : call.status = .running)
      (hnext : p.next call.state choice (s.store.view x) = some (.write fresh k row next))
      (hfresh : fresh = true → k ∉ s.store.used)
      (htaken : s.store.taken p.clash x k row = false)
      (hwaits : s.store.waits p.clash x k row = false) :
      Steps s (.run x choice) (s.advance x call choice next (s.store.put x fresh k row))
  | fail {x : τ} {call : Call α σ ι} {choice : ι} {fresh : Bool} {k : κ} {row : Option ρ}
      {next : σ} (hcall : s.calls.get? x = some call) (hrunning : call.status = .running)
      (hnext : p.next call.state choice (s.store.view x) = some (.write fresh k row next))
      (htaken : s.store.taken p.clash x k row = true) :
      Steps s (.run x choice) (s.finish x call .failed (s.store.rollback x))
  | commit {x : τ} {call : Call α σ ι} {choice : ι} (hcall : s.calls.get? x = some call)
      (hrunning : call.status = .running)
      (hnext : p.next call.state choice (s.store.view x) = some .commit) :
      Steps s (.run x choice) (s.finish x call .committed (s.store.commit x))
  | abort {x : τ} {call : Call α σ ι} {choice : ι} (hcall : s.calls.get? x = some call)
      (hrunning : call.status = .running)
      (hnext : p.next call.state choice (s.store.view x) = some .abort) :
      Steps s (.run x choice) (s.finish x call .aborted (s.store.rollback x))

variable {p} {base : Table κ ρ} {s s' : Session τ κ ρ α σ ι} {a : Action τ α ι}

lemma steps_of_step (h : p.step s a = some s') : p.Steps s a s' := by
  cases a with
  | start x request =>
    rw [step] at h
    split_ifs at h with hcall
    obtain rfl := Option.some.inj h
    exact .start (by simpa using hcall)
  | run x choice =>
    rw [step] at h
    obtain ⟨call, hcall, h⟩ := Option.bind_eq_some_iff.mp h
    split_ifs at h with hrunning
    obtain ⟨statement, hnext, h⟩ := Option.bind_eq_some_iff.mp h
    cases statement with
    | query next =>
      obtain rfl := Option.some.inj h
      exact .query hcall hrunning hnext
    | write fresh k row next =>
      rw [execute] at h
      split_ifs at h with hused htaken hwaits
      · obtain rfl := Option.some.inj h
        exact .fail hcall hrunning hnext htaken
      · obtain rfl := Option.some.inj h
        refine .write hcall hrunning hnext (fun hfresh hmem => hused ⟨hfresh, hmem⟩) ?_ ?_
        · simpa using htaken
        · simpa using hwaits
    | commit =>
      obtain rfl := Option.some.inj h
      exact .commit hcall hrunning hnext
    | abort =>
      obtain rfl := Option.some.inj h
      exact .abort hcall hrunning hnext

section

variable {x : τ} {call : Call α σ ι} {choice : ι} {next : σ}

lemma step_run {statement : Statement κ ρ σ} (hcall : s.calls.get? x = some call)
    (hrunning : call.status = .running)
    (hnext : p.next call.state choice (s.store.view x) = some statement) :
    p.step s (.run x choice) = p.execute s x call choice statement := by
  rw [step, hcall, Option.bind_some, if_pos hrunning, hnext, Option.bind_some]

lemma execute_write {fresh : Bool} {k : κ} {row : Option ρ}
    (hfresh : fresh = true → k ∉ s.store.used) (htaken : s.store.taken p.clash x k row = false)
    (hwaits : s.store.waits p.clash x k row = false) :
    p.execute s x call choice (.write fresh k row next) =
      some (s.advance x call choice next (s.store.put x fresh k row)) := by
  have hused : ¬ (fresh = true ∧ k ∈ s.store.used) := fun h => hfresh h.1 h.2
  rw [execute, if_neg hused, if_neg (by simp [htaken]), if_neg (by simp [hwaits])]

end

/-! ### What holds in every session -/

/-- The rows stay consistent. -/
lemma consistent_of_reachable (hsymm : ∀ r r', p.clash r r' = p.clash r' r)
    (hbase : ∀ k k' r r', base.get? k = some r → base.get? k' = some r' → k ≠ k' →
      p.clash r r' = false)
    (h : (p.system base : TransitionSystem (Session τ κ ρ α σ ι) _).Reachable s) :
    s.store.Consistent p.clash := by
  refine h.invariant (I := fun s => s.store.Consistent p.clash) ?_ ?_
  · intro s hinit
    refine .initial ?_ hinit.pending
    rw [hinit.committed]
    exact hbase
  · intro s a s' hconsistent hstep
    cases steps_of_step hstep with
    | start hcall => exact hconsistent
    | query hcall hrunning hnext => exact hconsistent
    | write hcall hrunning hnext hfresh htaken hwaits => exact hconsistent.put hsymm htaken hwaits
    | fail hcall hrunning hnext htaken => exact hconsistent.rollback _
    | commit hcall hrunning hnext => exact hconsistent.commit hsymm _
    | abort hcall hrunning hnext => exact hconsistent.rollback _

end Program

namespace Session

/-- Running requests alone have uncommitted writes, and the log has the committed ones. -/
structure Orderly (s : Session τ κ ρ α σ ι) : Prop where
  pending : ∀ x write, (x, write) ∈ s.store.pending →
    ∃ call, s.calls.get? x = some call ∧ call.status = .running
  log : ∀ x, x ∈ s.log ↔ ∃ call, s.calls.get? x = some call ∧ call.status = .committed
  nodup : s.log.Nodup

variable {s : Session τ κ ρ α σ ι} {x : τ} {call : Call α σ ι} {store : Store τ κ ρ}

omit [DecidableEq κ] in
lemma Orderly.advance {choice : ι} {next : σ} (h : s.Orderly) (hcall : s.calls.get? x = some call)
    (hrunning : call.status = .running)
    (hpending : ∀ y write, (y, write) ∈ store.pending → y = x ∨ (y, write) ∈ s.store.pending) :
    (s.advance x call choice next store).Orderly where
  pending y write hmem := by
    rw [get?_advance]
    split_ifs with hy
    · exact ⟨_, rfl, hrunning⟩
    · exact h.pending y write ((hpending y write hmem).resolve_left hy)
  log y := by
    rw [get?_advance]
    split_ifs with hy
    · subst hy
      have hlog := h.log y
      rw [hcall] at hlog
      simpa using hlog
    · exact h.log y
  nodup := h.nodup

omit [DecidableEq κ] in
lemma Orderly.finish {status : CallStatus} (h : s.Orderly) (hcall : s.calls.get? x = some call)
    (hrunning : call.status = .running)
    (hpending : ∀ y write, (y, write) ∈ store.pending → y ≠ x ∧ (y, write) ∈ s.store.pending) :
    (s.finish x call status store).Orderly := by
  have hnot : x ∉ s.log := by
    rw [h.log, hcall]
    rintro ⟨_, heq, hcommitted⟩
    cases heq
    rw [hrunning] at hcommitted
    cases hcommitted
  constructor
  · intro y write hmem
    obtain ⟨hy, hmem⟩ := hpending y write hmem
    rw [get?_finish, if_neg hy]
    exact h.pending y write hmem
  · intro y
    by_cases hy : y = x
    · subst hy
      by_cases hstatus : status = .committed <;> simp [Session.finish, hstatus, hnot]
    · rw [get?_finish, if_neg hy, ← h.log]
      by_cases hstatus : status = .committed <;> simp [Session.finish, hstatus, hy]
  · by_cases hstatus : status = .committed
    · simpa [Session.finish, hstatus] using ⟨hnot, h.nodup⟩
    · simpa [Session.finish, hstatus] using h.nodup

end Session

namespace Program

variable {p : Program κ ρ α σ ι} {base : Table κ ρ} {s : Session τ κ ρ α σ ι} {x : τ}

lemma orderly_of_reachable (h : (p.system base).Reachable s) : s.Orderly := by
  refine h.invariant (I := Session.Orderly) ?_ ?_
  · intro s hinit
    constructor
    · simp [hinit.pending]
    · simp [hinit.log, hinit.calls]
    · simp [hinit.log]
  · intro s a s' horderly hstep
    have hrollback : ∀ x y write, (y, write) ∈ (s.store.rollback x).pending →
        y ≠ x ∧ (y, write) ∈ s.store.pending := by
      intro x y write hmem
      rw [Store.rollback, List.mem_filter] at hmem
      simpa [and_comm] using hmem
    cases steps_of_step hstep with
    | @start x request hcall =>
      constructor
      · intro y write hmem
        obtain ⟨call, hy, hrunning⟩ := horderly.pending y write hmem
        refine ⟨call, ?_, hrunning⟩
        rw [Table.get?_set_ne, hy]
        rintro rfl
        simp [hcall] at hy
      · intro y
        rw [Table.get?_set, horderly.log y]
        split_ifs with hy
        · simp [hy, hcall]
        · rfl
      · exact horderly.nodup
    | query hcall hrunning hnext => exact horderly.advance hcall hrunning fun y write => .inr
    | write hcall hrunning hnext hfresh htaken hwaits =>
      refine horderly.advance hcall hrunning fun y write hmem => ?_
      rw [Store.put, List.mem_append, List.mem_singleton] at hmem
      exact hmem.symm.imp_left fun heq => congrArg Prod.fst heq
    | fail hcall hrunning hnext htaken => exact horderly.finish hcall hrunning (hrollback _)
    | commit hcall hrunning hnext => exact horderly.finish hcall hrunning (hrollback _)
    | abort hcall hrunning hnext => exact horderly.finish hcall hrunning (hrollback _)

/-- Updates and deletions are of rows that the request sees. -/
def WritesSeen (p : Program κ ρ α σ ι) : Prop :=
  ∀ state choice view k row next, p.next state choice view = some (.write false k row next) →
    view.get? k ≠ none

/-- All keys that stand for rows are used. -/
structure KeysUsed (store : Store τ κ ρ) : Prop where
  committed : ∀ k r, store.committed.get? k = some r → k ∈ store.used
  pending : ∀ x k row, (x, k, row) ∈ store.pending → k ∈ store.used

lemma KeysUsed.view {store : Store τ κ ρ} (h : KeysUsed store) {k : κ}
    (hk : (store.view x).get? k ≠ none) : k ∈ store.used := by
  obtain ⟨r, hr⟩ := Option.ne_none_iff_exists'.mp hk
  rw [Store.get?_view] at hr
  cases hwritten : store.written x k with
  | none =>
    rw [hwritten, Option.getD_none] at hr
    exact h.committed k r hr
  | some row => exact h.pending x k row (Store.mem_pending_of_written hwritten)

lemma KeysUsed.rollback {store : Store τ κ ρ} (h : KeysUsed store) (x : τ) :
    KeysUsed (store.rollback x) where
  committed := h.committed
  pending y k row hmem := h.pending y k row (List.mem_of_mem_filter hmem)

lemma keysUsed_of_reachable (hseen : p.WritesSeen) (h : (p.system base).Reachable s) :
    KeysUsed s.store := by
  refine h.invariant (I := fun s => KeysUsed s.store) ?_ ?_
  · intro s hinit
    constructor
    · rw [hinit.committed]
      exact hinit.used
    · simp [hinit.pending]
  · intro s a s' hused hstep
    cases steps_of_step hstep with
    | start hcall => exact hused
    | query hcall hrunning hnext => exact hused
    | @write x call choice fresh k row next hcall hrunning hnext hfresh htaken hwaits =>
      have hmono : ∀ k', k' ∈ s.store.used → k' ∈ (s.store.put x fresh k row).used := by
        intro k' hk'
        cases fresh
        · exact hk'
        · exact List.mem_cons_of_mem k hk'
      refine ⟨fun k' r hr => hmono k' (hused.committed k' r hr), fun y k' row' hmem => ?_⟩
      rw [Session.advance, Store.put, List.mem_append, List.mem_singleton] at hmem
      rcases hmem with hmem | heq
      · exact hmono k' (hused.pending y k' row' hmem)
      · cases heq
        cases fresh
        · exact hused.view (hseen _ _ _ _ _ _ hnext)
        · exact List.mem_cons_self ..
    | fail hcall hrunning hnext htaken => exact hused.rollback _
    | @commit x call choice hcall hrunning hnext =>
      refine ⟨fun k r hr => hused.view (x := x) ?_, (hused.rollback x).pending⟩
      change (s.store.view x).get? k = some r at hr
      simp [hr]
    | abort hcall hrunning hnext => exact hused.rollback _

omit [DecidableEq κ] in
/-- A request that does not run has no uncommitted writes. -/
lemma writesOf_eq_nil (h : s.Orderly)
    (hx : ∀ call, s.calls.get? x = some call → call.status ≠ .running) :
    s.store.writesOf x = [] := by
  rw [List.eq_nil_iff_forall_not_mem]
  intro write hmem
  obtain ⟨call, hcall, hrunning⟩ := h.pending x write (Store.mem_writesOf.mp hmem)
  exact hx call hcall hrunning

end Program

end Denn.Core
