import Mathlib.Data.Finset.Basic
import Mathlib.Data.List.Nodup
import Mathlib.Data.List.Flatten
import Mathlib.Tactic.Common
import Mathlib.Tactic.SplitIfs

/-!
# A pool of workers with a registry

Jobs on keys are handed to an executor with a bounded number of workers. A registry keeps the keys
of the jobs that have not ended, so that a key is given to one job at a time. A job is reserved
before it is submitted, waits in a queue, and frees its keys after its work.
-/

namespace Denn.Core

variable {κ ρ : Type*}

/-- A job on some keys, with what it was asked for. -/
structure PoolJob (κ ρ : Type*) where
  keys : List κ
  request : ρ
  deriving DecidableEq, Repr

/-- A job that a worker has taken, and whether its work is done. -/
structure RunningJob (κ ρ : Type*) extends PoolJob κ ρ where
  isDone : Bool := false

structure WorkPool (κ ρ : Type*) where
  registered : Finset κ
  reserved : List (PoolJob κ ρ)
  queue : List (PoolJob κ ρ)
  running : List (RunningJob κ ρ)

/-- What the executor does next; the jobs are given by their places. -/
inductive PoolAction where
  | submit (place : ℕ)
  | start
  | work (place : ℕ)
  | finish (place : ℕ)
  deriving DecidableEq, Repr

namespace WorkPool

def empty : WorkPool κ ρ := ⟨∅, [], [], []⟩

/-- The jobs that have not ended. -/
def jobs (pool : WorkPool κ ρ) : List (PoolJob κ ρ) :=
  pool.reserved ++ pool.queue ++ pool.running.map (·.toPoolJob)

/-- The keys of the jobs that have not ended. -/
def pending (pool : WorkPool κ ρ) : List κ := pool.jobs.flatMap (·.keys)

/-- The steps that are left: a running job is to end, maybe after its work. -/
def remaining (pool : WorkPool κ ρ) : ℕ :=
  4 * pool.reserved.length + 3 * pool.queue.length + pool.running.length +
    pool.running.countP fun job => !job.isDone

/-- No key is given to two jobs, and the registry has the keys of the jobs that have not ended. -/
structure Valid (limit : ℕ) (pool : WorkPool κ ρ) : Prop where
  nodup : pool.pending.Nodup
  registered : ∀ key, key ∈ pool.registered ↔ key ∈ pool.pending
  workers : pool.running.length ≤ limit

section

variable [DecidableEq κ]

/-- Register the keys that are not registered yet. -/
def register (registered : Finset κ) : List κ → Finset κ × List κ
  | [] => (registered, [])
  | key :: keys =>
    if key ∈ registered then register registered keys
    else
      let rest := register (insert key registered) keys
      (rest.1, key :: rest.2)

/-- Reserve a job for the keys that have none. -/
def schedule (pool : WorkPool κ ρ) (keys : List κ) (request : ρ) : WorkPool κ ρ :=
  let (registered, new) := register pool.registered keys
  if new = [] then pool
  else { pool with registered, reserved := pool.reserved ++ [⟨new, request⟩] }

/-- One step of the executor, with `limit` workers. -/
def act (limit : ℕ) (pool : WorkPool κ ρ) : PoolAction → Option (WorkPool κ ρ)
  | .submit place =>
    pool.reserved[place]?.map fun job =>
      { pool with reserved := pool.reserved.eraseIdx place, queue := pool.queue ++ [job] }
  | .start =>
    match pool.queue with
    | job :: queue =>
      if pool.running.length < limit then
        some { pool with queue, running := pool.running ++ [⟨job, false⟩] }
      else none
    | [] => none
  | .work place =>
    (pool.running[place]?.filter fun job => !job.isDone).map fun job =>
      { pool with running := pool.running.set place ⟨job.toPoolJob, true⟩ }
  | .finish place =>
    (pool.running[place]?.filter fun job => job.isDone).map fun job =>
      { pool with
        registered := pool.registered \ job.keys.toFinset
        running := pool.running.eraseIdx place }

end

section

variable {limit : ℕ} {pool pool' : WorkPool κ ρ}

lemma valid_empty (limit : ℕ) : (empty : WorkPool κ ρ).Valid limit where
  nodup := List.nodup_nil
  registered key := by simp [empty, pending, jobs]
  workers := Nat.zero_le _

/-- The validity of a pool depends on its jobs, not on where they are. -/
lemma Valid.congr (h : pool.Valid limit) (hregistered : pool'.registered = pool.registered)
    (hjobs : pool'.jobs.Perm pool.jobs) (hworkers : pool'.running.length ≤ limit) :
    pool'.Valid limit := by
  have hpending : pool'.pending.Perm pool.pending := hjobs.flatMap_right _
  exact
    { nodup := hpending.nodup_iff.mpr h.nodup
      registered := fun key => by rw [hregistered, h.registered, hpending.mem_iff]
      workers := hworkers }

lemma jobs_perm_finish {place : ℕ} (hplace : place < pool.running.length)
    (registered : Finset κ) :
    pool.jobs.Perm (pool.running[place].toPoolJob ::
      ({ pool with registered, running := pool.running.eraseIdx place } : WorkPool κ ρ).jobs) := by
  refine .trans (.append_left _ ?_) List.perm_middle
  exact ((List.getElem_cons_eraseIdx_perm hplace).map (·.toPoolJob)).symm

end

/-! ### Registering -/

section

variable [DecidableEq κ] {registered : Finset κ} {keys : List κ} {key : κ} {limit : ℕ}
  {pool pool' : WorkPool κ ρ} {request : ρ} {action : PoolAction}

lemma mem_register_iff : key ∈ (register registered keys).1 ↔ key ∈ registered ∨ key ∈ keys := by
  induction keys generalizing registered with
  | nil => simp [register]
  | cons first keys ih =>
    simp only [register]
    split_ifs with hfirst
    · rw [ih, List.mem_cons]
      constructor
      · rintro (h | h)
        · exact .inl h
        · exact .inr (.inr h)
      · rintro (h | rfl | h)
        · exact .inl h
        · exact .inl hfirst
        · exact .inr h
    · simp only [ih, Finset.mem_insert, List.mem_cons]
      rw [or_comm (a := key = first), or_assoc]

lemma mem_new_iff : key ∈ (register registered keys).2 ↔ key ∈ keys ∧ key ∉ registered := by
  induction keys generalizing registered with
  | nil => simp [register]
  | cons first keys ih =>
    simp only [register]
    split_ifs with hfirst
    · rw [ih, List.mem_cons]
      constructor
      · rintro ⟨hmem, hnot⟩
        exact ⟨.inr hmem, hnot⟩
      · rintro ⟨rfl | hmem, hnot⟩
        · exact absurd hfirst hnot
        · exact ⟨hmem, hnot⟩
    · simp only [List.mem_cons, ih, Finset.mem_insert, not_or]
      by_cases heq : key = first
      · simp [heq, hfirst]
      · simp [heq]

lemma nodup_new : (register registered keys).2.Nodup := by
  induction keys generalizing registered with
  | nil => exact List.nodup_nil
  | cons first keys ih =>
    simp only [register]
    split_ifs
    · exact ih
    · refine List.nodup_cons.mpr ⟨fun hmem => ?_, ih⟩
      exact (mem_new_iff.mp hmem).2 (Finset.mem_insert_self _ _)

/-! ### The registry and the jobs -/

theorem Valid.schedule (h : pool.Valid limit) (keys : List κ) (request : ρ) :
    (pool.schedule keys request).Valid limit := by
  simp only [WorkPool.schedule]
  split_ifs
  · exact h
  · have hperm : ({ pool with
        registered := (register pool.registered keys).1
        reserved := pool.reserved ++ [⟨(register pool.registered keys).2, request⟩] } :
          WorkPool κ ρ).pending.Perm
        ((register pool.registered keys).2 ++ pool.pending) := by
      simp only [pending, jobs, List.flatMap_append, List.flatMap_cons, List.flatMap_nil,
        List.append_nil]
      refine .trans ?_ List.perm_append_comm
      simp only [List.append_assoc]
      refine .append_left _ ?_
      rw [← List.append_assoc (pool.queue.flatMap _)]
      exact List.perm_append_comm
    refine ⟨hperm.nodup_iff.mpr ?_, fun key => ?_, h.workers⟩
    · refine List.nodup_append'.mpr ⟨nodup_new, h.nodup, fun key hnew hpending => ?_⟩
      exact (mem_new_iff.mp hnew).2 ((h.registered key).mpr hpending)
    · rw [hperm.mem_iff, List.mem_append, mem_new_iff, mem_register_iff, ← h.registered]
      tauto

/-! ### The executor -/

/-- What a step of the executor does. -/
inductive Act (limit : ℕ) (pool : WorkPool κ ρ) : PoolAction → WorkPool κ ρ → Prop
  | submit {place : ℕ} (hplace : place < pool.reserved.length) :
      Act limit pool (.submit place)
        { pool with
          reserved := pool.reserved.eraseIdx place
          queue := pool.queue ++ [pool.reserved[place]] }
  | start {job : PoolJob κ ρ} {queue : List (PoolJob κ ρ)} (hqueue : pool.queue = job :: queue)
      (hworker : pool.running.length < limit) :
      Act limit pool .start { pool with queue, running := pool.running ++ [⟨job, false⟩] }
  | work {place : ℕ} (hplace : place < pool.running.length)
      (hdone : pool.running[place].isDone = false) :
      Act limit pool (.work place)
        { pool with running := pool.running.set place ⟨pool.running[place].toPoolJob, true⟩ }
  | finish {place : ℕ} (hplace : place < pool.running.length)
      (hdone : pool.running[place].isDone = true) :
      Act limit pool (.finish place)
        { pool with
          registered := pool.registered \ pool.running[place].keys.toFinset
          running := pool.running.eraseIdx place }

theorem act_eq_some_iff : pool.act limit action = some pool' ↔ Act limit pool action pool' := by
  constructor
  · intro h
    cases action with
    | submit place =>
      obtain ⟨job, hjob, rfl⟩ := Option.map_eq_some_iff.mp h
      obtain ⟨hplace, rfl⟩ := List.getElem?_eq_some_iff.mp hjob
      exact .submit hplace
    | start =>
      simp only [act] at h
      split at h
      · rename_i hqueue
        split_ifs at h with hworker
        cases h
        exact .start hqueue hworker
      · cases h
    | work place =>
      obtain ⟨job, hjob, rfl⟩ := Option.map_eq_some_iff.mp h
      obtain ⟨hget, hdone⟩ := Option.filter_eq_some_iff.mp hjob
      obtain ⟨hplace, rfl⟩ := List.getElem?_eq_some_iff.mp hget
      exact .work hplace (by simpa using hdone)
    | finish place =>
      obtain ⟨job, hjob, rfl⟩ := Option.map_eq_some_iff.mp h
      obtain ⟨hget, hdone⟩ := Option.filter_eq_some_iff.mp hjob
      obtain ⟨hplace, rfl⟩ := List.getElem?_eq_some_iff.mp hget
      exact .finish hplace hdone
  · intro h
    cases h with
    | submit hplace => simp [act, hplace]
    | start hqueue hworker => simp [act, hqueue, hworker]
    | work hplace hdone => simp [act, hplace, hdone]
    | finish hplace hdone => simp [act, hplace, hdone]

theorem Valid.act (h : pool.Valid limit) (hact : Act limit pool action pool') :
    pool'.Valid limit := by
  cases hact with
  | submit hplace =>
    refine h.congr rfl ?_ h.workers
    simp only [jobs, List.append_assoc]
    refine .trans ?_ ((List.getElem_cons_eraseIdx_perm hplace).append_right _)
    refine .trans (.append_left _ ?_) List.perm_middle
    exact List.perm_middle.trans (.refl _)
  | start hqueue hworker =>
    refine h.congr rfl ?_ (by simpa [Nat.succ_le_iff] using hworker)
    simp only [jobs, hqueue, List.map_append, List.map_cons, List.map_nil, List.append_assoc]
    refine .append_left _ ?_
    rw [← List.append_assoc]
    exact List.perm_append_comm
  | @work place hplace hdone =>
    refine h.congr rfl ?_ (by simpa using h.workers)
    have hplace' : place < (pool.running.map (·.toPoolJob)).length := by simpa using hplace
    have hself : pool.running[place].toPoolJob = (pool.running.map (·.toPoolJob))[place] := by simp
    rw [jobs, jobs, List.map_set, hself, List.set_getElem_self]
  | @finish place hplace hdone =>
    have hjobs := jobs_perm_finish hplace (pool.registered \ pool.running[place].keys.toFinset)
    obtain ⟨-, hnodup, hdisjoint⟩ :=
      List.nodup_append'.mp ((hjobs.flatMap_right _).nodup_iff.mp h.nodup)
    refine ⟨hnodup, fun key => ?_, (List.length_eraseIdx_le _ _).trans h.workers⟩
    rw [Finset.mem_sdiff, h.registered, List.mem_toFinset, pending,
      (hjobs.flatMap_right _).mem_iff, List.flatMap_cons, List.mem_append]
    constructor
    · rintro ⟨hkey | hkey, hnot⟩
      · exact absurd hkey hnot
      · exact hkey
    · exact fun hkey => ⟨.inr hkey, fun hjob => hdisjoint hjob hkey⟩

/-! ### Running dry -/

end

end WorkPool

end Denn.Core
