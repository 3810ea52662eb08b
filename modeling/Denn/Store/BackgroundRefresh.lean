import Denn.Core.WorkPool
import Denn.Store.Availability

/-!
# The background refresh

A read of a detail serves a stale row at once and has it refreshed in the background, by an executor
with two workers. A registry keeps the ids of the items whose refresh has not ended; it is read and
written under a lock, while the jobs are submitted, run and ended outside of it.
-/

namespace Denn

open Core LocalStore

/-- `max_workers` of `_refresh_executor`. -/
def refreshWorkers : ℕ := 2

/-- The store, with `_refreshing_ids` and the jobs of the executor. A job is asked for with the
    country of the read. -/
structure RefreshWorld where
  store : LocalStore := .empty
  pool : WorkPool ItemId (Option String) := .empty

inductive RefreshEvent where
  /-- A call of `fetch_bulk_source_data` by a request. -/
  | fetch (call : FetchCall)
  /-- Another operation of the store, or the passing of time. -/
  | store (action : StoreAction)
  | submit (place : ℕ)
  | start
  /-- A job fetches its items. -/
  | work (place : ℕ) (proxy : ItemId → Option DetailPayload) (fails : ItemId → Bool)
  /-- A job is given up by an exception, which is logged. -/
  | raise (place : ℕ)
  | finish (place : ℕ)

namespace RefreshEvent

/-- The step of the executor. -/
def action : RefreshEvent → Option PoolAction
  | fetch _ => none
  | store _ => none
  | submit place => some (.submit place)
  | start => some .start
  | work place _ _ => some (.work place)
  | raise place => some (.work place)
  | finish place => some (.finish place)

end RefreshEvent

/-- The call of `_refresh_stale_items`. -/
def refreshCall (job : PoolJob ItemId (Option String)) (proxy : ItemId → Option DetailPayload)
    (fails : ItemId → Bool) : FetchCall where
  items := job.keys
  countryCode := job.request
  proxy
  fails

namespace RefreshWorld

variable (config : StoreConfig) (w : RefreshWorld)

/-- `_schedule_stale_refresh`, which a call makes only to revalidate what it serves. -/
def scheduleStaleRefresh (call : FetchCall) : WorkPool ItemId (Option String) :=
  if call.staleWhileRevalidate then
    w.pool.schedule (w.store.classified config call .stale) call.countryCode
  else w.pool

/-- The store after the items of a running job are fetched. -/
def refresh (place : ℕ) (proxy : ItemId → Option DetailPayload) (fails : ItemId → Bool) :
    LocalStore :=
  match w.pool.running[place]? with
  | some job => (w.store.fetchBulkSourceData config (refreshCall job.toPoolJob proxy fails)).1
  | none => w.store

def step : RefreshEvent → Option RefreshWorld
  | .fetch call =>
    some ⟨(w.store.fetchBulkSourceData config call).1, w.scheduleStaleRefresh config call⟩
  | .store action => (w.store.step config action).map fun store => { w with store }
  | .submit place => (w.pool.act refreshWorkers (.submit place)).map fun pool => { w with pool }
  | .start => (w.pool.act refreshWorkers .start).map fun pool => { w with pool }
  | .work place proxy fails =>
    (w.pool.act refreshWorkers (.work place)).map fun pool =>
      ⟨w.refresh config place proxy fails, pool⟩
  | .raise place => (w.pool.act refreshWorkers (.work place)).map fun pool => { w with pool }
  | .finish place => (w.pool.act refreshWorkers (.finish place)).map fun pool => { w with pool }

end RefreshWorld

def refreshSystem (config : StoreConfig) : TransitionSystem RefreshWorld RefreshEvent where
  initial w := w = {}
  step w event := w.step config event

namespace RefreshWorld

variable {config : StoreConfig} {w w' : RefreshWorld} {event : RefreshEvent} {action : PoolAction}
  {call : FetchCall} {item : ItemId} {place : ℕ} {proxy : ItemId → Option DetailPayload}
  {fails : ItemId → Bool}

/-! ### Steps -/

/-- A step of the executor is a step of its pool. -/
lemma act_of_step (haction : event.action = some action) (hstep : w.step config event = some w') :
    WorkPool.Act refreshWorkers w.pool action w'.pool := by
  rw [← WorkPool.act_eq_some_iff]
  cases event <;> cases haction <;>
    obtain ⟨pool, hpool, rfl⟩ := Option.map_eq_some_iff.mp hstep <;> exact hpool

/-- What holds at any time. -/
structure Consistent (config : StoreConfig) (w : RefreshWorld) : Prop where
  store : (localStoreSystem config).Reachable w.store
  pool : w.pool.Valid refreshWorkers

namespace Consistent

lemma scheduleStaleRefresh (h : Consistent config w) (call : FetchCall) :
    (w.scheduleStaleRefresh config call).Valid refreshWorkers := by
  unfold RefreshWorld.scheduleStaleRefresh
  split_ifs
  · exact h.pool.schedule _ _
  · exact h.pool

lemma refresh (h : Consistent config w) :
    (localStoreSystem config).Reachable (w.refresh config place proxy fails) := by
  unfold RefreshWorld.refresh
  split
  · exact reachable_fetchBulkSourceData h.store
  · exact h.store

lemma step (h : Consistent config w) (hstep : w.step config event = some w') :
    Consistent config w' := by
  have hpool : ∀ action, event.action = some action → w'.pool.Valid refreshWorkers :=
    fun action haction => h.pool.act (act_of_step haction hstep)
  cases event with
  | fetch call =>
    cases hstep
    exact ⟨reachable_fetchBulkSourceData h.store, h.scheduleStaleRefresh call⟩
  | store action =>
    obtain ⟨store, hstore, rfl⟩ := Option.map_eq_some_iff.mp hstep
    exact ⟨.step h.store trivial hstore, h.pool⟩
  | work place proxy fails =>
    obtain ⟨pool, -, rfl⟩ := Option.map_eq_some_iff.mp hstep
    exact ⟨h.refresh, hpool _ rfl⟩
  | submit place =>
    obtain ⟨pool, -, rfl⟩ := Option.map_eq_some_iff.mp hstep
    exact ⟨h.store, hpool _ rfl⟩
  | start =>
    obtain ⟨pool, -, rfl⟩ := Option.map_eq_some_iff.mp hstep
    exact ⟨h.store, hpool _ rfl⟩
  | raise place =>
    obtain ⟨pool, -, rfl⟩ := Option.map_eq_some_iff.mp hstep
    exact ⟨h.store, hpool _ rfl⟩
  | finish place =>
    obtain ⟨pool, -, rfl⟩ := Option.map_eq_some_iff.mp hstep
    exact ⟨h.store, hpool _ rfl⟩

end Consistent

lemma consistent_of_reachable (h : (refreshSystem config).Reachable w) : Consistent config w :=
  h.invariant (fun _ hinit => hinit ▸ ⟨.initial rfl, WorkPool.valid_empty _⟩)
    fun _ _ _ hs hstep => hs.step hstep

/-! ### A read, a job and the end of all jobs -/

end RefreshWorld

open RefreshWorld

variable {config : StoreConfig} {w : RefreshWorld}

end Denn
