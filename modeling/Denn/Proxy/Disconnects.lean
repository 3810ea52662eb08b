import Denn.Proxy.FlightContext

/-!
# Disconnecting clients

Two runs of one schedule that differ in when other clients disconnect. While no computation loses its
context, the two runs go on alike, but for the phases of the requests that have disconnected.
-/

namespace Denn.Proxy

open Denn.Core

variable {ι β α π : Type} [DecidableEq ι] [DecidableEq β] {agg : Aggregate β α π} {r q p : ι}
  {flights : AggregateFlights ι β α π} {request request' : HandlerRequest β α π}
  {event : AggregateEvent ι β α} {call : AggregateCall ι β α π}

/-! ### Schedules -/

/-- The event is not the disconnect of another client. -/
def AggregateEvent.concerns (r : ι) : AggregateEvent ι β α → Bool
  | .disconnect q _ => q = r
  | _ => true

/-- The schedule without the disconnects of the other clients. -/
def purge (r : ι) (events : List (AggregateEvent ι β α)) : List (AggregateEvent ι β α) :=
  events.filter (·.concerns r)

namespace Aggregate

/-- The context of the request is that of a computation which waits for a bucket. -/
def leads (agg : Aggregate β α π) (flights : AggregateFlights ι β α π) (q : ι) : Bool :=
  flights.calls.any fun call => call.leader = some q && agg.isOpen call

/-- The handler is about to start a computation under a context that its client has ended. -/
def startsEnded (flights : AggregateFlights ι β α π) (request : HandlerRequest β α π) : Bool :=
  match request.phase with
  | .entering => request.disconnected && flights.current.isNone
  | _ => false

/-- No other client ends the context of a computation. -/
def leaderStays (agg : Aggregate β α π) (r : ι) (s : AggregateState ι β α π) :
    AggregateEvent ι β α → Bool
  | .disconnect q _ => q = r || !agg.leads s.flights q
  | .advance q _ => q = r || !(s.requests q).any (startsEnded s.flights)
  | _ => true

def leadersStay (agg : Aggregate β α π) (r : ι) (s : AggregateState ι β α π) :
    List (AggregateEvent ι β α) → Bool
  | [] => true
  | event :: events => agg.leaderStays r s event && agg.leadersStay r (agg.step s event) events

/-! ### Computations without a request -/

/-- A function that opens no computation. -/
structure Settles (agg : Aggregate β α π) (f : AggregateCall ι β α π → AggregateCall ι β α π) :
    Prop where
  leader : ∀ call, (f call).leader = call.leader
  isOpen : ∀ call, agg.isOpen (f call) = true → agg.isOpen call = true

section

omit [DecidableEq β]

lemma leads_eq_false : agg.leads flights q = false ↔
    ∀ call ∈ flights.calls, call.leader = some q → agg.isOpen call = false := by
  simp [leads]

omit [DecidableEq ι]

lemma settles_endContext (outcome : β → α) : agg.Settles (ι := ι) (agg.endContext outcome) where
  leader call := by
    unfold endContext
    split_ifs <;> rfl
  isOpen call hopen := by
    by_contra hclosed
    rw [endContext, if_neg hclosed] at hopen
    exact hclosed hopen

lemma settles_marshal : agg.Settles (ι := ι) agg.marshal where
  leader call := by
    unfold marshal
    split
    · split_ifs
      · rfl
      · simp only
        split
        · rfl
        · split_ifs <;> rfl
    · rfl
  isOpen call hopen := by
    by_contra hclosed
    unfold marshal at hopen
    split at hopen
    · rw [if_neg hclosed] at hopen
      simp only at hopen
      split at hopen
      · exact nomatch hopen
      · split_ifs at hopen
        · exact nomatch hopen
        · exact nomatch hopen
    · exact hclosed hopen

lemma settles_stage {stage : CallStage π} (hstage : stage ≠ .computing) :
    agg.Settles (ι := ι) fun call => { call with stage } where
  leader call := rfl
  isOpen call hopen := by
    cases stage with
    | computing => exact absurd rfl hstage
    | _ => exact nomatch hopen

end

omit [DecidableEq ι] in
lemma settles_bucketEnds (bucket : β) (answer : α) :
    agg.Settles (ι := ι) (agg.bucketEnds bucket answer) where
  leader call := by
    unfold bucketEnds
    split_ifs <;> rfl
  isOpen call hopen := by
    by_contra hclosed
    rw [bucketEnds, if_neg (by simp [hclosed])] at hopen
    exact hclosed hopen

section

omit [DecidableEq β]

/-- The calls of a list are settled one by one. -/
lemma leads_of_settles {flights' : AggregateFlights ι β α π}
    (h : ∀ call' ∈ flights'.calls, ∃ call ∈ flights.calls, call'.leader = call.leader ∧
      (agg.isOpen call' = true → agg.isOpen call = true))
    (hclosed : agg.leads flights q = false) : agg.leads flights' q = false := by
  rw [leads_eq_false] at hclosed ⊢
  intro call' hmem hleader
  obtain ⟨call, hcall, hsame, hopen⟩ := h call' hmem
  by_contra hnot
  exact absurd (hopen (by simpa using hnot)) (by simp [hclosed call hcall (hsame ▸ hleader)])

lemma leads_modify {f : AggregateCall ι β α π → AggregateCall ι β α π} (hf : agg.Settles f) (n : ℕ)
    {flights' : AggregateFlights ι β α π} (hcalls : flights'.calls = flights.calls.modify n f)
    (hclosed : agg.leads flights q = false) : agg.leads flights' q = false := by
  refine leads_of_settles (fun call' hmem => ?_) hclosed
  rw [hcalls] at hmem
  obtain ⟨i, hi⟩ := List.mem_iff_getElem?.mp hmem
  rw [List.getElem?_modify] at hi
  obtain ⟨call, hcall, rfl⟩ := Option.map_eq_some_iff.mp hi
  refine ⟨call, List.mem_of_getElem? hcall, ?_⟩
  split_ifs
  · exact ⟨hf.leader call, hf.isOpen call⟩
  · exact ⟨rfl, id⟩

lemma leads_endContextOf (outcome : β → α) (hclosed : agg.leads flights q = false) :
    agg.leads (agg.endContextOf flights p outcome) q = false := by
  refine leads_of_settles (fun call' hmem => ?_) hclosed
  obtain ⟨call, hcall, rfl⟩ := List.mem_map.mp hmem
  refine ⟨call, hcall, ?_⟩
  split_ifs
  · exact ⟨(settles_endContext outcome).leader call, (settles_endContext outcome).isOpen call⟩
  · exact ⟨rfl, id⟩

/-- The context of a request without a computation ends without an effect. -/
lemma endContextOf_eq_self (outcome : β → α) (hclosed : agg.leads flights q = false) :
    agg.endContextOf flights q outcome = flights := by
  rw [leads_eq_false] at hclosed
  have hcalls : (flights.calls.map fun call =>
      if call.leader = some q then agg.endContext outcome call else call) = flights.calls := by
    refine (List.map_congr_left (g := id) fun call hmem => ?_).trans (List.map_id _)
    split_ifs with hleader
    · rw [endContext, if_neg (by simp [hclosed call hmem hleader]), id]
    · rfl
  rw [endContextOf, hcalls]

lemma leads_enter {leader : Option ι} {ended : Option (β → α)} (hleader : leader ≠ some q)
    (hclosed : agg.leads flights q = false) : agg.leads (enter flights leader ended) q = false := by
  unfold enter
  split_ifs
  · exact hclosed
  · rw [leads_eq_false] at hclosed ⊢
    intro call hmem hcall
    rcases List.mem_append.mp hmem with hold | hnew
    · exact hclosed call hold hcall
    · obtain rfl := List.mem_singleton.mp hnew
      exact absurd hcall hleader

end

lemma leads_flightStep (step : FlightStep β α) (hclosed : agg.leads flights q = false) :
    agg.leads (agg.flightStep flights step) q = false := by
  cases step with
  | tick duration => exact hclosed
  | bucketEnds n bucket answer => exact leads_modify (settles_bucketEnds bucket answer) n rfl hclosed
  | refreshBudget n outcome =>
    refine leads_modify (f := fun call =>
      if call.leader.isNone then agg.endContext outcome call else call) ⟨fun call => ?_, fun call => ?_⟩
      n rfl hclosed
    · split_ifs
      · exact (settles_endContext outcome).leader call
      · rfl
    · split_ifs
      · exact (settles_endContext outcome).isOpen call
      · exact id
  | marshal n => exact leads_modify settles_marshal n rfl hclosed
  | storeFresh n fails =>
    simp only [flightStep]
    split
    · refine leads_modify (settles_stage ?_) n rfl hclosed
      exact nofun
    · exact hclosed
  | storeStale n fails =>
    simp only [flightStep]
    split
    · refine leads_modify (settles_stage ?_) n rfl hclosed
      exact nofun
    · exact hclosed
  | finish n =>
    simp only [flightStep]
    split
    · refine leads_modify (settles_stage ?_) n rfl hclosed
      exact nofun
    · exact hclosed
  | remove n =>
    simp only [flightStep]
    split
    · split_ifs <;> exact hclosed
    · exact hclosed

end Aggregate

/-! ### Requests that have disconnected -/

/-- The phase of a disconnected request, and the one that it would have. -/
inductive HandlerPhase.Similar : HandlerPhase π → HandlerPhase π → Prop where
  | same (phase : HandlerPhase π) : Similar phase phase
  /-- The cache would have served the request. -/
  | served {phase : HandlerPhase π} (response : AggregateResponse π)
      (h : ∀ served, phase ≠ .refreshing served) : Similar phase (.responded response)
  | stale (served : π) : Similar .entering (.refreshing served)
  /-- The request has left its computation. -/
  | left (response : AggregateResponse π) (n : ℕ) : Similar (.responded response) (.waiting n)

/-- The requests are the same, or the first one has disconnected and leads no computation that waits
    for a bucket. -/
def HandlerRequest.Similar (agg : Aggregate β α π) (r : ι) (flights : AggregateFlights ι β α π) (q : ι)
    (request request' : HandlerRequest β α π) : Prop :=
  request = request' ∨ (q ≠ r ∧ request.disconnected = true ∧ agg.leads flights q = false ∧
    request.phase.Similar request'.phase)

structure AggregateState.Similar (agg : Aggregate β α π) (r : ι) (s t : AggregateState ι β α π) :
    Prop where
  flights : s.flights = t.flights
  requests : ∀ q, Option.Rel (HandlerRequest.Similar agg r s.flights q) (s.requests q) (t.requests q)

namespace Aggregate

section

omit [DecidableEq ι] [DecidableEq β]

lemma enter_of_current {n : ℕ} (h : flights.current = some n) (leader : Option ι)
    (ended : Option (β → α)) : enter flights leader ended = flights := by
  simp [enter, h]

/-- A disconnected request that would start no computation finds one. -/
lemma current_of_startsEnded (hdisconnected : request.disconnected = true)
    (hphase : request.phase = .entering) (hok : startsEnded flights request = false) :
    ∃ n, flights.current = some n := by
  simp only [startsEnded, hphase, hdisconnected, Bool.true_and, Option.isNone_eq_false_iff] at hok
  exact Option.isSome_iff_exists.mp hok

/-- A disconnected request does not read the cache. -/
lemma nextPhase_disconnected (hdisconnected : request.disconnected = true)
    (hphase : ∀ served, request.phase ≠ .refreshing served) (cacheFails : Bool) (served : π) :
    nextPhase flights request cacheFails ≠ .refreshing served := by
  cases hcase : request.phase with
  | readingFresh => simp [nextPhase, hcase, read, hdisconnected]
  | readingStale => simp [nextPhase, hcase, read, hdisconnected]
  | refreshing other => exact absurd hcase (hphase other)
  | entering => simp [nextPhase, hcase]
  | waiting n =>
    simp only [nextPhase, hcase]
    split <;> exact nofun
  | responded response => simp [nextPhase, hcase]

lemma nextFlights_similar (hdisconnected : request.disconnected = true)
    (hphase : request.phase.Similar request'.phase) (hok : startsEnded flights request = false)
    (q : ι) : nextFlights flights q request = nextFlights flights q request' := by
  obtain ⟨disconnected, ended, phase⟩ := request
  obtain ⟨disconnected', ended', phase'⟩ := request'
  cases hphase with
  | same =>
    cases phase with
    | entering =>
      obtain ⟨n, hn⟩ := current_of_startsEnded hdisconnected rfl hok
      simp only [nextFlights, enter_of_current hn]
    | _ => rfl
  | served response hserved =>
    cases phase with
    | refreshing served => exact absurd rfl (hserved served)
    | entering =>
      obtain ⟨n, hn⟩ := current_of_startsEnded hdisconnected rfl hok
      simp only [nextFlights, enter_of_current hn]
    | _ => rfl
  | stale served =>
    obtain ⟨n, hn⟩ := current_of_startsEnded hdisconnected rfl hok
    simp only [nextFlights, enter_of_current hn]
  | left response n => rfl

lemma nextPhase_similar (hdisconnected : request.disconnected = true)
    (hphase : request.phase.Similar request'.phase) (cacheFails : Bool) :
    (nextPhase flights request cacheFails).Similar (nextPhase flights request' cacheFails) := by
  obtain ⟨disconnected, ended, phase⟩ := request
  obtain ⟨disconnected', ended', phase'⟩ := request'
  obtain rfl : disconnected = true := hdisconnected
  cases hphase with
  | same =>
    cases phase with
    | readingFresh =>
      simp only [nextPhase, read, Bool.or_true, if_true]
      split
      · exact .served _ nofun
      · exact .same _
    | readingStale =>
      simp only [nextPhase, read, Bool.or_true, if_true]
      split
      · exact .stale _
      · exact .same _
    | _ => exact .same _
  | served response hserved => exact .served response (nextPhase_disconnected rfl hserved cacheFails)
  | stale served => exact .served _ nofun
  | left response n =>
    simp only [nextPhase]
    split
    · exact .served _ nofun
    · exact .left response n

end

section

omit [DecidableEq ι] [DecidableEq β]

lemma leavePhase_similar (hphase : request.phase.Similar request'.phase) :
    (leavePhase request).Similar (leavePhase request') := by
  obtain ⟨disconnected, ended, phase⟩ := request
  obtain ⟨disconnected', ended', phase'⟩ := request'
  cases hphase with
  | same =>
    cases phase with
    | waiting n =>
      simp only [leavePhase]
      split_ifs
      · exact .same _
      · exact .left _ n
      · exact .served _ nofun
      · exact .same _
    | _ => exact .same _
  | served response hserved =>
    cases phase with
    | refreshing served => exact absurd rfl (hserved served)
    | waiting n =>
      simp only [leavePhase]
      split_ifs <;> exact .served _ nofun
    | _ => exact .served _ nofun
  | stale served => exact .stale served
  | left response n =>
    simp only [leavePhase]
    split_ifs
    · exact .served _ nofun
    · exact .left _ n

lemma leads_nextFlights [DecidableEq ι] (hdisconnected : request.disconnected = true)
    (hok : startsEnded flights request = false) (hclosed : agg.leads flights q = false) :
    agg.leads (nextFlights flights q request) q = false := by
  unfold nextFlights
  split
  · exact leads_enter nofun hclosed
  · rename_i hphase
    obtain ⟨n, hn⟩ := current_of_startsEnded hdisconnected hphase hok
    rw [enter_of_current hn]
    exact hclosed
  · exact hclosed

end

section

omit [DecidableEq β]

/-- The step of a request leaves the computations of the others alone. -/
lemma leads_requestStep (hp : p ≠ q) (request : HandlerRequest β α π) (event : AggregateEvent ι β α)
    (hclosed : agg.leads flights p = false) :
    agg.leads (agg.requestStep flights q request event).1 p = false := by
  have hleader : some q ≠ some p := fun h => hp (Option.some.inj h).symm
  cases event with
  | disconnect q' outcome => exact leads_endContextOf outcome hclosed
  | budget q' outcome =>
    simp only [requestStep]
    split_ifs
    · exact leads_endContextOf outcome hclosed
    · exact hclosed
  | advance q' cacheFails =>
    simp only [requestStep, nextFlights]
    split
    · exact leads_enter nofun hclosed
    · exact leads_enter hleader hclosed
    · exact hclosed
  | _ => exact hclosed

variable {outcome : β → α} {cacheFails : Bool}

/-- Both requests take the step alike. -/
def StepsAlike (agg : Aggregate β α π) (r : ι) (flights : AggregateFlights ι β α π) (q : ι)
    (request request' : HandlerRequest β α π) (event : AggregateEvent ι β α) : Prop :=
  (agg.requestStep flights q request event).1 = (agg.requestStep flights q request' event).1 ∧
    HandlerRequest.Similar agg r (agg.requestStep flights q request event).1 q
      (agg.requestStep flights q request event).2 (agg.requestStep flights q request' event).2

lemma budget_alike (h : HandlerRequest.Similar agg r flights q request request') :
    StepsAlike agg r flights q request request' (.budget q outcome) := by
  rcases h with rfl | ⟨hq, hdisconnected, hclosed, hphase⟩
  · exact ⟨rfl, .inl rfl⟩
  · -- There is no computation whose context the budget could end.
    have hself := endContextOf_eq_self outcome hclosed
    simp only [StepsAlike, requestStep, hself]
    split_ifs <;> exact ⟨rfl, .inr ⟨hq, hdisconnected, hclosed, hphase⟩⟩

lemma advance_alike (h : HandlerRequest.Similar agg r flights q request request')
    (hok : q ≠ r → startsEnded flights request = false) :
    StepsAlike agg r flights q request request' (.advance q cacheFails) := by
  rcases h with rfl | ⟨hq, hdisconnected, hclosed, hphase⟩
  · exact ⟨rfl, .inl rfl⟩
  · refine ⟨nextFlights_similar hdisconnected hphase (hok hq) q, .inr ⟨hq, hdisconnected, ?_, ?_⟩⟩
    · exact leads_nextFlights hdisconnected (hok hq) hclosed
    · exact nextPhase_similar hdisconnected hphase cacheFails

lemma leave_alike (h : HandlerRequest.Similar agg r flights q request request') :
    StepsAlike agg r flights q request request' (.leave q) := by
  rcases h with rfl | ⟨hq, hdisconnected, hclosed, hphase⟩
  · exact ⟨rfl, .inl rfl⟩
  · exact ⟨rfl, .inr ⟨hq, hdisconnected, hclosed, leavePhase_similar hphase⟩⟩

end

end Aggregate

namespace AggregateState

variable {s t : AggregateState ι β α π}

omit [DecidableEq β] in
lemma rel_mono {flights' : AggregateFlights ι β α π} {x y : Option (HandlerRequest β α π)}
    (hrel : Option.Rel (HandlerRequest.Similar agg r flights q) x y)
    (hflights : agg.leads flights q = false → agg.leads flights' q = false) :
    Option.Rel (HandlerRequest.Similar agg r flights' q) x y := by
  cases hrel with
  | none => exact .none
  | some h =>
    refine .some (h.imp_right fun ⟨hq, hdisconnected, hclosed, hphase⟩ => ?_)
    exact ⟨hq, hdisconnected, hflights hclosed, hphase⟩

omit [DecidableEq β] in
/-- Both handlers do the same to the shared part, and alike to one request. -/
lemma Similar.update (h : Similar agg r s t)
    (hothers : ∀ p, p ≠ q → agg.leads s.flights p = false → agg.leads flights p = false)
    (hrequest : HandlerRequest.Similar agg r flights q request request') :
    Similar agg r ⟨flights, Function.update s.requests q (some request)⟩
      ⟨flights, Function.update t.requests q (some request')⟩ where
  flights := rfl
  requests p := by
    by_cases hp : p = q
    · subst hp
      simp only [Function.update_self]
      exact .some hrequest
    · simp only [Function.update_of_ne hp]
      exact rel_mono (h.requests p) (hothers p hp)

omit [DecidableEq β] in
/-- Both handlers take the step of one request alike. -/
lemma Similar.stepRequest (h : Similar agg r s t) (halike : ∀ request request',
      s.requests q = some request → HandlerRequest.Similar agg r s.flights q request request' →
        agg.StepsAlike r s.flights q request request' event) :
    Similar agg r (agg.stepRequest s q event) (agg.stepRequest t q event) := by
  have hrel := h.requests q
  unfold Aggregate.stepRequest
  cases hs : s.requests q with
  | none =>
    rw [hs] at hrel
    cases ht : t.requests q with
    | none => exact h
    | some request' => simp [ht] at hrel
  | some request =>
    rw [hs] at hrel
    cases ht : t.requests q with
    | none => simp [ht] at hrel
    | some request' =>
      rw [ht, Option.rel_some_some] at hrel
      obtain ⟨hflights, hrequest⟩ := halike request request' hs hrel
      simp only [← h.flights, ← hflights]
      exact h.update (fun p hp => agg.leads_requestStep hp request event) hrequest

omit [DecidableEq β] in
/-- A client disconnects in the first run alone. -/
lemma Similar.disconnect (h : Similar agg r s t) (hq : q ≠ r) (hclosed : agg.leads s.flights q = false)
    (outcome : β → α) : Similar agg r (agg.stepRequest s q (.disconnect q outcome)) t := by
  have hrel := h.requests q
  unfold Aggregate.stepRequest
  cases hs : s.requests q with
  | none => exact h
  | some request =>
    rw [hs] at hrel
    simp only [Aggregate.requestStep, Aggregate.endContextOf_eq_self outcome hclosed]
    refine ⟨h.flights, fun p => ?_⟩
    by_cases hp : p = q
    · subst hp
      simp only [Function.update_self]
      cases ht : t.requests p with
      | none => simp [ht] at hrel
      | some request' =>
        rw [ht, Option.rel_some_some] at hrel
        refine .some (.inr ⟨hq, rfl, hclosed, ?_⟩)
        rcases hrel with rfl | ⟨-, -, -, hphase⟩
        · exact .same _
        · exact hphase
    · simp only [Function.update_of_ne hp]
      exact h.requests p

/-- An event of both schedules. -/
lemma Similar.step (h : Similar agg r s t) (hconcerns : event.concerns r = true)
    (hok : agg.leaderStays r s event = true) : Similar agg r (agg.step s event) (agg.step t event) := by
  cases event with
  | arrive q =>
    have hrequest : HandlerRequest.Similar agg r s.flights q ((s.requests q).getD {})
        ((t.requests q).getD {}) := by
      have hrel := h.requests q
      cases hs : s.requests q <;> cases ht : t.requests q <;> rw [hs, ht] at hrel
      · exact .inl rfl
      · exact nomatch hrel
      · exact nomatch hrel
      · exact Option.rel_some_some.mp hrel
    exact ⟨h.flights, (h.update (fun _ _ => id) hrequest).requests⟩
  | disconnect q outcome =>
    obtain rfl : q = r := by simpa [AggregateEvent.concerns] using hconcerns
    refine h.stepRequest fun request request' _ hrequest => ?_
    obtain rfl := hrequest.resolve_right fun hright => hright.1 rfl
    exact ⟨rfl, .inl rfl⟩
  | budget q outcome => exact h.stepRequest fun _ _ _ hrequest => Aggregate.budget_alike hrequest
  | advance q cacheFails =>
    refine h.stepRequest fun request request' hs hrequest => Aggregate.advance_alike hrequest ?_
    intro hq
    simpa [Aggregate.leaderStays, hs, hq] using hok
  | leave q => exact h.stepRequest fun _ _ _ hrequest => Aggregate.leave_alike hrequest
  | flight step =>
    refine ⟨congrArg (agg.flightStep · step) h.flights, fun q => ?_⟩
    exact rel_mono (h.requests q) (agg.leads_flightStep step)

/-- By induction on the schedule. -/
lemma Similar.foldl (events : List (AggregateEvent ι β α)) (h : Similar agg r s t)
    (hstay : agg.leadersStay r s events = true) :
    Similar agg r (events.foldl agg.step s) ((purge r events).foldl agg.step t) := by
  induction events generalizing s t with
  | nil => exact h
  | cons event events ih =>
    simp only [Aggregate.leadersStay, Bool.and_eq_true] at hstay
    obtain ⟨hok, hstay⟩ := hstay
    by_cases hconcerns : event.concerns r = true
    · rw [purge, List.filter_cons_of_pos hconcerns]
      exact ih (h.step hconcerns hok) hstay
    · rw [purge, List.filter_cons_of_neg hconcerns]
      refine ih ?_ hstay
      cases event with
      | disconnect q outcome =>
        have hq : q ≠ r := by simpa [AggregateEvent.concerns] using hconcerns
        refine h.disconnect hq ?_ outcome
        simpa [Aggregate.leaderStays, hq] using hok
      | _ => exact absurd rfl hconcerns

omit [DecidableEq β] in
lemma Similar.response (h : Similar agg r s t) : s.response r = t.response r := by
  have hrel := h.requests r
  unfold AggregateState.response
  cases hs : s.requests r <;> cases ht : t.requests r <;> rw [hs, ht] at hrel
  · exact nomatch hrel
  · exact nomatch hrel
  · obtain rfl := (Option.rel_some_some.mp hrel).resolve_right fun hright => hright.1 rfl
    rfl

end AggregateState

/-- Without the disconnects of the others, a request is answered alike, provided that no other client
    ends the context of a computation that waits for a bucket. -/
lemma response_purge (events : List (AggregateEvent ι β α))
    (hstay : agg.leadersStay r {} events = true) :
    (agg.run events).response r = (agg.run (purge r events)).response r := by
  have hinitial : AggregateState.Similar agg r {} {} := ⟨rfl, fun _ => .none⟩
  exact (hinitial.foldl events hstay).response

/-- Two schedules that differ in when the clients of other requests disconnect answer a request alike,
    provided that no other client ends the context of a computation that waits for a bucket. -/
theorem response_independent (agg : Aggregate β α π) (r : ι)
    (events events' : List (AggregateEvent ι β α)) (hpurge : purge r events = purge r events')
    (hstay : agg.leadersStay r {} events = true) (hstay' : agg.leadersStay r {} events' = true) :
    (agg.run events).response r = (agg.run events').response r := by
  rw [response_purge events hstay, response_purge events' hstay', hpurge]

/-! ### Two requests -/

/-- A request that finds both tiers empty, and starts or joins a computation. -/
def missing (q : Bool) : List (AggregateEvent Bool β α) :=
  [.arrive q, .advance q false, .advance q false, .advance q false]

/-- The end of a computation, of which the second request gets the payload. -/
def finishing : List (AggregateEvent Bool β α) :=
  [.flight (.marshal 0), .flight (.storeFresh 0 false), .flight (.storeStale 0 false),
    .flight (.finish 0), .advance true false]

/-- Two requests for one page; between them and the answers of the upstream the events, in which the
    client of the first may disconnect. -/
def together (between answers : List (AggregateEvent Bool β α)) : List (AggregateEvent Bool β α) :=
  missing false ++ missing true ++ between ++ answers ++ finishing

/-- A page that the upstream answers. -/
def browseAnswers : List (AggregateEvent Bool Unit BrowseAnswer) :=
  [.flight (.bucketEnds 0 () { items := [], metadata := ⟨1, 0, 0⟩ })]

/-- `classifyContextErr` of a client that has disconnected. -/
def canceledBrowse : Unit → BrowseAnswer := fun _ =>
  { items := [], metadata := ⟨0, 0, 0⟩, err := some (classifyContextErr .canceled) }

/-- A follower that leaves. -/
theorem response_independent_follower :
    ((browseAggregate "movies" "popular" "").run
        (together [.disconnect true canceledBrowse] browseAnswers)).response false =
      ((browseAggregate "movies" "popular" "").run (together [] browseAnswers)).response false :=
  response_independent _ false _ _ rfl (by decide) (by decide)

def homepageAnswers : List (AggregateEvent Bool Homepage.Bucket Homepage.BucketAnswer) :=
  Homepage.allBuckets.map fun bucket =>
    .flight (.bucketEnds 0 bucket { metadata := { page := 1 }, bulk := [] })

def canceledHomepage : Homepage.Bucket → Homepage.BucketAnswer := fun _ =>
  { metadata := { page := 0 }, err := some "request timed out: context canceled", bulk := [] }

/-- The payload of the homepage that a request gets carries an error. -/
def isSpoiled (response : Option (AggregateResponse Homepage.Payload)) : Bool :=
  match response with
  | some (.computed (some payload)) => Homepage.hasError payload
  | _ => false

/-- A leader that leaves spoils the response of its follower, on the homepage as on the browse page. -/
theorem leader_spoils_follower :
    (¬ ∀ (r : Bool) (events events' : List (AggregateEvent Bool Homepage.Bucket _)),
      purge r events = purge r events' → ((homepageAggregate 1).run events).response r =
        ((homepageAggregate 1).run events').response r) ∧
    ¬ ∀ (r : Bool) (events events' : List (AggregateEvent Bool Unit _)),
      purge r events = purge r events' →
        ((browseAggregate "movies" "popular" "").run events).response r =
          ((browseAggregate "movies" "popular" "").run events').response r := by
  refine ⟨fun h => ?_, fun h => ?_⟩
  · have hsame := h true (together [.disconnect false canceledHomepage] homepageAnswers)
      (together [] homepageAnswers) rfl
    exact absurd (congrArg isSpoiled hsame) (by decide)
  · have hsame := h true (together [.disconnect false canceledBrowse] browseAnswers)
      (together [] browseAnswers) rfl
    exact absurd hsame (by decide)

end Denn.Proxy
