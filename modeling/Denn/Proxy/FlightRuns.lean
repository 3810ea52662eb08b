import Denn.Proxy.SingleFlight

/-!
# Runs of single flights

The map and the calls that are not removed say the same, so that two computations of one key never run
together; and the answer of a caller is its context's error or that of a call which was in the map when
the caller arrived.
-/

namespace Denn.Proxy

open Denn.Core

variable {ι ρ ε : Type}

/-! ### Calls -/

/-- What a step at the time can make of a call. -/
structure FlightCall.Progress (time : ℕ) (call call' : FlightCall ρ ε) : Prop where
  key : call'.key = call.key
  registeredAt : call'.registeredAt = call.registeredAt
  answer : ∀ answer, call.answer = some answer → call'.answer = some answer
  removedAt : call'.removedAt = call.removedAt ∨ call'.removedAt = some time

namespace FlightCall

variable {time : ℕ} {call call' : FlightCall ρ ε}

lemma Progress.refl (time : ℕ) (call : FlightCall ρ ε) : call.Progress time call :=
  ⟨rfl, rfl, fun _ h => h, .inl rfl⟩

lemma Progress.registeredDuring (h : Progress time call call') {arrivedAt : ℕ} (hlt : arrivedAt < time)
    (hduring : call.registeredDuring arrivedAt) : call'.registeredDuring arrivedAt := by
  refine ⟨h.registeredAt ▸ hduring.1, fun removedAt hremoved => ?_⟩
  rcases h.removedAt with hsame | hnow
  · exact hduring.2 removedAt (hsame ▸ hremoved)
  · obtain rfl := Option.some.inj (hnow.symm.trans hremoved)
    exact hlt

end FlightCall

lemma update_eq_some {α β : Type} [DecidableEq α] {f : α → Option β} {a a' : α} {b b' : β}
    (h : Function.update f a (some b) a' = some b') : (a' = a ∧ b = b') ∨ (a' ≠ a ∧ f a' = some b') := by
  by_cases ha : a' = a
  · subst ha
    rw [Function.update_self] at h
    exact .inl ⟨rfl, Option.some.inj h⟩
  · rw [Function.update_of_ne ha] at h
    exact .inr ⟨ha, h⟩

/-- Every call goes on. -/
def CallsProgress (time : ℕ) (calls calls' : ι → Option (FlightCall ρ ε)) : Prop :=
  ∀ f call, calls f = some call → ∃ call', calls' f = some call' ∧ call.Progress time call'

lemma CallsProgress.update [DecidableEq ι] {time : ℕ} {calls : ι → Option (FlightCall ρ ε)} {c : ι}
    {call' : FlightCall ρ ε} (h : ∀ call, calls c = some call → call.Progress time call') :
    CallsProgress time calls (Function.update calls c (some call')) := by
  intro f call hcall
  by_cases hf : f = c
  · subst hf
    exact ⟨call', Function.update_self .., h call hcall⟩
  · exact ⟨call, (Function.update_of_ne hf ..).trans hcall, .refl time call⟩

/-! ### Callers -/

/-- A call of the caller's key that was in the map when the caller arrived. -/
structure FlightCaller.JoinedBy (caller : FlightCaller ι ρ ε) (call : FlightCall ρ ε) : Prop where
  key : call.key = caller.key
  during : call.registeredDuring caller.arrivedAt

structure FlightCaller.Sound (calls : ι → Option (FlightCall ρ ε)) (clock : ℕ) (c : ι)
    (caller : FlightCaller ι ρ ε) : Prop where
  arrived : caller.arrivedAt < clock
  registered : caller.phase = .registered → ∃ call, calls c = some call ∧ caller.JoinedBy call
  waiting : ∀ f, caller.phase = .waiting f → ∃ call, calls f = some call ∧ caller.JoinedBy call
  returned : ∀ answer, caller.phase = .returned answer →
    (∃ err, caller.contextErr = some err ∧ answer = ⟨none, some err⟩) ∨
    ∃ f call, calls f = some call ∧ caller.JoinedBy call ∧ call.answer = some answer

namespace FlightCaller

variable {clock : ℕ} {c : ι} {caller : FlightCaller ι ρ ε} {calls calls' : ι → Option (FlightCall ρ ε)}

lemma JoinedBy.progress {call call' : FlightCall ρ ε} (h : caller.JoinedBy call)
    (hprogress : call.Progress clock call') (hlt : caller.arrivedAt < clock) :
    caller.JoinedBy call' :=
  ⟨hprogress.key.trans h.key, hprogress.registeredDuring hlt h.during⟩

/-- A caller stays sound while the calls go on. -/
lemma Sound.progress (h : caller.Sound calls clock c) (hcalls : CallsProgress clock calls calls') :
    caller.Sound calls' (clock + 1) c where
  arrived := h.arrived.trans (Nat.lt_succ_self _)
  registered hphase := by
    obtain ⟨call, hcall, hjoined⟩ := h.registered hphase
    obtain ⟨call', hcall', hprogress⟩ := hcalls c call hcall
    exact ⟨call', hcall', hjoined.progress hprogress h.arrived⟩
  waiting f hphase := by
    obtain ⟨call, hcall, hjoined⟩ := h.waiting f hphase
    obtain ⟨call', hcall', hprogress⟩ := hcalls f call hcall
    exact ⟨call', hcall', hjoined.progress hprogress h.arrived⟩
  returned answer hphase := by
    refine (h.returned answer hphase).imp_right ?_
    rintro ⟨f, call, hcall, hjoined, hanswer⟩
    obtain ⟨call', hcall', hprogress⟩ := hcalls f call hcall
    exact ⟨f, call', hcall', hjoined.progress hprogress h.arrived, hprogress.answer answer hanswer⟩

end FlightCaller

/-! ### The map -/

namespace FlightState

variable [DecidableEq ι] {s s' : FlightState ι ρ ε} {event : FlightEvent ι ρ ε} {c : ι}
  {call call' : FlightCall ρ ε} {caller : FlightCaller ι ρ ε}

/-- The map has the calls that are not removed, each under its key. -/
structure MapSound (s : FlightState ι ρ ε) : Prop where
  lookup : ∀ key f, s.flights.get? key = some f →
    ∃ call, s.calls f = some call ∧ call.key = key ∧ call.phase ≠ .removed
  registered : ∀ f call, s.calls f = some call → call.phase ≠ .removed →
    s.flights.get? call.key = some f
  removedAt : ∀ f call, s.calls f = some call → call.phase ≠ .removed → call.removedAt = none
  registeredAt : ∀ f call, s.calls f = some call → call.registeredAt < s.clock
  answer : ∀ f call, s.calls f = some call → call.answer.isSome = true →
    call.phase ≠ .registered ∧ call.phase ≠ .running
  fresh : ∀ c, s.callers c = none → s.calls c = none

structure Sound (s : FlightState ι ρ ε) : Prop extends s.MapSound where
  callers : ∀ c caller, s.callers c = some caller → caller.Sound s.calls s.clock c

omit [DecidableEq ι] in
lemma call?_eq_some {phase : CallPhase} (h : s.call? c phase = some call) :
    s.calls c = some call ∧ call.phase = phase := by
  obtain ⟨hcall, hphase⟩ := Option.filter_eq_some_iff.mp h
  exact ⟨hcall, by simpa using hphase⟩

omit [DecidableEq ι] in
lemma MapSound.next (h : s.MapSound) : MapSound { s with clock := s.clock + 1 } where
  lookup := h.lookup
  registered := h.registered
  removedAt := h.removedAt
  registeredAt f call hcall := (h.registeredAt f call hcall).trans (Nat.lt_succ_self _)
  answer := h.answer
  fresh := h.fresh

lemma MapSound.replaceCaller (h : s.MapSound) (c : ι) (caller : FlightCaller ι ρ ε) :
    MapSound { s with callers := Function.update s.callers c (some caller) } where
  lookup := h.lookup
  registered := h.registered
  removedAt := h.removedAt
  registeredAt := h.registeredAt
  answer := h.answer
  fresh c' hnone := by
    refine h.fresh c' ?_
    by_cases hc : c' = c
    · subst hc
      simp at hnone
    · exact (Function.update_of_ne hc ..).symm.trans hnone

/-- A call in the map goes on without leaving it. -/
lemma MapSound.setCall (h : s.MapSound) (hcall : s.calls c = some call)
    (hprogress : call.Progress s.clock call') (hphase : call.phase ≠ .removed)
    (hphase' : call'.phase ≠ .removed) (hremoved : call'.removedAt = none)
    (hanswer : call'.answer.isSome = true → call'.phase ≠ .registered ∧ call'.phase ≠ .running) :
    (s.setCall c call').MapSound where
  lookup key f hf := by
    obtain ⟨old, hold, hkey, hnot⟩ := h.lookup key f hf
    by_cases hfc : f = c
    · subst hfc
      obtain rfl := Option.some.inj (hcall.symm.trans hold)
      exact ⟨call', Function.update_self .., hprogress.key.trans hkey, hphase'⟩
    · exact ⟨old, (Function.update_of_ne hfc ..).trans hold, hkey, hnot⟩
  registered f other hother hnot := by
    rcases update_eq_some hother with ⟨rfl, rfl⟩ | ⟨hfc, hold⟩
    · rw [hprogress.key]
      exact h.registered f call hcall hphase
    · exact h.registered f other hold hnot
  removedAt f other hother hnot := by
    rcases update_eq_some hother with ⟨rfl, rfl⟩ | ⟨hfc, hold⟩
    · exact hremoved
    · exact h.removedAt f other hold hnot
  registeredAt f other hother := by
    refine lt_of_lt_of_le (b := s.clock) ?_ (Nat.le_succ _)
    rcases update_eq_some hother with ⟨rfl, rfl⟩ | ⟨hfc, hold⟩
    · rw [hprogress.registeredAt]
      exact h.registeredAt f call hcall
    · exact h.registeredAt f other hold
  answer f other hother := by
    rcases update_eq_some hother with ⟨rfl, rfl⟩ | ⟨hfc, hold⟩
    · exact hanswer
    · exact h.answer f other hold
  fresh c' hnone := by
    have hold := h.fresh c' hnone
    by_cases hc : c' = c
    · subst hc
      exact nomatch hcall.symm.trans hold
    · exact (Function.update_of_ne hc ..).trans hold

/-- A caller registers a call under a key that is not in the map. -/
lemma MapSound.register (h : s.MapSound) (hc : s.callers c = none) {key : String}
    (hkey : s.flights.get? key = none) : (s.enter c key).MapSound := by
  have hnone := h.fresh c hc
  simp only [enter, hkey]
  refine ⟨fun key' f hf => ?_, fun f call hcall hnot => ?_, fun f call hcall hnot => ?_,
    fun f call hcall => ?_, fun f call hcall => ?_, fun c' hc' => ?_⟩
  · rcases Table.get?_set_cases hf with ⟨rfl, rfl⟩ | hold
    · exact ⟨_, Function.update_self .., rfl, nofun⟩
    · obtain ⟨call, hcall, hrest⟩ := h.lookup key' f hold
      have hfc : f ≠ c := by
        rintro rfl
        exact nomatch hnone.symm.trans hcall
      exact ⟨call, (Function.update_of_ne hfc ..).trans hcall, hrest⟩
  · rcases update_eq_some hcall with ⟨rfl, rfl⟩ | ⟨hfc, hold⟩
    · exact Table.get?_set_self ..
    · have hlookup := h.registered f call hold hnot
      have hne : call.key ≠ key := by
        rintro rfl
        exact nomatch hkey.symm.trans hlookup
      exact (Table.get?_set_ne _ _ hne).trans hlookup
  · rcases update_eq_some hcall with ⟨rfl, rfl⟩ | ⟨hfc, hold⟩
    · rfl
    · exact h.removedAt f call hold hnot
  · rcases update_eq_some hcall with ⟨rfl, rfl⟩ | ⟨hfc, hold⟩
    · exact Nat.lt_succ_self s.clock
    · exact (h.registeredAt f call hold).trans (Nat.lt_succ_self _)
  · rcases update_eq_some hcall with ⟨rfl, rfl⟩ | ⟨hfc, hold⟩
    · exact nofun
    · exact h.answer f call hold
  · by_cases hne : c' = c
    · subst hne
      simp [FlightState.setCaller] at hc'
    · refine (Function.update_of_ne hne ..).trans (h.fresh c' ?_)
      exact (Function.update_of_ne hne ..).symm.trans hc'

/-- A closed call leaves the map. -/
lemma MapSound.remove (h : s.MapSound) (hcall : s.calls c = some call) (hphase : call.phase = .closed) :
    MapSound { s.setCall c { call with phase := .removed, removedAt := some s.clock } with
      flights := s.flights.delete call.key } := by
  have hlookup := h.registered c call hcall (by simp [hphase])
  refine ⟨fun key f hf => ?_, fun f other hother hnot => ?_, fun f other hother hnot => ?_,
    fun f other hother => ?_, fun f other hother => ?_, fun c' hc' => ?_⟩
  · have hne : key ≠ call.key := by
      rintro rfl
      exact nomatch (Table.get?_delete_self ..).symm.trans hf
    have hold := (Table.get?_delete_ne _ hne).symm.trans hf
    obtain ⟨other, hother, hkey, hnot⟩ := h.lookup key f hold
    have hfc : f ≠ c := by
      rintro rfl
      obtain rfl := Option.some.inj (hcall.symm.trans hother)
      exact hne hkey.symm
    exact ⟨other, (Function.update_of_ne hfc ..).trans hother, hkey, hnot⟩
  · rcases update_eq_some hother with ⟨rfl, rfl⟩ | ⟨hfc, hold⟩
    · exact absurd rfl hnot
    · have hother' := h.registered f other hold hnot
      -- The call of this key is the removed one.
      have hne : other.key ≠ call.key := by
        intro hkey
        rw [hkey, hlookup] at hother'
        exact hfc (Option.some.inj hother').symm
      exact (Table.get?_delete_ne _ hne).trans hother'
  · rcases update_eq_some hother with ⟨rfl, rfl⟩ | ⟨hfc, hold⟩
    · exact absurd rfl hnot
    · exact h.removedAt f other hold hnot
  · refine lt_of_lt_of_le (b := s.clock) ?_ (Nat.le_succ _)
    rcases update_eq_some hother with ⟨rfl, rfl⟩ | ⟨hfc, hold⟩
    · exact h.registeredAt f call hcall
    · exact h.registeredAt f other hold
  · rcases update_eq_some hother with ⟨rfl, rfl⟩ | ⟨hfc, hold⟩
    · exact fun _ => ⟨nofun, nofun⟩
    · exact h.answer f other hold
  · have hold := h.fresh c' hc'
    by_cases hne : c' = c
    · subst hne
      exact nomatch hcall.symm.trans hold
    · exact (Function.update_of_ne hne ..).trans hold

/-! ### What a step keeps -/

omit [DecidableEq ι] in
/-- The callers stay sound when the calls and the map go on. -/
lemma Sound.of_progress (h : s.Sound) (hmap : s'.MapSound) (hcallers : s'.callers = s.callers)
    (hclock : s'.clock = s.clock + 1) (hcalls : CallsProgress s.clock s.calls s'.calls) : s'.Sound where
  toMapSound := hmap
  callers c caller hcaller := by
    rw [hclock]
    exact (h.callers c caller (hcallers ▸ hcaller)).progress hcalls

lemma Sound.replaceCaller (h : s.Sound) (hcaller : caller.Sound s.calls s.clock c) :
    Sound { s with callers := Function.update s.callers c (some caller) } where
  toMapSound := h.toMapSound.replaceCaller c caller
  callers c' caller' hcaller' := by
    rcases update_eq_some hcaller' with ⟨rfl, rfl⟩ | ⟨-, hold⟩
    · exact hcaller
    · exact h.callers c' caller' hold

lemma Sound.setCaller (h : s.Sound) (hcaller : caller.Sound s.calls (s.clock + 1) c) :
    (s.setCaller c caller).Sound := by
  have hnext : Sound { s with clock := s.clock + 1 } :=
    h.of_progress h.next rfl rfl fun f call hcall => ⟨call, hcall, .refl _ call⟩
  exact hnext.replaceCaller hcaller

lemma Sound.setCall (h : s.Sound) (hcall : s.calls c = some call)
    (hprogress : call.Progress s.clock call') (hphase : call.phase ≠ .removed)
    (hphase' : call'.phase ≠ .removed) (hremoved : call'.removedAt = none)
    (hanswer : call'.answer.isSome = true → call'.phase ≠ .registered ∧ call'.phase ≠ .running) :
    (s.setCall c call').Sound := by
  have hmap := h.toMapSound.setCall hcall hprogress hphase hphase' hremoved hanswer
  refine h.of_progress hmap rfl rfl (CallsProgress.update fun old hold => ?_)
  obtain rfl := Option.some.inj (hcall.symm.trans hold)
  exact hprogress

lemma Sound.enter (h : s.Sound) (hc : s.callers c = none) (key : String) : (s.enter c key).Sound := by
  cases hkey : s.flights.get? key with
  | some existing =>
    simp only [FlightState.enter, hkey]
    refine h.setCaller ⟨Nat.lt_succ_self _, nofun, fun f hf => ?_, nofun⟩
    obtain rfl : existing = f := by simpa using hf
    obtain ⟨call, hcall, hcallkey, hphase⟩ := h.lookup key existing hkey
    refine ⟨call, hcall, hcallkey, (h.registeredAt existing call hcall).le, ?_⟩
    simp [h.removedAt existing call hcall hphase]
  | none =>
    refine ⟨h.toMapSound.register hc hkey, fun c' caller hcaller => ?_⟩
    simp only [FlightState.enter, hkey] at hcaller ⊢
    rcases update_eq_some hcaller with ⟨rfl, rfl⟩ | ⟨-, hold⟩
    · exact ⟨Nat.lt_succ_self _, fun _ => ⟨_, Function.update_self .., rfl, le_rfl, nofun⟩, nofun,
        nofun⟩
    · refine (h.callers c' caller hold).progress (CallsProgress.update fun call hcall => ?_)
      exact nomatch (h.fresh c hc).symm.trans hcall

lemma Sound.spawn (h : s.Sound) (hcaller : s.callers c = some caller)
    (hregistered : caller.phase = .registered) (hcall : s.calls c = some call)
    (hphase : call.phase = .registered) :
    Sound { s.setCall c { call with phase := .running } with
      callers := Function.update s.callers c (some { caller with phase := .waiting c }) } := by
  have hanswer : call.answer.isSome = true → False := fun hsome =>
    (h.answer c call hcall hsome).1 hphase
  have hset : (s.setCall c { call with phase := .running }).Sound :=
    h.setCall hcall ⟨rfl, rfl, fun _ h => h, .inl rfl⟩ (by simp [hphase]) nofun
      (h.removedAt c call hcall (by simp [hphase])) fun hsome => (hanswer hsome).elim
  have hold := hset.callers c caller hcaller
  refine hset.replaceCaller ⟨hold.arrived, nofun, fun f hf => ?_, nofun⟩
  obtain rfl : c = f := by simpa using hf
  obtain ⟨call', hcall', hjoined⟩ := hold.registered hregistered
  exact ⟨call', hcall', hjoined.key, hjoined.during⟩

lemma Sound.contextEnds (h : s.Sound) (hcaller : s.callers c = some caller) (err : ε) :
    (s.setCaller c { caller with contextErr := some (caller.contextErr.getD err) }).Sound := by
  have hold := (h.callers c caller hcaller).progress fun f call hcall => ⟨call, hcall, .refl _ call⟩
  refine h.setCaller ⟨hold.arrived, fun hphase => ?_, fun f hphase => ?_, fun answer hphase => ?_⟩
  · obtain ⟨call, hcall, hjoined⟩ := hold.registered hphase
    exact ⟨call, hcall, hjoined.key, hjoined.during⟩
  · obtain ⟨call, hcall, hjoined⟩ := hold.waiting f hphase
    exact ⟨call, hcall, hjoined.key, hjoined.during⟩
  · rcases hold.returned answer hphase with ⟨old, hcontext, rfl⟩ | ⟨f, call, hcall, hjoined, hanswer⟩
    · exact .inl ⟨old, by simp [hcontext], rfl⟩
    · exact .inr ⟨f, call, hcall, ⟨hjoined.key, hjoined.during⟩, hanswer⟩

lemma Sound.receive (h : s.Sound) {f : ι} {answer : Answer ρ ε} (hcaller : s.callers c = some caller)
    (hwaiting : caller.phase = .waiting f) (hcall : s.calls f = some call)
    (hanswer : call.answer = some answer) :
    (s.setCaller c { caller with phase := .returned answer }).Sound := by
  have hold := (h.callers c caller hcaller).progress fun f call hcall => ⟨call, hcall, .refl _ call⟩
  refine h.setCaller ⟨hold.arrived, nofun, nofun, fun other hother => ?_⟩
  obtain rfl : answer = other := by simpa using hother
  obtain ⟨joined, hjoinedCall, hjoined⟩ := hold.waiting f hwaiting
  obtain rfl := Option.some.inj (hcall.symm.trans hjoinedCall)
  exact .inr ⟨f, call, hcall, ⟨hjoined.key, hjoined.during⟩, hanswer⟩

lemma Sound.leave (h : s.Sound) {err : ε} (hcaller : s.callers c = some caller)
    (hcontext : caller.contextErr = some err) :
    (s.setCaller c { caller with phase := .returned ⟨none, some err⟩ }).Sound := by
  have hold := (h.callers c caller hcaller).progress fun f call hcall => ⟨call, hcall, .refl _ call⟩
  refine h.setCaller ⟨hold.arrived, nofun, nofun, fun other hother => .inl ⟨err, hcontext, ?_⟩⟩
  simpa using hother.symm

lemma Sound.finish (h : s.Sound) (hcall : s.calls c = some call) (hphase : call.phase = .running)
    (answer : Answer ρ ε) :
    (s.setCall c { call with
      phase := .finished, answer := some answer, finishedAt := some s.clock }).Sound := by
  have hnone : call.answer = none := by
    refine Option.not_isSome_iff_eq_none.mp fun hsome => ?_
    exact (h.answer c call hcall hsome).2 hphase
  refine h.setCall hcall ⟨rfl, rfl, fun old hold => ?_, .inl rfl⟩ (by simp [hphase]) nofun
    (h.removedAt c call hcall (by simp [hphase])) fun _ => ⟨nofun, nofun⟩
  exact nomatch hnone.symm.trans hold

lemma Sound.closeDone (h : s.Sound) (hcall : s.calls c = some call) (hphase : call.phase = .finished) :
    (s.setCall c { call with phase := .closed }).Sound :=
  h.setCall hcall ⟨rfl, rfl, fun _ h => h, .inl rfl⟩ (by simp [hphase]) nofun
    (h.removedAt c call hcall (by simp [hphase])) fun _ => ⟨nofun, nofun⟩

lemma Sound.remove (h : s.Sound) (hcall : s.calls c = some call) (hphase : call.phase = .closed) :
    Sound { s.setCall c { call with phase := .removed, removedAt := some s.clock } with
      flights := s.flights.delete call.key } := by
  refine h.of_progress (h.toMapSound.remove hcall hphase) rfl rfl
    (CallsProgress.update fun old hold => ?_)
  obtain rfl := Option.some.inj (hcall.symm.trans hold)
  exact ⟨rfl, rfl, fun _ h => h, .inr rfl⟩

lemma Sound.step (h : s.Sound) (hstep : s.step event = some s') : s'.Sound := by
  cases event with
  | enter c key =>
    simp only [FlightState.step] at hstep
    split_ifs at hstep with hc
    obtain rfl := Option.some.inj hstep
    exact h.enter (Option.not_isSome_iff_eq_none.mp hc) key
  | spawn c =>
    simp only [FlightState.step] at hstep
    split at hstep
    · rename_i caller hcaller
      split at hstep
      · rename_i hregistered
        obtain ⟨call, hfound, rfl⟩ := Option.map_eq_some_iff.mp hstep
        obtain ⟨hcall, hphase⟩ := call?_eq_some hfound
        exact h.spawn hcaller hregistered hcall hphase
      · exact nomatch hstep
    · exact nomatch hstep
  | contextEnds c err =>
    obtain ⟨caller, hcaller, rfl⟩ := Option.map_eq_some_iff.mp hstep
    exact h.contextEnds hcaller err
  | receive c =>
    simp only [FlightState.step] at hstep
    split at hstep
    · rename_i caller hcaller
      split at hstep
      · rename_i f hwaiting
        split at hstep
        · rename_i call hcall
          split_ifs at hstep
          obtain ⟨answer, hanswer, rfl⟩ := Option.map_eq_some_iff.mp hstep
          exact h.receive hcaller hwaiting hcall hanswer
        · exact nomatch hstep
      · exact nomatch hstep
    · exact nomatch hstep
  | leave c =>
    simp only [FlightState.step] at hstep
    split at hstep
    · rename_i caller hcaller
      split at hstep
      · obtain ⟨err, hcontext, rfl⟩ := Option.map_eq_some_iff.mp hstep
        exact h.leave hcaller hcontext
      · exact nomatch hstep
    · exact nomatch hstep
  | finish c answer =>
    obtain ⟨call, hfound, rfl⟩ := Option.map_eq_some_iff.mp hstep
    obtain ⟨hcall, hphase⟩ := call?_eq_some hfound
    exact h.finish hcall hphase answer
  | closeDone c =>
    obtain ⟨call, hfound, rfl⟩ := Option.map_eq_some_iff.mp hstep
    obtain ⟨hcall, hphase⟩ := call?_eq_some hfound
    exact h.closeDone hcall hphase
  | remove c =>
    obtain ⟨call, hfound, rfl⟩ := Option.map_eq_some_iff.mp hstep
    obtain ⟨hcall, hphase⟩ := call?_eq_some hfound
    exact h.remove hcall hphase

/-! ### What every run keeps -/

omit [DecidableEq ι] in
lemma MapSound.unique (h : s.MapSound) {f g : ι} (hcall : s.calls f = some call)
    (hcall' : s.calls g = some call') (hphase : call.phase ≠ .removed)
    (hphase' : call'.phase ≠ .removed) (hkey : call.key = call'.key) : f = g := by
  have hlookup := h.registered f call hcall hphase
  have hlookup' := h.registered g call' hcall' hphase'
  rw [hkey, hlookup'] at hlookup
  exact (Option.some.inj hlookup).symm

/-- The goroutines whose computations have finished can empty the map by themselves. -/
def Drains (s : FlightState ι ρ ε) : Prop :=
  ∃ events s', (flightSystem ι ρ ε).Run s events s' ∧ (∀ event ∈ events, event.isCleanup = true) ∧
    ∀ key, s'.flights.get? key = none

lemma Drains.of_step (hstep : s.step event = some s') (hevent : event.isCleanup = true)
    (h : s'.Drains) : s.Drains := by
  obtain ⟨events, s'', hrun, hevents, hempty⟩ := h
  refine ⟨events ++ [event], s'', (TransitionSystem.Run.cons .nil hstep).append hrun, ?_, hempty⟩
  intro other hother
  rcases List.mem_append.mp hother with hmem | hmem
  · exact hevents other hmem
  · obtain rfl := List.mem_singleton.mp hmem
    exact hevent

/-- Every computation has finished. -/
def AllFinished (s : FlightState ι ρ ε) : Prop :=
  ∀ f call, s.calls f = some call → call.answer.isSome = true

lemma AllFinished.setCall (h : s.AllFinished) (hcall : call'.answer.isSome = true) (c : ι) :
    (s.setCall c call').AllFinished := by
  intro f call hf
  rcases update_eq_some hf with ⟨rfl, rfl⟩ | ⟨-, hold⟩
  · exact hcall
  · exact h f call hold

end FlightState

section

variable [DecidableEq ι] {s : FlightState ι ρ ε}

end

end Denn.Proxy
