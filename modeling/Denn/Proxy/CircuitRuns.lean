import Denn.Proxy.Circuit

/-!
# Runs of a client

A rejected request neither calls the transport nor prolongs the open period, and after the cooldown
the requests call again. The circuit opens on the failures of the upstream alone where no canceled
request is counted, and no failure after the deadline that no request has noticed.
-/

namespace Denn.Proxy

open Denn.Core

variable {ι : Type} [DecidableEq ι] {maxRetries : ℕ} {s s' : ClientState ι} {event : ClientEvent ι}
  {request request' : ClientRequest} {now : ℤ}

/-! ### The check of the circuit -/

namespace Circuit

variable {circuit : Circuit}

lemma circuitError_of_isOpen (h : circuit.isOpen now = true) :
    circuit.circuitError now = some [.circuitOpen] ∧ circuit.check now = circuit := by
  cases hopen : circuit.openUntil with
  | none => simp [isOpen, hopen] at h
  | some openUntil =>
    have hle : ¬ openUntil < now := by simpa [isOpen, hopen] using h
    simp [circuitError, check, hopen, hle]

lemma circuitError_of_not_isOpen (h : circuit.isOpen now = false) :
    circuit.circuitError now = none := by
  cases hopen : circuit.openUntil with
  | none => simp [circuitError, hopen]
  | some openUntil =>
    have hlt : openUntil < now := by simpa [isOpen, hopen] using h
    simp [circuitError, hopen, hlt]

/-- The check keeps the circuit, unless its deadline has passed. -/
lemma check_eq (circuit : Circuit) (now : ℤ) :
    circuit.check now = if circuit.hasLapsed now then {} else circuit := by
  cases hopen : circuit.openUntil with
  | none => simp [check, hasLapsed, hopen]
  | some openUntil => simp [check, hasLapsed, hopen]

end Circuit

/-! ### Requests -/

/-- An error that is a failure of the upstream, or the caller's own cancellation, wherever it counts. -/
def RequestError.Classified (err : RequestError) : Prop :=
  err.transientFailure = true → err.isCanceled = false → err.isUpstreamFailure = true

structure ClientRequest.Sound (request : ClientRequest) : Prop where
  attempts : request.beganOpen = true → request.attempts = 0
  rejected : request.beganOpen = true → request.phase ≠ .running
  circuitOpen : request.beganOpen = true → ∀ err, request.phase = .returned err →
    err = some [.circuitOpen]
  classified : ∀ err, request.phase = .returned (some err) → err.Classified

namespace ClientRequest

lemma Sound.not_beganOpen (h : request.Sound) (hphase : request.phase = .running) :
    request.beganOpen = false := by
  cases hbegan : request.beganOpen with
  | false => rfl
  | true => exact absurd hphase (h.rejected hbegan)

/-- A request that the circuit has let through goes on, or returns a classified error. -/
lemma Sound.of_not_beganOpen (hbegan : request.beganOpen = false)
    (hclassified : ∀ err, request.phase = .returned (some err) → err.Classified) :
    request.Sound where
  attempts h := absurd h (by simp [hbegan])
  rejected h := absurd h (by simp [hbegan])
  circuitOpen h := absurd h (by simp [hbegan])
  classified := hclassified

lemma classified_returning {err : RequestError} (h : err.Classified) :
    ∀ other, (request.returning (some err)).phase = .returned (some other) → other.Classified := by
  intro other hother
  obtain rfl : err = other := by simpa [returning] using hother
  exact h

lemma classified_context (err : ContextError) : (classifyContextErr err).Classified := by
  intro _ hcanceled
  simp_all [RequestError.isUpstreamFailure, classifyContextErr]

@[simp] lemma beganOpen_retry (request : ClientRequest) (classified : Sentinel) (err : RequestError) :
    (request.retry maxRetries classified err).beganOpen = request.beganOpen := by
  unfold retry
  split_ifs <;> rfl

lemma classified_retry (hphase : request.phase = .running) {classified : Sentinel}
    (hclassified : classified = .connection ∨ classified = .rateLimit ∨ classified = .serverError)
    {err : RequestError} : ∀ other, (request.retry maxRetries classified err).phase =
      .returned (some other) → other.Classified := by
  intro other hother
  unfold retry at hother
  split_ifs at hother with hle
  · simp [hphase] at hother
  · refine classified_returning ?_ other hother
    intro _ hcanceled
    simp only [RequestError.isUpstreamFailure, hcanceled]
    rcases hclassified with rfl | rfl | rfl <;> simp

@[simp] lemma attempts_retry (request : ClientRequest) (classified : Sentinel) (err : RequestError) :
    (request.retry maxRetries classified err).attempts = request.attempts := by
  unfold retry
  split_ifs <;> rfl

@[simp] lemma beganOpen_conclude (request : ClientRequest) (outcome : CallOutcome) :
    (request.conclude maxRetries outcome).beganOpen = request.beganOpen := by
  cases outcome with
  | doFails => cases h : request.contextErr <;> simp [conclude, returning, h]
  | readFails byContext => cases h : request.contextErr <;> cases byContext <;> simp [conclude, h]
  | response statusCode isJSON =>
    simp only [conclude]
    split_ifs <;> simp [returning]

@[simp] lemma attempts_conclude (request : ClientRequest) (outcome : CallOutcome) :
    (request.conclude maxRetries outcome).attempts = request.attempts := by
  cases outcome with
  | doFails => cases h : request.contextErr <;> simp [conclude, returning, h]
  | readFails byContext => cases h : request.contextErr <;> cases byContext <;> simp [conclude, h]
  | response statusCode isJSON =>
    simp only [conclude]
    split_ifs <;> simp [returning]

lemma classified_conclude (hphase : request.phase = .running) (outcome : CallOutcome) :
    ∀ err, (request.conclude maxRetries outcome).phase = .returned (some err) → err.Classified := by
  cases outcome with
  | doFails =>
    unfold conclude
    cases request.contextErr with
    | none => exact classified_retry hphase (.inl rfl)
    | some err => exact classified_returning (classified_context err)
  | readFails byContext =>
    unfold conclude
    cases request.contextErr <;> cases byContext <;> exact classified_retry hphase (.inl rfl)
  | response statusCode isJSON =>
    simp only [conclude]
    split_ifs
    · exact classified_retry hphase (.inr (.inl rfl))
    · exact classified_retry hphase (.inr (.inr rfl))
    · exact fun err herr => by simp [returning] at herr
    · exact classified_returning fun h => by simp [RequestError.transientFailure] at h

end ClientRequest

/-! ### What a step does -/

namespace ClientState

variable {r : ι}

@[simp] lemma requests_setRequest_self (s : ClientState ι) (r : ι) (request : ClientRequest) :
    (s.setRequest r request).requests r = some request := Function.update_self ..

lemma requests_setRequest_ne (s : ClientState ι) {r r' : ι} (request : ClientRequest) (h : r' ≠ r) :
    (s.setRequest r request).requests r' = s.requests r' := Function.update_of_ne h ..

omit [DecidableEq ι] in
lemma running_eq_some (h : s.running r = some request) :
    s.requests r = some request ∧ request.phase = .running := by
  obtain ⟨hrequest, hphase⟩ := Option.filter_eq_some_iff.mp h
  exact ⟨hrequest, by simpa using hphase⟩

/-- A running request becomes another, with a classified error if it returns. -/
structure Advances (s : ClientState ι) (r : ι) (request request' : ClientRequest) : Prop where
  requests : s.requests r = some request
  phase : request.phase = .running
  beganOpen : request'.beganOpen = request.beganOpen
  classified : ∀ err, request'.phase = .returned (some err) → err.Classified

/-- Time passes, a request begins, goes on, or is accounted for. -/
lemma step_cases (h : s.step maxRetries event = some s') :
    (∃ duration, event = .tick duration ∧ s' = s.tick duration) ∨
    (∃ r, event = .begin r ∧ s.requests r = none ∧
      s' = { s.setRequest r s.beginRequest with circuit := s.circuit.check s.now }) ∨
    (∃ r request request', event.request = some r ∧ s.Advances r request request' ∧ s' = s.setRequest r request') ∨
    (∃ r request err, event = .record r ∧ s.requests r = some request ∧
      request.phase = .returned err ∧ s' = s.record r request err) := by
  cases event with
  | tick duration => exact .inl ⟨duration, rfl, (Option.some.inj h).symm⟩
  | begin r =>
    simp only [step] at h
    split_ifs at h with hnone
    exact .inr (.inl ⟨r, rfl, hnone, (Option.some.inj h).symm⟩)
  | contextEnds r err =>
    obtain ⟨request, hrunning, rfl⟩ := Option.map_eq_some_iff.mp h
    obtain ⟨hrequest, hphase⟩ := running_eq_some hrunning
    have hadvances : s.Advances r request
        { request with contextErr := some (request.contextErr.getD err) } :=
      ⟨hrequest, hphase, rfl, fun err herr => by simp [hphase] at herr⟩
    exact .inr (.inr (.inl ⟨r, request, _, rfl, hadvances, rfl⟩))
  | malformed r =>
    obtain ⟨request, hrunning, rfl⟩ := Option.map_eq_some_iff.mp h
    obtain ⟨hrequest, hphase⟩ := running_eq_some hrunning
    have hadvances : s.Advances r request (request.returning (some [.other])) :=
      ⟨hrequest, hphase, rfl, ClientRequest.classified_returning fun h => by
        simp [RequestError.transientFailure] at h⟩
    exact .inr (.inr (.inl ⟨r, request, _, rfl, hadvances, rfl⟩))
  | attempt r outcome =>
    obtain ⟨request, hrunning, rfl⟩ := Option.map_eq_some_iff.mp h
    obtain ⟨hrequest, hphase⟩ := running_eq_some hrunning
    have hadvances : s.Advances r request (request.attempt maxRetries outcome) :=
      ⟨hrequest, hphase, ClientRequest.beganOpen_conclude ..,
        ClientRequest.classified_conclude (by exact hphase) outcome⟩
    exact .inr (.inr (.inl ⟨r, request, _, rfl, hadvances, rfl⟩))
  | interrupt r =>
    simp only [step] at h
    split at h
    · rename_i request hrunning
      split_ifs at h with hattempts
      obtain ⟨err, -, rfl⟩ := Option.map_eq_some_iff.mp h
      obtain ⟨hrequest, hphase⟩ := running_eq_some hrunning
      have hadvances : s.Advances r request (request.returning (some (classifyContextErr err))) :=
        ⟨hrequest, hphase, rfl,
          ClientRequest.classified_returning (ClientRequest.classified_context err)⟩
      exact .inr (.inr (.inl ⟨r, request, _, rfl, hadvances, rfl⟩))
    · exact nomatch h
  | record r =>
    simp only [step] at h
    split at h
    · rename_i request hrequest
      split at h
      · rename_i err hphase
        exact .inr (.inr (.inr ⟨r, request, err, rfl, hrequest, hphase, (Option.some.inj h).symm⟩))
      · exact nomatch h
    · exact nomatch h

/-! ### What every run keeps -/

/-- The requests are sound, and the circuit is open no longer than the cooldown after the last counted
    failure. -/
structure Sound (s : ClientState ι) : Prop where
  requests : ∀ r request, s.requests r = some request → request.Sound
  failed_le : ∀ t, s.lastFailureAt = some t → t ≤ s.now
  deadline : ∀ u, s.circuit.openUntil = some u →
    ∃ t, s.lastFailureAt = some t ∧ u ≤ t + circuitCooldown

omit [DecidableEq ι] in
lemma sound_beginRequest (s : ClientState ι) : s.beginRequest.Sound := by
  cases hopen : s.isOpen with
  | false =>
    have hnone := Circuit.circuitError_of_not_isOpen hopen
    refine ClientRequest.Sound.of_not_beganOpen hopen fun err herr => ?_
    simp [beginRequest, hnone] at herr
  | true =>
    have herror := (Circuit.circuitError_of_isOpen hopen).1
    refine ⟨fun _ => rfl, fun _ => by simp [beginRequest, herror], fun _ err herr => ?_,
      fun err herr htransient => ?_⟩
    · simpa [beginRequest, herror] using herr.symm
    · obtain rfl : [.circuitOpen] = err := by simpa [beginRequest, herror] using herr
      simp [RequestError.transientFailure] at htransient

lemma Sound.setRequest (h : s.Sound) (r : ι) (hrequest : request.Sound) :
    (s.setRequest r request).Sound where
  requests r' other hother := by
    by_cases hr : r' = r
    · subst hr
      rw [requests_setRequest_self] at hother
      exact Option.some.inj hother ▸ hrequest
    · rw [requests_setRequest_ne _ _ hr] at hother
      exact h.requests r' other hother
  failed_le := h.failed_le
  deadline := h.deadline

omit [DecidableEq ι] in
lemma Sound.tick (h : s.Sound) (duration : ℕ) : (s.tick duration).Sound where
  requests := h.requests
  failed_le t ht := by
    have hle := h.failed_le t ht
    change t ≤ s.now + duration
    omega
  deadline := h.deadline

lemma Sound.begin (h : s.Sound) (r : ι) :
    Sound { s.setRequest r s.beginRequest with circuit := s.circuit.check s.now } where
  requests := (h.setRequest r s.sound_beginRequest).requests
  failed_le := h.failed_le
  deadline u hu := by
    change (s.circuit.check s.now).openUntil = some u at hu
    rw [Circuit.check_eq] at hu
    split_ifs at hu
    exact h.deadline u hu

lemma Sound.record (h : s.Sound) {err : Option RequestError} (hrequest : s.requests r = some request) :
    (s.record r request err).Sound where
  requests := by
    refine (h.setRequest r ?_).requests
    have hsound := h.requests r request hrequest
    exact ⟨hsound.attempts, nofun, nofun, nofun⟩
  failed_le t ht := by
    change t ≤ s.now
    simp only [ClientState.record] at ht
    split_ifs at ht
    · exact (Option.some.inj ht).symm.le
    · exact h.failed_le t ht
  deadline u hu := by
    simp only [ClientState.record] at hu ⊢
    cases err with
    | none => exact nomatch hu
    | some err =>
      simp only [Circuit.account, Option.any_some] at hu ⊢
      split_ifs at hu ⊢ with htransient
      · refine ⟨s.now, rfl, ?_⟩
        simp only [Circuit.recordTransientFailure] at hu
        split_ifs at hu
        · exact (Option.some.inj hu).symm.le
        · obtain ⟨t, ht, hle⟩ := h.deadline u hu
          have hfailed := h.failed_le t ht
          omega
      · exact h.deadline u hu

lemma Sound.step (h : s.Sound) (hstep : s.step maxRetries event = some s') : s'.Sound := by
  rcases step_cases hstep with ⟨duration, -, rfl⟩ | ⟨r, -, -, rfl⟩ |
    ⟨r, request, request', -, hadvances, rfl⟩ | ⟨r, request, err, -, hrequest, -, rfl⟩
  · exact h.tick duration
  · exact h.begin r
  · have hbegan := (h.requests r request hadvances.requests).not_beganOpen hadvances.phase
    exact h.setRequest r (.of_not_beganOpen (hadvances.beganOpen.trans hbegan) hadvances.classified)
  · exact h.record hrequest

end ClientState

lemma sound_of_reachable (h : (clientSystem ι maxRetries).Reachable s) : s.Sound := by
  refine h.invariant ?_ fun s event s' hs hstep => hs.step hstep
  rintro s rfl
  exact ⟨nofun, nofun, nofun⟩

/-! ### Open circuits -/

namespace ClientState

variable {r : ι}

/-- No request that began while the circuit was open has called the transport. -/
def RejectsWhileOpen (s : ClientState ι) : Prop :=
  ∀ r request, s.requests r = some request → request.beganOpen = true → request.attempts = 0

/-- No step of a rejected request changes the circuit. -/
def IgnoresRejected (maxRetries : ℕ) (s : ClientState ι) : Prop :=
  ∀ event s' r request, s.step maxRetries event = some s' → event.request = some r →
    s'.requests r = some request → request.beganOpen = true → s'.circuit = s.circuit

/-- A request that begins when the cooldown after the last counted failure is over calls the
    transport. -/
def Recovers (maxRetries : ℕ) (s : ClientState ι) : Prop :=
  (∀ t, s.lastFailureAt = some t → t + circuitCooldown < s.now) → ∀ r, s.requests r = none →
    ∃ s', s.step maxRetries (.begin r) = some s' ∧ ∀ outcome, ∃ s'' request,
      s'.step maxRetries (.attempt r outcome) = some s'' ∧ s''.requests r = some request ∧
        request.attempts = 1

lemma Sound.ignoresRejected (h : s.Sound) : s.IgnoresRejected maxRetries := by
  intro event s' r request hstep hevent hrequest hbegan
  rcases step_cases hstep with ⟨duration, rfl, -⟩ | ⟨r', rfl, -, rfl⟩ |
    ⟨r', old, new, hmoves, hadvances, rfl⟩ | ⟨r', old, err, rfl, hold, hphase, rfl⟩
  · exact nomatch hevent
  · obtain rfl := Option.some.inj hevent
    obtain rfl : s.beginRequest = request := by
      simpa [setRequest] using hrequest
    exact (Circuit.circuitError_of_isOpen hbegan).2
  · obtain rfl := Option.some.inj (hmoves.symm.trans hevent)
    rw [requests_setRequest_self] at hrequest
    obtain rfl := Option.some.inj hrequest
    have hnot := (h.requests _ old hadvances.requests).not_beganOpen hadvances.phase
    rw [hadvances.beganOpen, hnot] at hbegan
    exact nomatch hbegan
  · obtain rfl := Option.some.inj hevent
    obtain rfl : { old with phase := .recorded } = request := by
      simpa [ClientState.record, ClientState.setRequest] using hrequest
    have herr := (h.requests _ old hold).circuitOpen hbegan err hphase
    simp [ClientState.record, herr, Circuit.account, RequestError.transientFailure]

omit [DecidableEq ι] in
/-- The circuit is not open when the cooldown is over. -/
lemma Sound.not_isOpen (h : s.Sound)
    (hcooldown : ∀ t, s.lastFailureAt = some t → t + circuitCooldown < s.now) : s.isOpen = false := by
  cases hopen : s.circuit.openUntil with
  | none => simp [isOpen, Circuit.isOpen, hopen]
  | some u =>
    obtain ⟨t, ht, hle⟩ := h.deadline u hopen
    have hlt := hcooldown t ht
    have hu : u < s.now := by omega
    simp [isOpen, Circuit.isOpen, hopen, hu]

lemma Sound.recovers (h : s.Sound) : s.Recovers maxRetries := by
  intro hcooldown r hnone
  have hclosed := h.not_isOpen hcooldown
  have hphase : s.beginRequest.phase = .running := by
    simp [beginRequest, Circuit.circuitError_of_not_isOpen hclosed]
  let s' : ClientState ι := { s.setRequest r s.beginRequest with circuit := s.circuit.check s.now }
  have hrunning : s'.running r = some s.beginRequest :=
    Option.filter_eq_some_iff.mpr ⟨requests_setRequest_self .., by simp [hphase]⟩
  refine ⟨s', if_pos hnone, fun outcome => ?_⟩
  refine ⟨s'.setRequest r (s.beginRequest.attempt maxRetries outcome), _, ?_,
    requests_setRequest_self .., ?_⟩
  · simp only [ClientState.step, hrunning, Option.map_some]
  · simp [ClientRequest.attempt, beginRequest]

end ClientState

/-! ### Counted failures -/

namespace ClientState

/-- A failure counts where the upstream has failed the request, and not after a deadline that no
    request has noticed. -/
def accountable (s : ClientState ι) : ClientEvent ι → Bool
  | .record r => (s.requests r).all fun request =>
    match request.phase with
    | .returned (some err) =>
      !err.transientFailure || (!err.isCanceled && !s.circuit.hasLapsed s.now)
    | _ => true
  | _ => true

/-- The circuit counts failures of the upstream only, unless its deadline has passed. -/
def Counted (s : ClientState ι) : Prop :=
  s.circuit.hasLapsed s.now = true ∨ s.circuit.failures ≤ s.upstreamFailures

omit [DecidableEq ι] in
lemma Counted.tick (h : s.Counted) (duration : ℕ) : (s.tick duration).Counted := by
  cases hopen : s.circuit.openUntil with
  | none =>
    refine .inr ?_
    simpa [Counted, ClientState.tick, isOpen, Circuit.isOpen, Circuit.hasLapsed, hopen] using h
  | some u =>
    by_cases hlt : u < s.now + duration
    · exact .inl (by simpa [ClientState.tick, Circuit.hasLapsed, hopen] using hlt)
    · have hnot : ¬ u < s.now := by omega
      refine .inr ?_
      simpa [Counted, ClientState.tick, isOpen, Circuit.isOpen, Circuit.hasLapsed, hopen, hlt, hnot,
        not_lt.mp hlt] using h

lemma Counted.begin (h : s.Counted) (r : ι) :
    Counted { s.setRequest r s.beginRequest with circuit := s.circuit.check s.now } := by
  refine .inr ?_
  change (s.circuit.check s.now).failures ≤ s.upstreamFailures
  rw [Circuit.check_eq]
  split_ifs with hlapsed
  · exact Nat.zero_le _
  · exact h.resolve_left hlapsed

omit [DecidableEq ι] in
/-- What the accounting of an accountable request does to the counters. -/
lemma Counted.account (h : s.Counted) {err : Option RequestError}
    (hclassified : ∀ e, err = some e → e.Classified)
    (hok : ∀ e, err = some e → e.transientFailure = true →
      e.isCanceled = false ∧ s.circuit.hasLapsed s.now = false) :
    (s.circuit.account s.now err).hasLapsed s.now = true ∨
      (s.circuit.account s.now err).failures ≤ s.countUpstreamFailure err := by
  cases err with
  | none => exact .inr (Nat.zero_le _)
  | some e =>
    simp only [Circuit.account]
    split_ifs with htransient
    · obtain ⟨hcanceled, hlapsed⟩ := hok e rfl htransient
      have hupstream := hclassified e rfl htransient hcanceled
      have hle : s.circuit.failures ≤ s.upstreamFailures := h.resolve_left (by simp [hlapsed])
      refine .inr ?_
      simp only [Circuit.recordTransientFailure, countUpstreamFailure, hupstream, if_true]
      omega
    · refine h.imp_right fun hle => hle.trans ?_
      simp only [countUpstreamFailure]
      split_ifs <;> omega

omit [DecidableEq ι] in
lemma accountable_record {err : Option RequestError} (hok : s.accountable (.record r) = true)
    (hrequest : s.requests r = some request) (hphase : request.phase = .returned err) :
    ∀ e, err = some e → e.transientFailure = true →
      e.isCanceled = false ∧ s.circuit.hasLapsed s.now = false := by
  rintro e rfl htransient
  simpa [accountable, hrequest, hphase, htransient] using hok

lemma Counted.step (h : s.Counted) (hsound : s.Sound) (hok : s.accountable event = true)
    (hstep : s.step maxRetries event = some s') : s'.Counted := by
  rcases step_cases hstep with ⟨duration, -, rfl⟩ | ⟨r, -, -, rfl⟩ |
    ⟨r, request, request', -, -, rfl⟩ | ⟨r, request, err, rfl, hrequest, hphase, rfl⟩
  · exact h.tick duration
  · exact h.begin r
  · exact h
  · have hclassified := (hsound.requests r request hrequest).classified
    refine h.account (fun e he => hclassified e (he ▸ hphase)) ?_
    exact accountable_record hok hrequest hphase

/-- The circuit opens by the accounting of a failure. -/
lemma Counted.opensOnFailures (h : s'.Counted) (hstep : s.step maxRetries event = some s')
    (hclosed : s.isOpen = false) (hopen : s'.isOpen = true) :
    circuitThreshold ≤ s'.upstreamFailures := by
  have hnot : s'.circuit.hasLapsed s'.now = false := by
    cases hu : s'.circuit.openUntil with
    | none => simp [Circuit.hasLapsed, hu]
    | some u =>
      simp only [isOpen, Circuit.isOpen, hu, Option.any_some, decide_eq_true_eq] at hopen
      simp [Circuit.hasLapsed, hu, hopen]
  have hle : s'.circuit.failures ≤ s'.upstreamFailures := h.resolve_left (by simp [hnot])
  refine le_trans ?_ hle
  rcases step_cases hstep with ⟨duration, -, rfl⟩ | ⟨r, -, -, rfl⟩ |
    ⟨r, request, request', -, -, rfl⟩ | ⟨r, request, err, rfl, hrequest, hphase, rfl⟩
  · -- Time alone does not open the circuit.
    cases hu : s.circuit.openUntil with
    | none => simp [ClientState.tick, isOpen, Circuit.isOpen, hu] at hopen
    | some u =>
      simp only [ClientState.tick, isOpen, Circuit.isOpen, hu, Option.any_some, decide_eq_true_eq,
        decide_eq_false_iff_not] at hopen hclosed
      omega
  · change (s.circuit.check s.now).isOpen s.now = true at hopen
    rw [Circuit.check_eq] at hopen
    split_ifs at hopen
    · exact nomatch hopen
    · exact absurd hopen (by simpa [isOpen] using hclosed)
  · exact nomatch hclosed.symm.trans hopen
  · change (s.circuit.account s.now err).isOpen s.now = true at hopen
    change circuitThreshold ≤ (s.circuit.account s.now err).failures
    cases err with
    | none => exact nomatch hopen
    | some e =>
      simp only [Circuit.account] at hopen ⊢
      split_ifs at hopen ⊢ with htransient
      · by_cases hthreshold : circuitThreshold ≤ s.circuit.failures + 1
        · exact hthreshold
        · simp only [Circuit.recordTransientFailure, Circuit.isOpen, hthreshold, if_false] at hopen
          exact absurd hopen (by simpa [isOpen, Circuit.isOpen] using hclosed)
      · exact absurd hopen (by simpa [isOpen] using hclosed)

end ClientState

/-- In every run, the requests that begin while the circuit is open do not call the transport and
    leave the circuit alone, and after the cooldown the requests call again; and where neither a
    cancellation nor a failure after an unnoticed deadline is counted, the circuit opens only after
    three failures of the upstream. -/
theorem circuit_breaker (ι : Type) [DecidableEq ι] (maxRetries : ℕ) :
    (∀ s, (clientSystem ι maxRetries).Reachable s →
      s.RejectsWhileOpen ∧ s.IgnoresRejected maxRetries ∧ s.Recovers maxRetries) ∧
    ∀ s event s', (clientSystem ι maxRetries).ReachableUnder
        (fun s event => s.accountable event = true) s →
      s.accountable event = true → s.step maxRetries event = some s' → s.isOpen = false →
      s'.isOpen = true → circuitThreshold ≤ s'.upstreamFailures := by
  refine ⟨fun s hs => ?_, fun s event s' hs hok hstep hclosed hopen => ?_⟩
  · have hsound := sound_of_reachable hs
    exact ⟨fun r request hrequest => (hsound.requests r request hrequest).attempts,
      hsound.ignoresRejected, hsound.recovers⟩
  · have hcounted : s.Counted := by
      refine hs.invariant_of (fun s => sound_of_reachable) ?_ fun s event s' hsound h hok hstep =>
        h.step hsound hok hstep
      rintro s rfl
      exact .inr le_rfl
    have hcounted' := hcounted.step (sound_of_reachable hs.reachable) hok hstep
    exact hcounted'.opensOnFailures hstep hclosed hopen

/-- Three requests whose calls end alike. -/
def threeCalls (outcome : CallOutcome) : List (ClientEvent (Fin 3)) :=
  [.begin 0, .begin 1, .begin 2, .attempt 0 outcome, .attempt 1 outcome, .attempt 2 outcome,
    .record 0, .record 1]

/-- The third of three answers 503 opens the circuit. -/
theorem circuit_breaker_unavailable :
    ∃ s s' : ClientState (Fin 3), s.step 0 (.record 2) = some s' ∧ s'.isOpen = true ∧
      circuitThreshold ≤ s'.upstreamFailures := by
  obtain ⟨s, hs, hstate⟩ := TransitionSystem.exists_reachableUnder_of_replay
    (clientSystem (Fin 3) 0) (fun s event => s.accountable event = true)
    (fun s => !s.isOpen && s.accountable (.record 2) && (s.step 0 (.record 2)).any (·.isOpen))
    (threeCalls (.response 503 false)) (.initial rfl) (by decide)
  simp only [Bool.and_eq_true, Bool.not_eq_true'] at hstate
  obtain ⟨⟨hclosed, hok⟩, hany⟩ := hstate
  obtain ⟨s', hstep, hopen⟩ := Option.any_eq_true _ _ |>.mp hany
  exact ⟨s, s', hstep, hopen, (circuit_breaker (Fin 3) 0).2 s _ s' hs hok hstep hclosed hopen⟩

/-- Three requests that their callers cancel open the circuit. -/
theorem canceled_requests_open_circuit :
    ¬ ∀ (s s' : ClientState (Fin 3)) (event : ClientEvent (Fin 3)),
      (clientSystem (Fin 3) 0).Reachable s → s.step 0 event = some s' → s.isOpen = false →
        s'.isOpen = true → circuitThreshold ≤ s'.upstreamFailures := by
  intro h
  obtain ⟨s, hs, hstate⟩ := TransitionSystem.exists_reachableUnder_of_replay
    (clientSystem (Fin 3) 0) (fun _ _ => True)
    (fun s => !s.isOpen && (s.step 0 (.record 2)).any fun s' =>
      s'.isOpen && s'.upstreamFailures = 0)
    ([.begin 0, .begin 1, .begin 2, .contextEnds 0 .canceled, .contextEnds 1 .canceled,
      .contextEnds 2 .canceled, .attempt 0 .doFails, .attempt 1 .doFails, .attempt 2 .doFails,
      .record 0, .record 1]) (.initial rfl) (by decide)
  simp only [Bool.and_eq_true, Bool.not_eq_true'] at hstate
  obtain ⟨hclosed, hany⟩ := hstate
  obtain ⟨s', hstep, hopened⟩ := Option.any_eq_true _ _ |>.mp hany
  simp only [Bool.and_eq_true, decide_eq_true_eq] at hopened
  have hle := h s s' _ hs hstep hclosed hopened.1
  rw [hopened.2] at hle
  exact absurd hle (by decide)

/-- One failure reopens the circuit after its deadline, though no caller has canceled. -/
theorem straggler_reopens_circuit :
    ∃ s s' : ClientState (Fin 4), (clientSystem (Fin 4) 0).Reachable s ∧
      (∀ r, ((s.requests r).bind (·.contextErr)) = none) ∧ s.step 0 (.record 3) = some s' ∧
      s.isOpen = false ∧ s'.isOpen = true ∧ s'.upstreamFailures = 1 := by
  obtain ⟨s, hs, hstate⟩ := TransitionSystem.exists_reachableUnder_of_replay
    (clientSystem (Fin 4) 0) (fun _ _ => True)
    (fun s => (∀ r, ((s.requests r).bind (·.contextErr)) = none) && !s.isOpen &&
      (s.step 0 (.record 3)).any fun s' => s'.isOpen && s'.upstreamFailures = 1)
    [.begin 0, .begin 1, .begin 2, .begin 3, .attempt 0 .doFails, .attempt 1 .doFails,
      .attempt 2 .doFails, .record 0, .record 1, .record 2, .tick 30000000001, .attempt 3 .doFails]
    (.initial rfl) (by decide)
  simp only [Bool.and_eq_true, Bool.not_eq_true', decide_eq_true_eq] at hstate
  obtain ⟨⟨hcontext, hclosed⟩, hany⟩ := hstate
  obtain ⟨s', hstep, hopened⟩ := Option.any_eq_true _ _ |>.mp hany
  simp only [Bool.and_eq_true, decide_eq_true_eq] at hopened
  exact ⟨s, s', hs, hcontext, hstep, hclosed, hopened⟩

end Denn.Proxy
