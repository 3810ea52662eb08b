import Denn.Web.Session

/-!
# Runs of a session

A session survives as long as no request refreshes a token that has been rotated already, and no
token is rotated while an older change of the cookies is still on its way to the browser.
-/

namespace Denn.Web

open Denn.Core

variable {s s' : SessionState} {event : SessionEvent} {id : RequestId} {request : SessionRequest}
  {token live : RefreshToken} {response : Option RefreshResponse}

namespace SessionState

/-- Requests come and go and wait, and no cookie changes. -/
structure Quiet (s s' : SessionState) : Prop where
  endpoint : s'.endpoint = s.endpoint
  refreshes : s'.refreshes = s.refreshes
  browser : s'.browser = s.browser
  holds : ∀ token, s'.Holds token → s.Holds token
  pending : ∀ sent change, s'.Pending sent change ↔ s.Pending sent change
  awaited : ∀ token, s.Awaited token → s'.Awaited token

lemma holds_browser (h : s.browser.refresh = some token) : s.Holds token := .inl h

lemma holds_request (hget : s.requests.get? id = some request)
    (h : request.cookies.refresh = some token) : s.Holds token := .inr ⟨id, request, hget, h⟩

lemma quiet_send (hfree : s.requests.get? id = none) :
    Quiet s { s with requests := s.requests.set id { cookies := s.browser } } where
  endpoint := rfl
  refreshes := rfl
  browser := rfl
  holds token h := by
    rcases h with hbrowser | ⟨other, request, hget, htoken⟩
    · exact holds_browser hbrowser
    · rcases Table.get?_set_cases hget with ⟨-, rfl⟩ | hget
      · exact holds_browser htoken
      · exact holds_request hget htoken
  pending sent change := by
    constructor
    · rintro ⟨other, request, hget, hsent, hchange⟩
      rcases Table.get?_set_cases hget with ⟨-, rfl⟩ | hget
      · cases hchange
      · exact ⟨other, request, hget, hsent, hchange⟩
    · rintro ⟨other, request, hget, hchange⟩
      have hne : other ≠ id := by
        rintro rfl
        rw [hfree] at hget
        cases hget
      exact ⟨other, request, (Table.get?_set_ne _ _ hne).trans hget, hchange⟩
  awaited token h := by
    obtain ⟨other, request, hget, hawaits⟩ := h
    have hne : other ≠ id := by
      rintro rfl
      rw [hfree] at hget
      cases hget
    exact ⟨other, request, (Table.get?_set_ne _ _ hne).trans hget, hawaits⟩

lemma quiet_await (hget : s.requests.get? id = some request) : Quiet s (s.await id request) where
  endpoint := rfl
  refreshes := rfl
  browser := rfl
  holds token h := by
    rcases h with hbrowser | ⟨other, request', hget', htoken⟩
    · exact holds_browser hbrowser
    · rcases Table.get?_set_cases hget' with ⟨-, rfl⟩ | hget'
      · exact holds_request hget htoken
      · exact holds_request hget' htoken
  pending sent change := by
    constructor
    · rintro ⟨other, request', hget', hchange⟩
      rcases Table.get?_set_cases hget' with ⟨-, rfl⟩ | hget'
      · exact ⟨id, request, hget, hchange⟩
      · exact ⟨other, request', hget', hchange⟩
    · rintro ⟨other, request', hget', hchange⟩
      by_cases hsame : other = id
      · subst hsame
        obtain rfl := Option.some.inj (hget.symm.trans hget')
        exact ⟨other, _, Table.get?_set_self _ _ _, hchange⟩
      · exact ⟨other, request', (Table.get?_set_ne _ _ hsame).trans hget', hchange⟩
  awaited token h := by
    obtain ⟨other, request', hget', hawaits, htoken⟩ := h
    by_cases hsame : other = id
    · subst hsame
      obtain rfl := Option.some.inj (hget.symm.trans hget')
      exact ⟨other, _, Table.get?_set_self _ _ _, rfl, htoken⟩
    · exact ⟨other, request', (Table.get?_set_ne _ _ hsame).trans hget', hawaits, htoken⟩

/-- What is held after a response has arrived. -/
lemma holds_arriveResponse (h : (s.arriveResponse id request).Holds token) :
    (s.browser.apply request.change).refresh = some token ∨ s.Holds token := by
  rcases h with hbrowser | ⟨other, request', hget', htoken⟩
  · exact .inl hbrowser
  · exact .inr (holds_request (Table.get?_of_delete hget').2 htoken)

lemma quiet_arriveResponse (hget : s.requests.get? id = some request)
    (hdone : request.awaiting = false) (hnone : request.change = none) :
    Quiet s (s.arriveResponse id request) where
  endpoint := rfl
  refreshes := rfl
  browser := by rw [arriveResponse, hnone, AuthCookies.apply]
  holds token h := by
    rcases holds_arriveResponse h with hbrowser | hheld
    · rw [hnone] at hbrowser
      exact holds_browser hbrowser
    · exact hheld
  pending sent change := by
    constructor
    · rintro ⟨other, request', hget', hchange⟩
      exact ⟨other, request', (Table.get?_of_delete hget').2, hchange⟩
    · rintro ⟨other, request', hget', hsent, hchange⟩
      have hne : other ≠ id := by
        rintro rfl
        obtain rfl := Option.some.inj (hget.symm.trans hget')
        rw [hnone] at hchange
        cases hchange
      exact ⟨other, request', (Table.get?_delete_ne _ hne).trans hget', hsent, hchange⟩
  awaited token h := by
    obtain ⟨other, request', hget', hawaits, htoken⟩ := h
    have hne : other ≠ id := by
      rintro rfl
      obtain rfl := Option.some.inj (hget.symm.trans hget')
      rw [hdone] at hawaits
      cases hawaits
    exact ⟨other, request', (Table.get?_delete_ne _ hne).trans hget', hawaits, htoken⟩

/-! ### The phases of a session -/

/-- Nothing is being refreshed: one token is accepted, and the browser has it or will get it. -/
structure Settled (s : SessionState) (live : RefreshToken) : Prop where
  accepts : s.endpoint.accepts live = true
  idle : ∀ token, s.refreshes.get? token = none
  held : ∀ token, s.Holds token → s.endpoint.accepts token = true → token = live
  changes : ∀ sent change, s.Pending sent change →
    sent.refresh ≠ some live ∧ ∃ access, change = .set ⟨access, live⟩
  newest : s.browser.refresh = some live ∨ ∃ sent access, s.Pending sent (.set ⟨access, live⟩)

/-- The token is being refreshed, and whoever waits for it will set the new one. -/
structure Refreshing (s : SessionState) (token : RefreshToken)
    (response : Option RefreshResponse) : Prop where
  flight : ∀ other, s.refreshes.get? other = if other = token then some response else none
  changes : ∀ sent change, ¬s.Pending sent change
  awaited : s.Awaited token
  asked : response = none → s.endpoint.accepts token = true ∧
    ∀ other, s.Holds other → s.endpoint.accepts other = true → other = token
  answered : ∀ answer, response = some answer →
    ∃ tokens, rotatedTokens answer = .ok (some tokens) ∧
      s.endpoint.accepts tokens.refresh = true ∧
      ∀ other, s.Holds other → s.endpoint.accepts other = false

structure Alive (s : SessionState) : Prop where
  issued : ∀ token, s.Holds token → token ≤ s.endpoint.issued
  phase : (∃ live, s.Settled live) ∨ ∃ token response, s.Refreshing token response

lemma Settled.of_quiet (h : s.Settled live) (hquiet : Quiet s s') : s'.Settled live where
  accepts := hquiet.endpoint ▸ h.accepts
  idle token := hquiet.refreshes ▸ h.idle token
  held token hheld haccepts := h.held token (hquiet.holds token hheld) (hquiet.endpoint ▸ haccepts)
  changes sent change hpending := h.changes sent change ((hquiet.pending sent change).mp hpending)
  newest := by
    rw [hquiet.browser]
    exact h.newest.imp_right fun ⟨sent, access, hpending⟩ =>
      ⟨sent, access, (hquiet.pending _ _).mpr hpending⟩

lemma Refreshing.of_quiet (h : s.Refreshing token response) (hquiet : Quiet s s') :
    s'.Refreshing token response where
  flight other := hquiet.refreshes ▸ h.flight other
  changes sent change hpending := h.changes sent change ((hquiet.pending sent change).mp hpending)
  awaited := hquiet.awaited token h.awaited
  asked hnone := by
    rw [hquiet.endpoint]
    exact (h.asked hnone).imp_right fun hheld other hother =>
      hheld other (hquiet.holds other hother)
  answered answer hanswer := by
    rw [hquiet.endpoint]
    obtain ⟨tokens, hrotated, haccepts, hheld⟩ := h.answered answer hanswer
    exact ⟨tokens, hrotated, haccepts, fun other hother => hheld other (hquiet.holds other hother)⟩

lemma Alive.of_quiet (h : s.Alive) (hquiet : Quiet s s') : s'.Alive where
  issued token hheld := hquiet.endpoint ▸ h.issued token (hquiet.holds token hheld)
  phase := by
    rcases h.phase with ⟨live, hsettled⟩ | ⟨token, response, hrefreshing⟩
    · exact .inl ⟨live, hsettled.of_quiet hquiet⟩
    · exact .inr ⟨token, response, hrefreshing.of_quiet hquiet⟩

/-! ### Refreshes -/

/-- A refresh is called for while one of its token is in flight, or with a token that the endpoint
    accepts while no change of the cookies is on its way. -/
def refreshesInTime (s : SessionState) : SessionEvent → Bool
  | .refresh id => (s.requests.get? id).all fun request =>
      request.cookies.refresh.all fun token =>
        (s.refreshes.get? token).isSome ||
          (s.endpoint.accepts token && !s.requests.any fun _ other => other.change.isSome)
  | _ => true

/-- A token that is accepted is exchanged for a new one. -/
lemma rotate_of_accepts {e : TokenEndpoint} (h : e.accepts token = true) :
    e.rotate token = (e.rotated token h,
      { status := 200, access := some (e.issued + 1), refreshCookie := some (e.issued + 1) }) :=
  dif_pos h

/-- The new token is accepted, and nothing else that was not accepted before. -/
lemma accepts_rotated {e : TokenEndpoint} (h : e.accepts token = true) (other : RefreshToken) :
    (e.rotated token h).accepts other = true ↔
      other = e.issued + 1 ∨ other ≠ token ∧ e.accepts other = true := by
  simp only [TokenEndpoint.accepts_iff, TokenEndpoint.rotated, List.mem_cons, not_or]
  constructor
  · rintro ⟨hle, hne, hnot⟩
    rcases Nat.le_succ_iff.mp hle with hle | hnew
    · exact .inr ⟨hne, hle, hnot⟩
    · exact .inl hnew
  · rintro (rfl | ⟨hne, hle, hnot⟩)
    · refine ⟨le_rfl, ?_, fun hmem => ?_⟩
      · rintro rfl
        exact absurd (TokenEndpoint.accepts_iff.mp h).1 (Nat.not_succ_le_self _)
      · exact absurd (e.issued_of_blacklisted _ hmem) (Nat.not_succ_le_self _)
    · exact ⟨hle.trans (Nat.le_succ _), hne, hnot⟩

lemma not_pending (h : s.requests.any (fun _ other => other.change.isSome) = false)
    (sent : AuthCookies) (change : CookieChange) : ¬s.Pending sent change := by
  rintro ⟨id, request, hget, -, hchange⟩
  have hany : s.requests.any (fun _ other => other.change.isSome) = true :=
    (Table.any_eq_true_iff _ _).mpr ⟨id, request, hget, by rw [hchange, Option.isSome_some]⟩
  rw [h] at hany
  cases hany

/-- A refresh that is started in time is that of the only token that is accepted. -/
lemma Alive.start (h : s.Alive) (hok : s.refreshesInTime (.refresh id) = true)
    (hget : s.requests.get? id = some request) (htoken : request.cookies.refresh = some token)
    (hidle : s.refreshes.get? token = none) :
    Alive { s.await id request with refreshes := s.refreshes.set token none } := by
  have hquiet := quiet_await hget
  have hheld : s.Holds token := holds_request hget htoken
  simp only [refreshesInTime, hget, htoken, hidle, Option.all_some, Option.isSome_none,
    Bool.false_or, Bool.and_eq_true, Bool.not_eq_true'] at hok
  obtain ⟨haccepts, hnone⟩ := hok
  refine ⟨fun other hother => h.issued other (hquiet.holds other hother), .inr ⟨token, none, ?_⟩⟩
  rcases h.phase with ⟨live, hsettled⟩ | ⟨old, response, hrefreshing⟩
  · obtain rfl := hsettled.held token hheld haccepts
    refine ⟨fun other => ?_, fun sent change hpending => ?_, ?_, fun _ => ⟨haccepts, ?_⟩, nofun⟩
    · rw [Table.get?_set, hsettled.idle other]
    · exact not_pending hnone sent change ((hquiet.pending sent change).mp hpending)
    · exact ⟨id, _, Table.get?_set_self _ _ _, rfl, htoken⟩
    · exact fun other hother => hsettled.held other (hquiet.holds other hother)
  · -- the refresh in flight is that of another token, so that the endpoint rejects this one
    have hne : token ≠ old := by
      rintro rfl
      rw [hrefreshing.flight, if_pos rfl] at hidle
      cases hidle
    cases response with
    | none => exact absurd ((hrefreshing.asked rfl).2 token hheld haccepts) hne
    | some answer =>
      obtain ⟨tokens, -, -, hrejected⟩ := hrefreshing.answered answer rfl
      rw [hrejected token hheld] at haccepts
      cases haccepts

/-- The endpoint rotates the token that was accepted. -/
lemma Alive.answer (h : s.Alive) (hflight : s.refreshes.get? token = some none) :
    (s.answerRefresh token).Alive := by
  rcases h.phase with ⟨live, hsettled⟩ | ⟨old, response, hrefreshing⟩
  · rw [hsettled.idle] at hflight
    cases hflight
  · rw [hrefreshing.flight] at hflight
    split_ifs at hflight with hsame
    subst hsame
    obtain rfl := Option.some.inj hflight
    obtain ⟨haccepts, hheld⟩ := hrefreshing.asked rfl
    have hrotate := rotate_of_accepts haccepts
    refine ⟨fun other hother => ?_, .inr ⟨token, some (s.endpoint.rotate token).2, fun other => ?_,
      hrefreshing.changes, hrefreshing.awaited, nofun, ?_⟩⟩
    · rw [answerRefresh, hrotate]
      exact (h.issued other hother).trans (Nat.le_succ _)
    · rw [answerRefresh, Table.get?_set, hrefreshing.flight other]
      split_ifs <;> rfl
    · rintro answer hanswer
      obtain rfl := Option.some.inj hanswer
      rw [answerRefresh, hrotate]
      refine ⟨⟨s.endpoint.issued + 1, s.endpoint.issued + 1⟩, rfl,
        (accepts_rotated haccepts _).mpr (.inl rfl), fun other hother => ?_⟩
      rw [Bool.eq_false_iff]
      intro hagain
      rcases (accepts_rotated haccepts other).mp hagain with rfl | ⟨hne, hbefore⟩
      · exact absurd (h.issued _ hother) (Nat.not_succ_le_self _)
      · exact hne (hheld other hother hbefore)

lemma get?_settleRefresh (s : SessionState) (token : RefreshToken) (answer : RefreshResponse)
    (id : RequestId) :
    (s.settleRefresh token answer).requests.get? id = (s.requests.get? id).map fun request =>
      if request.awaiting = true ∧ request.cookies.refresh = some token then request.resume answer
      else request := by
  simp [settleRefresh, Table.get?_updateWhere]

@[simp] lemma resume_cookies (request : SessionRequest) (answer : RefreshResponse) :
    (request.resume answer).cookies = request.cookies := by
  unfold SessionRequest.resume
  split <;> rfl

lemma resume_change {answer : RefreshResponse} {tokens : AuthTokens}
    (h : rotatedTokens answer = .ok (some tokens)) (request : SessionRequest) :
    (request.resume answer).change = some (.set tokens) := by
  rw [SessionRequest.resume, h]

lemma holds_settleRefresh {answer : RefreshResponse} {other : RefreshToken}
    (h : (s.settleRefresh token answer).Holds other) : s.Holds other := by
  rcases h with hbrowser | ⟨id, request, hget, htoken⟩
  · exact holds_browser hbrowser
  · rw [get?_settleRefresh] at hget
    obtain ⟨before, hbefore, rfl⟩ := Option.map_eq_some_iff.mp hget
    refine holds_request hbefore ?_
    split_ifs at htoken
    · rwa [resume_cookies] at htoken
    · exact htoken

lemma pending_settleRefresh {answer : RefreshResponse} {tokens : AuthTokens} {sent : AuthCookies}
    {change : CookieChange} (hrotated : rotatedTokens answer = .ok (some tokens))
    (h : (s.settleRefresh token answer).Pending sent change) :
    (sent.refresh = some token ∧ change = .set tokens) ∨ s.Pending sent change := by
  obtain ⟨id, request, hget, rfl, hchange⟩ := h
  rw [get?_settleRefresh] at hget
  obtain ⟨before, hbefore, rfl⟩ := Option.map_eq_some_iff.mp hget
  split_ifs at hchange ⊢ with hawaits
  · rw [resume_change hrotated] at hchange
    rw [resume_cookies]
    exact .inl ⟨hawaits.2, (Option.some.inj hchange).symm⟩
  · exact .inr ⟨id, before, hbefore, rfl, hchange⟩

lemma pending_of_awaited {answer : RefreshResponse} {tokens : AuthTokens}
    (hrotated : rotatedTokens answer = .ok (some tokens)) (h : s.Awaited token) :
    ∃ sent, (s.settleRefresh token answer).Pending sent (.set tokens) := by
  obtain ⟨id, request, hget, hawaits⟩ := h
  refine ⟨_, id, request.resume answer, ?_, rfl, resume_change hrotated request⟩
  rw [get?_settleRefresh, hget, Option.map_some, if_pos hawaits]

/-- Those who wait for the new token will set it. -/
lemma Alive.settle (h : s.Alive) {answer : RefreshResponse}
    (hflight : s.refreshes.get? token = some (some answer)) :
    (s.settleRefresh token answer).Alive := by
  rcases h.phase with ⟨live, hsettled⟩ | ⟨old, response, hrefreshing⟩
  · rw [hsettled.idle] at hflight
    cases hflight
  · rw [hrefreshing.flight] at hflight
    split_ifs at hflight with hsame
    subst hsame
    obtain rfl := Option.some.inj hflight
    obtain ⟨tokens, hrotated, haccepts, hrejected⟩ := hrefreshing.answered answer rfl
    refine ⟨fun other hother => h.issued other (holds_settleRefresh hother), .inl ⟨tokens.refresh,
      haccepts, fun other => ?_, fun other hother hagain => ?_, ?_, ?_⟩⟩
    · rw [settleRefresh, Table.get?_delete, hrefreshing.flight]
      split_ifs <;> rfl
    · rw [settleRefresh, hrejected other (holds_settleRefresh hother)] at hagain
      cases hagain
    · intro sent change hpending
      rcases pending_settleRefresh hrotated hpending with ⟨hsent, rfl⟩ | hbefore
      · refine ⟨fun hsame => ?_, tokens.access, rfl⟩
        obtain rfl := Option.some.inj (hsent.symm.trans hsame)
        obtain ⟨id, request, hget, -, htoken⟩ := hrefreshing.awaited
        rw [hrejected _ (holds_request hget htoken)] at haccepts
        cases haccepts
      · exact absurd hbefore (hrefreshing.changes sent change)
    · obtain ⟨sent, hpending⟩ := pending_of_awaited hrotated hrefreshing.awaited
      exact .inr ⟨sent, tokens.access, hpending⟩

/-- Without a refresh, a response sets the token that is accepted. -/
lemma Alive.arrive (h : s.Alive) (hget : s.requests.get? id = some request)
    (hdone : request.awaiting = false) : (s.arriveResponse id request).Alive := by
  cases hchange : request.change with
  | none => exact h.of_quiet (quiet_arriveResponse hget hdone hchange)
  | some change =>
    have hpending : s.Pending request.cookies change := ⟨id, request, hget, rfl, hchange⟩
    rcases h.phase with ⟨live, hsettled⟩ | ⟨token, response, hrefreshing⟩
    · obtain ⟨-, access, rfl⟩ := hsettled.changes _ change hpending
      have hholds : ∀ other, (s.arriveResponse id request).Holds other →
          other = live ∨ s.Holds other := by
        intro other hother
        refine (holds_arriveResponse hother).imp_left fun hbrowser => ?_
        rw [hchange] at hbrowser
        exact (Option.some.inj hbrowser).symm
      refine ⟨fun other hother => ?_, .inl ⟨live, hsettled.accepts, hsettled.idle,
        fun other hother haccepts => ?_, ?_, .inl ?_⟩⟩
      · rcases hholds other hother with rfl | hheld
        · exact (TokenEndpoint.accepts_iff.mp hsettled.accepts).1
        · exact h.issued other hheld
      · exact (hholds other hother).elim (fun heq => heq) fun hheld =>
          hsettled.held other hheld haccepts
      · rintro sent change ⟨other, request', hget', hchange'⟩
        exact hsettled.changes sent change
          ⟨other, request', (Table.get?_of_delete hget').2, hchange'⟩
      · rw [arriveResponse, hchange]
        rfl
    · exact absurd hpending (hrefreshing.changes _ change)

theorem Alive.step (h : s.Alive) (hok : s.refreshesInTime event = true)
    (hstep : s.step event = some s') : s'.Alive := by
  cases step_cases hstep with
  | send hfree => exact h.of_quiet (quiet_send hfree)
  | anonymous => exact h
  | join hget => exact h.of_quiet (quiet_await hget)
  | start hget htoken hidle => exact h.start hok hget htoken hidle
  | answer hflight => exact h.answer hflight
  | settle hflight => exact h.settle hflight
  | arrive hget hdone => exact h.arrive hget hdone

lemma Alive.initial (h : sessionSystem.initial s) : s.Alive := by
  obtain ⟨⟨live, hbrowser, haccepts⟩, hrequests, hrefreshes⟩ := h
  have hget : ∀ id, s.requests.get? id = none := fun id => by rw [hrequests, Table.get?_empty]
  have hholds : ∀ token, s.Holds token → token = live := by
    rintro token (htoken | ⟨id, request, hrequest, -⟩)
    · exact Option.some.inj (htoken.symm.trans hbrowser)
    · rw [hget] at hrequest
      cases hrequest
  refine ⟨fun token hheld => ?_, .inl ⟨live, haccepts, fun token => ?_, fun token hheld _ =>
    hholds token hheld, ?_, .inl hbrowser⟩⟩
  · exact hholds token hheld ▸ (TokenEndpoint.accepts_iff.mp haccepts).1
  · rw [hrefreshes, Table.get?_empty]
  · rintro sent change ⟨id, request, hrequest, -⟩
    rw [hget] at hrequest
    cases hrequest

lemma alive_of_reachableUnder
    (h : sessionSystem.ReachableUnder (fun s event => s.refreshesInTime event = true) s) :
    s.Alive :=
  h.invariant (fun _ => Alive.initial) fun _ _ _ halive hok hstep => halive.step hok hstep

/-- Without a request in flight, the browser has the token that is accepted. -/
lemma Alive.hasSession (h : s.Alive) (hdone : s.requests.rows = []) : s.HasSession := by
  rw [Table.rows_eq_nil_iff] at hdone
  rcases h.phase with ⟨live, hsettled⟩ | ⟨token, response, hrefreshing⟩
  · refine ⟨live, hsettled.newest.resolve_right ?_, hsettled.accepts⟩
    rintro ⟨sent, access, id, request, hget, -⟩
    rw [hdone] at hget
    cases hget
  · obtain ⟨id, request, hget, -⟩ := hrefreshing.awaited
    rw [hdone] at hget
    cases hget

/-- In every run in which every refresh is called for in time, the browser has a session whenever
    all responses have arrived. -/
theorem session_survives
    (h : sessionSystem.ReachableUnder (fun s event => s.refreshesInTime event = true) s)
    (hdone : s.requests.rows = []) : s.HasSession :=
  (alive_of_reachableUnder h).hasSession hdone

/-- A browser with the first token of a session. -/
def signedIn : SessionState where
  browser := { access := some 0, refresh := some 0 }
  endpoint := {}

lemma initial_signedIn : sessionSystem.initial signedIn := ⟨⟨0, rfl, by decide⟩, rfl, rfl⟩

/-- Two requests share a refresh, and a third one brings the next. -/
theorem session_survives_shared :
    ∃ s : SessionState, s.endpoint.issued = 2 ∧ s.HasSession := by
  obtain ⟨s, hs, hstate⟩ := TransitionSystem.exists_reachableUnder_of_replay sessionSystem
    (fun s event => s.refreshesInTime event = true)
    (fun s => s.endpoint.issued = 2 && s.requests.rows = [])
    [.send 1, .send 2, .refresh 1, .answer 0, .refresh 2, .settle 0, .arrive 2, .arrive 1,
      .send 3, .refresh 3, .answer 1, .settle 1, .arrive 3]
    (.initial initial_signedIn) (by decide +kernel)
  simp only [Bool.and_eq_true, decide_eq_true_eq] at hstate
  obtain ⟨hissued, hdone⟩ := hstate
  exact ⟨s, hissued, session_survives hs hdone⟩

/-- A request that comes to refresh after the rotation clears the cookies; and a response that is
    overtaken by the next rotation sets a token that has been rotated. -/
theorem session_lost :
    (∃ s, sessionSystem.Reachable s ∧ s.requests.rows = [] ∧ s.browser = {} ∧
      s.endpoint.accepts 1 = true) ∧
    (∃ s, sessionSystem.Reachable s ∧ s.requests.rows = [] ∧ s.browser.refresh = some 1 ∧
      s.endpoint.blacklist = [1, 0]) ∧
    ¬ ∀ s, sessionSystem.Reachable s → s.requests.rows = [] → s.HasSession := by
  have hcleared := TransitionSystem.exists_reachableUnder_of_replay sessionSystem
    (fun _ _ => True)
    (fun s => s.requests.rows = [] && s.browser = {} && s.endpoint.accepts 1)
    [.send 1, .send 2, .refresh 1, .answer 0, .settle 0, .arrive 1,
      .refresh 2, .answer 0, .settle 0, .arrive 2]
    (.initial initial_signedIn) (by decide +kernel)
  have hovertaken := TransitionSystem.exists_reachableUnder_of_replay sessionSystem
    (fun _ _ => True)
    (fun s => s.requests.rows = [] && s.browser.refresh = some 1 && s.endpoint.blacklist = [1, 0])
    [.send 1, .send 2, .refresh 1, .refresh 2, .answer 0, .settle 0, .arrive 1,
      .send 3, .refresh 3, .answer 1, .settle 1, .arrive 3, .arrive 2]
    (.initial initial_signedIn) (by decide +kernel)
  simp only [Bool.and_eq_true, decide_eq_true_eq, and_assoc] at hcleared hovertaken
  refine ⟨hcleared, hovertaken, fun hall => ?_⟩
  obtain ⟨s, hs, hdone, hbrowser, -⟩ := hcleared
  obtain ⟨token, htoken, -⟩ := hall s hs hdone
  rw [hbrowser] at htoken
  cases htoken

/-! ### Late refreshes -/

/-- Whoever waits, waits for a refresh in flight. -/
def Waits (s : SessionState) : Prop :=
  ∀ id request, s.requests.get? id = some request → request.awaiting = true →
    ∃ token response, request.cookies.refresh = some token ∧
      s.refreshes.get? token = some response

lemma resume_awaiting (request : SessionRequest) (answer : RefreshResponse) :
    (request.resume answer).awaiting = false := by
  unfold SessionRequest.resume
  split <;> rfl

lemma Waits.step (h : s.Waits) (hstep : s.step event = some s') : s'.Waits := by
  intro other request' hget' hawaits
  cases step_cases hstep with
  | send hfree =>
    rcases Table.get?_set_cases hget' with ⟨-, rfl⟩ | hget'
    · cases hawaits
    · exact h other request' hget' hawaits
  | anonymous => exact h other request' hget' hawaits
  | join hget htoken hflight =>
    rcases Table.get?_set_cases hget' with ⟨-, rfl⟩ | hget'
    · exact ⟨_, _, htoken, hflight⟩
    · exact h other request' hget' hawaits
  | start hget htoken hidle =>
    rcases Table.get?_set_cases hget' with ⟨-, rfl⟩ | hget'
    · exact ⟨_, _, htoken, Table.get?_set_self _ _ _⟩
    · obtain ⟨token, response, htoken', hflight⟩ := h other request' hget' hawaits
      refine ⟨token, response, htoken', (Table.get?_set_ne _ _ ?_).trans hflight⟩
      rintro rfl
      rw [hidle] at hflight
      cases hflight
  | @answer asked hflight =>
    obtain ⟨token, response, htoken, hold⟩ := h other request' hget' hawaits
    by_cases hsame : token = asked
    · exact ⟨asked, _, hsame ▸ htoken, Table.get?_set_self _ _ _⟩
    · exact ⟨token, response, htoken, (Table.get?_set_ne _ _ hsame).trans hold⟩
  | @settle settled answer hflight =>
    rw [get?_settleRefresh] at hget'
    obtain ⟨before, hbefore, rfl⟩ := Option.map_eq_some_iff.mp hget'
    split_ifs at hawaits ⊢ with hresumed
    · rw [resume_awaiting] at hawaits
      cases hawaits
    · obtain ⟨token, response, htoken, hold⟩ := h other before hbefore hawaits
      refine ⟨token, response, htoken, (Table.get?_delete_ne _ ?_).trans hold⟩
      rintro rfl
      exact hresumed ⟨hawaits, htoken⟩
  | arrive hget hdone => exact h other request' (Table.get?_of_delete hget').2 hawaits

lemma waits_of_reachable (h : sessionSystem.Reachable s) : s.Waits := by
  refine h.invariant (fun s hs id request hget => ?_) fun _ _ _ hwaits hstep => hwaits.step hstep
  rw [hs.2.1, Table.get?_empty] at hget
  cases hget

/-- The responses of requests that wait for nothing arrive one after the other. -/
lemma exists_arrived (ids : List RequestId) (hnodup : ids.Nodup)
    (hready : ∀ id ∈ ids, ∃ request, s.requests.get? id = some request ∧
      request.awaiting = false) :
    ∃ events s', sessionSystem.Run s events s' ∧ s'.endpoint = s.endpoint ∧
      ∀ id, s'.requests.get? id = if id ∈ ids then none else s.requests.get? id := by
  induction ids generalizing s with
  | nil => exact ⟨[], s, .nil, rfl, fun id => by rw [if_neg List.not_mem_nil]⟩
  | cons first ids ih =>
    obtain ⟨hfirst, hnodup⟩ := List.nodup_cons.mp hnodup
    obtain ⟨request, hget, hdone⟩ := hready first List.mem_cons_self
    have hstep : sessionSystem.step s (.arrive first) = some (s.arriveResponse first request) := by
      simp [sessionSystem, step, hget, hdone]
    have hrest : ∀ id ∈ ids, ∃ request', (s.arriveResponse first request).requests.get? id
        = some request' ∧ request'.awaiting = false := by
      intro id hid
      obtain ⟨request', hget', hdone'⟩ := hready id (List.mem_cons_of_mem _ hid)
      have hne : id ≠ first := fun hsame => hfirst (hsame ▸ hid)
      exact ⟨request', (Table.get?_delete_ne _ hne).trans hget', hdone'⟩
    obtain ⟨events, s', hrun, hendpoint, hgone⟩ := ih hnodup hrest
    refine ⟨_, s', (TransitionSystem.Run.cons .nil hstep).append hrun, hendpoint, fun id => ?_⟩
    rw [hgone, arriveResponse, Table.get?_delete]
    by_cases hsame : id = first
    · simp [hsame]
    · simp [hsame]

/-- Once nothing is refreshed all responses can arrive, that of a given request last. -/
lemma exists_arrived_last (hwaits : s.Waits) (hidle : ∀ token, s.refreshes.get? token = none)
    (hget : s.requests.get? id = some request) :
    ∃ events s', sessionSystem.Run s events s' ∧ s'.requests.rows = [] ∧
      s'.endpoint = s.endpoint ∧ ∃ cookies : AuthCookies, s'.browser = cookies.apply request.change := by
  have hready : ∀ other request', s.requests.get? other = some request' →
      request'.awaiting = false := by
    intro other request' hget'
    by_contra hawaits
    obtain ⟨token, response, -, hflight⟩ :=
      hwaits other request' hget' ((Bool.not_eq_false _).mp hawaits)
    rw [hidle] at hflight
    cases hflight
  obtain ⟨events, s₁, hrun, hendpoint, hgone⟩ := exists_arrived
    ((s.requests.rows.map Prod.fst).erase id) (s.requests.nodup_keys.erase id) fun other hother => by
      obtain ⟨⟨_, request'⟩, hrow, rfl⟩ := List.mem_map.mp (List.mem_of_mem_erase hother)
      have hget' := (Table.mem_rows_iff _ _ _).mp hrow
      exact ⟨request', hget', hready _ request' hget'⟩
  have hlast : s₁.requests.get? id = some request := by
    rw [hgone, if_neg (s.requests.nodup_keys.not_mem_erase), hget]
  have hstep : sessionSystem.step s₁ (.arrive id) = some (s₁.arriveResponse id request) := by
    simp [sessionSystem, step, hlast, hready id request hget]
  refine ⟨_, _, .cons hrun hstep, Table.rows_eq_nil_iff.mpr fun other => ?_, hendpoint,
    s₁.browser, rfl⟩
  rw [arriveResponse, Table.get?_delete, hgone]
  split_ifs with hsame hmem
  · rfl
  · rfl
  · refine Option.eq_none_iff_forall_ne_some.mpr fun request' hget' => hmem ?_
    exact (List.mem_erase_of_ne hsame).mpr
      (List.mem_map.mpr ⟨(other, request'), (Table.mem_rows_iff _ _ _).mpr hget', rfl⟩)

/-- A refresh in flight can come to its end. -/
lemma exists_settled (hflight : s.refreshes.get? token = some response) :
    ∃ events answer s', sessionSystem.Run s events s' ∧
      (∀ other, s'.refreshes.get? other
        = if other = token then none else s.refreshes.get? other) ∧
      s'.requests = (s.settleRefresh token answer).requests ∧
      (response = none → answer = (s.endpoint.rotate token).2 ∧
        s'.endpoint = (s.endpoint.rotate token).1) := by
  cases response with
  | some answer =>
    have hstep : sessionSystem.step s (.settle token) = some (s.settleRefresh token answer) := by
      simp [sessionSystem, step, hflight]
    exact ⟨_, answer, _, .cons .nil hstep, fun other => Table.get?_delete _ _ _, rfl, by simp⟩
  | none =>
    have hanswer : sessionSystem.step s (.answer token) = some (s.answerRefresh token) := by
      simp [sessionSystem, step, hflight]
    have hstep : sessionSystem.step (s.answerRefresh token) (.settle token)
        = some ((s.answerRefresh token).settleRefresh token (s.endpoint.rotate token).2) := by
      simp [sessionSystem, step, answerRefresh]
    refine ⟨_, _, _, .cons (.cons .nil hanswer) hstep, fun other => ?_, rfl, fun _ => ⟨rfl, rfl⟩⟩
    rw [settleRefresh, Table.get?_delete, answerRefresh]
    split_ifs with hsame
    · rfl
    · exact Table.get?_set_ne _ _ hsame

lemma Waits.run (h : s.Waits) {events : List SessionEvent}
    (hrun : sessionSystem.Run s events s') : s'.Waits := by
  induction hrun with
  | nil => exact h
  | cons _ hstep ih => exact ih.step hstep

/-- A refresh is late if its token has been rotated, or if changes are on their way. -/
lemma late_cases (hlate : s.refreshesInTime event = false) :
    ∃ id request token, event = .refresh id ∧ s.requests.get? id = some request ∧
      request.cookies.refresh = some token ∧ s.refreshes.get? token = none ∧
      (s.endpoint.accepts token = false ∨ ∃ sent change, s.Pending sent change) := by
  cases event with
  | refresh id =>
    cases hget : s.requests.get? id with
    | none => simp [refreshesInTime, hget] at hlate
    | some request =>
      cases htoken : request.cookies.refresh with
      | none => simp [refreshesInTime, hget, htoken] at hlate
      | some token =>
        simp only [refreshesInTime, hget, htoken, Option.all_some, Bool.or_eq_false_iff,
          Bool.and_eq_false_iff, Bool.not_eq_false'] at hlate
        obtain ⟨hidle, hlate⟩ := hlate
        refine ⟨id, request, token, rfl, hget, htoken,
          Option.not_isSome_iff_eq_none.mp (by rw [hidle]; decide), hlate.imp_right fun hany => ?_⟩
        obtain ⟨other, request', hget', hchange⟩ := (Table.any_eq_true_iff _ _).mp hany
        obtain ⟨change, hchange⟩ := Option.isSome_iff_exists.mp hchange
        exact ⟨_, change, other, request', hget', rfl, hchange⟩
  | _ => exact absurd hlate (by simp [refreshesInTime])

/-- A request whose change is settled, with nothing more to come. -/
lemma exists_lost (hwaits : s.Waits) (hidle : ∀ token, s.refreshes.get? token = none)
    (hget : s.requests.get? id = some request)
    (hlost : ∀ token cookies, (AuthCookies.apply cookies request.change).refresh = some token →
      s.endpoint.accepts token = false) :
    ∃ events s', sessionSystem.Run s events s' ∧ s'.requests.rows = [] ∧ ¬s'.HasSession := by
  obtain ⟨events, s', hrun, hdone, hendpoint, cookies, hbrowser⟩ :=
    exists_arrived_last hwaits hidle hget
  refine ⟨events, s', hrun, hdone, ?_⟩
  rintro ⟨token, htoken, haccepts⟩
  rw [hbrowser] at htoken
  rw [hendpoint, hlost token cookies htoken] at haccepts
  cases haccepts

/-- A refresh that has just been started can come to its end. -/
lemma exists_refreshed (hget : s.requests.get? id = some request)
    (htoken : request.cookies.refresh = some token) (hidle : s.refreshes.get? token = none)
    (hstep : s.step (.refresh id) = some s') :
    ∃ events s₁, sessionSystem.Run s' events s₁ ∧
      (∀ other, s₁.refreshes.get? other = s.refreshes.get? other) ∧
      s₁.requests
        = ((s.await id request).settleRefresh token (s.endpoint.rotate token).2).requests ∧
      s₁.endpoint = (s.endpoint.rotate token).1 := by
  have hs' : s' = { s.await id request with refreshes := s.refreshes.set token none } := by
    simp only [step, hget, Option.map_some, refreshAuthCookies, htoken, hidle, Option.isSome_none,
      Bool.false_eq_true, if_false, Option.some.injEq] at hstep
    exact hstep.symm
  subst hs'
  obtain ⟨events, answer, s₁, hrun, hflight, hrequests, hanswered⟩ :=
    exists_settled (s := { s.await id request with refreshes := s.refreshes.set token none })
      (Table.get?_set_self s.refreshes token none)
  obtain ⟨rfl, hendpoint⟩ := hanswered rfl
  refine ⟨events, s₁, hrun, fun other => ?_, hrequests, hendpoint⟩
  rw [hflight]
  split_ifs with hsame
  · rw [hsame, hidle]
  · exact Table.get?_set_ne _ _ hsame

/-- The request whose token is rejected clears the cookies, after all others. -/
lemma exists_cleared (halive : s.Alive) (hwaits : s'.Waits)
    (hget : s.requests.get? id = some request) (htoken : request.cookies.refresh = some token)
    (hidle : s.refreshes.get? token = none) (hrejected : s.endpoint.accepts token = false)
    (hstep : s.step (.refresh id) = some s') :
    ∃ events s'', sessionSystem.Run s' events s'' ∧ s''.requests.rows = [] ∧ ¬s''.HasSession := by
  obtain ⟨events, s₁, hrun, hrefreshes, hrequests, -⟩ := exists_refreshed hget htoken hidle hstep
  have hrotate : (s.endpoint.rotate token).2 = { status := 401 } := by
    rw [TokenEndpoint.rotate, dif_neg (by simp [hrejected])]
  obtain ⟨cleared, hcleared, hdone, hchange⟩ : ∃ cleared, s₁.requests.get? id = some cleared ∧
      cleared.awaiting = false ∧ cleared.change = some .clear := by
    refine ⟨SessionRequest.resume { request with awaiting := true } { status := 401 }, ?_,
      resume_awaiting _ _, rfl⟩
    rw [hrequests, get?_settleRefresh, SessionState.await, Table.get?_set_self, Option.map_some,
      if_pos ⟨rfl, htoken⟩, hrotate]
  have hlost : ∀ (e : TokenEndpoint) other cookies,
      (AuthCookies.apply cookies cleared.change).refresh = some other →
        e.accepts other = false := by
    intro e other cookies hother
    rw [hchange] at hother
    cases hother
  rcases halive.phase with ⟨live, hsettled⟩ | ⟨old, response, hrefreshing⟩
  · have hidle₁ : ∀ other, s₁.refreshes.get? other = none := fun other => by
      rw [hrefreshes, hsettled.idle]
    obtain ⟨events', s₂, hrun', hgone, hnone⟩ :=
      exists_lost (hwaits.run hrun) hidle₁ hcleared (hlost s₁.endpoint)
    exact ⟨_, s₂, hrun.append hrun', hgone, hnone⟩
  · -- the refresh that is in flight comes to its end first
    have hflight : s₁.refreshes.get? old = some response := by
      rw [hrefreshes, hrefreshing.flight, if_pos rfl]
    obtain ⟨events₂, answer, s₂, hrun₂, hflight₂, hrequests₂, -⟩ := exists_settled hflight
    have hget₂ : s₂.requests.get? id = some cleared := by
      rw [hrequests₂, get?_settleRefresh, hcleared, Option.map_some,
        if_neg fun hawaits => by simp [hdone] at hawaits]
    have hidle₂ : ∀ other, s₂.refreshes.get? other = none := by
      intro other
      rw [hflight₂, hrefreshes, hrefreshing.flight]
      split_ifs <;> rfl
    obtain ⟨events', s₃, hrun₃, hgone, hnone⟩ :=
      exists_lost ((hwaits.run hrun).run hrun₂) hidle₂ hget₂ (hlost s₂.endpoint)
    exact ⟨_, s₃, (hrun.append hrun₂).append hrun₃, hgone, hnone⟩

/-- The token is rotated while another response still sets it, which arrives after all others. -/
lemma exists_overtaken {sent : AuthCookies} {change : CookieChange} (halive : s.Alive)
    (hwaits : s'.Waits) (hget : s.requests.get? id = some request)
    (htoken : request.cookies.refresh = some token) (hidle : s.refreshes.get? token = none)
    (haccepts : s.endpoint.accepts token = true) (hpending : s.Pending sent change)
    (hstep : s.step (.refresh id) = some s') :
    ∃ events s'', sessionSystem.Run s' events s'' ∧ s''.requests.rows = [] ∧ ¬s''.HasSession := by
  obtain ⟨events, s₁, hrun, hrefreshes, hrequests, hendpoint⟩ :=
    exists_refreshed hget htoken hidle hstep
  rcases halive.phase with ⟨live, hsettled⟩ | ⟨old, response, hrefreshing⟩
  · obtain rfl := hsettled.held token (holds_request hget htoken) haccepts
    obtain ⟨hsent, access, rfl⟩ := hsettled.changes sent change hpending
    obtain ⟨other, pending, hother, rfl, hchange⟩ := hpending
    have hne : other ≠ id := by
      rintro rfl
      obtain rfl := Option.some.inj (hget.symm.trans hother)
      exact hsent htoken
    have hget₁ : s₁.requests.get? other = some pending := by
      rw [hrequests, get?_settleRefresh, SessionState.await, Table.get?_set_ne _ _ hne, hother,
        Option.map_some, if_neg fun hawaits => hsent hawaits.2]
    have hidle₁ : ∀ v, s₁.refreshes.get? v = none := fun v => by rw [hrefreshes, hsettled.idle]
    obtain ⟨events', s₂, hrun', hgone, hnone⟩ :=
      exists_lost (hwaits.run hrun) hidle₁ hget₁ fun v cookies hv => by
        rw [hchange] at hv
        obtain rfl := Option.some.inj hv
        rw [hendpoint, rotate_of_accepts haccepts, Bool.eq_false_iff]
        intro hagain
        rcases (accepts_rotated haccepts token).mp hagain with hnew | ⟨hsame, -⟩
        · have hle := (TokenEndpoint.accepts_iff.mp haccepts).1
          exact absurd (hnew ▸ hle) (Nat.not_succ_le_self _)
        · exact hsame rfl
    exact ⟨_, s₂, hrun.append hrun', hgone, hnone⟩
  · exact absurd hpending (hrefreshing.changes sent change)

/-- The condition leaves out nothing that is harmless: whenever a refresh is called for too late,
    the run can go on, without another call, until all responses have arrived and the session is
    lost. -/
theorem late_refresh_loses
    (h : sessionSystem.ReachableUnder (fun s event => s.refreshesInTime event = true) s)
    (hlate : s.refreshesInTime event = false) (hstep : s.step event = some s') :
    ∃ events s'', sessionSystem.Run s' events s'' ∧ s''.requests.rows = [] ∧ ¬s''.HasSession := by
  have halive := alive_of_reachableUnder h
  have hwaits : s'.Waits := (waits_of_reachable h.reachable).step hstep
  obtain ⟨id, request, token, rfl, hget, htoken, hidle, hcause⟩ := late_cases hlate
  rcases hcause with hrejected | ⟨sent, change, hpending⟩
  · exact exists_cleared halive hwaits hget htoken hidle hrejected hstep
  · cases haccepts : s.endpoint.accepts token with
    | false => exact exists_cleared halive hwaits hget htoken hidle haccepts hstep
    | true => exact exists_overtaken halive hwaits hget htoken hidle haccepts hpending hstep

end SessionState

end Denn.Web
