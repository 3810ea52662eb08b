import Denn.Core.Table
import Denn.Core.Transition

/-!
# Session cookies and token rotation

The cookies of one browser, the requests it has in flight, and the refreshes that the server has in
flight for them. A refresh token is accepted once. Each response carries the cookie changes that its
request has made, and the browser applies them in the order in which the responses arrive.
-/

namespace Denn.Web

open Denn.Core

abbrev RequestId := ℕ
abbrev AccessToken := ℕ

/-- Refresh tokens are numbered in the order in which they are issued. -/
abbrev RefreshToken := ℕ

structure AuthTokens where
  access : AccessToken
  refresh : RefreshToken
  deriving DecidableEq, Repr

/-- The cookies `auth-token` and `refresh-token`. -/
structure AuthCookies where
  access : Option AccessToken := none
  refresh : Option RefreshToken := none
  deriving DecidableEq, Repr

/-! ### The token endpoint -/

/-- The endpoint under `ROTATE_REFRESH_TOKENS` and `BLACKLIST_AFTER_ROTATION`: the number of the
    latest token, and the tokens that have been rotated. -/
structure TokenEndpoint where
  issued : ℕ := 0
  blacklist : List RefreshToken := []
  issued_of_blacklisted : ∀ token ∈ blacklist, token ≤ issued := by simp

/-- What is read of the answer of the endpoint. -/
structure RefreshResponse where
  status : ℕ
  access : Option AccessToken := none
  refresh : Option RefreshToken := none
  refreshCookie : Option RefreshToken := none
  deriving DecidableEq, Repr

namespace TokenEndpoint

variable (e : TokenEndpoint)

def accepts (token : RefreshToken) : Bool := token ≤ e.issued && token ∉ e.blacklist

variable {e} in
lemma accepts_iff {token : RefreshToken} :
    e.accepts token = true ↔ token ≤ e.issued ∧ token ∉ e.blacklist := by
  rw [accepts, Bool.and_eq_true, decide_eq_true_eq, decide_eq_true_eq]

/-- The endpoint after it has accepted a token. -/
def rotated (token : RefreshToken) (h : e.accepts token = true) : TokenEndpoint where
  issued := e.issued + 1
  blacklist := token :: e.blacklist
  issued_of_blacklisted other hother := by
    rcases List.mem_cons.mp hother with rfl | hold
    · exact (accepts_iff.mp h).1.trans (Nat.le_succ _)
    · exact (e.issued_of_blacklisted other hold).trans (Nat.le_succ _)

/-- `POST /auth/token/refresh/`. The new refresh token comes in a cookie. -/
def rotate (token : RefreshToken) : TokenEndpoint × RefreshResponse :=
  if h : e.accepts token = true then
    (e.rotated token h,
      { status := 200, access := some (e.issued + 1), refreshCookie := some (e.issued + 1) })
  else (e, { status := 401 })

end TokenEndpoint

/-- What `requestRotatedTokens` makes of the answer; `none` is a rejected token. -/
def rotatedTokens (response : RefreshResponse) : Except String (Option AuthTokens) :=
  if response.status = 401 then .ok none
  else if ¬(200 ≤ response.status ∧ response.status ≤ 299) then
    .error ("Failed to refresh auth token (" ++ toString response.status ++ ")")
  else
    match response.access with
    | none => .error "Refresh response did not include an access token"
    | some access =>
      match response.refreshCookie.or response.refresh with
      | none => .error "Refresh response did not include a refresh token"
      | some refresh => .ok (some { access, refresh })

/-! ### Requests -/

/-- The `Set-Cookie` headers of a response. -/
inductive CookieChange where
  | set (tokens : AuthTokens)
  | clear
  deriving DecidableEq, Repr

def AuthCookies.apply (cookies : AuthCookies) : Option CookieChange → AuthCookies
  | none => cookies
  | some (.set tokens) => { access := some tokens.access, refresh := some tokens.refresh }
  | some .clear => {}

/-- A request that is not answered yet: the cookies it was sent with, the last cookie change it has
    made, and whether it awaits the refresh of its token. -/
structure SessionRequest where
  cookies : AuthCookies
  change : Option CookieChange := none
  awaiting : Bool := false
  deriving DecidableEq, Repr

/-- `refreshAuthCookies` goes on when the answer is there. An answer that cannot be read is thrown,
    and changes no cookie. -/
def SessionRequest.resume (request : SessionRequest) (response : RefreshResponse) :
    SessionRequest :=
  match rotatedTokens response with
  | .error _ => { request with awaiting := false }
  | .ok none => { request with awaiting := false, change := some .clear }
  | .ok (some tokens) => { request with awaiting := false, change := some (.set tokens) }

/-! ### The system -/

/-- `refreshes` has the refreshes in flight by their token, with the answer if the endpoint has
    given it already. -/
structure SessionState where
  browser : AuthCookies
  requests : Table RequestId SessionRequest := .empty
  refreshes : Table RefreshToken (Option RefreshResponse) := .empty
  endpoint : TokenEndpoint

inductive SessionEvent where
  | send (id : RequestId)
  /-- The handler of the request calls `refreshAuthCookies`. -/
  | refresh (id : RequestId)
  /-- The endpoint handles a refresh. -/
  | answer (token : RefreshToken)
  /-- The server receives the answer. -/
  | settle (token : RefreshToken)
  | arrive (id : RequestId)
  deriving DecidableEq, Repr

namespace SessionState

variable (s : SessionState)

/-- `refreshAuthCookies`, up to where it awaits the tokens: a refresh that is in flight is shared. -/
def refreshAuthCookies (id : RequestId) (request : SessionRequest) : SessionState :=
  match request.cookies.refresh with
  | none => s
  | some refreshToken =>
    { s with
      requests := s.requests.set id { request with awaiting := true }
      refreshes :=
        if (s.refreshes.get? refreshToken).isSome then s.refreshes
        else s.refreshes.set refreshToken none }

/-- The endpoint answers a refresh. -/
def answerRefresh (token : RefreshToken) : SessionState :=
  let answered := s.endpoint.rotate token
  { s with endpoint := answered.1, refreshes := s.refreshes.set token (some answered.2) }

/-- The refresh is taken out of the map, and all that await it go on. -/
def settleRefresh (token : RefreshToken) (response : RefreshResponse) : SessionState :=
  { s with
    refreshes := s.refreshes.delete token
    requests := s.requests.updateWhere
      (fun _ request => request.awaiting && request.cookies.refresh = some token)
      fun _ request => request.resume response }

/-- The response of a request arrives. -/
def arriveResponse (id : RequestId) (request : SessionRequest) : SessionState :=
  { s with browser := s.browser.apply request.change, requests := s.requests.delete id }

def step : SessionEvent → Option SessionState
  | .send id =>
    match s.requests.get? id with
    | some _ => none
    | none => some { s with requests := s.requests.set id { cookies := s.browser } }
  | .refresh id => (s.requests.get? id).map fun request => s.refreshAuthCookies id request
  | .answer token =>
    match s.refreshes.get? token with
    | some none => some (s.answerRefresh token)
    | _ => none
  | .settle token =>
    match s.refreshes.get? token with
    | some (some response) => some (s.settleRefresh token response)
    | _ => none
  | .arrive id =>
    match s.requests.get? id with
    | none => none
    | some request => if request.awaiting then none else some (s.arriveResponse id request)

/-- The browser holds a refresh token that the endpoint would accept. -/
def HasSession : Prop := ∃ token, s.browser.refresh = some token ∧ s.endpoint.accepts token = true

end SessionState

/-- One browser with a live session and nothing in flight. -/
def sessionSystem : TransitionSystem SessionState SessionEvent where
  initial s := s.HasSession ∧ s.requests = .empty ∧ s.refreshes = .empty
  step := SessionState.step

/-! ### Steps -/

variable {s s' : SessionState} {event : SessionEvent} {token : RefreshToken}

namespace SessionState

/-- The request awaits the refresh of its token. -/
def await (s : SessionState) (id : RequestId) (request : SessionRequest) : SessionState :=
  { s with requests := s.requests.set id { request with awaiting := true } }

/-- One step. A call of `refreshAuthCookies` finds no token, joins a refresh or starts one. -/
inductive Step (s : SessionState) : SessionEvent → SessionState → Prop
  | send {id : RequestId} (hfree : s.requests.get? id = none) :
      Step s (.send id) { s with requests := s.requests.set id { cookies := s.browser } }
  | anonymous {id : RequestId} {request : SessionRequest} (hget : s.requests.get? id = some request)
      (hnone : request.cookies.refresh = none) : Step s (.refresh id) s
  | join {id : RequestId} {request : SessionRequest} {token : RefreshToken}
      {response : Option RefreshResponse} (hget : s.requests.get? id = some request)
      (htoken : request.cookies.refresh = some token)
      (hflight : s.refreshes.get? token = some response) : Step s (.refresh id) (s.await id request)
  | start {id : RequestId} {request : SessionRequest} {token : RefreshToken}
      (hget : s.requests.get? id = some request) (htoken : request.cookies.refresh = some token)
      (hidle : s.refreshes.get? token = none) :
      Step s (.refresh id) { s.await id request with refreshes := s.refreshes.set token none }
  | answer {token : RefreshToken} (hflight : s.refreshes.get? token = some none) :
      Step s (.answer token) (s.answerRefresh token)
  | settle {token : RefreshToken} {response : RefreshResponse}
      (hflight : s.refreshes.get? token = some (some response)) :
      Step s (.settle token) (s.settleRefresh token response)
  | arrive {id : RequestId} {request : SessionRequest} (hget : s.requests.get? id = some request)
      (hdone : request.awaiting = false) : Step s (.arrive id) (s.arriveResponse id request)

theorem step_cases (h : s.step event = some s') : Step s event s' := by
  cases event with
  | send id =>
    simp only [step] at h
    split at h
    · cases h
    · next hfree =>
      cases h
      exact .send hfree
  | refresh id =>
    obtain ⟨request, hget, rfl⟩ := Option.map_eq_some_iff.mp h
    rw [refreshAuthCookies]
    cases htoken : request.cookies.refresh with
    | none => exact .anonymous hget htoken
    | some token =>
      dsimp only
      split_ifs with hflight
      · obtain ⟨response, hresponse⟩ := Option.isSome_iff_exists.mp hflight
        exact .join hget htoken hresponse
      · exact .start hget htoken (Option.not_isSome_iff_eq_none.mp hflight)
  | answer token =>
    simp only [step] at h
    split at h
    · next hflight =>
      cases h
      exact .answer hflight
    · cases h
  | settle token =>
    simp only [step] at h
    split at h
    · next hflight =>
      cases h
      exact .settle hflight
    · cases h
  | arrive id =>
    simp only [step] at h
    split at h
    · cases h
    · next hget =>
      split_ifs at h with hdone
      cases h
      exact .arrive hget (Bool.not_eq_true _ ▸ hdone)

/-! ### The tokens of a session -/

/-- The browser or a request holds the token. -/
def Holds (s : SessionState) (token : RefreshToken) : Prop :=
  s.browser.refresh = some token ∨
  ∃ id request, s.requests.get? id = some request ∧ request.cookies.refresh = some token

/-- The response of a request in flight, sent with the cookies, will make the change. -/
def Pending (s : SessionState) (sent : AuthCookies) (change : CookieChange) : Prop :=
  ∃ id request, s.requests.get? id = some request ∧ request.cookies = sent ∧
    request.change = some change

/-- A request in flight awaits the refresh of the token. -/
def Awaited (s : SessionState) (token : RefreshToken) : Prop :=
  ∃ id request, s.requests.get? id = some request ∧ request.awaiting = true ∧
    request.cookies.refresh = some token

end SessionState

end Denn.Web
