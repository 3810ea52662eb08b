import Denn.Core.GoInt
import Denn.Core.Transition
import Mathlib.Logic.Function.Basic

/-!
# Provider tokens

The token of the IGDB and the Spotify client, in any number of proxy processes that share a cache. A
process keeps a token in memory, under a lock; without a valid one it reads the shared copy with what
is left of its lifetime, or asks the token endpoint and stores what it gets. Each access to the cache,
to the endpoint and to the clock is a step of its own. Times are numbers of nanoseconds.
-/

namespace Denn.Proxy

open Denn.Core

/-- `time.Second`. -/
def second : ℤ := 1000000000

/-- `TokenBuffer`. -/
def tokenBuffer : ℤ := 300 * second

/-- A token with its issue, of which the processes know the text only. -/
structure Token where
  value : String
  issuedAt : ℤ
  expiresIn : ℕ
  deriving DecidableEq

def Token.validUntil (token : Token) : ℤ := token.issuedAt + token.expiresIn * second

/-- The lifetime that a new token is stored with. -/
def tokenTTL (expires : ℤ) : ℤ :=
  let ttl := wrap (wrap (expires * second) - tokenBuffer)
  if ttl < 0 then 60 * second else ttl

/-- The shared copy; with a lifetime of zero it never expires. -/
structure TokenEntry where
  token : Token
  storedAt : ℤ
  ttl : ℤ
  deriving DecidableEq

def TokenEntry.isLive (entry : TokenEntry) (now : ℤ) : Bool :=
  entry.ttl = 0 || now < entry.storedAt + entry.ttl

/-- Where `getOrRefreshToken` is while it holds the lock. -/
inductive RefreshPhase where
  | idle
  /-- `Get` has returned the shared copy. -/
  | hit (entry : TokenEntry)
  /-- `TTL` has returned. -/
  | measured (entry : TokenEntry) (readAt : ℤ) (ttl : ℤ)
  | fetching
  | issued (token : Token)
  /-- `Set` has returned. -/
  | stored (token : Token)
  deriving DecidableEq

/-- The token that is about to become the process's. -/
def RefreshPhase.token : RefreshPhase → Option Token
  | .hit entry | .measured entry _ _ => some entry.token
  | .issued token | .stored token => some token
  | .idle | .fetching => none

structure TokenProcess where
  token : Option Token := none
  tokenExpiry : Option ℤ := none
  phase : RefreshPhase := .idle

/-- `rejected` is kept for the statements only: the tokens that a process has cleared after a
    rejection and that have not been issued again since. -/
structure TokenState (ι : Type) where
  now : ℤ := 0
  processes : ι → TokenProcess := fun _ => {}
  cache : Option TokenEntry := none
  rejected : List (ι × String) := []

inductive TokenEvent (ι : Type) where
  | tick (duration : ℕ)
  /-- A call takes the valid token of its process. -/
  | call (process : ι)
  | get (process : ι)
  | getFails (process : ι)
  | ttl (process : ι)
  | ttlFails (process : ι)
  /-- The shared copy becomes the process's token, and a call takes it. -/
  | adopt (process : ι)
  | issue (process : ι) (value : String) (expiresIn : ℕ)
  | fetchFails (process : ι)
  | set (process : ι)
  | setFails (process : ι)
  /-- The issued token becomes the process's, and a call takes it. -/
  | keep (process : ι)
  /-- A call with the token has been answered 401 or 403, and its service calls `ClearToken`. -/
  | clearToken (process : ι) (value : String)

/-- `tokenValid`. -/
def TokenProcess.tokenValid (process : TokenProcess) (now : ℤ) : Bool :=
  process.token.any (·.value ≠ "") && process.tokenExpiry.all (now < ·)

namespace TokenState

variable {ι : Type} [DecidableEq ι]

/-- The shared copy, unless it is gone. -/
def shared (s : TokenState ι) : Option TokenEntry := s.cache.filter (·.isLive s.now)

/-- `TTL`, which is not positive for a key that has no expiry or is not there. -/
def sharedTTL (s : TokenState ι) : ℤ :=
  match s.shared with
  | some entry => if entry.ttl = 0 then -1 else entry.storedAt + entry.ttl - s.now
  | none => -2

def setProcess (s : TokenState ι) (p : ι) (process : TokenProcess) : TokenState ι :=
  { s with processes := Function.update s.processes p process }

def setPhase (s : TokenState ι) (p : ι) (phase : RefreshPhase) : TokenState ι :=
  s.setProcess p { s.processes p with phase }

@[simp] lemma processes_setProcess_self (s : TokenState ι) (p : ι) (process : TokenProcess) :
    (s.setProcess p process).processes p = process := Function.update_self ..

lemma processes_setProcess_ne (s : TokenState ι) {p q : ι} (process : TokenProcess) (h : q ≠ p) :
    (s.setProcess p process).processes q = s.processes q := Function.update_of_ne h ..

/-- The lock is free and the process has no valid token. -/
def needsToken (s : TokenState ι) (p : ι) : Bool :=
  (s.processes p).phase = .idle && !(s.processes p).tokenValid s.now

def step (s : TokenState ι) : TokenEvent ι → Option (TokenState ι)
  | .tick duration => some { s with now := s.now + duration }
  | .call p =>
    if (s.processes p).phase = .idle && (s.processes p).tokenValid s.now then some s else none
  | .get p =>
    if s.needsToken p then some (s.setPhase p (s.shared.elim .fetching .hit)) else none
  | .getFails p => if s.needsToken p then some (s.setPhase p .fetching) else none
  | .ttl p =>
    match (s.processes p).phase with
    | .hit entry => some (s.setPhase p (.measured entry s.now s.sharedTTL))
    | _ => none
  | .ttlFails p =>
    match (s.processes p).phase with
    | .hit entry => some (s.setPhase p (.measured entry s.now 0))
    | _ => none
  | .adopt p =>
    match (s.processes p).phase with
    | .measured entry _ ttl => some (s.setProcess p
        { token := some entry.token
          tokenExpiry := some (s.now + if 0 < ttl then ttl else tokenBuffer) })
    | _ => none
  | .issue p value expiresIn =>
    if (s.processes p).phase = .fetching && expiresIn ≤ maxInt then
      some { s.setPhase p (.issued ⟨value, s.now, expiresIn⟩) with
        rejected := s.rejected.filter (·.2 ≠ value) }
    else none
  | .fetchFails p =>
    if (s.processes p).phase = .fetching then some (s.setPhase p .idle) else none
  | .set p =>
    match (s.processes p).phase with
    | .issued token => some { s.setPhase p (.stored token) with
        cache := some ⟨token, s.now, tokenTTL token.expiresIn⟩ }
    | _ => none
  | .setFails p =>
    match (s.processes p).phase with
    | .issued token => some (s.setPhase p (.stored token))
    | _ => none
  | .keep p =>
    match (s.processes p).phase with
    | .stored token => some (s.setProcess p
        { token := some token, tokenExpiry := some (s.now + tokenTTL token.expiresIn) })
    | _ => none
  | .clearToken p value =>
    if (s.processes p).phase = .idle then
      some { s.setProcess p {} with rejected := (p, value) :: s.rejected }
    else none

/-- The call that a step sends, with its token. -/
def sent (s : TokenState ι) : TokenEvent ι → Option (ι × Token)
  | .call p => (s.processes p).token.map (p, ·)
  | .adopt p =>
    match (s.processes p).phase with
    | .measured entry _ _ => some (p, entry.token)
    | _ => none
  | .keep p =>
    match (s.processes p).phase with
    | .stored token => some (p, token)
    | _ => none
  | _ => none

end TokenState

end Denn.Proxy
