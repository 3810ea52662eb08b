import Denn.Proxy.ProviderToken
import Mathlib.Data.Int.GCD
import Mathlib.Tactic.Linarith

/-!
# Runs of the token clients

A rejected token comes back through the shared copy, which `ClearToken` leaves; and a token outlives its
expiry where the lifetime that is stored, or read back, is not what is left of it.
-/

namespace Denn.Proxy

open Denn.Core

variable {ι : Type} [DecidableEq ι] {s s' : TokenState ι} {event : TokenEvent ι} {p q : ι}
  {process : TokenProcess} {token : Token}

/-! ### Steps -/

namespace TokenState

/-- One step, with the phase of the process that takes it. -/
inductive Step (s : TokenState ι) : TokenEvent ι → TokenState ι → Prop
  | tick (duration : ℕ) : Step s (.tick duration) { s with now := s.now + duration }
  | call {p : ι} (hvalid : (s.processes p).tokenValid s.now = true) : Step s (.call p) s
  | get (p : ι) : Step s (.get p) (s.setPhase p (s.shared.elim .fetching .hit))
  | getFails (p : ι) : Step s (.getFails p) (s.setPhase p .fetching)
  | ttl {p : ι} {entry : TokenEntry} (hphase : (s.processes p).phase = .hit entry) :
      Step s (.ttl p) (s.setPhase p (.measured entry s.now s.sharedTTL))
  | ttlFails {p : ι} {entry : TokenEntry} (hphase : (s.processes p).phase = .hit entry) :
      Step s (.ttlFails p) (s.setPhase p (.measured entry s.now 0))
  | adopt {p : ι} {entry : TokenEntry} {readAt ttl : ℤ}
      (hphase : (s.processes p).phase = .measured entry readAt ttl) :
      Step s (.adopt p) (s.setProcess p
        { token := some entry.token
          tokenExpiry := some (s.now + if 0 < ttl then ttl else tokenBuffer) })
  | issue (p : ι) (value : String) (expiresIn : ℕ) : Step s (.issue p value expiresIn)
      { s.setPhase p (.issued ⟨value, s.now, expiresIn⟩) with
        rejected := s.rejected.filter (·.2 ≠ value) }
  | fetchFails (p : ι) : Step s (.fetchFails p) (s.setPhase p .idle)
  | set {p : ι} {token : Token} (hphase : (s.processes p).phase = .issued token) : Step s (.set p)
      { s.setPhase p (.stored token) with cache := some ⟨token, s.now, tokenTTL token.expiresIn⟩ }
  | setFails {p : ι} {token : Token} (hphase : (s.processes p).phase = .issued token) :
      Step s (.setFails p) (s.setPhase p (.stored token))
  | keep {p : ι} {token : Token} (hphase : (s.processes p).phase = .stored token) :
      Step s (.keep p) (s.setProcess p
        { token := some token, tokenExpiry := some (s.now + tokenTTL token.expiresIn) })
  | clearToken (p : ι) (value : String) : Step s (.clearToken p value)
      { s.setProcess p {} with rejected := (p, value) :: s.rejected }

theorem step_cases (h : s.step event = some s') : Step s event s' := by
  cases event with
  | tick duration =>
    cases h
    exact .tick duration
  | call p =>
    simp only [step, Bool.and_eq_true] at h
    split_ifs at h with hready
    cases h
    exact .call hready.2
  | get p =>
    simp only [step] at h
    split_ifs at h
    cases h
    exact .get p
  | getFails p =>
    simp only [step] at h
    split_ifs at h
    cases h
    exact .getFails p
  | ttl p =>
    simp only [step] at h
    split at h
    · next hphase =>
      cases h
      exact .ttl hphase
    · cases h
  | ttlFails p =>
    simp only [step] at h
    split at h
    · next hphase =>
      cases h
      exact .ttlFails hphase
    · cases h
  | adopt p =>
    simp only [step] at h
    split at h
    · next hphase =>
      cases h
      exact .adopt hphase
    · cases h
  | issue p value expiresIn =>
    simp only [step] at h
    split_ifs at h
    cases h
    exact .issue p value expiresIn
  | fetchFails p =>
    simp only [step] at h
    split_ifs at h
    cases h
    exact .fetchFails p
  | set p =>
    simp only [step] at h
    split at h
    · next hphase =>
      cases h
      exact .set hphase
    · cases h
  | setFails p =>
    simp only [step] at h
    split at h
    · next hphase =>
      cases h
      exact .setFails hphase
    · cases h
  | keep p =>
    simp only [step] at h
    split at h
    · next hphase =>
      cases h
      exact .keep hphase
    · cases h
  | clearToken p value =>
    simp only [step] at h
    split_ifs at h
    cases h
    exact .clearToken p value

end TokenState

/-! ### Rejected tokens -/

/-- The process has the token, or is about to. -/
def TokenProcess.Carries (process : TokenProcess) (token : Token) : Prop :=
  process.token = some token ∨ process.phase.token = some token

/-- A process reads a shared copy that it has rejected. -/
def TokenState.rereadsRejected (s : TokenState ι) : TokenEvent ι → Bool
  | .get p => s.shared.any fun entry => (p, entry.token.value) ∈ s.rejected
  | _ => false

/-- No process carries a token that it has rejected. -/
def TokenState.Clean (s : TokenState ι) : Prop :=
  ∀ p token, (s.processes p).Carries token → (p, token.value) ∉ s.rejected

namespace TokenState

lemma Clean.setProcess (h : s.Clean)
    (hprocess : ∀ token, process.Carries token → (p, token.value) ∉ s.rejected) :
    (s.setProcess p process).Clean := by
  intro q token hcarries
  by_cases hq : q = p
  · subst hq
    rw [processes_setProcess_self] at hcarries
    exact hprocess token hcarries
  · rw [processes_setProcess_ne _ _ hq] at hcarries
    exact h q token hcarries

lemma Clean.setPhase (h : s.Clean) {phase : RefreshPhase}
    (hphase : ∀ token, phase.token = some token → (p, token.value) ∉ s.rejected) :
    (s.setPhase p phase).Clean := by
  refine h.setProcess fun token hcarries => ?_
  rcases hcarries with htoken | hnew
  · exact h p token (.inl htoken)
  · exact hphase token hnew

/-- A phase that goes on with the token of the one before. -/
lemma Clean.setPhase_of_eq (h : s.Clean) {phase : RefreshPhase}
    (hphase : phase.token = (s.processes p).phase.token) : (s.setPhase p phase).Clean :=
  h.setPhase fun token htoken => h p token (.inr (hphase ▸ htoken))

lemma Clean.issue (h : s.Clean) (p : ι) (token : Token) :
    TokenState.Clean { s.setPhase p (.issued token) with
      rejected := s.rejected.filter (·.2 ≠ token.value) } := by
  intro q other hcarries hmem
  obtain ⟨hold, hne⟩ : (q, other.value) ∈ s.rejected ∧ _ := List.mem_filter.mp hmem
  change ((s.setPhase p (.issued token)).processes q).Carries other at hcarries
  by_cases hq : q = p
  · subst hq
    rw [TokenState.setPhase, processes_setProcess_self] at hcarries
    rcases hcarries with htoken | hnew
    · exact h q other (.inl htoken) hold
    · obtain rfl := Option.some.inj hnew
      simp at hne
  · rw [TokenState.setPhase, processes_setProcess_ne _ _ hq] at hcarries
    exact h q other hcarries hold

lemma Clean.clearToken (h : s.Clean) (p : ι) (value : String) :
    TokenState.Clean { s.setProcess p {} with rejected := (p, value) :: s.rejected } := by
  intro q token hcarries hmem
  change ((s.setProcess p {}).processes q).Carries token at hcarries
  by_cases hq : q = p
  · subst hq
    rw [processes_setProcess_self] at hcarries
    rcases hcarries with htoken | hnew
    · exact nomatch htoken
    · exact nomatch hnew
  · rw [processes_setProcess_ne _ _ hq] at hcarries
    rcases List.mem_cons.mp hmem with heq | hmem
    · exact hq (congrArg Prod.fst heq)
    · exact h q token hcarries hmem

/-- A token that a process takes over from its phase is the one it carried. -/
lemma Clean.takeOver (h : s.Clean) {expiry : Option ℤ}
    (htoken : (s.processes p).phase.token = some token) :
    (s.setProcess p { token := some token, tokenExpiry := expiry }).Clean := by
  refine h.setProcess fun other hcarries => h p other (.inr ?_)
  rcases hcarries with hother | hnew
  · exact htoken.trans hother
  · exact nomatch hnew

/-- A step keeps the processes clean unless it reads a rejected copy. -/
lemma Clean.step (h : s.Clean) (hok : s.rereadsRejected event = false) (hstep : s.step event = some s') :
    s'.Clean := by
  cases step_cases hstep with
  | tick duration => exact h
  | call hvalid => exact h
  | get p =>
    refine h.setPhase fun token htoken hmem => ?_
    cases hshared : s.shared with
    | none =>
      rw [hshared] at htoken
      exact nomatch htoken
    | some entry =>
      rw [hshared] at htoken
      obtain rfl := Option.some.inj htoken
      simp [rereadsRejected, hshared, hmem] at hok
  | getFails p => exact h.setPhase fun _ htoken => nomatch htoken
  | ttl hphase => exact h.setPhase_of_eq (by rw [hphase]; rfl)
  | ttlFails hphase => exact h.setPhase_of_eq (by rw [hphase]; rfl)
  | adopt hphase => exact h.takeOver (by rw [hphase]; rfl)
  | issue p value expiresIn => exact h.issue p ⟨value, s.now, expiresIn⟩
  | fetchFails p => exact h.setPhase fun _ htoken => nomatch htoken
  | set hphase => exact h.setPhase_of_eq (by rw [hphase]; rfl)
  | setFails hphase => exact h.setPhase_of_eq (by rw [hphase]; rfl)
  | keep hphase => exact h.takeOver (by rw [hphase]; rfl)
  | clearToken p value => exact h.clearToken p value

end TokenState

/-- What the lifetime that is stored leaves of `expires_in`: the buffer, or what is left of a minute. -/
def tokenSlack (expiresIn : ℤ) : ℤ :=
  if expiresIn < 300 then (expiresIn - 60) * second else tokenBuffer

/-- A lifetime of zero is stored for 300 seconds, and for what is the same in 64 bits. -/
def StoresLifetime (expiresIn : ℤ) : Prop := (expiresIn - 300) % 36028797018963968 ≠ 0

instance (expiresIn : ℤ) : Decidable (StoresLifetime expiresIn) :=
  inferInstanceAs (Decidable ((expiresIn - 300) % 36028797018963968 ≠ 0))

lemma tokenTTL_eq (expiresIn : ℤ) :
    tokenTTL expiresIn = if wrap ((expiresIn - 300) * second) < 0 then 60 * second
      else wrap ((expiresIn - 300) * second) := by
  have hdiff : expiresIn * second - tokenBuffer = (expiresIn - 300) * second := by
    rw [tokenBuffer, Int.sub_mul]
  simp only [tokenTTL, wrap_wrap_sub, hdiff]

lemma tokenTTL_le {expiresIn : ℤ} (h : 0 ≤ expiresIn) :
    tokenTTL expiresIn ≤ expiresIn * second - tokenSlack expiresIn := by
  rw [tokenTTL_eq, tokenSlack, tokenBuffer]
  by_cases hshort : expiresIn < 300
  · have hneg : wrap ((expiresIn - 300) * second) < 0 := by
      rw [wrap_eq_self (by rw [second, maxInt]; omega) (by rw [second, maxInt]; omega), second]
      omega
    rw [if_pos hneg, if_pos hshort, second]
    omega
  · have hle : wrap ((expiresIn - 300) * second) ≤ (expiresIn - 300) * second :=
      wrap_le_self (by rw [second]; omega)
    rw [if_neg hshort]
    split_ifs with hneg
    · have hlong : 360 ≤ expiresIn := by
        by_contra hlt
        rw [wrap_of_le (by rw [second]; omega) (by rw [second, maxInt]; omega), second] at hneg
        omega
      rw [second]
      omega
    · rw [second] at *
      omega

lemma tokenTTL_pos {expiresIn : ℤ} (h : StoresLifetime expiresIn) : 0 < tokenTTL expiresIn := by
  rw [StoresLifetime] at h
  have hne : wrap ((expiresIn - 300) * second) ≠ 0 := by
    intro hzero
    obtain ⟨k, hk⟩ := dvd_of_wrap_eq_zero hzero
    have hquotient : (expiresIn - 300) * 1953125 = 36028797018963968 * k := by
      rw [second] at hk
      linarith only [hk]
    have hdvd : 36028797018963968 ∣ expiresIn - 300 :=
      Int.dvd_of_dvd_mul_left_of_gcd_one (Dvd.intro k hquotient.symm) (by decide)
    exact h (Int.emod_eq_zero_of_dvd hdvd)
  rw [tokenTTL_eq]
  split_ifs with hneg
  · decide
  · exact lt_of_le_of_ne (not_lt.mp hneg) hne.symm

lemma tokenTTL_le_validUntil (token : Token) :
    token.issuedAt + tokenTTL token.expiresIn
      ≤ token.validUntil - tokenSlack token.expiresIn := by
  have hle := tokenTTL_le (Int.natCast_nonneg token.expiresIn)
  rw [Token.validUntil]
  omega

/-- Steps that take no longer than the slack of their token: its lifetime is stored, and the clock read,
    soon after the issue, `TTL` finds the entry that `Get` has returned, and the clock is read soon after
    `TTL`. -/
def TokenState.prompt (s : TokenState ι) : TokenEvent ι → Bool
  | .set p =>
    match (s.processes p).phase with
    | .issued token =>
      StoresLifetime token.expiresIn && s.now - token.issuedAt ≤ tokenSlack token.expiresIn
    | _ => true
  | .keep p =>
    match (s.processes p).phase with
    | .stored token => s.now - token.issuedAt ≤ tokenSlack token.expiresIn
    | _ => true
  | .ttl p =>
    match (s.processes p).phase with
    | .hit entry => s.shared = some entry
    | _ => true
  | .ttlFails _ => false
  | .adopt p =>
    match (s.processes p).phase with
    | .measured entry readAt _ =>
      (entry.storedAt - entry.token.issuedAt) + (s.now - readAt)
        ≤ tokenSlack entry.token.expiresIn
    | _ => true
  | _ => true

/-! ### What prompt steps keep -/

/-- The shared copy has the lifetime of its token. -/
structure TokenEntry.Timely (entry : TokenEntry) : Prop where
  ttl_eq : entry.ttl = tokenTTL entry.token.expiresIn
  ttl_pos : 0 < entry.ttl

lemma TokenEntry.timely_new (now : ℤ) (h : StoresLifetime token.expiresIn) :
    TokenEntry.Timely ⟨token, now, tokenTTL token.expiresIn⟩ where
  ttl_eq := by simp only
  ttl_pos := by
    simp only
    exact tokenTTL_pos h

/-- What has been read is the copy, with what was left of its lifetime. -/
def RefreshPhase.Timely : RefreshPhase → Prop
  | .hit entry => entry.Timely
  | .measured entry readAt ttl =>
    entry.Timely ∧ 0 < ttl ∧ readAt + ttl = entry.storedAt + entry.ttl
  | _ => True

/-- The process takes its token for expired in time. -/
structure TokenProcess.Timely (process : TokenProcess) : Prop where
  expiry : ∀ token, process.token = some token →
    ∃ expiry, process.tokenExpiry = some expiry ∧ expiry ≤ token.validUntil
  phase : process.phase.Timely

structure TokenState.Timely (s : TokenState ι) : Prop where
  processes : ∀ p, (s.processes p).Timely
  cache : ∀ entry, s.cache = some entry → entry.Timely

namespace TokenState

lemma Timely.setProcess (h : s.Timely) (hprocess : process.Timely) :
    (s.setProcess p process).Timely where
  processes q := by
    by_cases hq : q = p
    · subst hq
      rw [processes_setProcess_self]
      exact hprocess
    · rw [processes_setProcess_ne _ _ hq]
      exact h.processes q
  cache := h.cache

lemma Timely.setPhase (h : s.Timely) {phase : RefreshPhase} (hphase : phase.Timely) :
    (s.setPhase p phase).Timely :=
  h.setProcess ⟨(h.processes p).expiry, hphase⟩

omit [DecidableEq ι] in
lemma Timely.phase_eq (h : s.Timely) {phase : RefreshPhase}
    (hphase : (s.processes p).phase = phase) : phase.Timely := hphase ▸ (h.processes p).phase

omit [DecidableEq ι] in
lemma shared_cache {entry : TokenEntry} (h : s.shared = some entry) : s.cache = some entry :=
  (Option.filter_eq_some_iff.mp h).1

omit [DecidableEq ι] in
/-- What `TTL` reads for a copy with a lifetime. -/
lemma sharedTTL_eq {entry : TokenEntry} (h : s.shared = some entry) (hpos : 0 < entry.ttl) :
    0 < s.sharedTTL ∧ s.now + s.sharedTTL = entry.storedAt + entry.ttl := by
  have hlive := (Option.filter_eq_some_iff.mp h).2
  have hne : entry.ttl ≠ 0 := hpos.ne'
  simp only [TokenEntry.isLive, hne, decide_false, Bool.false_or, decide_eq_true_eq] at hlive
  have httl : s.sharedTTL = entry.storedAt + entry.ttl - s.now := by
    simp [sharedTTL, h, hne]
  omega

/-- The end of a measured lifetime is within the token's. -/
lemma measured_le_validUntil {entry : TokenEntry} {readAt ttl now : ℤ}
    (h : (RefreshPhase.measured entry readAt ttl).Timely)
    (hprompt : (entry.storedAt - entry.token.issuedAt) + (now - readAt)
      ≤ tokenSlack entry.token.expiresIn) : now + ttl ≤ entry.token.validUntil := by
  obtain ⟨hentry, -, hend⟩ := h
  have hle := tokenTTL_le_validUntil entry.token
  rw [hentry.ttl_eq] at hend
  omega

lemma stored_le_validUntil {now : ℤ}
    (hprompt : now - token.issuedAt ≤ tokenSlack token.expiresIn) :
    now + tokenTTL token.expiresIn ≤ token.validUntil := by
  have hle := tokenTTL_le_validUntil token
  omega

lemma Timely.step (h : s.Timely) (hok : s.prompt event = true) (hstep : s.step event = some s') :
    s'.Timely := by
  cases step_cases hstep with
  | tick duration => exact ⟨h.processes, h.cache⟩
  | call hvalid => exact h
  | get p =>
    refine h.setPhase ?_
    cases hshared : s.shared with
    | none => trivial
    | some entry => exact h.cache entry (shared_cache hshared)
  | getFails p => exact h.setPhase trivial
  | ttl hphase =>
    rename_i p entry
    have hentry : entry.Timely := h.phase_eq hphase
    simp only [prompt, hphase, decide_eq_true_eq] at hok
    exact h.setPhase ⟨hentry, sharedTTL_eq hok hentry.ttl_pos⟩
  | ttlFails hphase => exact nomatch hok
  | adopt hphase =>
    have hmeasured := h.phase_eq hphase
    refine h.setProcess ⟨fun token htoken => ?_, trivial⟩
    obtain rfl := Option.some.inj htoken
    simp only [prompt, hphase, decide_eq_true_eq] at hok
    rw [if_pos hmeasured.2.1]
    exact ⟨_, rfl, measured_le_validUntil hmeasured hok⟩
  | issue p value expiresIn =>
    have hissued : (s.setPhase p (.issued ⟨value, s.now, expiresIn⟩)).Timely := h.setPhase trivial
    exact ⟨hissued.processes, hissued.cache⟩
  | fetchFails p => exact h.setPhase trivial
  | set hphase =>
    rename_i p token
    have hstored : (s.setPhase p (.stored token)).Timely := h.setPhase trivial
    refine ⟨hstored.processes, fun entry hentry => ?_⟩
    rw [← Option.some.inj hentry]
    simp only [prompt, hphase, Bool.and_eq_true, decide_eq_true_eq] at hok
    exact TokenEntry.timely_new s.now hok.1
  | setFails hphase => exact h.setPhase trivial
  | keep hphase =>
    refine h.setProcess ⟨fun other hother => ?_, trivial⟩
    obtain rfl := Option.some.inj hother
    simp only [prompt, hphase, decide_eq_true_eq] at hok
    exact ⟨_, rfl, stored_le_validUntil hok⟩
  | clearToken p value =>
    have hcleared : (s.setProcess p {}).Timely := h.setProcess ⟨nofun, trivial⟩
    exact ⟨hcleared.processes, hcleared.cache⟩

end TokenState

end Denn.Proxy
