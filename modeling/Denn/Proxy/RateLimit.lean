import Denn.Core.Transition
import Denn.Proxy.ProviderToken
import Mathlib.Data.List.Nodup
import Mathlib.Data.List.Perm.Subperm
import Mathlib.Data.List.Range

/-!
# The rate limit

The requests of one client address over its counter in the cache. A request increments the counter,
and the request that has read the count 1 sets the expiry by a second call. Both calls can fail, and
the requests of the address, in any number of processes, overlap.
-/

namespace Denn.Proxy

open Denn.Core

/-- `1*time.Minute`. -/
def rateLimitWindow : ℤ := 60 * second

/-! ### The middleware -/

structure RateLimitRejection where
  status : ℕ := 429
  error : String := "RATE_LIMIT_EXCEEDED"
  message : String := "Rate limit exceeded"
  deriving DecidableEq

/-- The headers that are set, and the response if the request goes no further. -/
structure RateLimitAnswer where
  degraded : Option String := none
  limit : Option ℤ := none
  remaining : Option ℤ := none
  rejection : Option RateLimitRejection := none
  deriving DecidableEq

def RateLimitAnswer.admits (answer : RateLimitAnswer) : Bool := answer.rejection.isNone

/-- `RateLimitMiddleware`, with the reply of `Incr`. -/
def rateLimit (limit : ℤ) (isNoOp : Bool) (incr : Option ℕ) : RateLimitAnswer :=
  if limit ≤ 0 then {}
  else if isNoOp then { degraded := some "noop-cache" }
  else
    match incr with
    | none => { degraded := some "cache-error" }
    | some count =>
      { limit := some limit
        remaining := some (max (limit - count) 0)
        rejection := if limit < count then some {} else none }

/-- An unavailable cache never rejects a request. -/
lemma rateLimit_none_admits (limit : ℤ) (isNoOp : Bool) :
    (rateLimit limit isNoOp none).admits = true := by
  rw [rateLimit]
  split_ifs <;> rfl

lemma rateLimit_admits_iff {limit : ℤ} (hlimit : 0 < limit) (count : ℕ) :
    (rateLimit limit false (some count)).admits = true ↔ (count : ℤ) ≤ limit := by
  have hpos : ¬ limit ≤ 0 := by omega
  by_cases hcount : limit < (count : ℤ)
  · simp [rateLimit, RateLimitAnswer.admits, hpos, hcount]
  · simp [rateLimit, RateLimitAnswer.admits, hpos, hcount, not_lt.mp hcount]

/-! ### The counter -/

structure RateCounter where
  count : ℕ
  expiresAt : Option ℤ
  deriving DecidableEq

def RateCounter.isLive (counter : RateCounter) (now : ℤ) : Bool := counter.expiresAt.all (now < ·)

/-- A count that `Incr` has returned, with the lifetime of the key. -/
structure RateReply where
  lifetime : ℕ
  count : ℕ
  deriving DecidableEq

/-- `lifetime` and `replies` are kept for the statements only: how many times the key has been created,
    and the counts that requests have read. -/
structure RateLimitState (ι : Type) where
  now : ℤ := 0
  counter : Option RateCounter := none
  /-- The request has read the count 1 and has not called `Expire` yet. -/
  creating : ι → Bool := fun _ => false
  lifetime : ℕ := 0
  replies : List RateReply := []

inductive RateLimitEvent (ι : Type) where
  | tick (duration : ℕ)
  | incr (request : ι)
  /-- The cache has counted the request, and the reply is lost. -/
  | incrLost (request : ι)
  | incrFails (request : ι)
  | expire (request : ι)
  | expireFails (request : ι)

namespace RateLimitState

variable {ι : Type} [DecidableEq ι]

/-- The counter, unless it is gone. -/
def live (s : RateLimitState ι) : Option RateCounter := s.counter.filter (·.isLive s.now)

/-- `INCR`, which creates the key without an expiry and keeps the expiry of one that is there. -/
def incremented (s : RateLimitState ι) : RateCounter :=
  match s.live with
  | some counter => { counter with count := counter.count + 1 }
  | none => ⟨1, none⟩

def counted (s : RateLimitState ι) : RateLimitState ι :=
  { s with
    counter := some s.incremented
    lifetime := if s.live.isNone then s.lifetime + 1 else s.lifetime }

/-- The answer to a request that is counted now. -/
def answer (s : RateLimitState ι) (limit : ℤ) : RateLimitAnswer :=
  rateLimit limit false (some s.incremented.count)

def step (limit : ℤ) (s : RateLimitState ι) : RateLimitEvent ι → Option (RateLimitState ι)
  | .tick duration => some { s with now := s.now + duration }
  | .incr i =>
    if 0 < limit && !s.creating i then
      some { s.counted with
        creating := Function.update s.creating i (s.incremented.count = 1)
        replies := ⟨s.counted.lifetime, s.incremented.count⟩ :: s.replies }
    else none
  | .incrLost i => if 0 < limit && !s.creating i then some s.counted else none
  | .incrFails i => if 0 < limit && !s.creating i then some s else none
  | .expire i =>
    if s.creating i then
      some { s with
        counter := s.live.map ({ · with expiresAt := some (s.now + rateLimitWindow) })
        creating := Function.update s.creating i false }
    else none
  | .expireFails i =>
    if s.creating i then some { s with creating := Function.update s.creating i false } else none

end RateLimitState

/-- The requests of one client address. -/
def rateLimitSystem (limit : ℤ) (ι : Type) [DecidableEq ι] :
    TransitionSystem (RateLimitState ι) (RateLimitEvent ι) where
  initial s := s = {}
  step s event := s.step limit event

variable {ι : Type} [DecidableEq ι] {limit : ℤ} {s s' : RateLimitState ι} {event : RateLimitEvent ι}

namespace RateLimitState

/-! ### Steps -/

/-- One step, with what its request has done before. -/
inductive Step (s : RateLimitState ι) : RateLimitEvent ι → RateLimitState ι → Prop
  | tick (duration : ℕ) : Step s (.tick duration) { s with now := s.now + duration }
  | incr {i : ι} (hidle : s.creating i = false) : Step s (.incr i)
      { s.counted with
        creating := Function.update s.creating i (s.incremented.count = 1)
        replies := ⟨s.counted.lifetime, s.incremented.count⟩ :: s.replies }
  | incrLost (i : ι) : Step s (.incrLost i) s.counted
  | incrFails (i : ι) : Step s (.incrFails i) s
  | expire {i : ι} (hcreating : s.creating i = true) : Step s (.expire i)
      { s with
        counter := s.live.map ({ · with expiresAt := some (s.now + rateLimitWindow) })
        creating := Function.update s.creating i false }
  | expireFails {i : ι} (hcreating : s.creating i = true) : Step s (.expireFails i)
      { s with creating := Function.update s.creating i false }

theorem step_cases (h : s.step limit event = some s') : Step s event s' := by
  cases event with
  | tick duration =>
    cases h
    exact .tick duration
  | incr i =>
    simp only [step, Bool.and_eq_true, Bool.not_eq_true'] at h
    split_ifs at h with hready
    cases h
    exact .incr hready.2
  | incrLost i =>
    simp only [step] at h
    split_ifs at h
    cases h
    exact .incrLost i
  | incrFails i =>
    simp only [step] at h
    split_ifs at h
    cases h
    exact .incrFails i
  | expire i =>
    simp only [step] at h
    split_ifs at h with hcreating
    cases h
    exact .expire hcreating
  | expireFails i =>
    simp only [step] at h
    split_ifs at h with hcreating
    cases h
    exact .expireFails hcreating

omit [DecidableEq ι] in
lemma live_eq_some {counter : RateCounter} :
    s.live = some counter ↔ s.counter = some counter ∧ counter.isLive s.now = true :=
  Option.filter_eq_some_iff

omit [DecidableEq ι] in
lemma incremented_of_live {counter : RateCounter} (h : s.live = some counter) :
    s.incremented = { counter with count := counter.count + 1 } := by
  rw [incremented, h]

omit [DecidableEq ι] in
lemma incremented_of_not_live (h : s.live = none) : s.incremented = ⟨1, none⟩ := by
  rw [incremented, h]

omit [DecidableEq ι] in
lemma live_counted : s.counted.live = some s.incremented := by
  refine live_eq_some.mpr ⟨rfl, ?_⟩
  cases hlive : s.live with
  | none =>
    rw [incremented_of_not_live hlive]
    rfl
  | some counter =>
    rw [incremented_of_live hlive]
    exact (live_eq_some.mp hlive).2

omit [DecidableEq ι] in
/-- A counter that is there later is there now. -/
lemma live_of_live_later {duration : ℕ} {counter : RateCounter}
    (h : RateLimitState.live { s with now := s.now + duration } = some counter) :
    s.live = some counter := by
  obtain ⟨hcounter, hlive⟩ := live_eq_some.mp h
  refine live_eq_some.mpr ⟨hcounter, ?_⟩
  simp only [RateCounter.isLive, Option.all_eq_true, decide_eq_true_eq] at hlive ⊢
  intro t ht
  have hlater := hlive t ht
  omega

/-! ### The expiry -/

/-- A counter that is there has an expiry within the window, or the request that has created it is
    about to set one. -/
def Expires (s : RateLimitState ι) : Prop :=
  ∀ counter, s.live = some counter → (∃ i, s.creating i = true) ∨
    ∃ t, counter.expiresAt = some t ∧ t ≤ s.now + rateLimitWindow

/-- No reply is lost that would have told a request to set the expiry, and no expiry fails to be set. -/
def setsExpiry (s : RateLimitState ι) : RateLimitEvent ι → Bool
  | .incrLost _ => s.live.isSome
  | .expireFails _ => false
  | _ => true

omit [DecidableEq ι] in
/-- Counting a request leaves the expiry of a counter that is there. -/
lemma Expires.counted (h : s.Expires) (hlive : s.live.isSome = true) : s.counted.Expires := by
  obtain ⟨old, hold⟩ := Option.isSome_iff_exists.mp hlive
  intro counter hcounter
  rw [live_counted, incremented_of_live hold] at hcounter
  rw [← Option.some.inj hcounter]
  exact h old hold

lemma Expires.step (h : s.Expires) (hok : s.setsExpiry event = true)
    (hstep : s.step limit event = some s') : s'.Expires := by
  cases step_cases hstep with
  | tick duration =>
    intro counter hcounter
    rcases h counter (live_of_live_later hcounter) with hcreating | ⟨t, ht, hle⟩
    · exact .inl hcreating
    · refine .inr ⟨t, ht, ?_⟩
      change t ≤ s.now + duration + rateLimitWindow
      omega
  | @incr i hidle =>
    intro counter hcounter
    change s.counted.live = some counter at hcounter
    cases hlive : s.live with
    | none =>
      -- The request has created the key.
      refine .inl ⟨i, ?_⟩
      rw [incremented_of_not_live hlive]
      exact Function.update_self ..
    | some old =>
      rcases h.counted (by rw [hlive]; rfl) counter hcounter with ⟨j, hj⟩ | hexpiry
      · have hne : j ≠ i := by
          rintro rfl
          exact absurd (hidle.symm.trans hj) Bool.false_ne_true
        exact .inl ⟨j, (Function.update_of_ne hne ..).trans hj⟩
      · exact .inr hexpiry
  | incrLost i => exact h.counted hok
  | incrFails i => exact h
  | expire hcreating =>
    intro counter hcounter
    obtain ⟨old, -, rfl⟩ := Option.map_eq_some_iff.mp (live_eq_some.mp hcounter).1
    exact .inr ⟨_, rfl, le_rfl⟩
  | expireFails hcreating => exact nomatch hok

omit [DecidableEq ι] in
/-- After a quiet window the counter is gone. -/
lemma Expires.live_later (h : s.Expires) (hidle : ∀ i, s.creating i = false) {duration : ℕ}
    (hquiet : rateLimitWindow ≤ duration) :
    RateLimitState.live { s with now := s.now + duration } = none := by
  refine Option.eq_none_iff_forall_ne_some.mpr fun counter hcounter => ?_
  rcases h counter (live_of_live_later hcounter) with ⟨i, hi⟩ | ⟨t, ht, hle⟩
  · exact absurd ((hidle i).symm.trans hi) Bool.false_ne_true
  · have hlive := (live_eq_some.mp hcounter).2
    simp only [RateCounter.isLive, ht, Option.all_some, decide_eq_true_eq] at hlive
    omega

/-! ### The counts -/

/-- The counts that requests have read are told apart by their lifetime and their number. -/
structure Counts (s : RateLimitState ι) : Prop where
  nodup : s.replies.Nodup
  pos : ∀ reply ∈ s.replies, 1 ≤ reply.count
  lifetime_le : ∀ reply ∈ s.replies, reply.lifetime ≤ s.lifetime
  count_le : ∀ reply ∈ s.replies, reply.lifetime = s.lifetime →
    ∀ counter, s.live = some counter → reply.count ≤ counter.count

omit [DecidableEq ι] in
lemma Counts.lt_incremented (h : s.Counts) {reply : RateReply} (hreply : reply ∈ s.replies)
    (hlifetime : reply.lifetime = s.counted.lifetime) : reply.count < s.incremented.count := by
  have hle := h.lifetime_le reply hreply
  cases hlive : s.live with
  | none =>
    simp only [RateLimitState.counted, hlive, Option.isNone_none, if_true] at hlifetime
    omega
  | some counter =>
    simp only [RateLimitState.counted, hlive, Option.isNone_some, Bool.false_eq_true, if_false]
      at hlifetime
    rw [incremented_of_live hlive]
    exact Nat.lt_succ_of_le (h.count_le reply hreply hlifetime counter hlive)

omit [DecidableEq ι] in
lemma lifetime_le_counted : s.lifetime ≤ s.counted.lifetime := by
  simp only [counted]
  split_ifs
  · exact Nat.le_succ _
  · exact le_rfl

omit [DecidableEq ι] in
lemma incremented_pos : 1 ≤ s.incremented.count := by
  cases hlive : s.live with
  | none => rw [incremented_of_not_live hlive]
  | some counter =>
    rw [incremented_of_live hlive]
    exact Nat.le_add_left ..

omit [DecidableEq ι] in
lemma Counts.counted (h : s.Counts) : s.counted.Counts where
  nodup := h.nodup
  pos := h.pos
  lifetime_le reply hreply := (h.lifetime_le reply hreply).trans lifetime_le_counted
  count_le reply hreply hlifetime counter hcounter := by
    rw [live_counted] at hcounter
    rw [← Option.some.inj hcounter]
    exact (h.lt_incremented hreply hlifetime).le

omit [DecidableEq ι] in
lemma Counts.incr (h : s.Counts) {creating : ι → Bool} :
    Counts { s.counted with
      creating := creating
      replies := ⟨s.counted.lifetime, s.incremented.count⟩ :: s.replies } where
  nodup := List.nodup_cons.mpr
    ⟨fun hmem => lt_irrefl _ (h.lt_incremented hmem rfl), h.nodup⟩
  pos := List.forall_mem_cons.mpr ⟨incremented_pos, h.pos⟩
  lifetime_le := List.forall_mem_cons.mpr ⟨le_rfl, h.counted.lifetime_le⟩
  count_le := by
    refine List.forall_mem_cons.mpr ⟨fun _ counter hcounter => ?_, h.counted.count_le⟩
    rw [← Option.some.inj (live_counted.symm.trans hcounter)]

lemma Counts.step (h : s.Counts) (hstep : s.step limit event = some s') : s'.Counts := by
  cases step_cases hstep with
  | tick duration =>
    exact ⟨h.nodup, h.pos, h.lifetime_le, fun reply hreply hlifetime counter hcounter =>
      h.count_le reply hreply hlifetime counter (live_of_live_later hcounter)⟩
  | incr hidle => exact h.incr
  | incrLost i => exact h.counted
  | incrFails i => exact h
  | expire hcreating =>
    refine ⟨h.nodup, h.pos, h.lifetime_le, fun reply hreply hlifetime counter hcounter => ?_⟩
    obtain ⟨old, hold, rfl⟩ := Option.map_eq_some_iff.mp (live_eq_some.mp hcounter).1
    exact h.count_le reply hreply hlifetime old hold
  | expireFails hcreating => exact ⟨h.nodup, h.pos, h.lifetime_le, h.count_le⟩

/-- The counts of one lifetime that are admitted. -/
def admitted (limit : ℤ) (s : RateLimitState ι) (lifetime : ℕ) : List RateReply :=
  s.replies.filter fun reply =>
    reply.lifetime = lifetime && (rateLimit limit false (some reply.count)).admits

omit [DecidableEq ι] in
lemma Counts.length_admitted_le (h : s.Counts) (hlimit : 0 < limit) (lifetime : ℕ) :
    (s.admitted limit lifetime).length ≤ limit.toNat := by
  have hadmitted : ∀ reply ∈ s.admitted limit lifetime,
      reply ∈ s.replies ∧ reply.lifetime = lifetime ∧ (reply.count : ℤ) ≤ limit := by
    intro reply hreply
    obtain ⟨hmem, hadmits⟩ := List.mem_filter.mp hreply
    simp only [Bool.and_eq_true, decide_eq_true_eq, rateLimit_admits_iff hlimit] at hadmits
    exact ⟨hmem, hadmits⟩
  have hnodup : ((s.admitted limit lifetime).map (·.count)).Nodup := by
    refine (h.nodup.filter _).map_on fun r hr r' hr' hcount => ?_
    have hlifetime := (hadmitted r hr).2.1.trans (hadmitted r' hr').2.1.symm
    cases r
    cases r'
    exact congrArg₂ RateReply.mk hlifetime hcount
  have hsub : (s.admitted limit lifetime).map (·.count) ⊆ List.range' 1 limit.toNat := by
    intro count hcount
    obtain ⟨reply, hreply, rfl⟩ := List.mem_map.mp hcount
    obtain ⟨hmem, -, hle⟩ := hadmitted reply hreply
    have hpos := h.pos reply hmem
    rw [List.mem_range'_1]
    omega
  have hlength := (hnodup.subperm hsub).length_le
  rwa [List.length_map, List.length_range'] at hlength

/-! ### A counter without an expiry -/

/-- The counter has reached the limit without an expiry, and no request is about to set one. -/
def Stuck (limit : ℤ) (s : RateLimitState ι) : Prop :=
  (∀ i, s.creating i = false) ∧
    ∃ counter, s.live = some counter ∧ counter.expiresAt = none ∧ limit ≤ counter.count

omit [DecidableEq ι] in
lemma Stuck.rejects (h : s.Stuck limit) (hlimit : 0 < limit) : (s.answer limit).admits = false := by
  obtain ⟨-, counter, hlive, -, hle⟩ := h
  rw [answer, incremented_of_live hlive, Bool.eq_false_iff, Ne, rateLimit_admits_iff hlimit]
  push_cast
  omega

omit [DecidableEq ι] in
lemma Stuck.counted (h : s.Stuck limit) : s.counted.Stuck limit := by
  obtain ⟨hidle, counter, hlive, hexpiry, hle⟩ := h
  refine ⟨hidle, _, live_counted, ?_⟩
  rw [incremented_of_live hlive]
  refine ⟨hexpiry, ?_⟩
  push_cast
  omega

lemma Stuck.step (h : s.Stuck limit) (hlimit : 0 < limit) (hstep : s.step limit event = some s') :
    s'.Stuck limit := by
  obtain ⟨hidle, counter, hlive, hexpiry, hle⟩ := h
  have hstuck : s.Stuck limit := ⟨hidle, counter, hlive, hexpiry, hle⟩
  cases step_cases hstep with
  | tick duration =>
    refine ⟨hidle, counter, live_eq_some.mpr ⟨(live_eq_some.mp hlive).1, ?_⟩, hexpiry, hle⟩
    rw [RateCounter.isLive, hexpiry, Option.all_none]
  | @incr i _ =>
    obtain ⟨-, hcounter⟩ := hstuck.counted
    refine ⟨fun j => ?_, hcounter⟩
    have hcount : s.incremented.count ≠ 1 := by
      rw [incremented_of_live hlive]
      change counter.count + 1 ≠ 1
      omega
    by_cases hj : j = i
    · subst hj
      exact (Function.update_self ..).trans (decide_eq_false hcount)
    · exact (Function.update_of_ne hj ..).trans (hidle j)
  | incrLost i => exact hstuck.counted
  | incrFails i => exact hstuck
  | expire hcreating => exact absurd ((hidle _).symm.trans hcreating) Bool.false_ne_true
  | expireFails hcreating => exact absurd ((hidle _).symm.trans hcreating) Bool.false_ne_true

end RateLimitState

/-- Whatever happens and however long it takes, every later request of a stuck client that is counted
    is rejected. -/
theorem stuck_client_rejected (hlimit : 0 < limit) (h : s.Stuck limit)
    {events : List (RateLimitEvent ι)} (hrun : (rateLimitSystem limit ι).Run s events s') :
    (s'.answer limit).admits = false := by
  refine RateLimitState.Stuck.rejects ?_ hlimit
  induction hrun with
  | nil => exact h
  | cons _ hstep ih => exact ih.step hlimit hstep

/-! ### Recovery -/

/-- The counter expires, a quiet window readmits the client, and one lifetime of the counter admits no
    more requests than the limit. -/
structure RateLimitState.Recovers (limit : ℤ) (s : RateLimitState ι) : Prop where
  expires : s.Expires
  readmits : (∀ i, s.creating i = false) → ∀ duration : ℕ, rateLimitWindow ≤ duration →
    (RateLimitState.answer { s with now := s.now + duration } limit).admits = true
  bounded : ∀ lifetime, (s.admitted limit lifetime).length ≤ limit.toNat

/-- Without a limit no request is counted. -/
lemma replies_of_no_limit (hlimit : limit ≤ 0) (hs : (rateLimitSystem limit ι).Reachable s) :
    s.replies = [] := by
  refine hs.invariant (I := fun s => s.replies = []) (fun s hinit => hinit ▸ rfl)
    fun s event s' hnil (hstep : s.step limit event = some s') => ?_
  cases event with
  | incr i =>
    simp only [RateLimitState.step, not_lt.mpr hlimit, decide_false,
      Bool.false_and, Bool.false_eq_true, if_false] at hstep
    exact nomatch hstep
  | _ =>
    cases RateLimitState.step_cases hstep
    all_goals exact hnil

/-- A lifetime of the counter admits no more requests than the limit, in every run. -/
lemma length_admitted_le (hs : (rateLimitSystem limit ι).Reachable s) (lifetime : ℕ) :
    (s.admitted limit lifetime).length ≤ limit.toNat := by
  rcases le_or_gt limit 0 with hlimit | hlimit
  · rw [RateLimitState.admitted, replies_of_no_limit hlimit hs]
    exact Nat.zero_le _
  · have hcounts : s.Counts := by
      refine hs.invariant ?_ fun s event s' h hstep => h.step hstep
      rintro s rfl
      exact ⟨List.nodup_nil, nofun, nofun, nofun⟩
    exact hcounts.length_admitted_le hlimit lifetime

/-- In every run in which the reply of a creating increment comes through and the expiry is set, the
    client recovers. -/
theorem throttled_client_recovers
    (hs : (rateLimitSystem limit ι).ReachableUnder (fun s event => s.setsExpiry event = true) s) :
    s.Recovers limit := by
  have hexpires : s.Expires := by
    refine hs.invariant ?_ fun s event s' h hok hstep => h.step hok hstep
    rintro s rfl
    exact nofun
  refine ⟨hexpires, fun hidle duration hquiet => ?_, length_admitted_le hs.reachable⟩
  rw [RateLimitState.answer,
    RateLimitState.incremented_of_not_live (hexpires.live_later hidle hquiet)]
  rcases le_or_gt limit 0 with hlimit | hlimit
  · rw [rateLimit, if_pos hlimit]
    rfl
  · exact (rateLimit_admits_iff hlimit 1).mpr (by omega)

/-- The second of two requests is rejected, and the client is admitted a minute later. -/
theorem throttled_client_recovers_second :
    ∃ s : RateLimitState Unit, (s.answer 1).admits = false ∧ s.Recovers 1 := by
  obtain ⟨s, hs, hstate⟩ := TransitionSystem.exists_reachableUnder_of_replay
    (rateLimitSystem 1 Unit) (fun s event => s.setsExpiry event = true)
    (fun s => (s.answer 1).admits = false) [.incr (), .expire (), .tick 1000, .incr ()]
    (.initial rfl) (by decide)
  exact ⟨s, of_decide_eq_true hstate, throttled_client_recovers hs⟩

/-- A request that ends before it has set the expiry leaves a client that is never admitted again. -/
theorem disconnected_client_stuck :
    ¬ ∀ (limit : ℤ) (s : RateLimitState Unit), (rateLimitSystem limit Unit).Reachable s →
      s.Recovers limit := by
  intro h
  obtain ⟨s, hs, hstate⟩ := TransitionSystem.exists_reachableUnder_of_replay
    (rateLimitSystem 1 Unit) (fun _ _ => True)
    (fun s => !s.creating () && s.live = some ⟨1, none⟩) [.incr (), .expireFails ()]
    (.initial rfl) (by decide)
  simp only [Bool.and_eq_true, Bool.not_eq_true', decide_eq_true_eq] at hstate
  obtain ⟨hidle, hlive⟩ := hstate
  have hstuck : s.Stuck 1 := ⟨fun _ => hidle, _, hlive, rfl, le_rfl⟩
  have hreadmits := (h 1 s hs).readmits (fun _ => hidle) 60000000000 (by decide)
  have hrejects := stuck_client_rejected (by decide) hstuck
    (.cons .nil (show (rateLimitSystem 1 Unit).step s (.tick 60000000000) = some _ from rfl))
  exact absurd (hrejects.symm.trans hreadmits) Bool.false_ne_true

end Denn.Proxy
