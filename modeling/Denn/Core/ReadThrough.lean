import Denn.Core.Expiring
import Denn.Core.Transition

/-!
# Read-through caches

Callers that look a value up under a key of a shared cache whose entries expire, compute it where it
is not there, and store what they have computed. The cache fails at any operation and forgets at any
time; neither keeps a caller from its answer.
-/

namespace Denn.Core

/-- How requests use the cache: their key, which may depend on a choice, the lifetime of what they
    store, and how results are stored and read. -/
structure ReadThrough (δ ω κ ν ρ : Type*) where
  key : δ → ω → Option κ
  ttl : δ → ℕ
  encode : ρ → Option ν
  decode : ν → Option ρ

inductive ReadPhase (ρ : Type*)
  | reading
  | computing
  | storing (result : ρ)
  | finished (result : ρ)

namespace ReadPhase

variable {ρ : Type*}

end ReadPhase

/-- A caller. What it has computed, and when it has looked the key up and stored its result, is kept for
    the statements only. -/
structure ReadCaller (δ κ ρ : Type*) where
  request : δ
  key : κ
  phase : ReadPhase ρ := .reading
  computed : Option ρ := none
  readAt : Option ℕ := none
  storedAt : Option ℕ := none

/-- The caller has found nothing. -/
def ReadCaller.Missed {δ κ ρ : Type*} (caller : ReadCaller δ κ ρ) : Prop :=
  caller.phase = .computing ∨ caller.computed.isSome

structure ReadState (ι δ κ ν ρ : Type*) where
  now : ℕ := 0
  cache : ExpiringCache κ ν := .empty
  callers : Table ι (ReadCaller δ κ ρ) := .empty

/-- What happens: time passes, callers come and take their steps, and entries are removed. -/
inductive ReadEvent (ι δ ω κ ρ : Type*)
  | elapse (duration : ℕ)
  | start (i : ι) (request : δ) (choice : ω)
  | read (i : ι) (fails : Bool)
  | compute (i : ι) (result : ρ)
  | store (i : ι) (fails : Bool)
  | evict (key : κ)

namespace ReadState

variable {ι δ ω κ ν ρ : Type*} {p : ReadThrough δ ω κ ν ρ} {s s' : ReadState ι δ κ ν ρ}
  {event : ReadEvent ι δ ω κ ρ} {i : ι} {caller : ReadCaller δ κ ρ} {result : ρ} {fails : Bool}

/-- The phase of a caller that has computed its result. -/
def afterCompute (p : ReadThrough δ ω κ ν ρ) (result : ρ) : ReadPhase ρ :=
  if (p.encode result).isSome then .storing result else .finished result

lemma afterCompute_storing {result' : ρ} (h : afterCompute p result = .storing result') :
    result = result' := by
  rw [afterCompute] at h
  split_ifs at h
  exact ReadPhase.storing.inj h

lemma afterCompute_finished {result' : ρ} (h : afterCompute p result = .finished result') :
    result = result' := by
  rw [afterCompute] at h
  split_ifs at h
  exact ReadPhase.finished.inj h

variable [DecidableEq ι]

def setCaller (s : ReadState ι δ κ ν ρ) (i : ι) (caller : ReadCaller δ κ ρ) : ReadState ι δ κ ν ρ :=
  { s with callers := s.callers.set i caller }

/-! ### Where answers come from -/

/-- The caller has stored the value under the key at the time. -/
structure StoredBy (p : ReadThrough δ ω κ ν ρ) (s : ReadState ι δ κ ν ρ) (key : κ) (value : ν) (t : ℕ)
    (writer : ReadCaller δ κ ρ) : Prop where
  found : ∃ i, s.callers.get? i = some writer
  key : writer.key = key
  storedAt : writer.storedAt = some t
  computed : ∃ result, writer.phase = .finished result ∧ writer.computed = some result ∧
    p.encode result = some value

/-- The result was read from what a caller with the same key had stored, within its lifetime. -/
def Served (p : ReadThrough δ ω κ ν ρ) (s : ReadState ι δ κ ν ρ) (caller : ReadCaller δ κ ρ)
    (result : ρ) : Prop :=
  ∃ writer value t t', StoredBy p s caller.key value t writer ∧ p.decode value = some result ∧
    caller.readAt = some t' ∧ t ≤ t' ∧ t' < t + p.ttl writer.request

/-- The caller has the key of its request, and its result from itself or from the cache. -/
structure Sound (p : ReadThrough δ ω κ ν ρ) (s : ReadState ι δ κ ν ρ) (caller : ReadCaller δ κ ρ) :
    Prop where
  key : ∃ choice, p.key caller.request choice = some caller.key
  storing : ∀ result, caller.phase = .storing result → caller.computed = some result
  finished : ∀ result, caller.phase = .finished result →
    caller.computed = some result ∨ Served p s caller result

/-- Callers that have finished stay as they are. -/
def Keeps (s s' : ReadState ι δ κ ν ρ) : Prop :=
  ∀ i caller result, s.callers.get? i = some caller → caller.phase = .finished result →
    s'.callers.get? i = some caller

lemma keeps_setCaller {new : ReadCaller δ κ ρ}
    (h : ∀ caller, s.callers.get? i = some caller → ∀ result, caller.phase ≠ .finished result) :
    Keeps s (s.setCaller i new) := by
  intro j caller result hcaller hphase
  rw [setCaller, Table.get?_set_ne]
  · exact hcaller
  · rintro rfl
    exact h caller hcaller result hphase

lemma StoredBy.keeps {key : κ} {value : ν} {t : ℕ} {writer : ReadCaller δ κ ρ}
    (h : StoredBy p s key value t writer) (hkeeps : Keeps s s') : StoredBy p s' key value t writer := by
  obtain ⟨i, hfound⟩ := h.found
  obtain ⟨result, hphase, -⟩ := h.computed
  exact { h with found := ⟨i, hkeeps i writer result hfound hphase⟩ }

lemma Sound.keeps (h : Sound p s caller) (hkeeps : Keeps s s') : Sound p s' caller where
  key := h.key
  storing := h.storing
  finished result hphase := by
    refine (h.finished result hphase).imp_right ?_
    rintro ⟨writer, value, t, t', hstored, hrest⟩
    exact ⟨writer, value, t, t', hstored.keeps hkeeps, hrest⟩

lemma not_finished {phase : ReadPhase ρ} (hcaller : s.callers.get? i = some caller)
    (hphase : caller.phase = phase) (hne : ∀ result, phase ≠ .finished result) :
    ∀ caller, s.callers.get? i = some caller → ∀ result, caller.phase ≠ .finished result := by
  intro caller' hcaller' result
  obtain rfl := Option.some.inj (hcaller.symm.trans hcaller')
  exact hphase ▸ hne result

/-! ### Steps -/

variable [DecidableEq κ]

/-- What a caller finds under its key. -/
def find (p : ReadThrough δ ω κ ν ρ) (s : ReadState ι δ κ ν ρ) (key : κ) (fails : Bool) : Option ρ :=
  if fails then none else (s.cache.get s.now key).bind p.decode

def step (p : ReadThrough δ ω κ ν ρ) (s : ReadState ι δ κ ν ρ) :
    ReadEvent ι δ ω κ ρ → Option (ReadState ι δ κ ν ρ)
  | .elapse duration => some { s with now := s.now + duration }
  | .start i request choice =>
    if (s.callers.get? i).isSome then none
    else (p.key request choice).map fun key => s.setCaller i { request, key }
  | .read i fails =>
    (s.callers.get? i).bind fun caller =>
      match caller.phase with
      | .reading =>
        some (s.setCaller i { caller with
          readAt := some s.now
          phase := (s.find p caller.key fails).elim .computing .finished })
      | _ => none
  | .compute i result =>
    (s.callers.get? i).bind fun caller =>
      match caller.phase with
      | .computing =>
        some (s.setCaller i { caller with computed := some result, phase := afterCompute p result })
      | _ => none
  | .store i fails =>
    (s.callers.get? i).bind fun caller =>
      match caller.phase with
      | .storing result =>
        match if fails then none else p.encode result with
        | some value =>
          some ({ s with cache := s.cache.set s.now caller.key value (p.ttl caller.request) }.setCaller i
            { caller with storedAt := some s.now, phase := .finished result })
        | none => some (s.setCaller i { caller with phase := .finished result })
      | _ => none
  | .evict key => some { s with cache := ⟨s.cache.entries.delete key⟩ }

/-- The callers over an empty cache. -/
def system (p : ReadThrough δ ω κ ν ρ) :
    TransitionSystem (ReadState ι δ κ ν ρ) (ReadEvent ι δ ω κ ρ) where
  initial s := s = {}
  step s event := s.step p event

/-- The steps by their outcome. -/
inductive Step (p : ReadThrough δ ω κ ν ρ) (s : ReadState ι δ κ ν ρ) :
    ReadEvent ι δ ω κ ρ → ReadState ι δ κ ν ρ → Prop
  | elapse (duration : ℕ) : Step p s (.elapse duration) { s with now := s.now + duration }
  | start {i : ι} {request : δ} {choice : ω} {key : κ} (hfree : s.callers.get? i = none)
      (hkey : p.key request choice = some key) :
      Step p s (.start i request choice) (s.setCaller i { request, key })
  | hit {i : ι} {caller : ReadCaller δ κ ρ} {result : ρ} {fails : Bool}
      (hcaller : s.callers.get? i = some caller) (hphase : caller.phase = .reading)
      (hfound : s.find p caller.key fails = some result) :
      Step p s (.read i fails)
        (s.setCaller i { caller with readAt := some s.now, phase := .finished result })
  | miss {i : ι} {caller : ReadCaller δ κ ρ} {fails : Bool}
      (hcaller : s.callers.get? i = some caller) (hphase : caller.phase = .reading)
      (hmiss : s.find p caller.key fails = none) :
      Step p s (.read i fails)
        (s.setCaller i { caller with readAt := some s.now, phase := .computing })
  | compute {i : ι} {caller : ReadCaller δ κ ρ} (result : ρ)
      (hcaller : s.callers.get? i = some caller) (hphase : caller.phase = .computing) :
      Step p s (.compute i result)
        (s.setCaller i { caller with computed := some result, phase := afterCompute p result })
  | store {i : ι} {caller : ReadCaller δ κ ρ} {result : ρ} {value : ν}
      (hcaller : s.callers.get? i = some caller) (hphase : caller.phase = .storing result)
      (hvalue : p.encode result = some value) :
      Step p s (.store i false)
        ({ s with cache := s.cache.set s.now caller.key value (p.ttl caller.request) }.setCaller i
          { caller with storedAt := some s.now, phase := .finished result })
  | leave {i : ι} {caller : ReadCaller δ κ ρ} {result : ρ} {fails : Bool}
      (hcaller : s.callers.get? i = some caller) (hphase : caller.phase = .storing result)
      (hvalue : fails = true ∨ p.encode result = none) :
      Step p s (.store i fails) (s.setCaller i { caller with phase := .finished result })
  | evict (key : κ) : Step p s (.evict key) { s with cache := ⟨s.cache.entries.delete key⟩ }

lemma step_cases (h : s.step p event = some s') : Step p s event s' := by
  cases event with
  | elapse duration =>
    obtain rfl := Option.some.inj h
    exact .elapse duration
  | start i request choice =>
    simp only [step] at h
    split_ifs at h with hsome
    obtain ⟨key, hkey, rfl⟩ := Option.map_eq_some_iff.mp h
    exact .start (Option.not_isSome_iff_eq_none.mp hsome) hkey
  | read i fails =>
    simp only [step] at h
    obtain ⟨caller, hcaller, h⟩ := Option.bind_eq_some_iff.mp h
    split at h
    · rename_i hphase
      obtain rfl := Option.some.inj h
      cases hfind : s.find p caller.key fails with
      | none => exact .miss hcaller hphase hfind
      | some result => exact .hit hcaller hphase hfind
    · cases h
  | compute i result =>
    simp only [step] at h
    obtain ⟨caller, hcaller, h⟩ := Option.bind_eq_some_iff.mp h
    split at h
    · rename_i hphase
      obtain rfl := Option.some.inj h
      exact .compute result hcaller hphase
    · cases h
  | store i fails =>
    simp only [step] at h
    obtain ⟨caller, hcaller, h⟩ := Option.bind_eq_some_iff.mp h
    split at h
    · rename_i result hphase
      split at h
      · rename_i value hvalue
        obtain rfl := Option.some.inj h
        cases fails with
        | false => exact .store hcaller hphase hvalue
        | true => cases hvalue
      · rename_i hvalue
        obtain rfl := Option.some.inj h
        refine .leave hcaller hphase ?_
        cases fails with
        | false => exact .inr hvalue
        | true => exact .inl rfl
    · cases h
  | evict key =>
    obtain rfl := Option.some.inj h
    exact .evict key

/-! ### Every answer has its source -/

structure Traced (p : ReadThrough δ ω κ ν ρ) (s : ReadState ι δ κ ν ρ) : Prop where
  callers : ∀ i caller, s.callers.get? i = some caller → Sound p s caller
  entries : ∀ key entry, s.cache.entries.get? key = some entry →
    ∃ writer t, StoredBy p s key entry.value t writer ∧
      entry.expiresAt = t + p.ttl writer.request ∧ t ≤ s.now

/-- The rule for a step that replaces one caller and leaves the cache alone. -/
lemma Traced.setCaller (h : Traced p s) {new : ReadCaller δ κ ρ}
    (hphase : ∀ caller, s.callers.get? i = some caller → ∀ result, caller.phase ≠ .finished result)
    (hnew : Sound p (s.setCaller i new) new) : Traced p (s.setCaller i new) where
  callers j caller hcaller := by
    obtain ⟨rfl, rfl⟩ | hold := Table.get?_set_cases hcaller
    · exact hnew
    · exact (h.callers j caller hold).keeps (keeps_setCaller hphase)
  entries key entry hentry := by
    obtain ⟨writer, t, hstored, hrest⟩ := h.entries key entry hentry
    exact ⟨writer, t, hstored.keeps (keeps_setCaller hphase), hrest⟩

/-- What a caller finds was stored under its key and has not expired. -/
lemma Traced.served (h : Traced p s) {key : κ} (hfound : s.find p key fails = some result) :
    ∃ writer value t, StoredBy p s key value t writer ∧ p.decode value = some result ∧ t ≤ s.now ∧
      s.now < t + p.ttl writer.request := by
  rw [find] at hfound
  split_ifs at hfound
  obtain ⟨value, hget, hdecode⟩ := Option.bind_eq_some_iff.mp hfound
  obtain ⟨entry, hentry, hlive, rfl⟩ := ExpiringCache.get_eq_some.mp hget
  obtain ⟨writer, t, hstored, hexpires, ht⟩ := h.entries key entry hentry
  exact ⟨writer, entry.value, t, hstored, hdecode, ht, hexpires ▸ hlive⟩

lemma Traced.step (h : Traced p s) (hstep : Step p s event s') : Traced p s' := by
  cases hstep with
  | elapse duration =>
    refine ⟨fun i caller hcaller => (h.callers i caller hcaller).keeps fun _ _ _ h _ => h, ?_⟩
    intro key entry hentry
    obtain ⟨writer, t, hstored, hexpires, ht⟩ := h.entries key entry hentry
    exact ⟨writer, t, hstored.keeps fun _ _ _ h _ => h, hexpires, by dsimp only; omega⟩
  | start hfree hkey =>
    refine h.setCaller (fun caller hcaller => ?_) ⟨⟨_, hkey⟩, nofun, nofun⟩
    rw [hfree] at hcaller
    cases hcaller
  | hit hcaller hphase hfound =>
    have hopen := not_finished hcaller hphase nofun
    refine h.setCaller hopen ⟨(h.callers _ _ hcaller).key, nofun, ?_⟩
    rintro result ⟨⟩
    obtain ⟨writer, value, t, hstored, hdecode, ht, hlive⟩ := h.served hfound
    exact .inr ⟨writer, value, t, s.now, hstored.keeps (keeps_setCaller hopen), hdecode, rfl, ht, hlive⟩
  | miss hcaller hphase hmiss =>
    exact h.setCaller (not_finished hcaller hphase nofun) ⟨(h.callers _ _ hcaller).key, nofun, nofun⟩
  | compute result hcaller hphase =>
    refine h.setCaller (not_finished hcaller hphase nofun) ⟨(h.callers _ _ hcaller).key, ?_, ?_⟩
    · exact fun _ hstoring => congrArg some (afterCompute_storing hstoring)
    · exact fun _ hfinished => .inl (congrArg some (afterCompute_finished hfinished))
  | @store i caller result value hcaller hphase hvalue =>
    have hsound := h.callers i caller hcaller
    have hcomputed := hsound.storing result hphase
    have hkeeps : Keeps s (s.setCaller i { caller with
        storedAt := some s.now, phase := .finished result }) :=
      keeps_setCaller (not_finished hcaller hphase nofun)
    refine ⟨fun j other hother => ?_, fun key entry hentry => ?_⟩
    · obtain ⟨rfl, rfl⟩ | hold := Table.get?_set_cases hother
      · exact ⟨hsound.key, nofun, by rintro _ ⟨⟩; exact .inl hcomputed⟩
      · exact (h.callers j other hold).keeps hkeeps
    · obtain ⟨rfl, rfl⟩ | ⟨-, hold⟩ := ExpiringCache.entries_set_cases hentry
      · exact ⟨_, s.now, ⟨⟨i, Table.get?_set_self ..⟩, rfl, rfl, result, rfl, hcomputed, hvalue⟩, rfl,
          le_rfl⟩
      · obtain ⟨writer, t, hstored, hrest⟩ := h.entries key entry hold
        exact ⟨writer, t, hstored.keeps hkeeps, hrest⟩
  | leave hcaller hphase hvalue =>
    have hsound := h.callers _ _ hcaller
    refine h.setCaller (not_finished hcaller hphase nofun) ⟨hsound.key, nofun, ?_⟩
    rintro result ⟨⟩
    exact .inl (hsound.storing _ hphase)
  | evict key =>
    refine ⟨fun i caller hcaller => (h.callers i caller hcaller).keeps fun _ _ _ h _ => h, ?_⟩
    intro key' entry hentry
    obtain ⟨writer, t, hstored, hrest⟩ := h.entries key' entry (Table.get?_of_delete hentry).2
    exact ⟨writer, t, hstored.keeps fun _ _ _ h _ => h, hrest⟩

lemma traced (h : (system (ι := ι) p).Reachable s) : Traced p s := by
  refine h.invariant (I := Traced p) ?_ fun s a s' hs hstep => hs.step (step_cases hstep)
  rintro s rfl
  exact ⟨fun i caller hcaller => by simp at hcaller, fun key entry hentry => by
    simp [ExpiringCache.empty] at hentry⟩

lemma exists_choice (h : (system (ι := ι) p).Reachable s) (hcaller : s.callers.get? i = some caller) :
    ∃ choice, p.key caller.request choice = some caller.key :=
  ((traced h).callers i caller hcaller).key

/-- What a caller ends with it has computed itself, or another caller with its key had computed and
    stored it within its lifetime. -/
theorem served (h : (system (ι := ι) p).Reachable s) (hcaller : s.callers.get? i = some caller)
    (hphase : caller.phase = .finished result) :
    caller.computed = some result ∨ Served p s caller result :=
  ((traced h).callers i caller hcaller).finished result hphase

/-! ### What is computed -/

/-- Who computes gets an answer to its request, as of the time. -/
def Computes (answers : ℕ → δ → ρ → Prop) : ReadState ι δ κ ν ρ → ReadEvent ι δ ω κ ρ → Prop
  | s, .compute i result =>
    ∀ caller, s.callers.get? i = some caller → answers s.now caller.request result
  | _, _ => True

section

variable {answers : ℕ → δ → ρ → Prop}

/-- What the callers have computed answers their requests. -/
def Answering (answers : ℕ → δ → ρ → Prop) (s : ReadState ι δ κ ν ρ) : Prop :=
  ∀ i caller result, s.callers.get? i = some caller → caller.computed = some result →
    answers s.now caller.request result

omit [DecidableEq κ] in
lemma Answering.setCaller (h : Answering answers s) {new : ReadCaller δ κ ρ}
    (hnew : ∀ result, new.computed = some result → answers s.now new.request result) :
    Answering answers (s.setCaller i new) := by
  intro j other result hother hcomputed
  obtain ⟨rfl, rfl⟩ | hold := Table.get?_set_cases hother
  · exact hnew result hcomputed
  · exact h j other result hold hcomputed

lemma Answering.step (h : Answering answers s)
    (hlasts : ∀ t t' request result, t ≤ t' → answers t request result → answers t' request result)
    (hok : Computes answers s event) (hstep : Step p s event s') : Answering answers s' := by
  cases hstep with
  | elapse duration =>
    intro i caller result hcaller hcomputed
    exact hlasts _ _ _ _ (Nat.le_add_right _ _) (h i caller result hcaller hcomputed)
  | start hfree hkey => exact h.setCaller nofun
  | @hit i caller _ _ hcaller | @miss i caller _ hcaller | @leave i caller _ _ hcaller =>
    have hold := fun result => h i caller result hcaller
    exact h.setCaller hold
  | @compute i caller result hcaller =>
    have hanswers := hok caller hcaller
    refine h.setCaller ?_
    rintro _ ⟨⟩
    exact hanswers
  | @store i caller _ _ hcaller =>
    have hold := fun result => h i caller result hcaller
    exact Answering.setCaller (s := { s with cache := _ }) h hold
  | evict key => exact h

/-- A caller that comes is answered, even if every operation of the cache fails. -/
lemma exists_answered (hs : (system (ι := ι) p).ReachableUnder (Computes answers) s)
    (hfree : s.callers.get? i = none) {request : δ} {choice : ω} {key : κ}
    (hkey : p.key request choice = some key) (hanswers : answers s.now request result) :
    ∃ s' caller, (system (ι := ι) p).ReachableUnder (Computes answers) s' ∧
      s'.callers.get? i = some caller ∧ caller.request = request ∧
      caller.phase = .finished result := by
  let started : ReadCaller δ κ ρ := { request, key }
  let missed : ReadCaller δ κ ρ := { started with readAt := some s.now, phase := .computing }
  let computed : ReadCaller δ κ ρ :=
    { missed with computed := some result, phase := afterCompute p result }
  let s₁ := s.setCaller i started
  let s₂ := s₁.setCaller i missed
  let s₃ := s₂.setCaller i computed
  have hstart : (system p).step s (.start i request choice) = some s₁ := by
    simp [system, step, hfree, hkey, s₁, started]
  have hread : (system p).step s₁ (.read i true) = some s₂ := by
    simp [system, step, setCaller, find, s₂, s₁, started, missed]
  have hcompute : (system p).step s₂ (.compute i result) = some s₃ := by
    simp [system, step, setCaller, s₃, s₂, missed, computed]
  have hok : Computes answers s₂ (.compute i result : ReadEvent ι δ ω κ ρ) := by
    intro caller hcaller
    obtain rfl := Option.some.inj ((Table.get?_set_self ..).symm.trans hcaller)
    exact hanswers
  have hs₁ : (system p).ReachableUnder (Computes answers) s₁ := hs.step (by trivial) hstart
  have hs₂ : (system p).ReachableUnder (Computes answers) s₂ := hs₁.step (by trivial) hread
  have hs₃ : (system p).ReachableUnder (Computes answers) s₃ := hs₂.step hok hcompute
  by_cases hencode : (p.encode result).isSome
  · have hphase : computed.phase = .storing result := if_pos hencode
    have hstore : (system p).step s₃ (.store i true)
        = some (s₃.setCaller i { computed with phase := .finished result }) := by
      simp [system, step, setCaller, s₃, hphase]
    exact ⟨_, _, hs₃.step (by trivial) hstore, Table.get?_set_self .., rfl, rfl⟩
  · exact ⟨s₃, computed, hs₃, Table.get?_set_self .., rfl, if_neg hencode⟩

/-- What a caller ends with answers its request, or another one with its key, if what is stored is read
    as it was. -/
theorem answered
    (hlasts : ∀ t t' request result, t ≤ t' → answers t request result → answers t' request result)
    (hdecode : ∀ result value, p.encode result = some value → p.decode value = some result)
    (h : (system (ι := ι) p).ReachableUnder (Computes answers) s)
    (hcaller : s.callers.get? i = some caller) (hphase : caller.phase = .finished result) :
    ∃ request choice, p.key request choice = some caller.key ∧ answers s.now request result := by
  have hanswering : Answering answers s := by
    refine h.invariant (I := Answering answers) ?_
      fun _ _ _ hs hok hstep => hs.step hlasts hok (step_cases hstep)
    rintro _ rfl i caller result hcaller
    simp at hcaller
  obtain hown | ⟨writer, value, t, t', hstored, hread, -⟩ := served h.reachable hcaller hphase
  · obtain ⟨choice, hchoice⟩ := exists_choice h.reachable hcaller
    exact ⟨_, choice, hchoice, hanswering i caller result hcaller hown⟩
  · obtain ⟨j, hwriter⟩ := hstored.found
    obtain ⟨result', -, hcomputed, hencode⟩ := hstored.computed
    obtain rfl : result = result' :=
      Option.some.inj (hread.symm.trans (hdecode result' value hencode))
    obtain ⟨choice, hchoice⟩ := exists_choice h.reachable hwriter
    exact ⟨_, choice, hstored.key ▸ hchoice, hanswering j writer result hwriter hcomputed⟩

end

/-! ### Nothing is computed twice within its lifetime -/

/-- No operation of the cache fails, no entry is removed, and requests are among the good ones. -/
def Unfailing (good : δ → Prop) : ReadState ι δ κ ν ρ → ReadEvent ι δ ω κ ρ → Prop
  | _, .start _ request _ => good request
  | _, .read _ fails | _, .store _ fails => fails = false
  | _, .evict _ => False
  | _, _ => True

instance {good : δ → Prop} [DecidablePred good] (s : ReadState ι δ κ ν ρ) (event : ReadEvent ι δ ω κ ρ) :
    Decidable (Unfailing good s event) :=
  match event with
  | .elapse _ | .compute _ _ => .isTrue trivial
  | .start _ request _ => inferInstanceAs (Decidable (good request))
  | .read _ fails | .store _ fails => inferInstanceAs (Decidable (fails = false))
  | .evict _ => .isFalse id

/-- The good requests with one key store for one lifetime, and what is stored can be read. -/
structure Uniform (p : ReadThrough δ ω κ ν ρ) (good : δ → Prop) : Prop where
  ttl : ∀ request request' choice choice' key, good request → good request' →
    p.key request choice = some key → p.key request' choice' = some key →
    p.ttl request = p.ttl request'
  decode : ∀ result value, p.encode result = some value → (p.decode value).isSome

/-- What has been stored is there until it expires, and who has missed came after that. -/
structure Fresh (p : ReadThrough δ ω κ ν ρ) (good : δ → Prop) (s : ReadState ι δ κ ν ρ) : Prop where
  good : ∀ i caller, s.callers.get? i = some caller → good caller.request
  reading : ∀ i caller, s.callers.get? i = some caller → caller.phase = .reading →
    caller.computed = none
  stored : ∀ i caller t, s.callers.get? i = some caller → caller.storedAt = some t →
    ∃ result, caller.phase = .finished result
  live : ∀ i writer t, s.callers.get? i = some writer → writer.storedAt = some t → t ≤ s.now ∧
    ∃ entry, s.cache.entries.get? writer.key = some entry ∧
      t + p.ttl writer.request ≤ entry.expiresAt
  missed : ∀ i caller t', s.callers.get? i = some caller → caller.Missed →
    caller.readAt = some t' → t' ≤ s.now ∧
      ∀ j writer t, s.callers.get? j = some writer → writer.key = caller.key →
        writer.storedAt = some t → t < t' → t + p.ttl writer.request ≤ t'

section

variable {good : δ → Prop}

lemma Fresh.not_stored (h : Fresh p good s) {phase : ReadPhase ρ}
    (hcaller : s.callers.get? i = some caller) (hphase : caller.phase = phase)
    (hne : ∀ result, phase ≠ .finished result) : caller.storedAt = none := by
  cases hstored : caller.storedAt with
  | none => rfl
  | some t =>
    obtain ⟨result, hresult⟩ := h.stored i caller t hcaller hstored
    exact absurd (hphase.symm.trans hresult) (hne result)

/-- The rule for a step that replaces one caller, which has stored nothing. -/
lemma Fresh.setCaller (h : Fresh p good s) {new : ReadCaller δ κ ρ} (hgood : good new.request)
    (hreading : new.phase = .reading → new.computed = none) (hstored : new.storedAt = none)
    (hmissed : ∀ t', new.Missed → new.readAt = some t' → t' ≤ s.now ∧
      ∀ j writer t, s.callers.get? j = some writer → writer.key = new.key →
        writer.storedAt = some t → t < t' → t + p.ttl writer.request ≤ t') :
    Fresh p good (s.setCaller i new) := by
  -- Who has stored something was there before.
  have hold : ∀ {j writer t}, (s.setCaller i new).callers.get? j = some writer →
      writer.storedAt = some t → s.callers.get? j = some writer := by
    intro j writer t hwriter ht
    obtain ⟨rfl, rfl⟩ | hold := Table.get?_set_cases hwriter
    · rw [hstored] at ht
      cases ht
    · exact hold
  refine ⟨fun j other hother => ?_, fun j other hother hphase => ?_, fun j other t hother ht => ?_,
    fun j writer t hwriter ht => h.live j writer t (hold hwriter ht) ht,
    fun j other t' hother hother' ht' => ?_⟩
  · obtain ⟨rfl, rfl⟩ | hother := Table.get?_set_cases hother
    · exact hgood
    · exact h.good j other hother
  · obtain ⟨rfl, rfl⟩ | hother := Table.get?_set_cases hother
    · exact hreading hphase
    · exact h.reading j other hother hphase
  · exact h.stored j other t (hold hother ht) ht
  · obtain ⟨hle, hbefore⟩ : t' ≤ s.now ∧ ∀ j writer t, s.callers.get? j = some writer →
        writer.key = other.key → writer.storedAt = some t → t < t' →
          t + p.ttl writer.request ≤ t' := by
      obtain ⟨rfl, rfl⟩ | hother := Table.get?_set_cases hother
      · exact hmissed t' hother' ht'
      · exact h.missed j other t' hother hother' ht'
    exact ⟨hle, fun k writer t hwriter hkey ht => hbefore k writer t (hold hwriter ht) hkey ht⟩

/-- Who reads and finds nothing comes after everything stored under the key has expired. -/
lemma Fresh.expired (h : Fresh p good s) (htraced : Traced p s) (huniform : Uniform p good)
    {key : κ} (hmiss : s.find p key false = none) {j : ι} {writer : ReadCaller δ κ ρ} {t : ℕ}
    (hwriter : s.callers.get? j = some writer) (hkey : writer.key = key)
    (ht : writer.storedAt = some t) : t + p.ttl writer.request ≤ s.now := by
  obtain ⟨-, entry, hentry, hexpires⟩ := h.live j writer t hwriter ht
  obtain ⟨source, t₀, hsource, -⟩ := htraced.entries writer.key entry hentry
  obtain ⟨result, -, -, hencode⟩ := hsource.computed
  obtain ⟨found, hfound⟩ := Option.isSome_iff_exists.mp (huniform.decode result entry.value hencode)
  by_contra hlive
  have hget : s.cache.get s.now key = some entry.value :=
    ExpiringCache.get_eq_some.mpr ⟨entry, hkey ▸ hentry, by omega, rfl⟩
  simp [find, hget, hfound] at hmiss

lemma Fresh.step (h : Fresh p good s) (htraced : Traced p s) (huniform : Uniform p good)
    (hok : Unfailing good s event) (hstep : Step p s event s') : Fresh p good s' := by
  cases hstep with
  | elapse duration =>
    exact ⟨h.good, h.reading, h.stored,
      fun j writer t hwriter ht => (h.live j writer t hwriter ht).imp_left (Nat.le_add_right_of_le),
      fun j other t' hother hother' ht' =>
        (h.missed j other t' hother hother' ht').imp_left (Nat.le_add_right_of_le)⟩
  | start hfree hkey => exact h.setCaller hok (fun _ => rfl) rfl nofun
  | @hit i caller result fails hcaller hphase hfound =>
    have hstored := h.not_stored hcaller hphase nofun
    have hnone := h.reading i caller hcaller hphase
    refine h.setCaller (h.good i caller hcaller) nofun hstored fun t' hmissed => ?_
    simp [ReadCaller.Missed, hnone] at hmissed
  | @miss i caller fails hcaller hphase hmiss =>
    obtain rfl : fails = false := hok
    have hstored := h.not_stored hcaller hphase nofun
    refine h.setCaller (h.good i caller hcaller) nofun hstored ?_
    rintro _ - ⟨⟩
    exact ⟨le_rfl, fun j writer t hwriter hkey ht _ =>
      h.expired htraced huniform hmiss hwriter hkey ht⟩
  | @compute i caller result hcaller hphase =>
    have hstored := h.not_stored hcaller hphase nofun
    refine h.setCaller (h.good i caller hcaller) (fun hreading => ?_) hstored fun t' _ ht' => ?_
    · dsimp only [afterCompute] at hreading
      split_ifs at hreading
    · exact h.missed i caller t' hcaller (.inl hphase) ht'
  | @leave i caller result fails hcaller hphase hvalue =>
    have hstored := h.not_stored hcaller hphase nofun
    refine h.setCaller (h.good i caller hcaller) nofun hstored fun t' hmissed ht' => ?_
    exact h.missed i caller t' hcaller (.inr (hmissed.resolve_left nofun)) ht'
  | @store i caller result value hcaller hphase hvalue =>
    have hgood := h.good i caller hcaller
    refine ⟨fun j other hother => ?_, fun j other hother hreading => ?_,
      fun j other t hother ht => ?_, fun j writer t hwriter ht => ?_,
      fun j other t' hother hmissed ht' => ?_⟩
    · obtain ⟨rfl, rfl⟩ | hother := Table.get?_set_cases hother
      · exact hgood
      · exact h.good j other hother
    · obtain ⟨rfl, rfl⟩ | hother := Table.get?_set_cases hother
      · cases hreading
      · exact h.reading j other hother hreading
    · obtain ⟨rfl, rfl⟩ | hother := Table.get?_set_cases hother
      · exact ⟨result, rfl⟩
      · exact h.stored j other t hother ht
    · obtain ⟨rfl, rfl⟩ | hwriter := Table.get?_set_cases hwriter
      · obtain rfl := Option.some.inj ht
        exact ⟨le_rfl, _, Table.get?_set_self .., le_rfl⟩
      · obtain ⟨hle, entry, hentry, hexpires⟩ := h.live j writer t hwriter ht
        refine ⟨hle, ?_⟩
        by_cases hkey : writer.key = caller.key
        · have httl : p.ttl writer.request = p.ttl caller.request := by
            obtain ⟨choice, hchoice⟩ := (htraced.callers j writer hwriter).key
            obtain ⟨choice', hchoice'⟩ := (htraced.callers i caller hcaller).key
            exact huniform.ttl _ _ _ _ _ (h.good j writer hwriter) hgood hchoice (hkey ▸ hchoice')
          refine ⟨⟨value, s.now + p.ttl caller.request⟩, ?_, by dsimp only; omega⟩
          exact hkey ▸ Table.get?_set_self ..
        · exact ⟨entry, (Table.get?_set_ne _ _ hkey).trans hentry, hexpires⟩
    · obtain ⟨hle, hbefore⟩ : t' ≤ s.now ∧ ∀ j writer t, s.callers.get? j = some writer →
          writer.key = other.key → writer.storedAt = some t → t < t' →
            t + p.ttl writer.request ≤ t' := by
        obtain ⟨rfl, rfl⟩ | hother := Table.get?_set_cases hother
        · exact h.missed j caller t' hcaller (.inr (hmissed.resolve_left nofun)) ht'
        · exact h.missed j other t' hother hmissed ht'
      refine ⟨hle, fun k writer t hwriter hkey ht hlt => ?_⟩
      obtain ⟨rfl, rfl⟩ | hwriter := Table.get?_set_cases hwriter
      · obtain rfl := Option.some.inj ht
        exact absurd hlt (not_lt.mpr hle)
      · exact hbefore k writer t hwriter hkey ht hlt
  | evict key => exact hok.elim

lemma fresh (huniform : Uniform p good) (h : (system (ι := ι) p).ReachableUnder (Unfailing good) s) :
    Fresh p good s := by
  refine h.invariant_of (I := Fresh p good) (fun _ hs => traced hs) ?_
    fun _ _ _ htraced hs hok hstep => hs.step htraced huniform hok (step_cases hstep)
  rintro _ rfl
  constructor <;> intro j other <;> simp

/-- Who computes a result that another caller had stored under the same key comes after that has
    expired, as long as the cache works. -/
theorem computed_after_expiry (huniform : Uniform p good)
    (h : (system (ι := ι) p).ReachableUnder (Unfailing good) s)
    (hcaller : s.callers.get? i = some caller) (hmissed : caller.Missed) {j : ι}
    {writer : ReadCaller δ κ ρ} (hwriter : s.callers.get? j = some writer)
    (hkey : writer.key = caller.key) {t t' : ℕ} (ht : writer.storedAt = some t)
    (ht' : caller.readAt = some t') (hlt : t < t') : t + p.ttl writer.request ≤ t' :=
  ((fresh huniform h).missed i caller t' hcaller hmissed ht').2 j writer t hwriter hkey ht hlt

end

end ReadState

end Denn.Core
