import Denn.Proxy.Homepage

/-!
# What the homepage cache keeps

Every aggregate is stored in both tiers, whether or not one of its buckets has failed. A payload
without errors survives as long as no aggregate with an error is stored over it.
-/

namespace Denn.Homepage

open Core

/-! ### What a step does -/

/-- The payload that a flight has stored as fresh and not yet as stale. -/
def Flight.stored (flight : Flight) : Option Payload :=
  match flight.phase with
  | .storing payload => some payload
  | _ => none

def HandlerState.storing (s : HandlerState) (cacheKey : String) : Option Payload :=
  (s.flights.get? cacheKey).bind Flight.stored

/-- Every flight is kept under the key of its request. -/
def Keyed (s : HandlerState) : Prop :=
  ∀ cacheKey flight, s.flights.get? cacheKey = some flight →
    homepageCacheKey flight.request = cacheKey

/-- A step that stores nothing. -/
structure Quiet (s s' : HandlerState) : Prop where
  cache : s'.cache = s.cache
  succeededAt : s'.succeededAt = s.succeededAt
  now : s.now ≤ s'.now
  storing : ∀ cacheKey, s'.storing cacheKey = s.storing cacheKey
  keyed : Keyed s'

structure StoresFresh (s : HandlerState) (cacheKey : String) (payload : Payload)
    (s' : HandlerState) : Prop where
  before : ∃ request, s.flights.get? cacheKey = some ⟨request, .computing payload⟩
  cache : s'.cache = s.cache.set s.now cacheKey payload homepageCacheTTL
  succeededAt : s'.succeededAt = s.succeededAt
  now : s'.now = s.now
  storing : ∀ key, s'.storing key = if key = cacheKey then some payload else s.storing key
  keyed : Keyed s'

structure StoresStale (s : HandlerState) (cacheKey : String) (payload : Payload)
    (s' : HandlerState) : Prop where
  before : s.storing cacheKey = some payload
  cache : s'.cache = s.cache.set s.now (staleCacheKey cacheKey) payload homepageStaleTTL
  succeededAt : s'.succeededAt
    = if hasError payload then s.succeededAt else s.succeededAt.set cacheKey s.now
  now : s'.now = s.now
  storing : ∀ key, s'.storing key = if key = cacheKey then none else s.storing key
  keyed : Keyed s'

section

variable {s s' : HandlerState}

lemma Quiet.of_flights (hkeyed : Keyed s) (hcache : s'.cache = s.cache)
    (hsucceeded : s'.succeededAt = s.succeededAt) (hnow : s.now ≤ s'.now)
    (hflights : s'.flights = s.flights) : Quiet s s' where
  cache := hcache
  succeededAt := hsucceeded
  now := hnow
  storing key := by simp only [HandlerState.storing, hflights]
  keyed key flight hflight := hkeyed key flight (hflights ▸ hflight)

lemma Keyed.set (h : Keyed s) {cacheKey : String} (flight : Flight)
    (hkey : homepageCacheKey flight.request = cacheKey)
    (hflights : s'.flights = s.flights.set cacheKey flight) : Keyed s' := by
  intro key flight' hget
  rw [hflights] at hget
  rcases Table.get?_set_cases hget with ⟨rfl, rfl⟩ | hold
  · exact hkey
  · exact h key flight' hold

lemma storing_set {cacheKey : String} (flight : Flight)
    (hflights : s'.flights = s.flights.set cacheKey flight) (key : String) :
    s'.storing key = if key = cacheKey then flight.stored else s.storing key := by
  rw [HandlerState.storing, hflights, Table.get?_set]
  split_ifs <;> rfl

lemma storing_eq {cacheKey : String} {flight : Flight}
    (h : s.flights.get? cacheKey = some flight) : s.storing cacheKey = flight.stored := by
  rw [HandlerState.storing, h]
  rfl

/-- A flight that neither starts to store nor ends it. -/
lemma Quiet.of_set (hkeyed : Keyed s) {cacheKey : String} (flight : Flight)
    (hkey : homepageCacheKey flight.request = cacheKey)
    (hstored : s.storing cacheKey = flight.stored)
    (hcache : s'.cache = s.cache) (hsucceeded : s'.succeededAt = s.succeededAt)
    (hnow : s'.now = s.now) (hflights : s'.flights = s.flights.set cacheKey flight) :
    Quiet s s' where
  cache := hcache
  succeededAt := hsucceeded
  now := hnow.ge
  storing key := by
    rw [storing_set flight hflights]
    split_ifs with h
    · rw [h, hstored]
    · rfl
  keyed := hkeyed.set flight hkey hflights

lemma quiet_ensureFlight (hkeyed : Keyed s) (request : Request) :
    Quiet s (s.ensureFlight request) := by
  unfold HandlerState.ensureFlight
  dsimp only
  split_ifs with h
  · exact .of_flights hkeyed rfl rfl le_rfl rfl
  · have hnone : s.flights.get? (homepageCacheKey request) = none := by simpa using h
    refine .of_set hkeyed ⟨request, .computing .empty⟩ rfl ?_ rfl rfl rfl rfl
    rw [HandlerState.storing, hnone]
    rfl

lemma Quiet.waiting {waiting : List String} (h : Quiet s s') :
    Quiet s { s' with waiting } where
  cache := h.cache
  succeededAt := h.succeededAt
  now := h.now
  storing := h.storing
  keyed := h.keyed

lemma quiet_close (hkeyed : Keyed s) {cacheKey : String} {flight : Flight}
    (hflight : s.flights.get? cacheKey = some flight) (hstored : flight.stored = none) :
    Quiet s { s with flights := s.flights.delete cacheKey } where
  cache := rfl
  succeededAt := rfl
  now := le_rfl
  storing key := by
    by_cases h : key = cacheKey
    · subst h
      rw [storing_eq hflight, hstored]
      simp [HandlerState.storing]
    · simp [HandlerState.storing, Table.get?_delete_ne _ h]
  keyed key flight' hget := hkeyed key flight' (Table.get?_of_delete hget).2

/-- A step stores nothing, or a payload in one tier of its key. -/
theorem step_cases (hkeyed : Keyed s) {event : HandlerEvent} (h : s.step event = some s') :
    Quiet s s' ∨
    (∃ cacheKey payload, event = .storeFresh cacheKey ∧ StoresFresh s cacheKey payload s') ∨
    ∃ cacheKey payload, event = .storeStale cacheKey ∧ StoresStale s cacheKey payload s' := by
  cases event with
  | tick duration =>
    cases h
    exact .inl (.of_flights hkeyed rfl rfl (Nat.le_add_right ..) rfl)
  | request request =>
    simp only [HandlerState.step] at h
    split_ifs at h with hfresh hstale
    · cases h
      exact .inl (.of_flights hkeyed rfl rfl le_rfl rfl)
    · cases h
      exact .inl (quiet_ensureFlight hkeyed _)
    · cases h
      exact .inl (quiet_ensureFlight hkeyed _).waiting
  | leave cacheKey =>
    simp only [HandlerState.step] at h
    split_ifs at h
    cases h
    exact .inl (.of_flights hkeyed rfl rfl le_rfl rfl)
  | bucketEnds cacheKey bucket answer =>
    simp only [HandlerState.step] at h
    split at h
    next request results hflight =>
      split_ifs at h
      cases h
      have hkey := hkeyed _ _ hflight
      have hstored := storing_eq hflight
      exact .inl (.of_set hkeyed ⟨request, .computing (results.set bucket _)⟩ hkey hstored
        rfl rfl rfl rfl)
    next => cases h
  | marshalFails cacheKey =>
    simp only [HandlerState.step] at h
    split at h
    next request results hflight =>
      split_ifs at h
      cases h
      have hkey := hkeyed _ _ hflight
      have hstored := storing_eq hflight
      exact .inl (.of_set hkeyed ⟨request, .done none⟩ hkey hstored rfl rfl rfl rfl)
    next => cases h
  | storeFresh cacheKey =>
    simp only [HandlerState.step] at h
    split at h
    next request results hflight =>
      split_ifs at h
      obtain rfl := hkeyed _ _ hflight
      cases h
      exact .inr (.inl ⟨_, results, rfl, {
        before := ⟨request, hflight⟩
        cache := rfl
        succeededAt := rfl
        now := rfl
        storing := storing_set ⟨request, .storing results⟩ rfl
        keyed := hkeyed.set ⟨request, .storing results⟩ rfl rfl }⟩)
    next => cases h
  | storeStale cacheKey =>
    simp only [HandlerState.step] at h
    split at h
    next request payload hflight =>
      obtain rfl := hkeyed _ _ hflight
      cases h
      exact .inr (.inr ⟨_, payload, rfl, {
        before := storing_eq hflight
        cache := rfl
        succeededAt := rfl
        now := rfl
        storing := storing_set ⟨request, .done (some payload)⟩ rfl
        keyed := hkeyed.set ⟨request, .done (some payload)⟩ rfl rfl }⟩)
    next => cases h
  | close cacheKey =>
    simp only [HandlerState.step] at h
    split at h
    next request payload hflight =>
      cases h
      exact .inl (quiet_close hkeyed hflight rfl)
    next => cases h

/-! ### The invariant -/

/-- The entry is the fresh or the stale one of the key. -/
def OwnsEntry (cacheKey entry : String) : Prop := entry = cacheKey ∨ entry = staleCacheKey cacheKey

instance (cacheKey entry : String) : Decidable (OwnsEntry cacheKey entry) :=
  inferInstanceAs (Decidable (_ ∨ _))

/-- A flight of the key has stored a payload without errors in its fresh entry alone. -/
def HandlerState.isStoringGood (s : HandlerState) (cacheKey : String) : Bool :=
  (s.storing cacheKey).any fun payload => !hasError payload

/-- No payload without errors of a key that owns the entry is within its stale lifetime, and none is
    being stored. -/
def HandlerState.isUnprotected (s : HandlerState) (entry : String) : Bool :=
  (s.succeededAt.rows.all fun row =>
    !decide (OwnsEntry row.1 entry) || decide (row.2 + homepageStaleTTL ≤ s.now))
  && s.flights.rows.all fun row =>
    !decide (OwnsEntry row.1 entry) || !s.isStoringGood row.1

/-- A payload with an error is not stored in a protected entry. -/
def sparesGoodPayloads (s : HandlerState) : HandlerEvent → Bool
  | .storeFresh cacheKey =>
    match s.flights.get? cacheKey with
    | some ⟨_, .computing results⟩ => !hasError results || s.isUnprotected cacheKey
    | _ => true
  | .storeStale cacheKey =>
    match s.storing cacheKey with
    | some payload => !hasError payload || s.isUnprotected (staleCacheKey cacheKey)
    | none => true
  | _ => true

lemma isUnprotected_iff {entry : String} : s.isUnprotected entry = true ↔
    ∀ cacheKey, OwnsEntry cacheKey entry →
      (∀ time, s.succeededAt.get? cacheKey = some time → time + homepageStaleTTL ≤ s.now) ∧
      s.isStoringGood cacheKey = false := by
  simp only [HandlerState.isUnprotected, Bool.and_eq_true, List.all_eq_true, Bool.or_eq_true,
    Bool.not_eq_true', decide_eq_false_iff_not, decide_eq_true_eq, Prod.forall,
    Table.mem_rows_iff]
  constructor
  · rintro ⟨htimes, hflights⟩ cacheKey howns
    refine ⟨fun time htime => (htimes cacheKey time htime).resolve_left (not_not.mpr howns), ?_⟩
    cases hflight : s.flights.get? cacheKey with
    | some flight => exact (hflights cacheKey flight hflight).resolve_left (not_not.mpr howns)
    | none => simp [HandlerState.isStoringGood, HandlerState.storing, hflight]
  · intro h
    refine ⟨fun cacheKey time htime => ?_, fun cacheKey flight hflight => ?_⟩
    · by_cases howns : OwnsEntry cacheKey entry
      · exact .inr ((h cacheKey howns).1 time htime)
      · exact .inl howns
    · by_cases howns : OwnsEntry cacheKey entry
      · exact .inr (h cacheKey howns).2
      · exact .inl howns

/-- What the cache holds, by what has been stored without errors. -/
structure HomepageInvariant (s : HandlerState) : Prop where
  keyed : Keyed s
  lifetimes : ∀ key entry, s.cache.entries.get? key = some entry →
    entry.expiresAt ≤ s.now + homepageStaleTTL
  past : ∀ cacheKey time, s.succeededAt.get? cacheKey = some time → time ≤ s.now
  good : ∀ key entry, s.cache.entries.get? key = some entry → hasError entry.value = false →
    ∃ cacheKey, OwnsEntry cacheKey key ∧ (s.isStoringGood cacheKey = true ∨
      ∃ time, s.succeededAt.get? cacheKey = some time ∧
        entry.expiresAt ≤ time + homepageStaleTTL)
  bad : ∀ key entry, s.cache.entries.get? key = some entry → hasError entry.value = true →
    s.now < entry.expiresAt → ∀ cacheKey time, OwnsEntry cacheKey key →
      s.succeededAt.get? cacheKey = some time → time + homepageStaleTTL ≤ s.now
  storing : ∀ cacheKey entry, s.isStoringGood cacheKey = true →
    s.cache.entries.get? cacheKey = some entry → s.now < entry.expiresAt →
    hasError entry.value = false

lemma staleCacheKey_ne (cacheKey : String) : staleCacheKey cacheKey ≠ cacheKey := by
  intro h
  have hlength := congrArg String.length h
  rw [staleCacheKey, String.length_append] at hlength
  simp at hlength

/-- The fresh entry of a key is the first that a flight stores. -/
theorem HomepageInvariant.storeFresh (hs : HomepageInvariant s) {cacheKey : String}
    {payload : Payload} (h : StoresFresh s cacheKey payload s')
    (hspared : sparesGoodPayloads s (.storeFresh cacheKey) = true) : HomepageInvariant s' := by
  obtain ⟨request, hflight⟩ := h.before
  have hbefore : s.isStoringGood cacheKey = false := by
    rw [HandlerState.isStoringGood, storing_eq hflight]
    rfl
  have hafter : ∀ key, s'.isStoringGood key
      = if key = cacheKey then !hasError payload else s.isStoringGood key := by
    intro key
    rw [HandlerState.isStoringGood, h.storing]
    split_ifs <;> rfl
  have hfree : hasError payload = true → s.isUnprotected cacheKey = true := by
    simpa [sparesGoodPayloads, hflight, or_iff_not_imp_left] using hspared
  constructor
  · exact h.keyed
  · intro key entry hentry
    rw [h.cache] at hentry
    rw [h.now]
    rcases ExpiringCache.entries_set_cases hentry with ⟨-, rfl⟩ | ⟨-, hold⟩
    · exact Nat.add_le_add_left (by decide) _
    · exact hs.lifetimes key entry hold
  · rw [h.succeededAt, h.now]
    exact hs.past
  · intro key entry hentry hgood
    rw [h.cache] at hentry
    rw [h.succeededAt]
    rcases ExpiringCache.entries_set_cases hentry with ⟨rfl, rfl⟩ | ⟨-, hold⟩
    · exact ⟨key, .inl rfl, .inl (by rw [hafter, if_pos rfl, hgood]; rfl)⟩
    · obtain ⟨owner, howns, hprotected⟩ := hs.good key entry hold hgood
      refine ⟨owner, howns, hprotected.imp_left fun hstoring => ?_⟩
      have hne : owner ≠ cacheKey := by
        rintro rfl
        simp [hbefore] at hstoring
      rwa [hafter, if_neg hne]
  · intro key entry hentry hbad hlive owner time howns htime
    rw [h.cache] at hentry
    rw [h.succeededAt] at htime
    rw [h.now] at hlive ⊢
    rcases ExpiringCache.entries_set_cases hentry with ⟨rfl, rfl⟩ | ⟨-, hold⟩
    · exact (isUnprotected_iff.mp (hfree hbad) owner howns).1 time htime
    · exact hs.bad key entry hold hbad hlive owner time howns htime
  · intro key entry hstoring hentry hlive
    rw [h.cache] at hentry
    rw [h.now] at hlive
    rw [hafter] at hstoring
    rcases ExpiringCache.entries_set_cases hentry with ⟨rfl, rfl⟩ | ⟨hne, hold⟩
    · simpa using hstoring
    · rw [if_neg hne] at hstoring
      exact hs.storing key entry hstoring hold hlive

namespace StoresStale

variable {cacheKey : String} {payload : Payload}

lemma isStoringGood_before (h : StoresStale s cacheKey payload s') :
    s.isStoringGood cacheKey = !hasError payload := by
  rw [HandlerState.isStoringGood, h.before]
  rfl

lemma isStoringGood_after (h : StoresStale s cacheKey payload s') (key : String) :
    s'.isStoringGood key = if key = cacheKey then false else s.isStoringGood key := by
  rw [HandlerState.isStoringGood, h.storing]
  split_ifs <;> rfl

/-- The success of the flight that stores is the only new one. -/
lemma succeeded_cases (h : StoresStale s cacheKey payload s') {owner : String} {time : ℕ}
    (htime : s'.succeededAt.get? owner = some time) :
    s.succeededAt.get? owner = some time ∨
      owner = cacheKey ∧ time = s.now ∧ hasError payload = false := by
  rw [h.succeededAt] at htime
  split_ifs at htime with herror
  · exact .inl htime
  · rcases Table.get?_set_cases htime with ⟨rfl, rfl⟩ | hold
    · exact .inr ⟨rfl, rfl, by simpa using herror⟩
    · exact .inl hold

lemma succeeded_of_good (h : StoresStale s cacheKey payload s') (hgood : hasError payload = false) :
    s'.succeededAt.get? cacheKey = some s.now := by
  rw [h.succeededAt, if_neg (by simp [hgood])]
  exact Table.get?_set_self ..

/-- A success is followed by later ones only. -/
lemma exists_later_success (h : StoresStale s cacheKey payload s') (hs : HomepageInvariant s)
    {owner : String} {time : ℕ} (htime : s.succeededAt.get? owner = some time) :
    ∃ time', s'.succeededAt.get? owner = some time' ∧ time ≤ time' := by
  rw [h.succeededAt]
  split_ifs
  · exact ⟨time, htime, le_rfl⟩
  · by_cases howner : owner = cacheKey
    · subst howner
      exact ⟨s.now, Table.get?_set_self .., hs.past owner time htime⟩
    · exact ⟨time, (Table.get?_set_ne _ _ howner).trans htime, le_rfl⟩

end StoresStale

/-- With the stale entry both entries of a key are stored. -/
theorem HomepageInvariant.storeStale (hs : HomepageInvariant s) {cacheKey : String}
    {payload : Payload} (h : StoresStale s cacheKey payload s')
    (hspared : sparesGoodPayloads s (.storeStale cacheKey) = true) : HomepageInvariant s' := by
  have hfree : hasError payload = true → s.isUnprotected (staleCacheKey cacheKey) = true := by
    simpa [sparesGoodPayloads, h.before, or_iff_not_imp_left] using hspared
  constructor
  · exact h.keyed
  · intro key entry hentry
    rw [h.cache] at hentry
    rw [h.now]
    rcases ExpiringCache.entries_set_cases hentry with ⟨-, rfl⟩ | ⟨-, hold⟩
    · exact le_rfl
    · exact hs.lifetimes key entry hold
  · intro owner time htime
    rw [h.now]
    rcases h.succeeded_cases htime with hold | ⟨-, rfl, -⟩
    · exact hs.past owner time hold
    · exact le_rfl
  · intro key entry hentry hgood
    rw [h.cache] at hentry
    rcases ExpiringCache.entries_set_cases hentry with ⟨rfl, rfl⟩ | ⟨-, hold⟩
    · exact ⟨cacheKey, .inr rfl, .inr ⟨s.now, h.succeeded_of_good hgood, le_rfl⟩⟩
    · obtain ⟨owner, howns, hstoring | ⟨time, htime, hle⟩⟩ := hs.good key entry hold hgood
      · by_cases howner : owner = cacheKey
        · subst howner
          rw [h.isStoringGood_before, Bool.not_eq_true'] at hstoring
          exact ⟨owner, howns, .inr ⟨s.now, h.succeeded_of_good hstoring,
            hs.lifetimes key entry hold⟩⟩
        · exact ⟨owner, howns, .inl (by rwa [h.isStoringGood_after, if_neg howner])⟩
      · obtain ⟨time', htime', hle'⟩ := h.exists_later_success hs htime
        exact ⟨owner, howns, .inr ⟨time', htime', hle.trans (Nat.add_le_add_right hle' _)⟩⟩
  · intro key entry hentry hbad hlive owner time howns htime
    rw [h.cache] at hentry
    rw [h.now] at hlive ⊢
    rcases ExpiringCache.entries_set_cases hentry with ⟨rfl, rfl⟩ | ⟨hne, hold⟩
    · rcases h.succeeded_cases htime with hold | ⟨-, -, hgood⟩
      · exact (isUnprotected_iff.mp (hfree hbad) owner howns).1 time hold
      · simp [hgood] at hbad
    · rcases h.succeeded_cases htime with htime | ⟨rfl, -, hgood⟩
      · exact hs.bad key entry hold hbad hlive owner time howns htime
      · -- the fresh entry of the key is without errors while its flight stores
        obtain rfl := howns.resolve_right hne
        have hfresh := hs.storing key entry (by rw [h.isStoringGood_before, hgood]; rfl) hold
          hlive
        simp [hfresh] at hbad
  · intro key entry hstoring hentry hlive
    rw [h.cache] at hentry
    rw [h.now] at hlive
    rw [h.isStoringGood_after] at hstoring
    split_ifs at hstoring with hkey
    rcases ExpiringCache.entries_set_cases hentry with ⟨rfl, rfl⟩ | ⟨-, hold⟩
    · by_contra hbad
      rw [Bool.not_eq_false] at hbad
      have hunprotected := isUnprotected_iff.mp (hfree hbad) (staleCacheKey cacheKey) (.inl rfl)
      simp [hunprotected.2] at hstoring
    · exact hs.storing key entry hstoring hold hlive

end

/-! ### Runs -/

end Denn.Homepage
