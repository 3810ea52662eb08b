import Denn.Core.Transition
import Denn.Proxy.Eligibility
import Mathlib.Data.Finset.Card

/-!
# Bulk fetches

The services fetch the details of a list of ids, each in a goroutine of its own that writes the result to
the slot of its id; at most ten run at once. The loop that starts them stops when the context ends, and
the slots of the ids that it has not come to stay as they were made.
-/

namespace Denn.Proxy.Bulk

open Denn.Core

variable {ι ω δ : Type}

/-! ### The results -/

structure Result (ι δ : Type) where
  id : ι
  data : Option δ
  error : String
  deriving DecidableEq

/-- The zero value of a result. -/
def Result.zero [Inhabited ι] : Result ι δ := ⟨default, none, ""⟩

/-- The result tells of its id, and has either data or an error. -/
structure Result.Accounts (id : ι) (result : Result ι δ) : Prop where
  id_eq : result.id = id
  data_or_error : Xor (result.data.isSome = true) (result.error ≠ "")

/-- The text of `clients.ErrNotFound`. -/
def errNotFound : String := "resource not found"

/-- What a goroutine writes when its fetch has returned. -/
def settled (id : ι) : Except String δ → Result ι δ
  | .error text => ⟨id, none, text⟩
  | .ok data => ⟨id, some data, ""⟩

/-- The error of a fetch, with what was to be fetched. -/
def described (what : String) (answer : Except String δ) : Except String δ :=
  answer.mapError fun text => what ++ ": " ++ text

/-- A check of what was fetched. -/
def checked (text : String) (passes : δ → Bool) (fetched : Except String δ) : Except String δ :=
  fetched.bind fun data => if passes data then .ok data else .error text

section

variable (releaseDate : δ → Option String) (now : Instant)

def getMovieComplete (movieID : ℤ) (answer : Except String δ) : Except String δ :=
  described ("get movie " ++ toString movieID) answer

def getTVShowComplete (tvID : ℤ) (answer : Except String δ) : Except String δ :=
  described ("get tv show " ++ toString tvID) answer

def getMoviePreview (movieID : ℤ) (answer : Except String δ) : Except String δ :=
  checked ("get movie preview " ++ toString movieID ++ ": " ++ errNotFound)
    (fun movie => isGeneralReleaseEligible now (releaseDate movie))
    (described ("get movie preview " ++ toString movieID) answer)

def getTVShowPreview (tvID : ℤ) (answer : Except String δ) : Except String δ :=
  checked ("get tv preview " ++ toString tvID ++ ": " ++ errNotFound)
    (fun show' => isGeneralReleaseEligible now (releaseDate show'))
    (described ("get tv preview " ++ toString tvID) answer)

def getAlbumComplete (albumID : String) (answer : Except String δ) : Except String δ :=
  described ("get album " ++ albumID) answer

/-- The book is the first of those found. -/
def getBookComplete (bookID : String) (answer : Except String (List δ)) : Except String δ :=
  (described ("get book " ++ bookID) answer).bind fun docs =>
    docs.head?.elim (.error ("get book " ++ bookID ++ ": " ++ errNotFound)) .ok

/-- The goroutine of `GetBulkMovies`. -/
def bulkMovies (_ : Instant) (movieID : ℤ) (answer : Except String δ) : Result ℤ δ :=
  settled movieID (getMovieComplete movieID answer)

/-- The goroutine of `GetBulkTVShows`. -/
def bulkTVShows (_ : Instant) (tvID : ℤ) (answer : Except String δ) : Result ℤ δ :=
  settled tvID (getTVShowComplete tvID answer)

/-- The goroutine of `GetBulkMoviePreviews`. -/
def bulkMoviePreviews (movieID : ℤ) (answer : Except String δ) : Result ℤ δ :=
  settled movieID (getMoviePreview releaseDate now movieID answer)

/-- The goroutine of `GetBulkTVShowPreviews`. -/
def bulkTVShowPreviews (tvID : ℤ) (answer : Except String δ) : Result ℤ δ :=
  settled tvID (getTVShowPreview releaseDate now tvID answer)

/-- The goroutine of `GetBulkAlbums`. -/
def bulkAlbums (albumID : String) (answer : Except String δ) : Result String δ :=
  settled albumID (checked errNotFound
    (fun album => isGeneralReleaseEligible now (releaseDate album))
    (getAlbumComplete albumID answer))

/-- The goroutine of `GetBulkBooks`. -/
def bulkBooks (bookID : String) (answer : Except String (List δ)) : Result String δ :=
  settled bookID (checked errNotFound
    (fun book => isGeneralReleaseEligible now (releaseDate book))
    (getBookComplete bookID answer))

end

/-! ### The loop and its goroutines -/

/-- `next` is the index that the loop has come to. A goroutine that has written its result still holds
    its place until it releases it. -/
structure State (ι δ : Type) where
  contextEnded : Bool := false
  looping : Bool := true
  next : ℕ := 0
  fetching : Finset ℕ := ∅
  written : Finset ℕ := ∅
  results : List (Result ι δ)
  returned : Bool := false

inductive Event (ω : Type) where
  | contextEnds
  /-- The loop gets a place, and starts a goroutine. -/
  | launch
  /-- The loop sees that the context has ended. -/
  | breakLoop
  | write (index : ℕ) (now : Instant) (answer : ω)
  | release (index : ℕ)
  /-- All goroutines are done. -/
  | return

/-- The places of the semaphore. -/
def places : ℕ := 10

namespace State

variable (fetch : Instant → ι → ω → Result ι δ) (ids : List ι)

def step (s : State ι δ) : Event ω → Option (State ι δ)
  | .contextEnds => some { s with contextEnded := true }
  | .launch =>
    if s.looping ∧ s.next < ids.length ∧ s.fetching.card + s.written.card < places then
      some { s with next := s.next + 1, fetching := insert s.next s.fetching }
    else none
  | .breakLoop =>
    if s.looping ∧ s.next < ids.length ∧ s.contextEnded then some { s with looping := false }
    else none
  | .write index now answer =>
    if index ∈ s.fetching then
      ids[index]?.map fun id => { s with
        fetching := s.fetching.erase index
        written := insert index s.written
        results := s.results.set index (fetch now id answer) }
    else none
  | .release index =>
    if index ∈ s.written then some { s with written := s.written.erase index } else none
  | .return =>
    if (s.looping → s.next = ids.length) ∧ s.fetching = ∅ ∧ s.written = ∅ ∧ ¬ s.returned then
      some { s with returned := true }
    else none

end State

/-- A bulk fetch of some ids starts with a slot for each of them. -/
def system [Inhabited ι] (fetch : Instant → ι → ω → Result ι δ) (ids : List ι) :
    TransitionSystem (State ι δ) (Event ω) where
  initial s := s = { results := List.replicate ids.length .zero }
  step s event := s.step fetch ids event

/-! ### What the goroutines write -/

section

variable {id : ι} {fetched : Except String δ} {text : String}

/-- An error that has a text. -/
def Told (fetched : Except String δ) : Prop := fetched ≠ .error ""

lemma told_error (htext : text ≠ "") : Told (.error text : Except String δ) := by
  intro heq
  exact htext (Except.error.inj heq)

lemma append_ne_empty {s : String} (hs : s ≠ "") (t : String) : s ++ t ≠ "" := by
  intro happend
  exact hs (String.append_eq_empty_iff.mp happend).1

lemma accounts_settled (id : ι) (htold : Told fetched) : (settled id fetched).Accounts id := by
  cases fetched with
  | error text =>
    refine ⟨rfl, .inr ⟨fun htext => htold (congrArg _ htext), Bool.false_ne_true⟩⟩
  | ok data => exact ⟨rfl, .inl ⟨rfl, fun h => h rfl⟩⟩

lemma told_described {what : String} (hwhat : what ≠ "") (answer : Except String δ) :
    Told (described what answer) := by
  cases answer with
  | error cause => exact told_error (append_ne_empty (append_ne_empty hwhat _) _)
  | ok data => exact fun heq => by cases heq

lemma told_checked (htext : text ≠ "") (passes : δ → Bool) (htold : Told fetched) :
    Told (checked text passes fetched) := by
  cases fetched with
  | error cause => exact htold
  | ok data =>
    rw [checked, Except.bind]
    split_ifs
    · exact fun heq => by cases heq
    · exact told_error htext

end

section

variable (releaseDate : δ → Option String) (now : Instant)

lemma accounts_bulkMovies (movieID : ℤ) (answer : Except String δ) :
    (bulkMovies now movieID answer).Accounts movieID :=
  accounts_settled _ (told_described (append_ne_empty (by decide) _) _)

lemma accounts_bulkTVShows (tvID : ℤ) (answer : Except String δ) :
    (bulkTVShows now tvID answer).Accounts tvID :=
  accounts_settled _ (told_described (append_ne_empty (by decide) _) _)

lemma accounts_bulkMoviePreviews (movieID : ℤ) (answer : Except String δ) :
    (bulkMoviePreviews releaseDate now movieID answer).Accounts movieID :=
  accounts_settled _ (told_checked
    (append_ne_empty (append_ne_empty (append_ne_empty (by decide) _) _) _) _
    (told_described (append_ne_empty (by decide) _) _))

lemma accounts_bulkTVShowPreviews (tvID : ℤ) (answer : Except String δ) :
    (bulkTVShowPreviews releaseDate now tvID answer).Accounts tvID :=
  accounts_settled _ (told_checked
    (append_ne_empty (append_ne_empty (append_ne_empty (by decide) _) _) _) _
    (told_described (append_ne_empty (by decide) _) _))

lemma accounts_bulkAlbums (albumID : String) (answer : Except String δ) :
    (bulkAlbums releaseDate now albumID answer).Accounts albumID :=
  accounts_settled _ (told_checked (by decide) _
    (told_described (append_ne_empty (by decide) _) _))

lemma accounts_bulkBooks (bookID : String) (answer : Except String (List δ)) :
    (bulkBooks releaseDate now bookID answer).Accounts bookID := by
  refine accounts_settled _ (told_checked (by decide) _ ?_)
  have hnotFound : Told (.error ("get book " ++ bookID ++ ": " ++ errNotFound) : Except String δ) :=
    told_error (append_ne_empty (append_ne_empty (append_ne_empty (by decide) _) _) _)
  cases answer with
  | error cause =>
    exact told_error (append_ne_empty (append_ne_empty (append_ne_empty (by decide) _) _) _)
  | ok docs =>
    cases docs with
    | nil => exact hnotFound
    | cons book docs => exact fun heq => by cases heq

end

/-! ### The invariant -/

variable [Inhabited ι] {fetch : Instant → ι → ω → Result ι δ} {ids : List ι} {s s' : State ι δ}
  {event : Event ω}

/-- Every goroutine writes a result that tells of its id. -/
def FetchAccounts (fetch : Instant → ι → ω → Result ι δ) : Prop :=
  ∀ now id answer, (fetch now id answer).Accounts id

/-- The slots of the ids that the loop has come to are written by the goroutines that are done, and all
    others are as they were made. -/
structure Inv (ids : List ι) (s : State ι δ) : Prop where
  length : s.results.length = ids.length
  next_le : s.next ≤ ids.length
  fetching_lt : ∀ i ∈ s.fetching, i < s.next
  accounts : ∀ i id, ids[i]? = some id → i < s.next → i ∉ s.fetching →
    ∃ result, s.results[i]? = some result ∧ result.Accounts id
  untouched : ∀ i id, ids[i]? = some id → s.next ≤ i → s.results[i]? = some .zero
  broke : s.looping = false → s.contextEnded = true
  returned : s.returned = true → (s.looping = true → s.next = ids.length) ∧ s.fetching = ∅

lemma inv_initial (ids : List ι) :
    Inv ids ({ results := List.replicate ids.length .zero } : State ι δ) where
  length := List.length_replicate
  next_le := Nat.zero_le _
  fetching_lt _ hmem := absurd hmem (Finset.notMem_empty _)
  accounts _ _ _ hlt := absurd hlt (Nat.not_lt_zero _)
  untouched i id hid _ := by
    rw [List.getElem?_replicate, if_pos (List.getElem?_eq_some_iff.mp hid).1]
  broke h := Bool.noConfusion h
  returned h := absurd h Bool.false_ne_true

/-- The loop starts a goroutine for the next id. -/
lemma Inv.launch (h : Inv ids s) (hlt : s.next < ids.length)
    (hreturned : s.returned = true → False) :
    Inv ids { s with next := s.next + 1, fetching := insert s.next s.fetching } where
  length := h.length
  next_le := hlt
  fetching_lt i hi := by
    rcases Finset.mem_insert.mp hi with rfl | hi
    · exact Nat.lt_succ_self _
    · exact (h.fetching_lt i hi).trans (Nat.lt_succ_self _)
  accounts i id hid hi hfetching := by
    obtain ⟨hne, hfetching⟩ := not_or.mp (mt Finset.mem_insert.mpr hfetching)
    exact h.accounts i id hid (lt_of_le_of_ne (Nat.le_of_lt_succ hi) hne) hfetching
  untouched i id hid hi := h.untouched i id hid (Nat.le_of_succ_le hi)
  broke := h.broke
  returned hret := (hreturned hret).elim

/-- A goroutine writes to the slot of its id and to no other. -/
lemma Inv.write (hfetch : FetchAccounts fetch) (h : Inv ids s) {index : ℕ} {id : ι} {now : Instant}
    {answer : ω} (hmem : index ∈ s.fetching) (hid : ids[index]? = some id) :
    Inv ids { s with
      fetching := s.fetching.erase index
      written := insert index s.written
      results := s.results.set index (fetch now id answer) } where
  length := by rw [List.length_set, h.length]
  next_le := h.next_le
  fetching_lt i hi := h.fetching_lt i (Finset.mem_of_mem_erase hi)
  accounts i id' hid' hi hfetching := by
    by_cases heq : i = index
    · obtain rfl := heq
      obtain rfl := Option.some.inj (hid.symm.trans hid')
      have hlt : i < s.results.length := h.length ▸ (List.getElem?_eq_some_iff.mp hid).1
      exact ⟨_, List.getElem?_set_self hlt, hfetch now id answer⟩
    · obtain ⟨result, hresult, haccounts⟩ :=
        h.accounts i id' hid' hi fun hmem' => hfetching (Finset.mem_erase.mpr ⟨heq, hmem'⟩)
      exact ⟨result, (List.getElem?_set_ne (Ne.symm heq)).trans hresult, haccounts⟩
  untouched i id' hid' hi := by
    have hne : index ≠ i := Nat.ne_of_lt ((h.fetching_lt index hmem).trans_le hi)
    rw [List.getElem?_set_ne hne]
    exact h.untouched i id' hid' hi
  broke := h.broke
  returned hret := by
    rw [(h.returned hret).2] at hmem
    exact absurd hmem (Finset.notMem_empty _)

lemma Inv.step (hfetch : FetchAccounts fetch) (h : Inv ids s)
    (hstep : s.step fetch ids event = some s') : Inv ids s' := by
  cases event with
  | contextEnds =>
    obtain rfl := Option.some.inj hstep
    exact ⟨h.length, h.next_le, h.fetching_lt, h.accounts, h.untouched, fun _ => rfl, h.returned⟩
  | launch =>
    rw [State.step, Option.ite_none_right_eq_some] at hstep
    obtain ⟨⟨hlooping, hlt, -⟩, heq⟩ := hstep
    obtain rfl := Option.some.inj heq
    refine h.launch hlt fun hreturned => ?_
    have := (h.returned hreturned).1 hlooping
    omega
  | breakLoop =>
    rw [State.step, Option.ite_none_right_eq_some] at hstep
    obtain ⟨⟨hlooping, hlt, hended⟩, heq⟩ := hstep
    obtain rfl := Option.some.inj heq
    refine ⟨h.length, h.next_le, h.fetching_lt, h.accounts, h.untouched, fun _ => hended, ?_⟩
    intro hreturned
    have := (h.returned hreturned).1 hlooping
    omega
  | write index now answer =>
    rw [State.step, Option.ite_none_right_eq_some] at hstep
    obtain ⟨hmem, heq⟩ := hstep
    obtain ⟨id, hid, rfl⟩ := Option.map_eq_some_iff.mp heq
    exact h.write hfetch hmem hid
  | release index =>
    rw [State.step, Option.ite_none_right_eq_some] at hstep
    obtain ⟨-, heq⟩ := hstep
    obtain rfl := Option.some.inj heq
    exact ⟨h.length, h.next_le, h.fetching_lt, h.accounts, h.untouched, h.broke, h.returned⟩
  | «return» =>
    rw [State.step, Option.ite_none_right_eq_some] at hstep
    obtain ⟨⟨hloop, hfetching, -⟩, heq⟩ := hstep
    obtain rfl := Option.some.inj heq
    exact ⟨h.length, h.next_le, h.fetching_lt, h.accounts, h.untouched, h.broke,
      fun _ => ⟨hloop, hfetching⟩⟩

lemma inv_of_reachable (hfetch : FetchAccounts fetch) (h : (system fetch ids).Reachable s) :
    Inv ids s := by
  refine h.invariant (fun s hs => ?_) fun s event s' hinv hstep => hinv.step hfetch hstep
  obtain rfl := hs
  exact inv_initial ids

/-- When the fetch returns, there is a slot for every id; those of the ids that the loop has come to,
    which are all if the context has not ended, tell of their ids, and the others are as they were
    made. -/
def AccountsForStarted (fetch : Instant → ι → ω → Result ι δ) : Prop :=
  ∀ ids s, (system fetch ids).Reachable s → s.returned = true →
    s.results.length = ids.length ∧ (s.contextEnded = false → s.next = ids.length) ∧
    ∀ i id, ids[i]? = some id → ∃ result, s.results[i]? = some result ∧
      if i < s.next then result.Accounts id else result = .zero

lemma accountsForStarted (hfetch : FetchAccounts fetch) : AccountsForStarted fetch := by
  intro ids s hs hreturned
  have hinv := inv_of_reachable hfetch hs
  obtain ⟨hloop, hfetching⟩ := hinv.returned hreturned
  refine ⟨hinv.length, fun hended => ?_, fun i id hid => ?_⟩
  · refine hloop (Bool.of_not_eq_false fun hlooping => ?_)
    exact Bool.false_ne_true (hended.symm.trans (hinv.broke hlooping))
  · by_cases hlt : i < s.next
    · obtain ⟨result, hresult, haccounts⟩ :=
        hinv.accounts i id hid hlt (hfetching ▸ Finset.notMem_empty i)
      exact ⟨result, hresult, by rwa [if_pos hlt]⟩
    · exact ⟨.zero, hinv.untouched i id hid (not_lt.mp hlt), by rw [if_neg hlt]⟩

/-- All bulk fetches account for the ids that they have started to fetch. -/
theorem bulk_accountsForStarted (releaseDate : δ → Option String) :
    AccountsForStarted (bulkMovies (δ := δ)) ∧ AccountsForStarted (bulkTVShows (δ := δ)) ∧
    AccountsForStarted (bulkMoviePreviews releaseDate) ∧
    AccountsForStarted (bulkTVShowPreviews releaseDate) ∧
    AccountsForStarted (bulkAlbums releaseDate) ∧ AccountsForStarted (bulkBooks releaseDate) :=
  ⟨accountsForStarted accounts_bulkMovies, accountsForStarted accounts_bulkTVShows,
    accountsForStarted (accounts_bulkMoviePreviews releaseDate),
    accountsForStarted (accounts_bulkTVShowPreviews releaseDate),
    accountsForStarted (accounts_bulkAlbums releaseDate),
    accountsForStarted (accounts_bulkBooks releaseDate)⟩

/-- The context ends before the first fetch has started. -/
theorem bulkMovies_not_accounted :
    ∃ s : State ℤ Unit, (system bulkMovies [7]).Reachable s ∧ s.returned = true ∧
      s.results = [⟨0, none, ""⟩] ∧ ¬ ∀ result ∈ s.results, result.Accounts 7 := by
  have hinitial : (system bulkMovies [7]).Reachable
      ({ results := [.zero] } : State ℤ Unit) := .initial rfl
  have hended := hinitial.step (a := .contextEnds) trivial rfl
  have hbroken := hended.step (a := .breakLoop) trivial rfl
  have hreturned := hbroken.step (a := .return) trivial rfl
  exact ⟨_, hreturned, rfl, rfl, fun h => absurd (h _ List.mem_cons_self).id_eq (by decide)⟩

end Denn.Proxy.Bulk
