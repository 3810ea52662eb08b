import Denn.Core.Decimal
import Denn.Core.GoInt
import Denn.Proxy.Bulk
import Denn.Proxy.CacheKey
import Denn.Proxy.Trending
import Mathlib

/-!
# The bulk endpoints

`/movies/bulk` and its siblings take their ids from one query parameter, with commas between them. They
refuse a parameter that is empty, does not read or names too many ids, and answer with whatever the
service has fetched.
-/

namespace Denn.Proxy.Bulk

open Denn.Core

variable {ι ω δ : Type}

/-! ### Reading the ids -/

/-- The pieces of the parameter that are not blank. -/
def pieces (s : String) : List String :=
  ((s.toList.splitOn ',').map fun piece => CacheKey.trimSpace (String.ofList piece)).filter (· ≠ "")

/-- `ParseIDs`. -/
def parseIDs (s : String) : Option (List ℤ) := (pieces s).mapM atoi?

/-- `ParseStringIDs`. -/
def parseStringIDs (s : String) : List String := pieces s

example : parseIDs "603, +7,,550" = some [603, 7, 550] ∧ parseIDs "603,one" = none ∧
    parseStringIDs " OL1W,,OL2W" = ["OL1W", "OL2W"] := by decide

/-- The body of a refusal, with its status. -/
structure ErrorResponse where
  status : ℕ := 400
  error : String
  message : String

/-- What the bulk handlers differ in: the limit, the reading of the parameter and the messages. An id is
    named by its text in a response, and a text in `Names` is the name of an id wherever it stands in the
    parameter. -/
structure Endpoint (ι : Type) where
  maxBulkIDs : ℕ
  parse : String → Option (List ι)
  invalidMessage : String
  limitMessage : String
  idText : ι → String
  IsId : ι → Prop
  parse_join : ∀ ids : List ι, ids ≠ [] → (∀ id ∈ ids, IsId id) →
    parse (",".intercalate (ids.map idText)) = some ids
  text_ne_empty : ∀ s ids, parse s = some ids → ∀ id ∈ ids, idText id ≠ ""
  id_ne_empty : ∀ id, IsId id → idText id ≠ ""

/-- The checks at the head of a bulk handler. -/
def Endpoint.requestedIDs (e : Endpoint ι) (idsParam : String) : Except ErrorResponse (List ι) :=
  if idsParam = "" then
    .error { error := "MISSING_PARAMETER", message := "ids parameter is required" }
  else
    match e.parse idsParam with
    | none => .error { error := "INVALID_PARAMETER", message := e.invalidMessage }
    | some ids =>
      if ids.isEmpty then
        .error { error := "MISSING_PARAMETER", message := "at least one id is required" }
      else if e.maxBulkIDs < ids.length then
        .error { error := "LIMIT_EXCEEDED", message := e.limitMessage }
      else .ok ids

lemma parse_of_requestedIDs {e : Endpoint ι} {s : String} {ids : List ι}
    (h : e.requestedIDs s = .ok ids) : e.parse s = some ids := by
  rw [Endpoint.requestedIDs] at h
  split_ifs at h
  split at h
  · cases h
  · rename_i hparse
    split_ifs at h
    cases h
    exact hparse

/-! ### Ids that read back -/

lemma splitOn_intercalate {texts : List String} (hne : texts ≠ [])
    (hcomma : ∀ text ∈ texts, ',' ∉ text.toList) :
    (",".intercalate texts).toList.splitOn ',' = texts.map String.toList := by
  rw [String.toList_intercalate]
  refine List.splitOn_intercalate _ ?_ (by simpa using hne)
  intro piece hpiece
  obtain ⟨text, htext, rfl⟩ := List.mem_map.mp hpiece
  exact hcomma text htext

/-- A text that stands for itself between two commas. -/
structure IsPiece (text : String) : Prop where
  ne_empty : text ≠ ""
  trimmed : CacheKey.trimSpace text = text
  comma_notMem : ',' ∉ text.toList

lemma pieces_join {texts : List String} (hne : texts ≠ []) (h : ∀ text ∈ texts, IsPiece text) :
    pieces (",".intercalate texts) = texts := by
  rw [pieces, splitOn_intercalate hne fun text htext => (h text htext).comma_notMem, List.map_map]
  have hmap : texts.map ((fun piece => CacheKey.trimSpace (String.ofList piece)) ∘ String.toList) = texts := by
    refine (List.map_congr_left fun text htext => ?_).trans (List.map_id texts)
    rw [Function.comp_apply, String.ofList_toList, (h text htext).trimmed, id]
  rw [hmap, List.filter_eq_self]
  exact fun text htext => decide_eq_true (h text htext).ne_empty

lemma dropWhile_isSpace {text : List Char} (h : ∀ c ∈ text, CacheKey.isSpace c = false) :
    text.dropWhile CacheKey.isSpace = text := by
  cases text with
  | nil => rfl
  | cons c text => exact List.dropWhile_cons_of_neg (by simp [h c List.mem_cons_self])

lemma trimSpace_of_forall {text : String} (h : ∀ c ∈ text.toList, CacheKey.isSpace c = false) :
    CacheKey.trimSpace text = text := by
  rw [CacheKey.trimSpace, dropWhile_isSpace h, dropWhile_isSpace (by simpa using h), List.reverse_reverse,
    String.ofList_toList]

lemma mapM_eq_some_self {α β : Type*} {f : α → β} {read : β → Option α} {xs : List α}
    (h : ∀ x ∈ xs, read (f x) = some x) : xs.mapM (read ∘ f) = some xs := by
  induction xs with
  | nil => rfl
  | cons x xs ih =>
    obtain ⟨hx, hxs⟩ := List.forall_mem_cons.mp h
    rw [List.mapM_cons, Function.comp_apply, hx, ih hxs]
    rfl

/-- A 64-bit integer. -/
def IsInt (i : ℤ) : Prop := -maxInt - 1 ≤ i ∧ i ≤ maxInt

lemma asciiDigit_of_isDigit {c : Char} (h : c.isDigit = true) :
    asciiDigit c = some (c.toNat - '0'.toNat) := by
  rw [Char.isDigit, Bool.and_eq_true, decide_eq_true_eq, decide_eq_true_eq] at h
  exact if_pos h

lemma foldlM_digits {digits : List Char} (h : ∀ c ∈ digits, c.isDigit = true) (value : ℕ) :
    digits.foldlM (fun value c => (asciiDigit c).map fun digit => 10 * value + digit) value
      = some (Nat.ofDigitChars 10 digits value) := by
  induction digits generalizing value with
  | nil => rfl
  | cons c digits ih =>
    obtain ⟨hc, hdigits⟩ := List.forall_mem_cons.mp h
    rw [List.foldlM_cons, asciiDigit_of_isDigit hc, Nat.ofDigitChars_cons]
    exact ih hdigits _

lemma readDecimal_repr (n : ℕ) : readDecimal n.repr.toList = some n := by
  have hdigits : ∀ c ∈ n.repr.toList, c.isDigit = true := by
    intro c hc
    rw [Nat.toList_repr] at hc
    exact Nat.isDigit_of_mem_toDigits (by decide) (by decide) hc
  have hne : n.repr.toList.isEmpty = false := by
    rw [Nat.toList_repr, List.isEmpty_eq_false_iff]
    exact Nat.toDigits_ne_nil
  rw [readDecimal, hne, if_neg Bool.false_ne_true, foldlM_digits hdigits, Nat.toList_repr,
    Nat.ofDigitChars_ten_toDigits]

lemma head_ne_of_isDigit {digits : List Char} (h : ∀ c ∈ digits, c.isDigit = true) {c : Char}
    (hc : c.isDigit = false) : digits.head? ≠ some c := by
  intro hhead
  have hdigit := h c (List.mem_of_head? hhead)
  rw [hc] at hdigit
  exact Bool.noConfusion hdigit

/-- `strconv.Atoi` reads what `strconv.Itoa` writes. -/
lemma atoi?_itoa {i : ℤ} (h : IsInt i) : atoi? (itoa i) = some i := by
  obtain ⟨hlow, hhigh⟩ := h
  cases i with
  | ofNat n =>
    have htext : (itoa (Int.ofNat n)).toList = n.repr.toList := rfl
    have hdigits : ∀ c ∈ n.repr.toList, c.isDigit = true := by
      intro c hc
      rw [Nat.toList_repr] at hc
      exact Nat.isDigit_of_mem_toDigits (by decide) (by decide) hc
    have hminus := head_ne_of_isDigit hdigits (c := '-') (by decide)
    have hplus := head_ne_of_isDigit hdigits (c := '+') (by decide)
    unfold atoi?
    rw [htext]
    split
    · rename_i heq
      rw [heq] at hminus
      exact absurd rfl hminus
    · rename_i heq
      rw [heq] at hplus
      exact absurd rfl hplus
    · rw [readDecimal_repr]
      exact if_pos (decide_eq_true hhigh)
  | negSucc n =>
    have htext : (itoa (Int.negSucc n)).toList = '-' :: (n + 1).repr.toList := by
      simp [itoa, toString, Int.repr]
    have hvalue : ((some (n + 1)).bind fun a => some (a : ℤ)).map (fun m => -m)
        = some (Int.negSucc n) := rfl
    unfold atoi?
    rw [htext]
    simp only [readDecimal_repr]
    refine (congrArg _ hvalue).trans ?_
    rw [Option.filter_some, if_pos (decide_eq_true hlow)]

lemma isPiece_itoa (i : ℤ) : IsPiece (itoa i) where
  ne_empty := by
    cases i with
    | ofNat n =>
      intro h
      have hnil : n.repr.toList = [] := congrArg String.toList h
      rw [Nat.toList_repr] at hnil
      exact Nat.toDigits_ne_nil hnil
    | negSucc n => simp [itoa, toString, Int.repr]
  trimmed := by
    refine trimSpace_of_forall fun c hc => ?_
    rcases mem_itoa hc with rfl | hdigit
    · rfl
    · rw [Char.isDigit, Bool.and_eq_true, decide_eq_true_eq, decide_eq_true_eq] at hdigit
      have hlow : 48 ≤ c.toNat := hdigit.1
      have hhigh : c.toNat ≤ 57 := hdigit.2
      simp only [CacheKey.isSpace, Bool.or_eq_false_iff, Bool.and_eq_false_iff, decide_eq_false_iff_not,
        beq_eq_false_iff_ne]
      omega
  comma_notMem := notMem_itoa (by decide) (by decide) i

/-! ### The endpoints -/

/-- An endpoint whose ids are integers. -/
def integerEndpoint (maxBulkIDs : ℕ) (invalidMessage limitMessage : String) : Endpoint ℤ where
  maxBulkIDs := maxBulkIDs
  parse := parseIDs
  invalidMessage := invalidMessage
  limitMessage := limitMessage
  idText := itoa
  IsId := IsInt
  parse_join ids hne hids := by
    have htexts : ∀ text ∈ ids.map itoa, IsPiece text := by
      intro text htext
      obtain ⟨i, -, rfl⟩ := List.mem_map.mp htext
      exact isPiece_itoa i
    rw [parseIDs, pieces_join (by simpa using hne) htexts, List.mapM_map]
    exact mapM_eq_some_self fun i hi => atoi?_itoa (hids i hi)
  text_ne_empty _ _ _ id _ := (isPiece_itoa id).ne_empty
  id_ne_empty id _ := (isPiece_itoa id).ne_empty

/-- An endpoint whose ids are texts. -/
def textEndpoint (maxBulkIDs : ℕ) (limitMessage : String) : Endpoint String where
  maxBulkIDs := maxBulkIDs
  parse s := some (parseStringIDs s)
  invalidMessage := ""
  limitMessage := limitMessage
  idText := id
  IsId := IsPiece
  parse_join ids hne hids := by
    rw [List.map_id, parseStringIDs, pieces_join hne hids]
  text_ne_empty s ids hids id hid := by
    obtain rfl := Option.some.inj hids
    exact of_decide_eq_true (List.mem_filter.mp hid).2
  id_ne_empty _ hid := hid.ne_empty

def movies : Endpoint ℤ :=
  integerEndpoint 50 "invalid ids format, expected comma-separated integers"
    "maximum 50 ids allowed per request"

def tvShows : Endpoint ℤ :=
  integerEndpoint 50 "invalid ids format, expected comma-separated integers"
    "maximum 50 ids allowed per request"

def games : Endpoint ℤ := integerEndpoint 50 "invalid ids format" "maximum 50 ids allowed"

def albums : Endpoint String := textEndpoint 20 "maximum 20 ids allowed per request"

def books : Endpoint String := textEndpoint 20 "maximum 20 ids allowed per request"

/-- A request for few enough ids is not refused. -/
lemma requestedIDs_join {e : Endpoint ι} {ids : List ι} (hne : ids ≠ [])
    (hle : ids.length ≤ e.maxBulkIDs) (hids : ∀ id ∈ ids, e.IsId id) :
    e.requestedIDs (",".intercalate (ids.map e.idText)) = .ok ids := by
  have hparam : ",".intercalate (ids.map e.idText) ≠ "" := by
    intro hempty
    cases ids with
    | nil => exact hne rfl
    | cons id ids =>
      have hid : e.idText id ≠ "" := e.id_ne_empty id (hids id List.mem_cons_self)
      cases ids with
      | nil => exact hid (by simpa using hempty)
      | cons _ _ => simp [List.map_cons] at hempty
  rw [Endpoint.requestedIDs, if_neg hparam, e.parse_join ids hne hids]
  simp only [List.isEmpty_iff, hne, if_false, Nat.not_lt.mpr hle]

/-! ### The answers -/

/-- The data in the slot of an id. -/
def State.slot (s : State ι δ) (i : ℕ) : Option δ := (s.results[i]?).bind (·.data)

/-- What a handler answers with when its service has returned. -/
def State.response (s : State ι δ) : List δ := s.results.filterMap (·.data)

lemma State.mem_response {s : State ι δ} {d : δ} : d ∈ s.response ↔ ∃ i, s.slot i = some d := by
  rw [State.response, List.mem_filterMap]
  constructor
  · rintro ⟨result, hmem, hdata⟩
    obtain ⟨i, hi⟩ := List.mem_iff_getElem?.mp hmem
    exact ⟨i, by rw [State.slot, hi, Option.bind_some, hdata]⟩
  · rintro ⟨i, hslot⟩
    obtain ⟨result, hi, hdata⟩ := Option.bind_eq_some_iff.mp hslot
    exact ⟨result, List.mem_of_getElem? hi, hdata⟩

/-- What a goroutine has fetched for an id carries the name of that id. -/
def NamesItsId (idText : ι → String) (idOf : δ → String) (fetch : Instant → ι → ω → Result ι δ)
    (ids : List ι) : State ι δ → Event ω → Prop
  | _, .write index now answer => ∀ id d, ids[index]? = some id →
      (fetch now id answer).data = some d → idOf d = idText id
  | _, _ => True

/-- Every slot has what is named by the id at its place. -/
def SlotsNamed (idText : ι → String) (idOf : δ → String) (ids : List ι) (s : State ι δ) : Prop :=
  ∀ i d, s.slot i = some d → ∃ id, ids[i]? = some id ∧ idOf d = idText id

section

variable {idText : ι → String} {idOf : δ → String} {ids : List ι} {s s' : State ι δ}
  {fetch : Instant → ι → ω → Result ι δ} {event : Event ω}

lemma SlotsNamed.of_results (h : SlotsNamed idText idOf ids s) (heq : s'.results = s.results) :
    SlotsNamed idText idOf ids s' := by
  intro i d hslot
  rw [State.slot, heq] at hslot
  exact h i d hslot

lemma SlotsNamed.write (h : SlotsNamed idText idOf ids s) {index : ℕ} {id : ι} {result : Result ι δ}
    (hid : ids[index]? = some id) (hresult : ∀ d, result.data = some d → idOf d = idText id)
    (heq : s'.results = s.results.set index result) : SlotsNamed idText idOf ids s' := by
  intro i d hslot
  rw [State.slot, heq, List.getElem?_set] at hslot
  split_ifs at hslot with hindex hlt
  · obtain rfl := hindex
    exact ⟨id, hid, hresult d hslot⟩
  · exact absurd hslot nofun
  · exact h i d hslot

lemma SlotsNamed.step (h : SlotsNamed idText idOf ids s) (hok : NamesItsId idText idOf fetch ids s event)
    (hstep : s.step fetch ids event = some s') : SlotsNamed idText idOf ids s' := by
  cases event with
  | contextEnds =>
    obtain rfl := Option.some.inj hstep
    exact h.of_results rfl
  | write index now answer =>
    rw [State.step, Option.ite_none_right_eq_some] at hstep
    obtain ⟨-, heq⟩ := hstep
    obtain ⟨id, hid, rfl⟩ := Option.map_eq_some_iff.mp heq
    exact h.write hid (fun d hd => hok id d hid hd) rfl
  | launch =>
    rw [State.step, Option.ite_none_right_eq_some] at hstep
    obtain rfl := Option.some.inj hstep.2
    exact h.of_results rfl
  | breakLoop =>
    rw [State.step, Option.ite_none_right_eq_some] at hstep
    obtain rfl := Option.some.inj hstep.2
    exact h.of_results rfl
  | release index =>
    rw [State.step, Option.ite_none_right_eq_some] at hstep
    obtain rfl := Option.some.inj hstep.2
    exact h.of_results rfl
  | «return» =>
    rw [State.step, Option.ite_none_right_eq_some] at hstep
    obtain rfl := Option.some.inj hstep.2
    exact h.of_results rfl

lemma slotsNamed_of_reachable [Inhabited ι]
    (h : (system fetch ids).ReachableUnder (NamesItsId idText idOf fetch ids) s) :
    SlotsNamed idText idOf ids s := by
  refine h.invariant ?_ fun s event s' hnamed hok hstep => hnamed.step hok hstep
  rintro _ rfl i d hslot
  obtain ⟨result, hi, hdata⟩ := Option.bind_eq_some_iff.mp hslot
  obtain rfl := List.eq_of_mem_replicate (List.mem_of_getElem? hi)
  exact absurd hdata nofun

end

/-- The answer of `/games/bulk`, whose batches complete in some order. The batches are fetched by
    `GetBulkGames`, and one that fails makes the request fail. -/
def gamesResponse (upstream : TrendingUpstream) (order : List (List ℤ)) : Option (List Game) :=
  let result := bulkGames upstream order
  if result.errors.isEmpty then some result.games else none

lemma errors_foldl (upstream : TrendingUpstream) (order : List (List ℤ)) (result : BulkResult) :
    (order.foldl (BulkResult.complete upstream) result).errors = [] ↔
      result.errors = [] ∧ AllAnswered upstream order := by
  induction order generalizing result with
  | nil => simp [AllAnswered]
  | cons batch order ih =>
    rw [List.foldl_cons, ih]
    cases hbatch : upstream.getBulkGamePreviews batch with
    | error err => simp [BulkResult.complete, AllAnswered, hbatch]
    | ok data => simp [BulkResult.complete, AllAnswered, hbatch]

lemma gamesResponse_eq_some {upstream : TrendingUpstream} {order : List (List ℤ)}
    {games : List Game} : gamesResponse upstream order = some games ↔
      AllAnswered upstream order ∧ order.flatMap (batchGames upstream) = games := by
  have hall : (bulkGames upstream order).errors.isEmpty = true ↔ AllAnswered upstream order := by
    rw [List.isEmpty_iff, bulkGames, errors_foldl]
    exact ⟨And.right, fun h => ⟨rfl, h⟩⟩
  simp only [gamesResponse]
  rw [Option.ite_none_right_eq_some, hall]
  exact and_congr_right fun hanswered => by rw [bulkGames_eq hanswered, Option.some.injEq]

end Denn.Proxy.Bulk
