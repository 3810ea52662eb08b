import Denn.Web.CodeUnits

/-!
# Percent encoding

Strings by their code points, the escapes in them, the octets that they stand for and
`decodeURIComponent`.
-/

namespace Denn.Web

/-- A string by its code points; a lone surrogate is one of its own. -/
abbrev Points := List ℕ

def points (text : String) : Points := text.toList.map Char.toNat

/-! ### Escapes -/

inductive Token
  | plain (c : ℕ)
  | octet (b : ℕ)
  deriving DecidableEq, Repr

def escapes : Points → Option (List Token)
  | [] => some []
  | 37 :: a :: b :: text =>
    (hexUnitValue a).bind fun high => (hexUnitValue b).bind fun low =>
      (escapes text).map fun tokens => .octet (16 * high + low) :: tokens
  | c :: text => if c = 37 then none else (escapes text).map fun tokens => .plain c :: tokens

/-- The octets of a code point; a surrogate is replaced. -/
def utf8 (c : ℕ) : List ℕ :=
  if c < 0x80 then [c]
  else if c < 0x800 then [0xC0 + c / 64, 0x80 + c % 64]
  else if 0xD800 ≤ c ∧ c ≤ 0xDFFF then [0xEF, 0xBF, 0xBD]
  else if c < 0x10000 then [0xE0 + c / 4096, 0x80 + c / 64 % 64, 0x80 + c % 64]
  else [0xF0 + c / 262144 % 8, 0x80 + c / 4096 % 64, 0x80 + c / 64 % 64, 0x80 + c % 64]

def Token.octets : Token → List ℕ
  | plain c => utf8 c
  | octet b => [b]

/-- The octets that a text stands for, where its escapes are complete. -/
def octets (text : Points) : Option (List ℕ) := (escapes text).map fun tokens => tokens.flatMap Token.octets

/-- What the path of a URL has in it only as escapes. -/
def isPathEncoded (c : ℕ) : Bool :=
  c < 0x20 || 0x7E < c || c ∈ [0x20, 0x22, 0x23, 0x3C, 0x3E, 0x3F, 0x5E, 0x60, 0x7B, 0x7D]

def hexDigitUpper (n : ℕ) : ℕ := if n < 10 then 48 + n else 55 + n

def percentByte (b : ℕ) : Points := [37, hexDigitUpper (b / 16 % 16), hexDigitUpper (b % 16)]

def encodePoint (c : ℕ) : Points := if isPathEncoded c then (utf8 c).flatMap percentByte else [c]

/-- A text as it is written into the path of a URL. -/
def encode (text : Points) : Points := text.flatMap encodePoint

/-! ### Decoding -/

/-- A code point of which some octets are still to come. -/
structure Pending where
  following : ℕ
  value : ℕ
  least : ℕ
  deriving DecidableEq, Repr

/-- What a first octet announces. -/
def announced (b : ℕ) : Option Pending :=
  if b < 0x80 then some ⟨0, b, 0⟩
  else if 0xC0 ≤ b ∧ b < 0xE0 then some ⟨1, b - 0xC0, 0x80⟩
  else if 0xE0 ≤ b ∧ b < 0xF0 then some ⟨2, b - 0xE0, 0x800⟩
  else if 0xF0 ≤ b ∧ b < 0xF8 then some ⟨3, b - 0xF0, 0x10000⟩
  else none

namespace Pending

def next (pending : Pending) (b : ℕ) : Option Pending :=
  if 0x80 ≤ b ∧ b < 0xC0 then
    some ⟨pending.following - 1, 64 * pending.value + (b - 0x80), pending.least⟩
  else none

/-- No shorter spelling, no surrogate and no code point too large. -/
def isValid (pending : Pending) : Bool :=
  pending.least ≤ pending.value && pending.value ≤ 0x10FFFF &&
    !(0xD800 ≤ pending.value && pending.value ≤ 0xDFFF)

end Pending

def assemble : Option Pending → List Token → Option Points
  | none, [] => some []
  | some _, [] => none
  | none, .plain c :: tokens => (assemble none tokens).map (c :: ·)
  | some _, .plain _ :: _ => none
  | pending, .octet b :: tokens =>
    (pending.elim (announced b) (·.next b)).bind fun pending =>
      if pending.following = 0 then
        if pending.isValid then (assemble none tokens).map (pending.value :: ·) else none
      else assemble (some pending) tokens

/-- `decodeURIComponent(text)`; `none` is a `URIError`. -/
def decodeURIComponent (text : Points) : Option Points := (escapes text).bind (assemble none)

/-- Decoding again and again until nothing changes. Without fuel there is no answer. -/
def decodeLoop : ℕ → Points → Option (Option Points)
  | 0, _ => none
  | fuel + 1, decoded =>
    match decodeURIComponent decoded with
    | none => some none
    | some next => if next = decoded then some (some decoded) else decodeLoop fuel next

def decodeFully (text : Points) : Option Points := (decodeLoop (text.length + 1) text).join

example : decodeFully (points "%2541%C3%A9") = some (points "Aé") := by decide +kernel
example : decodeURIComponent (points "%C0%AF") = none := by decide +kernel

/-! ### Texts with complete escapes -/

lemma escapes_escape {a b high low : ℕ} (text : Points) (ha : hexUnitValue a = some high)
    (hb : hexUnitValue b = some low) :
    escapes (37 :: a :: b :: text)
      = (escapes text).map fun tokens => .octet (16 * high + low) :: tokens := by
  rw [escapes, ha, hb, Option.bind_some, Option.bind_some]

lemma escapes_plain {c : ℕ} (hc : c ≠ 37) (text : Points) :
    escapes (c :: text) = (escapes text).map fun tokens => .plain c :: tokens := by
  rw [escapes, if_neg hc]
  intro a b rest h
  exact absurd h hc

/-- How a text whose escapes are complete begins. -/
inductive Escaped : Points → List Token → Prop
  | nil : Escaped [] []
  | escape {a b high low : ℕ} {text : Points} {tokens : List Token} (ha : hexUnitValue a = some high)
      (hb : hexUnitValue b = some low) (h : Escaped text tokens) :
      Escaped (37 :: a :: b :: text) (.octet (16 * high + low) :: tokens)
  | plain {c : ℕ} {text : Points} {tokens : List Token} (hc : c ≠ 37) (h : Escaped text tokens) :
      Escaped (c :: text) (.plain c :: tokens)

lemma Escaped.escapes {text : Points} {tokens : List Token} (h : Escaped text tokens) :
    escapes text = some tokens := by
  induction h with
  | nil => rfl
  | escape ha hb _ ih => rw [escapes_escape _ ha hb, ih, Option.map_some]
  | plain hc _ ih => rw [escapes_plain hc, ih, Option.map_some]

lemma escaped_of_escapes {text : Points} {tokens : List Token} (h : escapes text = some tokens) :
    Escaped text tokens := by
  fun_induction escapes text generalizing tokens with
  | case1 =>
    rw [← Option.some.inj h]
    exact .nil
  | case2 a b text ih =>
    obtain ⟨high, ha, h⟩ := Option.bind_eq_some_iff.mp h
    obtain ⟨low, hb, h⟩ := Option.bind_eq_some_iff.mp h
    obtain ⟨rest, hrest, rfl⟩ := Option.map_eq_some_iff.mp h
    exact .escape ha hb (ih hrest)
  | case3 => simp at h
  | case4 c text _ hc ih =>
    obtain ⟨rest, hrest, rfl⟩ := Option.map_eq_some_iff.mp h
    exact .plain hc (ih hrest)

lemma escapes_eq_some {text : Points} {tokens : List Token} :
    escapes text = some tokens ↔ Escaped text tokens := ⟨escaped_of_escapes, Escaped.escapes⟩

namespace Escaped

variable {text front rest : Points} {tokens frontTokens restTokens : List Token}

lemma append (hfront : Escaped front frontTokens) (hrest : Escaped rest restTokens) :
    Escaped (front ++ rest) (frontTokens ++ restTokens) := by
  induction hfront with
  | nil => exact hrest
  | escape ha hb _ ih => exact .escape ha hb ih
  | plain hc _ ih => exact .plain hc ih

/-- A text is cut before what is no hexadecimal digit. -/
lemma split (h : Escaped text tokens) (htext : text = front ++ rest)
    (hrest : ∀ c ∈ rest.head?, hexUnitValue c = none) :
    ∃ frontTokens restTokens, Escaped front frontTokens ∧ Escaped rest restTokens ∧
      tokens = frontTokens ++ restTokens := by
  induction h generalizing front with
  | nil =>
    obtain ⟨rfl, rfl⟩ := List.append_eq_nil_iff.mp htext.symm
    exact ⟨[], [], .nil, .nil, rfl⟩
  | @escape a b high low text tokens ha hb h ih =>
    rcases front with - | ⟨p, - | ⟨x, - | ⟨y, front⟩⟩⟩
    · rw [List.nil_append] at htext
      exact ⟨[], _, .nil, htext ▸ .escape ha hb h, rfl⟩
    · rw [List.singleton_append, List.cons.injEq] at htext
      rw [← htext.2] at hrest
      exact absurd (hrest a rfl) (by simp [ha])
    · rw [List.cons_append, List.singleton_append, List.cons.injEq, List.cons.injEq] at htext
      rw [← htext.2.2] at hrest
      exact absurd (hrest b rfl) (by simp [hb])
    · simp only [List.cons_append, List.cons.injEq] at htext
      obtain ⟨rfl, rfl, rfl, rfl⟩ := htext
      obtain ⟨frontTokens, restTokens, hfront, hrest, rfl⟩ := ih rfl
      exact ⟨_, restTokens, .escape ha hb hfront, hrest, rfl⟩
  | @plain c text tokens hc h ih =>
    cases front with
    | nil =>
      rw [List.nil_append] at htext
      exact ⟨[], _, .nil, htext ▸ .plain hc h, rfl⟩
    | cons p front =>
      obtain ⟨rfl, rfl⟩ := List.cons.inj htext
      obtain ⟨frontTokens, restTokens, hfront, hrest, rfl⟩ := ih rfl
      exact ⟨_, restTokens, .plain hc hfront, hrest, rfl⟩

lemma of_cons {c : ℕ} (h : Escaped (c :: text) tokens) (hc : c ≠ 37) :
    ∃ restTokens, Escaped text restTokens ∧ tokens = .plain c :: restTokens := by
  cases h with
  | escape => exact absurd rfl hc
  | plain _ h => exact ⟨_, h, rfl⟩

/-- A part in front that has no escapes can be left out. -/
lemma of_append (h : Escaped (front ++ rest) tokens) (hfront : 37 ∉ front) :
    ∃ restTokens, Escaped rest restTokens ∧ tokens = front.map Token.plain ++ restTokens := by
  induction front generalizing tokens with
  | nil => exact ⟨tokens, h, rfl⟩
  | cons c front ih =>
    rw [List.mem_cons, not_or] at hfront
    obtain ⟨tail, htail, rfl⟩ := of_cons h (Ne.symm hfront.1)
    obtain ⟨restTokens, hrest, rfl⟩ := ih htail hfront.2
    exact ⟨restTokens, hrest, rfl⟩

lemma eq_or_length_lt (h : Escaped text tokens) :
    tokens = text.map Token.plain ∨ tokens.length < text.length := by
  induction h with
  | nil => exact .inl rfl
  | escape _ _ _ ih =>
    refine .inr ?_
    rcases ih with rfl | hlt
    · simp
    · simp only [List.length_cons]
      omega
  | plain _ _ ih =>
    refine ih.imp (fun heq => ?_) fun hlt => ?_
    · rw [heq, List.map_cons]
    · simpa using hlt

end Escaped

/-! ### Decoding ends -/

lemma assemble_plain (text : Points) : assemble none (text.map Token.plain) = some text := by
  induction text with
  | nil => rfl
  | cons c text ih => rw [List.map_cons, assemble, ih, Option.map_some]

lemma length_assemble {pending : Option Pending} {tokens : List Token} {text : Points}
    (h : assemble pending tokens = some text) : text.length ≤ tokens.length := by
  induction tokens generalizing pending text with
  | nil =>
    cases pending with
    | none =>
      rw [← Option.some.inj h]
      exact le_rfl
    | some _ => simp [assemble] at h
  | cons token tokens ih =>
    cases token with
    | plain c =>
      cases pending with
      | none =>
        obtain ⟨rest, hrest, rfl⟩ := Option.map_eq_some_iff.mp h
        exact Nat.succ_le_succ (ih hrest)
      | some _ => simp [assemble] at h
    | octet b =>
      obtain ⟨next, -, h⟩ := Option.bind_eq_some_iff.mp (by simpa only [assemble] using h)
      split_ifs at h
      · obtain ⟨rest, hrest, rfl⟩ := Option.map_eq_some_iff.mp h
        exact Nat.succ_le_succ (ih hrest)
      · exact (ih h).trans (Nat.le_succ _)

lemma decodeURIComponent_eq_some {text next : Points} :
    decodeURIComponent text = some next ↔
      ∃ tokens, Escaped text tokens ∧ assemble none tokens = some next := by
  simp only [decodeURIComponent, Option.bind_eq_some_iff, escapes_eq_some]

/-- A text that decoding changes gets shorter. -/
lemma eq_or_length_lt_of_decode {text next : Points} (h : decodeURIComponent text = some next) :
    next = text ∨ next.length < text.length := by
  obtain ⟨tokens, htokens, hnext⟩ := decodeURIComponent_eq_some.mp h
  rcases htokens.eq_or_length_lt with rfl | hlt
  · rw [assemble_plain] at hnext
    exact .inl (Option.some.inj hnext).symm
  · exact .inr ((length_assemble hnext).trans_lt hlt)

lemma exists_decodeLoop (text : Points) :
    ∃ outcome, ∀ fuel, text.length ≤ fuel → decodeLoop (fuel + 1) text = some outcome := by
  induction hn : text.length using Nat.strong_induction_on generalizing text with
  | _ n ih =>
    cases hnext : decodeURIComponent text with
    | none => exact ⟨none, fun fuel _ => by simp only [decodeLoop, hnext]⟩
    | some next =>
      rcases eq_or_length_lt_of_decode hnext with rfl | hshort
      · exact ⟨some next, fun fuel _ => by simp only [decodeLoop, hnext, if_true]⟩
      · obtain ⟨outcome, houtcome⟩ := ih next.length (hn ▸ hshort) next rfl
        refine ⟨outcome, fun fuel hfuel => ?_⟩
        have hne : next ≠ text := fun heq => lt_irrefl _ (heq ▸ hshort)
        obtain ⟨k, rfl⟩ : ∃ k, fuel = k + 1 := ⟨fuel - 1, by omega⟩
        rw [decodeLoop]
        simp only [hnext, if_neg hne]
        exact houtcome k (by omega)

/-- The loop comes to its answer, whatever the text. -/
theorem decodeLoop_eq {fuel : ℕ} {text : Points} (h : text.length < fuel) :
    decodeLoop fuel text = some (decodeFully text) := by
  obtain ⟨outcome, houtcome⟩ := exists_decodeLoop text
  obtain ⟨k, rfl⟩ : ∃ k, fuel = k + 1 := ⟨fuel - 1, by omega⟩
  rw [houtcome k (by omega), decodeFully, houtcome _ le_rfl, Option.join_some]

/-! ### The parts between slashes -/

lemma exists_cut {text : Points} (h : 47 ∈ text) : ∃ front rest, text = front ++ 47 :: rest ∧
    text.splitOn 47 = front :: rest.splitOn 47 := by
  obtain ⟨front, rest, rfl, hfront⟩ := List.eq_append_cons_of_mem h
  exact ⟨front, rest, rfl, List.splitOn_append_cons_self_of_not_mem hfront _⟩

/-- What holds of parts without a slash, and of a text that is cut at one, holds of every text. -/
lemma slash_induction {P : Points → Prop} (part : ∀ text, 47 ∉ text → P text)
    (cut : ∀ front rest, (front ++ 47 :: rest).splitOn 47 = front :: rest.splitOn 47 → P rest →
      P (front ++ 47 :: rest)) (text : Points) : P text := by
  induction hn : text.length using Nat.strong_induction_on generalizing text with
  | _ n ih =>
    by_cases hslash : 47 ∈ text
    · obtain ⟨front, rest, rfl, hsplit⟩ := exists_cut hslash
      refine cut front rest hsplit (ih rest.length ?_ rest rfl)
      simp only [List.length_append, List.length_cons] at hn
      omega
    · exact part text hslash

lemma assemble_append_plain {pending : Option Pending} {front rest : List Token} {c : ℕ}
    {text : Points} (h : assemble pending (front ++ .plain c :: rest) = some text) :
    ∃ first second, assemble pending front = some first ∧ assemble none rest = some second ∧
      text = first ++ c :: second := by
  induction front generalizing pending text with
  | nil =>
    cases pending with
    | none =>
      obtain ⟨second, hsecond, rfl⟩ := Option.map_eq_some_iff.mp h
      exact ⟨[], second, rfl, hsecond, rfl⟩
    | some _ => simp [assemble] at h
  | cons token front ih =>
    cases token with
    | plain d =>
      cases pending with
      | none =>
        obtain ⟨tail, htail, rfl⟩ := Option.map_eq_some_iff.mp h
        obtain ⟨first, second, hfirst, hsecond, rfl⟩ := ih htail
        exact ⟨d :: first, second, by rw [assemble, hfirst, Option.map_some], hsecond, rfl⟩
      | some _ => simp [assemble] at h
    | octet b =>
      obtain ⟨next, hnext, h⟩ := Option.bind_eq_some_iff.mp
        (by simpa only [List.cons_append, assemble] using h)
      split_ifs at h with hlast hvalid
      · obtain ⟨tail, htail, rfl⟩ := Option.map_eq_some_iff.mp h
        obtain ⟨first, second, hfirst, hsecond, rfl⟩ := ih htail
        refine ⟨next.value :: first, second, ?_, hsecond, rfl⟩
        rw [assemble, hnext, Option.bind_some, if_pos hlast, if_pos hvalid, hfirst, Option.map_some]
      · obtain ⟨first, second, hfirst, hsecond, rfl⟩ := ih h
        refine ⟨first, second, ?_, hsecond, rfl⟩
        rw [assemble, hnext, Option.bind_some, if_neg hlast, hfirst]

lemma Escaped.cut {front rest : Points} {tokens : List Token} (h : Escaped (front ++ 47 :: rest) tokens) :
    ∃ frontTokens restTokens, Escaped front frontTokens ∧ Escaped rest restTokens ∧
      tokens = frontTokens ++ .plain 47 :: restTokens := by
  obtain ⟨frontTokens, tail, hfront, htail, rfl⟩ := h.split rfl fun c hc => by
    rw [← Option.some.inj hc]
    rfl
  obtain ⟨restTokens, hrest, rfl⟩ := htail.of_cons (by decide)
  exact ⟨frontTokens, restTokens, hfront, hrest, rfl⟩

/-- A text is decoded on each side of a slash by itself. -/
lemma decodeURIComponent_cut {front rest next : Points}
    (h : decodeURIComponent (front ++ 47 :: rest) = some next) :
    ∃ first second, decodeURIComponent front = some first ∧ decodeURIComponent rest = some second ∧
      next = first ++ 47 :: second := by
  obtain ⟨tokens, htokens, hnext⟩ := decodeURIComponent_eq_some.mp h
  obtain ⟨frontTokens, restTokens, hfront, hrest, rfl⟩ := htokens.cut
  obtain ⟨first, second, hfirst, hsecond, rfl⟩ := assemble_append_plain hnext
  exact ⟨first, second, decodeURIComponent_eq_some.mpr ⟨_, hfront, hfirst⟩,
    decodeURIComponent_eq_some.mpr ⟨_, hrest, hsecond⟩, rfl⟩

/-- A part that is decoded to one without a slash is a part of the decoded text. -/
lemma mem_splitOn_of_decode {text next part decoded : Points} (h : decodeURIComponent text = some next)
    (hpart : part ∈ text.splitOn 47) (hdecoded : decodeURIComponent part = some decoded)
    (hslash : 47 ∉ decoded) : decoded ∈ next.splitOn 47 := by
  induction text using slash_induction generalizing next with
  | part text hnone =>
    rw [List.splitOn_eq_singleton hnone, List.mem_singleton] at hpart
    subst hpart
    obtain rfl : decoded = next := Option.some.inj (hdecoded.symm.trans h)
    rw [List.splitOn_eq_singleton hslash]
    exact List.mem_singleton_self decoded
  | cut front rest hsplit ih =>
    obtain ⟨first, second, hfirst, hsecond, rfl⟩ := decodeURIComponent_cut h
    rw [hsplit, List.mem_cons] at hpart
    rw [List.splitOn_append_cons_self, List.mem_append]
    rcases hpart with rfl | hpart
    · obtain rfl : decoded = first := Option.some.inj (hdecoded.symm.trans hfirst)
      rw [List.splitOn_eq_singleton hslash]
      exact .inl (List.mem_singleton_self decoded)
    · exact .inr (ih hsecond hpart)

/-- A part that decoding leaves as it is stays to the end. -/
lemma mem_splitOn_of_decodeLoop {fuel : ℕ} {text final part decoded : Points}
    (h : decodeLoop fuel text = some (some final)) (hpart : part ∈ text.splitOn 47)
    (hdecoded : decodeURIComponent part = some decoded)
    (hfixed : decodeURIComponent decoded = some decoded) (hslash : 47 ∉ decoded) :
    decoded ∈ final.splitOn 47 := by
  induction fuel generalizing text part with
  | zero => cases h
  | succ fuel ih =>
    rw [decodeLoop] at h
    cases hnext : decodeURIComponent text with
    | none => simp [hnext] at h
    | some next =>
      have hmem := mem_splitOn_of_decode hnext hpart hdecoded hslash
      simp only [hnext] at h
      split_ifs at h with heq
      · obtain rfl : text = final := Option.some.inj (Option.some.inj h)
        rwa [heq] at hmem
      · exact ih h hmem hfixed

/-! ### Octets -/

lemma octets_eq_some {text : Points} {bytes : List ℕ} :
    octets text = some bytes ↔ ∃ tokens, Escaped text tokens ∧ tokens.flatMap Token.octets = bytes := by
  simp only [octets, Option.map_eq_some_iff, escapes_eq_some]

lemma Escaped.octets_eq {text : Points} {tokens : List Token} (h : Escaped text tokens) :
    octets text = some (tokens.flatMap Token.octets) := octets_eq_some.mpr ⟨tokens, h, rfl⟩

lemma utf8_ne_nil (c : ℕ) : utf8 c ≠ [] := by
  rw [utf8]
  split_ifs <;> simp

lemma lt_of_mem_utf8 {c b : ℕ} (h : b ∈ utf8 c) : b < 256 := by
  rw [utf8] at h
  split_ifs at h <;> simp only [List.mem_cons, List.not_mem_nil, or_false] at h <;> omega

lemma hexUnitValue_hexDigitUpper {n : ℕ} (h : n < 16) : hexUnitValue (hexDigitUpper n) = some n := by
  rw [hexDigitUpper, hexUnitValue]
  split_ifs <;> first | omega | (congr 1; omega)

lemma escaped_percentByte {b : ℕ} (h : b < 256) : Escaped (percentByte b) [.octet b] := by
  have hescape := Escaped.escape (hexUnitValue_hexDigitUpper (Nat.mod_lt (b / 16) (by decide : 0 < 16)))
    (hexUnitValue_hexDigitUpper (Nat.mod_lt b (by decide : 0 < 16))) Escaped.nil
  have hb : 16 * (b / 16 % 16) + b % 16 = b := by omega
  rwa [hb] at hescape

lemma escaped_percentBytes {bytes : List ℕ} (h : ∀ b ∈ bytes, b < 256) :
    Escaped (bytes.flatMap percentByte) (bytes.map Token.octet) := by
  induction bytes with
  | nil => exact .nil
  | cons b bytes ih =>
    obtain ⟨hb, hbytes⟩ := List.forall_mem_cons.mp h
    exact (escaped_percentByte hb).append (ih hbytes)

lemma flatMap_octets_map (bytes : List ℕ) : (bytes.map Token.octet).flatMap Token.octets = bytes := by
  induction bytes with
  | nil => rfl
  | cons b bytes ih => rw [List.map_cons, List.flatMap_cons, ih, Token.octets, List.singleton_append]

lemma encodePoint_of_hex {c n : ℕ} (h : hexUnitValue c = some n) : encodePoint c = [c] := by
  have hbounds : (48 ≤ c ∧ c ≤ 57) ∨ (97 ≤ c ∧ c ≤ 102) ∨ (65 ≤ c ∧ c ≤ 70) := by
    rw [hexUnitValue] at h
    split_ifs at h <;> omega
  rw [encodePoint, if_neg]
  simp only [isPathEncoded, List.mem_cons, List.not_mem_nil, or_false, Bool.or_eq_true,
    decide_eq_true_eq]
  omega

/-- What is written into a path stands for the same octets. -/
lemma octets_encode {text : Points} {tokens : List Token} (h : Escaped text tokens) :
    ∃ written, Escaped (encode text) written ∧
      written.flatMap Token.octets = tokens.flatMap Token.octets := by
  induction h with
  | nil => exact ⟨[], .nil, rfl⟩
  | @escape a b high low text tokens ha hb h ih =>
    obtain ⟨written, hwritten, hoctets⟩ := ih
    refine ⟨.octet (16 * high + low) :: written, ?_, ?_⟩
    · have hencode : encode (37 :: a :: b :: text) = 37 :: a :: b :: encode text := by
        simp only [encode, List.flatMap_cons, encodePoint_of_hex ha, encodePoint_of_hex hb]
        rfl
      rw [hencode]
      exact .escape ha hb hwritten
    · rw [List.flatMap_cons, List.flatMap_cons, hoctets]
  | @plain c text tokens hc h ih =>
    obtain ⟨written, hwritten, hoctets⟩ := ih
    by_cases hencoded : isPathEncoded c = true
    · refine ⟨(utf8 c).map Token.octet ++ written, ?_, ?_⟩
      · rw [encode, List.flatMap_cons, encodePoint, if_pos hencoded]
        exact (escaped_percentBytes fun b => lt_of_mem_utf8).append hwritten
      · rw [List.flatMap_append, flatMap_octets_map, hoctets, List.flatMap_cons, Token.octets]
    · refine ⟨.plain c :: written, ?_, ?_⟩
      · rw [encode, List.flatMap_cons, encodePoint, if_neg hencoded]
        exact .plain hc hwritten
      · rw [List.flatMap_cons, List.flatMap_cons, hoctets]

/-- The number of octets. -/
def size (text : Points) : ℕ := (octets text).elim 0 List.length

lemma Escaped.size_eq {text : Points} {tokens : List Token} (h : Escaped text tokens) :
    size text = (tokens.flatMap Token.octets).length := by
  rw [size, h.octets_eq, Option.elim_some]

/-- The octets of the parts of a text, and one for each slash. -/
def weight : List Points → ℕ
  | [] => 0
  | part :: parts => size part + 1 + weight parts

lemma weight_cons (part : Points) (parts : List Points) :
    weight (part :: parts) = size part + 1 + weight parts := rfl

lemma Escaped.size_escape {a b high low : ℕ} {text : Points} {tokens : List Token}
    (ha : hexUnitValue a = some high) (hb : hexUnitValue b = some low) (h : Escaped text tokens) :
    size (37 :: a :: b :: text) = size text + 1 := by
  rw [(Escaped.escape ha hb h).size_eq, h.size_eq, List.flatMap_cons, List.length_append]
  exact Nat.add_comm _ _

lemma Escaped.size_plain {c : ℕ} {text : Points} {tokens : List Token} (hc : c ≠ 37)
    (h : Escaped text tokens) : size (c :: text) = (utf8 c).length + size text := by
  rw [(Escaped.plain hc h).size_eq, h.size_eq, List.flatMap_cons, List.length_append]
  rfl

/-- The parts of a text have complete escapes, and together the octets that the text has. -/
lemma weight_splitOnP {p : ℕ → Bool} (hp : ∀ c, p c = true → c = 47 ∨ c = 92) {text : Points}
    {tokens : List Token} (h : Escaped text tokens) :
    (∀ part ∈ text.splitOnP p, ∃ tokens, Escaped part tokens) ∧
      weight (text.splitOnP p) = size text + 1 := by
  have hkeep : ∀ c, c ≠ 47 → c ≠ 92 → p c = false := by
    intro c h47 h92
    cases hc : p c with
    | false => rfl
    | true => exact absurd (hp c hc) (by simp [h47, h92])
  have hhex : ∀ {c n : ℕ}, hexUnitValue c = some n → p c = false := by
    intro c n hc
    refine hkeep c ?_ ?_
    · rintro rfl
      cases hc
    · rintro rfl
      cases hc
  induction h with
  | nil => exact ⟨by simpa using ⟨[], Escaped.nil⟩, rfl⟩
  | @escape a b high low text tokens ha hb h ih =>
    obtain ⟨hparts, hweight⟩ := ih
    rw [h.size_escape ha hb]
    simp only [List.splitOnP_cons_eq_if_modifyHead, hkeep 37 (by decide) (by decide), hhex ha, hhex hb,
      Bool.false_eq_true, if_false]
    cases hsplit : text.splitOnP p with
    | nil => exact absurd hsplit (List.splitOnP_ne_nil p text)
    | cons first parts =>
      rw [hsplit] at hparts hweight
      obtain ⟨⟨firstTokens, hfirst⟩, hrest⟩ := List.forall_mem_cons.mp hparts
      rw [weight_cons] at hweight
      simp only [List.modifyHead_cons]
      refine ⟨List.forall_mem_cons.mpr ⟨⟨_, .escape ha hb hfirst⟩, hrest⟩, ?_⟩
      rw [weight_cons, hfirst.size_escape ha hb]
      omega
  | @plain c text tokens hc h ih =>
    obtain ⟨hparts, hweight⟩ := ih
    rw [h.size_plain hc, List.splitOnP_cons_eq_if_modifyHead]
    by_cases hpc : p c = true
    · have hone : (utf8 c).length = 1 := by
        rcases hp c hpc with rfl | rfl <;> rfl
      rw [if_pos hpc, weight_cons, hweight, hone]
      refine ⟨List.forall_mem_cons.mpr ⟨⟨[], .nil⟩, hparts⟩, ?_⟩
      have hempty : size [] = 0 := rfl
      omega
    · rw [if_neg hpc]
      cases hsplit : text.splitOnP p with
      | nil => exact absurd hsplit (List.splitOnP_ne_nil p text)
      | cons first parts =>
        rw [hsplit] at hparts hweight
        obtain ⟨⟨firstTokens, hfirst⟩, hrest⟩ := List.forall_mem_cons.mp hparts
        rw [weight_cons] at hweight
        rw [List.modifyHead_cons]
        refine ⟨List.forall_mem_cons.mpr ⟨⟨_, .plain hc hfirst⟩, hrest⟩, ?_⟩
        rw [weight_cons, hfirst.size_plain hc]
        omega

lemma weight_splitOn {text : Points} {tokens : List Token} (h : Escaped text tokens) :
    (∀ part ∈ text.splitOn 47, ∃ tokens, Escaped part tokens) ∧
      weight (text.splitOn 47) = size text + 1 := by
  rw [List.splitOn_eq_splitOnP]
  exact weight_splitOnP (fun c hc => .inl (by simpa using hc)) h

end Denn.Web
