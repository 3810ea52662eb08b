import Denn.Web.PercentEncoding

/-!
# Resolving a path against a base URL

What the URL parser makes of a string and a base with the scheme `http` or `https`: blanks and line
ends go away, a scheme or an authority replaces the base's, a question mark or a hash ends the path,
and segments of dots are resolved.
-/

namespace Denn.Web

/-! ### The parser -/

/-- Blanks and control characters at the ends. -/
def isTrimmed (c : ℕ) : Bool := c ≤ 32

/-- Tabs and line ends. -/
def isRemoved (c : ℕ) : Bool := c = 9 || c = 10 || c = 13

def clean (text : Points) : Points :=
  ((text.dropWhile isTrimmed).rdropWhile isTrimmed).filter (!isRemoved ·)

def isAlphaPoint (c : ℕ) : Bool := (65 ≤ c && c ≤ 90) || (97 ≤ c && c ≤ 122)

def isSchemePoint (c : ℕ) : Bool := isAlphaPoint c || isDigitUnit c || c = 43 || c = 45 || c = 46

def lowerPoint (c : ℕ) : ℕ := if 65 ≤ c ∧ c ≤ 90 then c + 32 else c

/-- The scheme, and what follows the colon. -/
def readScheme (text : Points) : Option (Points × Points) :=
  if text.head?.any isAlphaPoint && (text.dropWhile isSchemePoint).head? = some 58 then
    some ((text.takeWhile isSchemePoint).map lowerPoint, (text.dropWhile isSchemePoint).tail)
  else none

structure Url where
  scheme : Points
  /-- The host and the port. -/
  host : Points
  path : List Points
  search : Points
  fragment : Option Points
  deriving DecidableEq, Repr

def Url.origin (url : Url) : Points × Points := (url.scheme, url.host)

def pathname (path : List Points) : Points := path.flatMap (47 :: ·)

def Url.pathname (url : Url) : Points := Web.pathname url.path

/-- A configured base, completed by a slash at its end. -/
structure Base where
  scheme : Points
  host : Points
  path : List Points
  slash : path.getLast? = some []

def Base.origin (base : Base) : Points × Points := (base.scheme, base.host)

def Base.pathname (base : Base) : Points := Web.pathname base.path

/-- The spellings of a dot, with its escape in lower or upper case. -/
def singleDots : List Points := [points ".", points "%2e", points "%2E"]

def doubleDots : List Points :=
  [points "..", points ".%2e", points ".%2E", points "%2e.", points "%2E.", points "%2e%2e",
    points "%2e%2E", points "%2E%2e", points "%2E%2E"]

def isSingleDot (part : Points) : Bool := part ∈ singleDots

def isDoubleDot (part : Points) : Bool := part ∈ doubleDots

/-- The path after some segments, of which the last one ends the text. -/
def walk (path : List Points) : List Points → List Points
  | [] => path
  | [part] =>
    if isDoubleDot part then path.dropLast ++ [[]]
    else if isSingleDot part then path ++ [[]]
    else path ++ [encode part]
  | part :: next :: parts =>
    if isDoubleDot part then walk path.dropLast (next :: parts)
    else if isSingleDot part then walk path (next :: parts)
    else walk (path ++ [encode part]) (next :: parts)

def isSlash (c : ℕ) : Bool := c = 47 || c = 92

def endsPath (c : ℕ) : Bool := c = 63 || c = 35

def endsAuthority (c : ℕ) : Bool := isSlash c || endsPath c

def pathText (text : Points) : Points := text.takeWhile (!endsPath ·)

def searchText (text : Points) : Points :=
  let rest := text.dropWhile (!endsPath ·)
  if rest.head? = some 63 then rest.tail.takeWhile (· ≠ 35) else []

def fragmentText (text : Points) : Option Points := (text.dropWhile (· ≠ 35)).tail?

/-- Path, search and fragment; the escapes that the last two are written with are left out. -/
def finish (base : Base) (host : Points) (path : List Points) (text : Points) : Url where
  scheme := base.scheme
  host := host
  path := walk path ((pathText text).splitOnP isSlash)
  search := searchText text
  fragment := fragmentText text

section
variable (hostOf : Points → Option Points)

/-- A text without a scheme, or what follows the scheme of the base. -/
def resolveRelative (base : Base) (text : Points) : Option Url :=
  if text.head?.any isSlash then
    if text.tail.head?.any isSlash then
      let authority := text.dropWhile isSlash
      let rest := authority.dropWhile (!endsAuthority ·)
      (hostOf (authority.takeWhile (!endsAuthority ·))).map fun host =>
        finish base host [] (if rest.head?.any isSlash then rest.tail else rest)
    else some (finish base base.host [] text.tail)
  else some (finish base base.host base.path.dropLast text)

/-- `new URL(input, base)`, where it has the scheme of the base; `hostOf` reads an authority. -/
def resolveUrl (base : Base) (input : Points) : Option Url :=
  match readScheme (clean input) with
  | some (scheme, rest) => if scheme = base.scheme then resolveRelative hostOf base rest else none
  | none => resolveRelative hostOf base (clean input)

end

/-! ### Parts of a text -/

/-- The escapes of a part are complete when those of the whole are, and it stands for fewer octets. -/
def Smaller (part whole : Points) : Prop :=
  ∀ tokens, Escaped whole tokens → (∃ partTokens, Escaped part partTokens) ∧ size part < size whole

def IsPart (part whole : Points) : Prop := part = whole ∨ Smaller part whole

section
variable {part middle whole front rest : Points} {tokens : List Token}

lemma Smaller.trans (h : Smaller part middle) (h' : Smaller middle whole) : Smaller part whole := by
  intro tokens htokens
  obtain ⟨⟨middleTokens, hmiddle⟩, hlt'⟩ := h' tokens htokens
  obtain ⟨hpart, hlt⟩ := h middleTokens hmiddle
  exact ⟨hpart, hlt.trans hlt'⟩

lemma IsPart.trans_smaller (h : IsPart part middle) (h' : Smaller middle whole) :
    Smaller part whole := by
  rcases h with rfl | h
  · exact h'
  · exact h.trans h'

lemma Smaller.trans_part (h : Smaller part middle) (h' : IsPart middle whole) : Smaller part whole := by
  rcases h' with rfl | h'
  · exact h
  · exact h.trans h'

lemma IsPart.trans (h : IsPart part middle) (h' : IsPart middle whole) : IsPart part whole := by
  rcases h with rfl | h
  · exact h'
  · exact .inr (h.trans_part h')

lemma IsPart.escaped (h : IsPart part whole) (htokens : Escaped whole tokens) :
    (∃ partTokens, Escaped part partTokens) ∧ size part ≤ size whole := by
  rcases h with rfl | h
  · exact ⟨⟨tokens, htokens⟩, le_rfl⟩
  · exact ⟨(h tokens htokens).1, (h tokens htokens).2.le⟩

lemma Escaped.size_pos (h : Escaped whole tokens) (hne : whole ≠ []) : 0 < size whole := by
  have hoctets : ∀ token : Token, 0 < token.octets.length := by
    intro token
    cases token with
    | plain c => exact List.length_pos_of_ne_nil (utf8_ne_nil c)
    | octet b => exact Nat.one_pos
  rw [h.size_eq]
  cases h with
  | nil => exact absurd rfl hne
  | escape =>
    rw [List.flatMap_cons, List.length_append]
    exact Nat.add_pos_left (hoctets _) _
  | plain =>
    rw [List.flatMap_cons, List.length_append]
    exact Nat.add_pos_left (hoctets _) _

lemma Escaped.size_append (h : Escaped (front ++ rest) tokens)
    (hrest : ∀ c ∈ rest.head?, hexUnitValue c = none) :
    (∃ frontTokens, Escaped front frontTokens) ∧ (∃ restTokens, Escaped rest restTokens) ∧
      size (front ++ rest) = size front + size rest := by
  obtain ⟨frontTokens, restTokens, hfront, hrest, rfl⟩ := h.split rfl hrest
  refine ⟨⟨_, hfront⟩, ⟨_, hrest⟩, ?_⟩
  rw [h.size_eq, hfront.size_eq, hrest.size_eq, List.flatMap_append, List.length_append]

/-- The part before what is no hexadecimal digit. -/
lemma isPart_front (hrest : ∀ c ∈ rest.head?, hexUnitValue c = none) : IsPart front (front ++ rest) := by
  cases rest with
  | nil => exact .inl (List.append_nil front).symm
  | cons c rest =>
    refine .inr fun tokens htokens => ?_
    obtain ⟨hfront, ⟨restTokens, htail⟩, hsize⟩ := htokens.size_append hrest
    have := htail.size_pos (by simp)
    exact ⟨hfront, by omega⟩

lemma isPart_back (hrest : ∀ c ∈ rest.head?, hexUnitValue c = none) : IsPart rest (front ++ rest) := by
  cases front with
  | nil => exact .inl rfl
  | cons c front =>
    refine .inr fun tokens htokens => ?_
    obtain ⟨⟨frontTokens, hfront⟩, hback, hsize⟩ := htokens.size_append hrest
    have := hfront.size_pos (by simp)
    exact ⟨hback, by omega⟩

/-- What follows a part without escapes. -/
lemma smaller_of_front (hfront : 37 ∉ front) (hne : front ≠ []) : Smaller rest (front ++ rest) := by
  intro tokens htokens
  obtain ⟨restTokens, hrest, rfl⟩ := htokens.of_append hfront
  refine ⟨⟨restTokens, hrest⟩, ?_⟩
  have hpos : 0 < ((front.map Token.plain).flatMap Token.octets).length := by
    cases front with
    | nil => exact absurd rfl hne
    | cons c front =>
      rw [List.map_cons, List.flatMap_cons, List.length_append]
      exact Nat.add_pos_left (List.length_pos_of_ne_nil (utf8_ne_nil c)) _
  rw [htokens.size_eq, hrest.size_eq, List.flatMap_append, List.length_append]
  omega

lemma isPart_of_front (hfront : 37 ∉ front) : IsPart rest (front ++ rest) := by
  rcases eq_or_ne front [] with rfl | hne
  · exact .inl rfl
  · exact .inr (smaller_of_front hfront hne)

lemma isPart_dropWhile {p : ℕ → Bool} (hp : p 37 = false) : IsPart (whole.dropWhile p) whole := by
  have hfront : 37 ∉ whole.takeWhile p := fun hmem => by
    rw [List.mem_takeWhile_imp hmem] at hp
    exact Bool.noConfusion hp
  have h := @isPart_of_front (whole.takeWhile p) (whole.dropWhile p) hfront
  rwa [List.takeWhile_append_dropWhile] at h

lemma isPart_rdropWhile {p : ℕ → Bool} (hp : ∀ c, p c = true → hexUnitValue c = none) :
    IsPart (whole.rdropWhile p) whole := by
  have h := @isPart_front (whole.rdropWhile p) (whole.rtakeWhile p) fun c hc =>
    hp c (List.mem_rtakeWhile_imp (List.mem_of_mem_head? hc))
  rwa [List.rdropWhile_append_rtakeWhile] at h

lemma head?_dropWhile {p : ℕ → Bool} {c : ℕ} (h : c ∈ (whole.dropWhile p).head?) : p c = false := by
  have hhead := List.head?_dropWhile_not p whole
  rw [Option.mem_def.mp h] at hhead
  exact hhead

lemma isPart_takeWhile {p : ℕ → Bool} (hp : ∀ c, p c = false → hexUnitValue c = none) :
    IsPart (whole.takeWhile p) whole := by
  have h := @isPart_front (whole.takeWhile p) (whole.dropWhile p) fun c hc => hp c (head?_dropWhile hc)
  rwa [List.takeWhile_append_dropWhile] at h

lemma isPart_dropWhile_not {p : ℕ → Bool} (hp : ∀ c, p c = false → hexUnitValue c = none) :
    IsPart (whole.dropWhile p) whole := by
  have h := @isPart_back (whole.takeWhile p) (whole.dropWhile p) fun c hc => hp c (head?_dropWhile hc)
  rwa [List.takeWhile_append_dropWhile] at h

/-- Leaving out characters that belong to no escape. -/
lemma Escaped.filter {p : ℕ → Bool} (hp : ∀ c, p c = false → c ≠ 37 ∧ hexUnitValue c = none)
    (h : Escaped whole tokens) :
    (∃ keptTokens, Escaped (whole.filter p) keptTokens) ∧
      (whole.filter p = whole ∨ size (whole.filter p) < size whole) ∧
      size (whole.filter p) ≤ size whole := by
  have hkeep : ∀ c, c = 37 ∨ hexUnitValue c ≠ none → p c = true := by
    intro c hc
    cases hpc : p c with
    | true => rfl
    | false => exact absurd hc (by simp [hp c hpc])
  induction h with
  | nil => exact ⟨⟨[], .nil⟩, .inl rfl, le_rfl⟩
  | @escape a b high low text tokens ha hb h ih =>
    obtain ⟨⟨keptTokens, hkept⟩, hless, hle⟩ := ih
    have hfilter : (37 :: a :: b :: text).filter p = 37 :: a :: b :: text.filter p := by
      rw [List.filter_cons_of_pos (hkeep 37 (.inl rfl)),
        List.filter_cons_of_pos (hkeep a (.inr (by simp [ha]))),
        List.filter_cons_of_pos (hkeep b (.inr (by simp [hb])))]
    rw [hfilter, h.size_escape ha hb, hkept.size_escape ha hb]
    refine ⟨⟨_, .escape ha hb hkept⟩, hless.imp (fun heq => by rw [heq]) fun hlt => ?_, ?_⟩
    · omega
    · omega
  | @plain c text tokens hc h ih =>
    obtain ⟨⟨keptTokens, hkept⟩, hless, hle⟩ := ih
    have hpos := List.length_pos_of_ne_nil (utf8_ne_nil c)
    by_cases hpc : p c = true
    · rw [List.filter_cons_of_pos hpc, h.size_plain hc, hkept.size_plain hc]
      refine ⟨⟨_, .plain hc hkept⟩, hless.imp (fun heq => by rw [heq]) fun hlt => ?_, ?_⟩
      · omega
      · omega
    · rw [List.filter_cons_of_neg hpc, h.size_plain hc]
      exact ⟨⟨_, hkept⟩, .inr (by omega), by omega⟩

lemma isPart_filter {p : ℕ → Bool} (hp : ∀ c, p c = false → c ≠ 37 ∧ hexUnitValue c = none) :
    IsPart (whole.filter p) whole := by
  by_cases hall : whole.filter p = whole
  · exact .inl hall
  · refine .inr fun tokens htokens => ?_
    obtain ⟨hkept, hless, -⟩ := htokens.filter hp
    exact ⟨hkept, hless.resolve_left hall⟩

lemma hexUnitValue_eq_none {c : ℕ} (h : c < 48 ∨ 57 < c ∧ c < 65 ∨ 70 < c ∧ c < 97 ∨ 102 < c) :
    hexUnitValue c = none := by
  rw [hexUnitValue, if_neg (by omega), if_neg (by omega), if_neg (by omega)]

lemma isPart_clean (text : Points) : IsPart (clean text) text := by
  refine (isPart_filter fun c hc => ?_).trans
    ((isPart_rdropWhile fun c hc => ?_).trans (isPart_dropWhile (by decide)))
  · simp only [isRemoved, Bool.not_eq_false', Bool.or_eq_true, decide_eq_true_eq] at hc
    exact ⟨by omega, hexUnitValue_eq_none (by omega)⟩
  · exact hexUnitValue_eq_none (.inl (by simp only [isTrimmed, decide_eq_true_eq] at hc; omega))

lemma isPart_pathText (text : Points) : IsPart (pathText text) text := by
  refine isPart_takeWhile fun c hc => hexUnitValue_eq_none ?_
  simp only [endsPath, Bool.not_eq_false', Bool.or_eq_true, decide_eq_true_eq] at hc
  omega

lemma smaller_of_readScheme {scheme rest text : Points} (h : readScheme text = some (scheme, rest)) :
    Smaller rest text := by
  rw [readScheme] at h
  split_ifs at h with hscheme
  obtain ⟨-, hcolon⟩ := Bool.and_eq_true_iff.mp hscheme
  obtain ⟨-, rfl⟩ := Prod.mk.inj (Option.some.inj h)
  cases htail : text.dropWhile isSchemePoint with
  | nil => simp [htail] at hcolon
  | cons c rest =>
    have hcolon : c = 58 := by simpa [htail] using hcolon
    have hwhole : text = text.takeWhile isSchemePoint ++ [58] ++ rest := by
      nth_rewrite 1 [← List.takeWhile_append_dropWhile (p := isSchemePoint) (l := text)]
      rw [htail, hcolon, List.append_assoc, List.singleton_append]
    rw [List.tail_cons, hwhole]
    refine smaller_of_front (fun hmem => ?_) (by simp)
    rcases List.mem_append.mp hmem with hmem | hmem
    · exact absurd (List.mem_takeWhile_imp hmem) (by decide)
    · exact absurd hmem (by decide)

end

/-! ### What a segment adds -/

lemma weight_append (front back : List Points) : weight (front ++ back) = weight front + weight back := by
  induction front with
  | nil => exact (Nat.zero_add _).symm
  | cons part front ih =>
    rw [List.cons_append, weight_cons, weight_cons, ih]
    exact (Nat.add_assoc _ _ _).symm

lemma weight_singleton (part : Points) : weight [part] = size part + 1 := rfl

lemma weight_dropLast_le (path : List Points) : weight path.dropLast ≤ weight path := by
  rcases List.eq_nil_or_concat path with rfl | ⟨front, last, rfl⟩
  · exact le_rfl
  · rw [List.concat_eq_append, List.dropLast_concat, weight_append]
    exact Nat.le_add_right _ _

lemma size_encode {part : Points} {tokens : List Token} (h : Escaped part tokens) :
    size (encode part) = size part := by
  obtain ⟨written, hwritten, hoctets⟩ := octets_encode h
  rw [hwritten.size_eq, h.size_eq, hoctets]

/-- Walking adds no more than the segments have. -/
lemma weight_walk_le (path parts : List Points) (h : ∀ part ∈ parts, ∃ tokens, Escaped part tokens) :
    weight (walk path parts) ≤ weight path + weight parts := by
  have hempty : size [] = 0 := rfl
  fun_induction walk path parts with
  | case1 path => exact Nat.le_add_right _ _
  | case2 path part =>
    rw [weight_append, weight_singleton, weight_singleton, hempty]
    have := weight_dropLast_le path
    omega
  | case3 path part =>
    rw [weight_append, weight_singleton, weight_singleton, hempty]
    omega
  | case4 path part =>
    obtain ⟨tokens, htokens⟩ := h part List.mem_cons_self
    rw [weight_append, weight_singleton, weight_singleton, size_encode htokens]
  | case5 path part next parts _ ih =>
    have hrest := ih (List.forall_mem_cons.mp h).2
    have hdrop := weight_dropLast_le path
    rw [weight_cons part]
    omega
  | case6 path part next parts _ _ ih =>
    have hrest := ih (List.forall_mem_cons.mp h).2
    rw [weight_cons part]
    omega
  | case7 path part next parts _ _ ih =>
    have hrest := ih (List.forall_mem_cons.mp h).2
    obtain ⟨tokens, htokens⟩ := h part List.mem_cons_self
    rw [weight_append, weight_singleton, size_encode htokens] at hrest
    rw [weight_cons part]
    omega

/-- Segments without dots are put behind the path. -/
lemma walk_of_no_dots (path parts : List Points)
    (h : ∀ part ∈ parts, isSingleDot part = false ∧ isDoubleDot part = false) :
    walk path parts = path ++ parts.map encode := by
  fun_induction walk path parts with
  | case1 path => exact (List.append_nil path).symm
  | case2 path part hdouble => simp [h part List.mem_cons_self] at hdouble
  | case3 path part _ hsingle => simp [h part List.mem_cons_self] at hsingle
  | case4 path part => rfl
  | case5 path part next parts hdouble => simp [h part List.mem_cons_self] at hdouble
  | case6 path part next parts _ hsingle => simp [h part List.mem_cons_self] at hsingle
  | case7 path part next parts _ _ ih =>
    rw [ih (List.forall_mem_cons.mp h).2, List.append_assoc, List.singleton_append, List.map_cons,
      List.map_cons, List.map_cons]

/-! ### What a resolved path is made of -/

lemma endsAuthority_hex {c : ℕ} (h : endsAuthority c = true) : c ≠ 37 ∧ hexUnitValue c = none := by
  simp only [endsAuthority, isSlash, endsPath, Bool.or_eq_true, decide_eq_true_eq] at h
  exact ⟨by omega, hexUnitValue_eq_none (by omega)⟩

lemma isPart_tail {text : Points} (h : text.head?.any isSlash = true) : IsPart text.tail text := by
  cases text with
  | nil => simp at h
  | cons c text =>
    have hc : isSlash c = true := by simpa using h
    have hplain : c ≠ 37 := by
      simp only [isSlash, Bool.or_eq_true, decide_eq_true_eq] at hc
      omega
    exact @isPart_of_front [c] text (by simpa using Ne.symm hplain)

/-- A relative text takes the place of the last segment of the base, unless it begins with a slash;
    then a part of it becomes the whole path. -/
lemma finish_of_resolveRelative {hostOf : Points → Option Points} {base : Base} {text : Points}
    {url : Url} (h : resolveRelative hostOf base text = some url) :
    (text.head?.any isSlash = false ∧ url = finish base base.host base.path.dropLast text) ∨
      ∃ host part, IsPart part text ∧ url = finish base host [] part := by
  rw [resolveRelative] at h
  split_ifs at h with hslash hsecond
  · obtain ⟨host, -, rfl⟩ := Option.map_eq_some_iff.mp h
    refine .inr ⟨host, _, ?_, rfl⟩
    have hrest : IsPart ((text.dropWhile isSlash).dropWhile (!endsAuthority ·)) text :=
      (isPart_dropWhile_not fun c hc => (endsAuthority_hex (by simpa using hc)).2).trans
        (isPart_dropWhile (by decide))
    split_ifs with hpath
    · exact (isPart_tail hpath).trans hrest
    · exact hrest
  · exact .inr ⟨base.host, _, isPart_tail hslash, (Option.some.inj h).symm⟩
  · exact .inl ⟨by simpa using hslash, (Option.some.inj h).symm⟩

lemma weight_finish_le (base : Base) (host : Points) (path : List Points) {text : Points}
    {tokens : List Token} (h : Escaped text tokens) :
    weight (finish base host path text).path ≤ weight path + size (pathText text) + 1 := by
  obtain ⟨⟨pathTokens, hpath⟩, -⟩ := (isPart_pathText text).escaped h
  obtain ⟨hparts, hweight⟩ := weight_splitOnP (p := isSlash)
    (fun c hc => by simpa [isSlash] using hc) hpath
  have hwalk := weight_walk_le path _ hparts
  rw [hweight] at hwalk
  exact hwalk

/-! ### Plain texts -/

/-- The text has no tab, no line end, no question mark and no hash, no blank or control character at
    its ends, and does not begin with a scheme. -/
structure IsPlain (text : Points) : Prop where
  inner : ∀ c ∈ text, c ∉ [9, 10, 13, 63, 35]
  first : ∀ c ∈ text.head?, 32 < c
  last : ∀ c ∈ text.getLast?, 32 < c
  noScheme : readScheme text = none

lemma clean_eq_self {text : Points} :
    clean text = text ↔ (∀ c ∈ text, c ∉ [9, 10, 13]) ∧ (∀ c ∈ text.head?, 32 < c) ∧
      ∀ c ∈ text.getLast?, 32 < c := by
  have hdrop : (text.dropWhile isTrimmed).Sublist text := (List.dropWhile_suffix _).sublist
  have hrdrop := (List.rdropWhile_prefix isTrimmed (text.dropWhile isTrimmed)).sublist
  have hfilter : (clean text).Sublist _ := List.filter_sublist
  have hremoved : text.filter (!isRemoved ·) = text ↔ ∀ c ∈ text, c ∉ [9, 10, 13] := by
    rw [List.filter_eq_self]
    simp [isRemoved, and_assoc]
  have hhead : text.dropWhile isTrimmed = text ↔ ∀ c ∈ text.head?, 32 < c := by
    cases text with
    | nil => simp
    | cons c text => simp [List.dropWhile_eq_self_iff, isTrimmed]
  have hlast : text.rdropWhile isTrimmed = text ↔ ∀ c ∈ text.getLast?, 32 < c := by
    rw [List.rdropWhile_eq_self_iff]
    rcases List.eq_nil_or_concat text with rfl | ⟨front, c, rfl⟩
    · simp
    · simp [isTrimmed]
  rw [← hremoved, ← hhead, ← hlast]
  constructor
  · intro h
    -- nothing was left out at any of the three steps
    have hself : text.Sublist (clean text) := by rw [h]
    have hfirst : text.dropWhile isTrimmed = text :=
      hdrop.antisymm ((hself.trans hfilter).trans hrdrop)
    have hsecond : text.rdropWhile isTrimmed = text := by
      rw [hfirst] at hrdrop hfilter
      exact hrdrop.antisymm (hself.trans hfilter)
    refine ⟨?_, hfirst, hsecond⟩
    rwa [clean, hfirst, hsecond] at h
  · rintro ⟨hthird, hfirst, hsecond⟩
    rw [clean, hfirst, hsecond, hthird]

lemma pathText_eq_self {text : Points} : pathText text = text ↔ ∀ c ∈ text, c ∉ [63, 35] := by
  rw [pathText, List.takeWhile_eq_self_iff]
  simp [endsPath]

lemma isPlain_iff {text : Points} :
    IsPlain text ↔ clean text = text ∧ pathText text = text ∧ readScheme text = none := by
  rw [clean_eq_self, pathText_eq_self]
  constructor
  · rintro ⟨hinner, hfirst, hlast, hscheme⟩
    refine ⟨⟨fun c hc hmem => hinner c hc ?_, hfirst, hlast⟩, fun c hc hmem => hinner c hc ?_, hscheme⟩
    · exact List.mem_append_left [63, 35] hmem
    · exact List.mem_append_right [9, 10, 13] hmem
  · rintro ⟨⟨hremoved, hfirst, hlast⟩, hends, hscheme⟩
    refine ⟨fun c hc hmem => ?_, hfirst, hlast, hscheme⟩
    rcases List.mem_append.mp (show c ∈ [9, 10, 13] ++ [63, 35] from hmem) with hmem | hmem
    · exact hremoved c hc hmem
    · exact hends c hc hmem

/-- A text that is not plain is resolved to less than it has. -/
theorem isPlain_or_weight_lt {hostOf : Points → Option Points} {base : Base} {input : Points} {url : Url}
    {tokens : List Token} (h : resolveUrl hostOf base input = some url) (htokens : Escaped input tokens)
    (hslash : input.head?.any isSlash = false) :
    (IsPlain input ∧ url = finish base base.host base.path.dropLast input) ∨
      weight url.path < weight base.path.dropLast + size input + 1 := by
  have hempty : weight [] = 0 := rfl
  -- whatever the text that the path is read from, its part of the path weighs no more than it
  have hbound : ∀ {text : Points}, Smaller text input → resolveRelative hostOf base text = some url →
      weight url.path < weight base.path.dropLast + size input + 1 := by
    intro text htext hurl
    obtain ⟨⟨textTokens, hescaped⟩, hlt⟩ := htext tokens htokens
    rcases finish_of_resolveRelative hurl with ⟨-, rfl⟩ | ⟨host, part, hpart, rfl⟩
    · have := weight_finish_le base base.host base.path.dropLast hescaped
      have := ((isPart_pathText text).escaped hescaped).2
      omega
    · obtain ⟨⟨partTokens, hpartEscaped⟩, hle⟩ := hpart.escaped hescaped
      have := weight_finish_le base host [] hpartEscaped
      have := ((isPart_pathText part).escaped hpartEscaped).2
      omega
  rw [resolveUrl] at h
  cases hscheme : readScheme (clean input) with
  | some read =>
    obtain ⟨scheme, rest⟩ := read
    simp only [hscheme] at h
    split_ifs at h
    exact .inr (hbound ((smaller_of_readScheme hscheme).trans_part (isPart_clean input)) h)
  | none =>
    simp only [hscheme] at h
    rcases isPart_clean input with hclean | hsmaller
    · rw [hclean] at h hscheme
      rw [resolveRelative, if_neg (by simp [hslash])] at h
      obtain rfl := Option.some.inj h
      rcases isPart_pathText input with hpath | hpath
      · exact .inl ⟨isPlain_iff.mpr ⟨hclean, hpath, hscheme⟩, rfl⟩
      · have := weight_finish_le base base.host base.path.dropLast htokens
        have := (hpath tokens htokens).2
        exact .inr (by omega)
    · exact .inr (hbound hsmaller h)

lemma splitOnP_isSlash {text : Points} (h : 92 ∉ text) : text.splitOnP isSlash = text.splitOn 47 := by
  rw [List.splitOn_eq_splitOnP]
  have hpieces : ∀ text : Points, 92 ∉ text → text.splitOnP isSlash = text.splitOnP (· == 47) := by
    intro text
    induction text with
    | nil => exact fun _ => rfl
    | cons c text ih =>
      intro h
      rw [List.mem_cons, not_or] at h
      have hc : isSlash c = (c == 47) := by
        have hne : (decide (c = 92)) = false := decide_eq_false (Ne.symm h.1)
        rw [isSlash, hne, Bool.or_false]
        rfl
      rw [List.splitOnP_cons_eq_if_modifyHead, List.splitOnP_cons_eq_if_modifyHead, ih h.2, hc]
  exact hpieces text h

end Denn.Web
