import Denn.Web.UrlResolution

/-!
# The paths of the server's own requests

The web server forwards requests to the core and to the catalog's proxy, under a path that a client
chose. The path is checked, resolved against a configured base and classified by its text.
-/

namespace Denn.Web

/-! ### Building a URL -/

def isSafePath (path : Points) : Bool :=
  if path = [] || path.head? = some 47 || 92 ∈ path then false
  else
    match decodeFully path with
    | none => false
    | some decoded =>
      !(92 ∈ decoded || 0 ∈ decoded) &&
        (decoded.splitOn 47).all fun segment => segment ≠ points "." && segment ≠ points ".."

def isSafeCorePath (path : Points) : Bool := isSafePath path

def isSafeProxyPath (path : Points) : Bool := isSafePath path

def Base.basePath (base : Base) : Points :=
  if base.pathname.getLast? = some 47 then base.pathname else base.pathname ++ [47]

section
variable (hostOf : Points → Option Points)

/-- `none` is an exception: of the check, of the URL parser or because the base was escaped. -/
def buildUrl (isSafe : Points → Bool) (base : Base) (path search : Points) : Option Url :=
  if isSafe path then
    (resolveUrl hostOf base path).bind fun target =>
      if target.origin ≠ base.origin || !base.basePath.isPrefixOf target.pathname then none
      else some { target with search := search }
  else none

def buildCoreUrl (base : Base) (path search : Points) : Option Url :=
  buildUrl hostOf isSafeCorePath base path search

def buildProxyUrl (base : Base) (path search : Points) : Option Url :=
  buildUrl hostOf isSafeProxyPath base path search

end

/-! ### Classifying a path -/

def isBrowsePath (path : Points) : Bool := path = points "browse"

def isCatalogDiscoveryPath (path : Points) : Bool :=
  path = points "homepage" || path = points "search" || isBrowsePath path

def publicAuthPaths : List Points :=
  [points "auth/password/reset/", points "auth/password/reset/confirm/"]

/-- `(?!me(?:\/|$))[a-zA-Z0-9._-]+`, between slashes. -/
def isProfileName (name : Points) : Bool :=
  name ≠ [] && name ≠ points "me" &&
    name.all fun c => isAlphaPoint c || isDigitUnit c || c = 46 || c = 95 || c = 45

/-- `[1-9]\d*`. -/
def isId (text : Points) : Bool :=
  text.head?.any (fun c => 49 ≤ c && c ≤ 57) && text.all isDigitUnit

/-- `PUBLIC_READ_PATTERNS`, on the parts between the slashes of a path. -/
def isPublicRead : List Points → Bool
  | [kind, name, []] =>
    (kind = points "profiles" && isProfileName name) ||
      (kind = points "content" && (isId name || name = points "ratings"))
  | [kind, name, tab, []] =>
    (kind = points "profiles" && isProfileName name &&
      [points "progress", points "completed", points "ratings", points "lists"].contains tab) ||
    (kind = points "content" && [points "ratings", points "lists"].contains name && isId tab)
  | _ => false

def upperPoint (c : ℕ) : ℕ := if 97 ≤ c ∧ c ≤ 122 then c - 32 else c

def isPublicCoreRequest (method path : Points) : Bool :=
  if publicAuthPaths.contains path then true
  else if method.map upperPoint ≠ points "GET" && method.map upperPoint ≠ points "HEAD" then false
  else isPublicRead (path.splitOn 47)

/-! ### What a request asks for -/

/-- The path of a URL is that of the base and then the given path, segment by segment up to percent
    encoding. -/
def IsConfined (base : Base) (path : Points) (url : Url) : Prop :=
  ∃ parts, url.path = base.path.dropLast ++ parts ∧ parts.map octets = (path.splitOn 47).map octets

/-- What the upstream reads behind the base: the octets that the path stands for. -/
def requested (base : Base) (url : Url) : Option Points :=
  ((url.path.drop (base.path.length - 1)).mapM octets).map ([47].intercalate ·)

/-- The request is for what was classified. -/
def IsClassified (accepts : Points → Bool) (base : Base) (path : Points) (url : Url) : Prop :=
  ∃ resource, requested base url = some resource ∧ accepts resource = accepts path

/-- No escape spells what the class accepts. -/
def NoAlias (accepts : Points → Bool) (path : Points) : Prop :=
  37 ∈ path → ∀ resource, octets path = some resource → accepts resource = false

/-! ### Safe paths -/

section
variable {path : Points}

lemma decode_singleDot {part : Points} (h : isSingleDot part = true) :
    decodeURIComponent part = some (points ".") := by
  have hall : ∀ part ∈ singleDots, decodeURIComponent part = some (points ".") := by decide
  exact hall part (of_decide_eq_true h)

lemma decode_doubleDot {part : Points} (h : isDoubleDot part = true) :
    decodeURIComponent part = some (points "..") := by
  have hall : ∀ part ∈ doubleDots, decodeURIComponent part = some (points "..") := by decide
  exact hall part (of_decide_eq_true h)

/-- What the check leaves: complete escapes, no slash in front, no backslash and no segment of dots,
    however spelled. -/
structure Checked (path : Points) : Prop where
  escaped : ∃ tokens, Escaped path tokens
  noSlash : path.head?.any isSlash = false
  noBackslash : 92 ∉ path
  noDots : ∀ part ∈ path.splitOn 47, isSingleDot part = false ∧ isDoubleDot part = false

lemma checked_of_isSafePath (h : isSafePath path = true) : Checked path := by
  rw [isSafePath] at h
  split_ifs at h with hrefused
  simp only [Bool.or_eq_true, decide_eq_true_eq, not_or] at hrefused
  obtain ⟨⟨-, hhead⟩, hbackslash⟩ := hrefused
  cases hdecoded : decodeFully path with
  | none => simp [hdecoded] at h
  | some decoded =>
    simp only [hdecoded, Bool.and_eq_true, List.all_eq_true] at h
    have hloop : decodeLoop (path.length + 1) path = some (some decoded) := by
      rw [decodeLoop_eq (Nat.lt_succ_self _), hdecoded]
    refine ⟨?_, ?_, hbackslash, fun part hpart => ⟨?_, ?_⟩⟩
    · rw [decodeLoop] at hloop
      cases hnext : decodeURIComponent path with
      | none => simp [hnext] at hloop
      | some next =>
        obtain ⟨tokens, htokens, -⟩ := decodeURIComponent_eq_some.mp hnext
        exact ⟨tokens, htokens⟩
    · cases path with
      | nil => rfl
      | cons c path =>
        have h47 : c ≠ 47 := by simpa using hhead
        have h92 : c ≠ 92 := fun heq => hbackslash (heq ▸ List.mem_cons_self)
        simp [isSlash, h47, h92]
    · by_contra hdot
      have hmem := mem_splitOn_of_decodeLoop hloop hpart (decode_singleDot (by simpa using hdot))
        (by decide) (by decide)
      exact absurd (h.2 _ hmem) (by decide)
    · by_contra hdot
      have hmem := mem_splitOn_of_decodeLoop hloop hpart (decode_doubleDot (by simpa using hdot))
        (by decide) (by decide)
      exact absurd (h.2 _ hmem) (by decide)

/-! ### The resource behind a path -/

/-- The octets of a text are those of its parts, with the slashes. -/
lemma octets_splitOn {tokens : List Token} (h : Escaped path tokens) :
    ((path.splitOn 47).mapM octets).map ([47].intercalate ·) = octets path := by
  suffices hpieces : ∃ pieces, pieces ≠ [] ∧ (path.splitOn 47).mapM octets = some pieces ∧
      octets path = some ([47].intercalate pieces) by
    obtain ⟨pieces, -, hmap, hoctets⟩ := hpieces
    rw [hmap, hoctets, Option.map_some]
  induction path using slash_induction generalizing tokens with
  | part path hnone =>
    refine ⟨[tokens.flatMap Token.octets], by simp, ?_, ?_⟩
    · rw [List.splitOn_eq_singleton hnone]
      simp [h.octets_eq]
    · rw [h.octets_eq]
      simp
  | cut front rest hsplit ih =>
    obtain ⟨frontTokens, restTokens, hfront, hrest, rfl⟩ := h.cut
    obtain ⟨pieces, hne, hmap, hoctets⟩ := ih hrest
    refine ⟨frontTokens.flatMap Token.octets :: pieces, by simp, ?_, ?_⟩
    · rw [hsplit, List.mapM_cons, hfront.octets_eq, hmap]
      rfl
    · obtain ⟨piece, pieces, rfl⟩ := List.exists_cons_of_ne_nil hne
      rw [hrest.octets_eq, Option.some.injEq] at hoctets
      rw [h.octets_eq, List.flatMap_append, List.flatMap_cons, hoctets]
      simp [Token.octets, utf8]

/-- A confined request asks for what the path stands for. -/
lemma requested_of_isConfined {base : Base} {url : Url} {tokens : List Token} (h : Escaped path tokens)
    (hconfined : IsConfined base path url) : requested base url = octets path := by
  obtain ⟨parts, hpath, hparts⟩ := hconfined
  have hdrop : url.path.drop (base.path.length - 1) = parts := by
    rw [hpath, ← List.length_dropLast, List.drop_left]
  have hmap : parts.mapM octets = (path.splitOn 47).mapM octets := by
    have hid := congrArg (List.mapM (id : Option (List ℕ) → Option (List ℕ))) hparts
    rwa [List.mapM_map, List.mapM_map, Function.id_comp] at hid
  rw [requested, hdrop, hmap, octets_splitOn h]

/-! ### Classes of ASCII names -/

/-- A class that accepts text without escapes and without letters beyond ASCII only. -/
def IsLiteral (accepts : Points → Bool) : Prop :=
  ∀ text, accepts text = true → ∀ c ∈ text, c < 128 ∧ c ≠ 37

lemma isLiteral_isCatalogDiscoveryPath : IsLiteral isCatalogDiscoveryPath := by
  have hnames : ∀ name ∈ [points "homepage", points "search", points "browse"],
      ∀ c ∈ name, c < 128 ∧ c ≠ 37 := by decide
  intro text htext
  refine hnames text ?_
  simpa [isCatalogDiscoveryPath, isBrowsePath, or_assoc] using htext

lemma literal_of_isProfileName {name : Points} (h : isProfileName name = true) :
    ∀ c ∈ name, c < 128 ∧ c ≠ 37 := by
  intro c hc
  have hclass := List.all_eq_true.mp (Bool.and_eq_true_iff.mp h).2 c hc
  simp only [isAlphaPoint, isDigitUnit, Bool.or_eq_true, Bool.and_eq_true, decide_eq_true_eq] at hclass
  omega

lemma literal_of_isId {text : Points} (h : isId text = true) : ∀ c ∈ text, c < 128 ∧ c ≠ 37 := by
  intro c hc
  have hdigit := List.all_eq_true.mp (Bool.and_eq_true_iff.mp h).2 c hc
  simp only [isDigitUnit, Bool.and_eq_true, decide_eq_true_eq] at hdigit
  omega

lemma literal_of_isPublicRead {parts : List Points} (h : isPublicRead parts = true) :
    ∀ part ∈ parts, ∀ c ∈ part, c < 128 ∧ c ≠ 37 := by
  have hnil : ∀ c ∈ ([] : Points), c < 128 ∧ c ≠ 37 := by simp
  have hkind : ∀ kind ∈ [points "profiles", points "content"], ∀ c ∈ kind, c < 128 ∧ c ≠ 37 := by
    decide
  have hname : ∀ name ∈ [points "ratings", points "lists"], ∀ c ∈ name, c < 128 ∧ c ≠ 37 := by
    decide
  have htab : ∀ tab ∈ [points "progress", points "completed", points "ratings", points "lists"],
      ∀ c ∈ tab, c < 128 ∧ c ≠ 37 := by
    decide
  unfold isPublicRead at h
  split at h
  · rename_i kind name
    simp only [Bool.or_eq_true, Bool.and_eq_true, decide_eq_true_eq] at h
    simp only [List.forall_mem_cons]
    rcases h with ⟨hprofiles, hprofile⟩ | ⟨hcontent, hid | hratings⟩
    · exact ⟨hkind _ (by simp [hprofiles]), literal_of_isProfileName hprofile, hnil, by simp⟩
    · exact ⟨hkind _ (by simp [hcontent]), literal_of_isId hid, hnil, by simp⟩
    · exact ⟨hkind _ (by simp [hcontent]), hname _ (by simp [hratings]), hnil, by simp⟩
  · rename_i kind name tab
    simp only [Bool.or_eq_true, Bool.and_eq_true, decide_eq_true_eq, List.contains_iff_mem] at h
    simp only [List.forall_mem_cons]
    rcases h with ⟨⟨hprofiles, hprofile⟩, hmem⟩ | ⟨⟨hcontent, hmem⟩, hid⟩
    · exact ⟨hkind _ (by simp [hprofiles]), literal_of_isProfileName hprofile, htab _ hmem, hnil, by simp⟩
    · exact ⟨hkind _ (by simp [hcontent]), hname _ hmem, literal_of_isId hid, hnil, by simp⟩
  · cases h

/-- Characters of a text are slashes or in one of its parts. -/
lemma mem_splitOn_or_slash {c : ℕ} (h : c ∈ path) : c = 47 ∨ ∃ part ∈ path.splitOn 47, c ∈ part := by
  induction path using slash_induction with
  | part path hnone => exact .inr ⟨path, by rw [List.splitOn_eq_singleton hnone]; simp, h⟩
  | cut front rest hsplit ih =>
    rw [hsplit]
    rcases List.mem_append.mp h with hfront | hrest
    · exact .inr ⟨front, List.mem_cons_self, hfront⟩
    · rcases List.mem_cons.mp hrest with rfl | hrest
      · exact .inl rfl
      · refine (ih hrest).imp_right fun ⟨part, hpart, hc⟩ => ⟨part, List.mem_cons_of_mem front hpart, hc⟩

lemma isLiteral_isPublicCoreRequest (method : Points) : IsLiteral (isPublicCoreRequest method) := by
  intro text htext c hc
  rw [isPublicCoreRequest] at htext
  split_ifs at htext with hauth hmethod
  · have hall : ∀ name ∈ publicAuthPaths, ∀ c ∈ name, c < 128 ∧ c ≠ 37 := by decide +kernel
    exact hall text (List.contains_iff_mem.mp hauth) c hc
  · rcases mem_splitOn_or_slash hc with rfl | ⟨part, hpart, hmem⟩
    · decide
    · exact literal_of_isPublicRead htext part hpart c hmem

/-- Without escapes the text and its octets fall into the same class. -/
lemma accepts_octets {accepts : Points → Bool} (hliteral : IsLiteral accepts) (hplain : 37 ∉ path)
    {tokens : List Token} (h : Escaped path tokens) :
    accepts (tokens.flatMap Token.octets) = accepts path := by
  have hempty : Escaped (path ++ []) tokens := by rwa [List.append_nil]
  obtain ⟨restTokens, hrest, rfl⟩ := hempty.of_append hplain
  cases hrest
  rw [List.append_nil]
  by_cases hascii : ∀ c ∈ path, c < 128
  · congr 1
    rw [List.flatMap_map]
    calc path.flatMap (fun c => utf8 c) = path.flatMap (fun c => [c]) :=
          List.flatMap_congr fun c hc => by rw [utf8, if_pos (hascii c hc)]
      _ = path := List.flatMap_singleton' path
  · simp only [not_forall, not_lt] at hascii
    obtain ⟨c, hc, hlarge⟩ := hascii
    have hpath : accepts path = false := by
      by_contra haccepts
      have := (hliteral path (by simpa using haccepts) c hc).1
      omega
    have hoctet : ∃ b ∈ utf8 c, 128 ≤ b := by
      rw [utf8, if_neg (by omega)]
      split_ifs <;> exact ⟨_, List.mem_cons_self, by omega⟩
    obtain ⟨b, hb, hlarge⟩ := hoctet
    have hoctets : accepts ((path.map Token.plain).flatMap Token.octets) = false := by
      by_contra haccepts
      have := (hliteral _ (by simpa using haccepts) b ?_).1
      · omega
      · exact List.mem_flatMap.mpr ⟨.plain c, List.mem_map_of_mem hc, hb⟩
    rw [hpath, hoctets]

/-! ### The requests that are confined -/

/-- A plain path is put behind the base. -/
lemma isConfined_of_isPlain (hchecked : Checked path) (hplain : IsPlain path) (base : Base) :
    IsConfined base path (finish base base.host base.path.dropLast path) := by
  refine ⟨(path.splitOn 47).map encode, ?_, ?_⟩
  · change walk _ ((pathText path).splitOnP isSlash) = _
    rw [(isPlain_iff.mp hplain).2.1, splitOnP_isSlash hchecked.noBackslash,
      walk_of_no_dots _ _ hchecked.noDots]
  · obtain ⟨tokens, htokens⟩ := hchecked.escaped
    rw [List.map_map]
    refine List.map_congr_left fun part hpart => ?_
    obtain ⟨partTokens, hpartTokens⟩ := (weight_splitOn htokens).1 part hpart
    obtain ⟨written, hwritten, hoctets⟩ := octets_encode hpartTokens
    rw [Function.comp_apply, hwritten.octets_eq, hpartTokens.octets_eq, hoctets]

lemma weight_congr {parts parts' : List Points} (h : parts.map octets = parts'.map octets) :
    weight parts = weight parts' := by
  induction parts generalizing parts' with
  | nil =>
    rw [List.map_nil] at h
    rw [List.map_eq_nil_iff.mp h.symm]
  | cons part parts ih =>
    obtain ⟨part', parts', rfl, hpart, hparts⟩ := List.map_eq_cons_iff.mp h.symm
    rw [weight_cons, weight_cons, ih hparts.symm, size, size, hpart]

/-- A confined path has the weight of the given one. -/
lemma weight_of_isConfined {base : Base} {url : Url} {tokens : List Token} (h : Escaped path tokens)
    (hconfined : IsConfined base path url) :
    weight url.path = weight base.path.dropLast + size path + 1 := by
  obtain ⟨parts, hpath, hparts⟩ := hconfined
  rw [hpath, weight_append, weight_congr hparts, (weight_splitOn h).2, Nat.add_assoc]

variable {hostOf : Points → Option Points} {isSafe : Points → Bool} {base : Base} {search : Points}
  {url : Url}

lemma buildUrl_eq_some (h : buildUrl hostOf isSafePath base path search = some url) :
    isSafePath path = true ∧ url.origin = base.origin ∧
      ∃ target, resolveUrl hostOf base path = some target ∧ url.path = target.path := by
  rw [buildUrl] at h
  split_ifs at h with hsafe
  obtain ⟨target, htarget, h⟩ := Option.bind_eq_some_iff.mp h
  split_ifs at h with hescaped
  obtain rfl := Option.some.inj h
  simp only [Bool.or_eq_true, decide_eq_true_eq, not_or, not_not] at hescaped
  exact ⟨hsafe, hescaped.1, target, htarget, rfl⟩

/-- A request that is made is confined just when its path is plain. -/
lemma isConfined_iff (h : buildUrl hostOf isSafePath base path search = some url) :
    IsConfined base path url ↔ IsPlain path := by
  obtain ⟨hsafe, -, target, htarget, hpath⟩ := buildUrl_eq_some h
  have hchecked := checked_of_isSafePath hsafe
  obtain ⟨tokens, htokens⟩ := hchecked.escaped
  have hsame : IsConfined base path url ↔ IsConfined base path target := by
    rw [IsConfined, IsConfined, hpath]
  rw [hsame]
  constructor
  · intro hconfined
    rcases isPlain_or_weight_lt htarget htokens hchecked.noSlash with ⟨hplain, -⟩ | hlt
    · exact hplain
    · rw [weight_of_isConfined htokens hconfined] at hlt
      exact absurd hlt (lt_irrefl _)
  · intro hplain
    obtain ⟨hclean, -, hscheme⟩ := isPlain_iff.mp hplain
    rw [resolveUrl, hclean, hscheme] at htarget
    simp only [resolveRelative, hchecked.noSlash, Bool.false_eq_true, if_false,
      Option.some.injEq] at htarget
    exact htarget ▸ isConfined_of_isPlain hchecked hplain base

/-- A confined request is for what was classified just when no escape spells a name of the class. -/
lemma isClassified_iff {accepts : Points → Bool} (hliteral : IsLiteral accepts) {tokens : List Token}
    (htokens : Escaped path tokens) (hconfined : IsConfined base path url) :
    IsClassified accepts base path url ↔ NoAlias accepts path := by
  have hrequested := requested_of_isConfined htokens hconfined
  have hfalse : 37 ∈ path → accepts path = false := by
    intro hescape
    by_contra haccepts
    exact (hliteral path (by simpa using haccepts) 37 hescape).2 rfl
  rw [IsClassified, hrequested]
  constructor
  · rintro ⟨resource, hresource, haccepts⟩ hescape other hother
    obtain rfl : resource = other := Option.some.inj (hresource.symm.trans hother)
    rw [haccepts, hfalse hescape]
  · intro halias
    refine ⟨_, htokens.octets_eq, ?_⟩
    by_cases hescape : 37 ∈ path
    · rw [hfalse hescape, halias hescape _ htokens.octets_eq]
    · exact accepts_octets hliteral hescape htokens

lemma confined_classified_iff {accepts : Points → Bool} (hliteral : IsLiteral accepts)
    (h : buildUrl hostOf isSafePath base path search = some url) :
    IsConfined base path url ∧ IsClassified accepts base path url ↔
      IsPlain path ∧ NoAlias accepts path := by
  obtain ⟨tokens, htokens⟩ := (checked_of_isSafePath (buildUrl_eq_some h).1).escaped
  rw [isConfined_iff h]
  refine and_congr_right fun hplain => ?_
  exact isClassified_iff hliteral htokens ((isConfined_iff h).mpr hplain)

end

/-- The check comes to an end, and a request that is made has the configured origin. It is confined to
    the base and asks for what was classified just when the path is plain and no escape spells a name
    of the class. -/
theorem bff_paths_confined_iff (hostOf : Points → Option Points) (base : Base) (path search : Points) :
    (∀ fuel, path.length < fuel → decodeLoop fuel path = some (decodeFully path)) ∧
    (∀ url, buildCoreUrl hostOf base path search = some url →
      url.origin = base.origin ∧
        ((IsConfined base path url ∧ ∀ method, IsClassified (isPublicCoreRequest method) base path url) ↔
          IsPlain path ∧ ∀ method, NoAlias (isPublicCoreRequest method) path)) ∧
    ∀ url, buildProxyUrl hostOf base path search = some url →
      url.origin = base.origin ∧
        ((IsConfined base path url ∧ IsClassified isCatalogDiscoveryPath base path url) ↔
          IsPlain path ∧ NoAlias isCatalogDiscoveryPath path) := by
  refine ⟨fun fuel h => decodeLoop_eq h, fun url h => ?_, fun url h => ?_⟩
  · have hiff : ∀ method, IsConfined base path url ∧
        IsClassified (isPublicCoreRequest method) base path url ↔
          IsPlain path ∧ NoAlias (isPublicCoreRequest method) path := fun method =>
      confined_classified_iff (isLiteral_isPublicCoreRequest method) h
    refine ⟨(buildUrl_eq_some h).2.1, ?_⟩
    simp only [← forall_and_left, hiff]
  · exact ⟨(buildUrl_eq_some h).2.1, confined_classified_iff isLiteral_isCatalogDiscoveryPath h⟩

/-- The base of the catalog's proxy. -/
def proxyBase : Base where
  scheme := points "http"
  host := points "proxy:8080"
  path := [points "v1", points "proxy", []]
  slash := rfl

theorem bff_paths_confined_homepage :
    ∃ url, buildProxyUrl some proxyBase (points "homepage") (points "?country=CO") = some url ∧
      IsConfined proxyBase (points "homepage") url ∧
      IsClassified isCatalogDiscoveryPath proxyBase (points "homepage") url := by
  have hbuild : (buildProxyUrl some proxyBase (points "homepage") (points "?country=CO")).isSome := by
    decide +kernel
  obtain ⟨url, hurl⟩ := Option.isSome_iff_exists.mp hbuild
  refine ⟨url, hurl, ((bff_paths_confined_iff some proxyBase _ _).2.2 url hurl).2.mpr ⟨?_, ?_⟩⟩
  · exact ⟨by decide, by decide, by decide, by decide⟩
  · exact fun hescape => absurd hescape (by decide)

/-- Other ways to write `homepage`, which no class has but which are resolved to it. -/
theorem homepage_unclassified :
    (∀ path ∈ ["home\tpage", "homepage?", "homepage#top", " homepage", "http:homepage",
        " /v1/proxy/homepage", "http://proxy:8080/v1/proxy/homepage", ".\t./proxy/homepage"],
      isCatalogDiscoveryPath (points path) = false ∧
        ∃ url, buildProxyUrl some proxyBase (points path) [] = some url ∧
          url.pathname = points "/v1/proxy/homepage" ∧ ¬ IsConfined proxyBase (points path) url) ∧
      ∃ url, buildProxyUrl some proxyBase (points "%68omepage") [] = some url ∧
        ¬ IsClassified isCatalogDiscoveryPath proxyBase (points "%68omepage") url := by
  have hplain : ∀ path ∈ ["home\tpage", "homepage?", "homepage#top", " homepage", "http:homepage",
      " /v1/proxy/homepage", "http://proxy:8080/v1/proxy/homepage", ".\t./proxy/homepage"],
      isCatalogDiscoveryPath (points path) = false ∧
      ((∃ c ∈ points path, c ∈ [9, 10, 13, 63, 35]) ∨ (∃ c ∈ (points path).head?, c ≤ 32) ∨
        readScheme (points path) ≠ none) ∧
      (buildProxyUrl some proxyBase (points path) []).map Url.pathname
        = some (points "/v1/proxy/homepage") := by
    decide +kernel
  refine ⟨fun path hpath => ?_, ?_⟩
  · obtain ⟨hclass, hwritten, hbuild⟩ := hplain path hpath
    obtain ⟨url, hurl, hpathname⟩ := Option.map_eq_some_iff.mp hbuild
    refine ⟨hclass, url, hurl, hpathname, fun hconfined => ?_⟩
    have hplain := (isConfined_iff hurl).mp hconfined
    rcases hwritten with ⟨c, hc, hmem⟩ | ⟨c, hc, hle⟩ | hscheme
    · exact hplain.inner c hc hmem
    · exact absurd (hplain.first c hc) (by omega)
    · exact hscheme hplain.noScheme
  · have hbuild : (buildProxyUrl some proxyBase (points "%68omepage") []).isSome := by decide +kernel
    obtain ⟨url, hurl⟩ := Option.isSome_iff_exists.mp hbuild
    refine ⟨url, hurl, fun hclassified => ?_⟩
    have hplain : IsPlain (points "%68omepage") := ⟨by decide, by decide, by decide, by decide⟩
    have halias := ((confined_classified_iff isLiteral_isCatalogDiscoveryPath hurl).mp
      ⟨(isConfined_iff hurl).mpr hplain, hclassified⟩).2
    exact absurd (halias (by decide) (points "homepage") (by decide +kernel)) (by decide)

end Denn.Web
