import Denn.Core.Hex
import Denn.Core.Hmac
import Denn.Core.Text
import Denn.Core.Transition

/-!
# Catalog visitors

The cookie by which the server of the web pages knows an anonymous visitor, the headers that it sends
on to the core, and the quota that the core counts the visitor under. The keyed hash is a parameter.
-/

namespace Denn.Web.CatalogVisitor

open Denn.Core Hex

/-! ### The cookie -/

/-- A value of HMAC with SHA-256. -/
structure Signature where
  bytes : List ℕ
  length_eq : bytes.length = 32
  lt : ∀ byte ∈ bytes, byte < 256

-- `crypto.subtle.sign` of a visitor id under a secret.
variable (hmac : String → String → Signature)

def signVisitorId (visitorId secret : String) : String :=
  String.ofList (bytesToHex (hmac secret visitorId).bytes)

def createCatalogVisitorCookieValue (visitorId secret : String) : Option String :=
  if !isHex 32 visitorId.toList || secret = "" then none
  else some (visitorId ++ "." ++ signVisitorId hmac visitorId secret)

def readCatalogVisitorId (cookieValue : Option String) (secret : String) : Option String :=
  match cookieValue with
  | none => none
  | some value =>
    if value = "" || secret = "" then none
    else
      match (value.toList.splitOn '.').map String.ofList with
      | [visitorId, signature] =>
        if visitorId = "" || signature = "" || !isHex 32 visitorId.toList
            || !isHex 64 signature.toList then none
        -- `crypto.subtle.verify`
        else if hexToBytes signature.toList = (hmac secret visitorId).bytes then some visitorId
        else none
      | _ => none

/-- `crypto.randomUUID().replaceAll("-", "")`. -/
def compact (uuid : String) : String := String.ofList (uuid.toList.filter (· ≠ '-'))

/-- The fingerprint, and the cookie that the response sets if there is a new one. -/
def getOrCreateCatalogVisitorFingerprint (secret : String) (existing : Option String)
    (uuid : String) : Except String (String × Option String) :=
  match readCatalogVisitorId hmac existing secret with
  | some visitorId => .ok (signVisitorId hmac visitorId secret, none)
  | none =>
    let visitorId := compact uuid
    match createCatalogVisitorCookieValue hmac visitorId secret with
    | some cookieValue => .ok (signVisitorId hmac visitorId secret, some cookieValue)
    | none => .error "Could not sign catalog visitor identity"

/-- The headers `X-Api-Key`, `X-Api-Consumer` and `X-Catalog-Visitor`. -/
structure CatalogHeaders where
  apiKey : String := ""
  apiConsumer : String := ""
  catalogVisitor : String := ""

def buildCatalogVisitorHeaders (apiKey : String) (existing : Option String) (uuid : String) :
    Except String (CatalogHeaders × Option String) :=
  if apiKey = "" then .error "PROXY_API_KEY is required to identify catalog visitors"
  else (getOrCreateCatalogVisitorFingerprint hmac apiKey existing uuid).map
    fun (fingerprint, cookie) => (⟨apiKey, "web", fingerprint⟩, cookie)

/-! ### The core -/

def isAscii (text : String) : Bool := text.toList.all (·.toNat < 128)

/-- `compare_digest` of two strings. -/
def compareDigest (a b : String) : Except String Bool :=
  if isAscii a && isAscii b then .ok (a = b)
  else .error "comparing strings with non-ASCII characters is not supported"

def isTrustedCatalogService (expectedKey : String) (headers : CatalogHeaders) : Except String Bool :=
  if headers.apiConsumer = "web" && expectedKey ≠ "" && headers.apiKey ≠ "" then
    compareDigest headers.apiKey expectedKey
  else .ok false

/-- `str.lower()`, as far as the pattern of a visitor sees it. -/
def lower (text : String) : String := String.ofList (text.toList.map Char.toLower)

def getTrustedCatalogVisitor (expectedKey : String) (headers : CatalogHeaders) :
    Except String (Option String) := do
  if !(← isTrustedCatalogService expectedKey headers) then return none
  let visitor := lower (strip headers.catalogVisitor)
  return if isHex 64 visitor.toList then some visitor else none

/-- The `ident` of `CatalogDetailRateThrottle.get_cache_key`; `getIdent` is the address of the caller. -/
def catalogDetailIdent (expectedKey : String) (user : Option ℕ) (headers : CatalogHeaders)
    (getIdent : String) : Except String String :=
  match user with
  | some pk => .ok ("user:" ++ toString pk)
  | none => (getTrustedCatalogVisitor expectedKey headers).map fun visitor =>
    match visitor with
    | some visitor => "visitor:" ++ visitor
    | none => "ip:" ++ getIdent

variable {hmac} {visitorId value secret : String}

/-! ### Only what the server creates is accepted -/

lemma isHex_signVisitorId : isHex 64 (signVisitorId hmac visitorId secret).toList = true := by
  have h := isHex_bytesToHex (hmac secret visitorId).bytes
  rwa [(hmac secret visitorId).length_eq, ← String.toList_ofList (l := bytesToHex _)] at h

lemma dot_notMem {n : ℕ} {text : List Char} (h : isHex n text = true) : '.' ∉ text :=
  fun hdot => absurd ((isHex_iff.mp h).2 _ hdot) (by decide)

lemma ne_empty {n : ℕ} {text : String} (h : isHex (n + 1) text.toList = true) : text ≠ "" := by
  rintro rfl
  simp [isHex] at h

lemma createCatalogVisitorCookieValue_eq_some :
    createCatalogVisitorCookieValue hmac visitorId secret = some value ↔
      isHex 32 visitorId.toList = true ∧ secret ≠ "" ∧
        visitorId ++ "." ++ signVisitorId hmac visitorId secret = value := by
  simp [createCatalogVisitorCookieValue, and_assoc]

lemma signature_eq {signature : String} (h : isHex 64 signature.toList = true) :
    hexToBytes signature.toList = (hmac secret visitorId).bytes ↔
      signature = signVisitorId hmac visitorId secret := by
  rw [signVisitorId, ← String.toList_inj, String.toList_ofList]
  constructor
  · intro hbytes
    rw [← hbytes, bytesToHex_hexToBytes (n := 32) h]
  · intro htext
    rw [htext, hexToBytes_bytesToHex (hmac secret visitorId).lt]

/-- `split(".")` of a text that has one dot. -/
lemma split_cookie {a b : String} (ha : '.' ∉ a.toList) (hb : '.' ∉ b.toList) :
    ((a ++ "." ++ b).toList.splitOn '.').map String.ofList = [a, b] := by
  have htext : (a ++ "." ++ b).toList = a.toList ++ '.' :: b.toList := by simp
  rw [htext, List.splitOn_append_cons_self_of_not_mem ha, List.splitOn_eq_singleton hb]
  simp

lemma eq_of_split {text a b : String} (h : (text.toList.splitOn '.').map String.ofList = [a, b]) :
    text = a ++ "." ++ b := by
  have hsplit : text.toList.splitOn '.' = [a.toList, b.toList] := by
    have hmap := congrArg (List.map String.toList) h
    simpa [Function.comp_def] using hmap
  have hjoin : ['.'].intercalate (text.toList.splitOn '.') = text.toList :=
    List.intercalate_splitOn '.'
  rw [← String.toList_inj, ← hjoin, hsplit]
  simp [List.intercalate]

/-- The server accepts the cookies that it creates, for the visitors that it has created them for, and
    no others. -/
lemma readCatalogVisitorId_eq_some {cookie : Option String} :
    readCatalogVisitorId hmac cookie secret = some visitorId ↔
      cookie.isSome ∧ createCatalogVisitorCookieValue hmac visitorId secret = cookie := by
  cases cookie with
  | none => simp [readCatalogVisitorId]
  | some value =>
    simp only [readCatalogVisitorId, createCatalogVisitorCookieValue_eq_some, Option.isSome_some,
      true_and]
    constructor
    · intro h
      split_ifs at h with hempty
      split at h
      · rename_i visitor signature hsplit
        split_ifs at h with hpattern hbytes
        obtain rfl := Option.some.inj h
        simp only [Bool.or_eq_true, decide_eq_true_eq, Bool.not_eq_true', not_or,
          Bool.not_eq_false] at hpattern hempty
        obtain ⟨⟨⟨-, -⟩, hid⟩, hsignature⟩ := hpattern
        refine ⟨hid, hempty.2, ?_⟩
        rw [← (signature_eq hsignature).mp hbytes]
        exact (eq_of_split hsplit).symm
      · cases h
    · rintro ⟨hid, hsecret, rfl⟩
      have hsignature := @isHex_signVisitorId hmac visitorId secret
      rw [split_cookie (dot_notMem hid) (dot_notMem hsignature)]
      have hne : visitorId ++ "." ++ signVisitorId hmac visitorId secret ≠ "" := by
        intro h
        simpa using congrArg String.toList h
      simp only [hne, hsecret, ne_empty hid, ne_empty hsignature, hid, hsignature, decide_false,
        Bool.or_self, Bool.not_true, Bool.false_eq_true, if_false]
      rw [if_pos ((signature_eq hsignature).mpr rfl)]

/-! ### The core reads what the server sends -/

lemma digit_kept {c : Char} (h : c ∈ Sha256.hexDigits) : isSpace c = false ∧ c.toLower = c := by
  simp only [Sha256.hexDigits, List.mem_cons, List.not_mem_nil, or_false] at h
  rcases h with rfl | rfl | rfl | rfl | rfl | rfl | rfl | rfl | rfl | rfl | rfl | rfl | rfl | rfl | rfl
    | rfl <;> decide

lemma lower_strip {n : ℕ} {text : String} (h : isHex n text.toList = true) :
    lower (strip text) = text := by
  have hdigits := fun c hc => digit_kept ((isHex_iff.mp h).2 c hc)
  have hdrop : ∀ l : List Char, (∀ c ∈ l, isSpace c = false) → l.dropWhile isSpace = l := by
    rintro (_ | ⟨c, l⟩) hl
    · rfl
    · exact List.dropWhile_cons_of_neg (by simp [hl c])
  have hblank : ∀ c ∈ text.toList, isSpace c = false := fun c hc => (hdigits c hc).1
  have hstrip : strip text = text := by
    rw [strip, hdrop _ hblank, hdrop _ (by simpa using hblank), List.reverse_reverse,
      String.ofList_toList]
  have hlower : text.toList.map Char.toLower = text.toList :=
    (List.map_congr_left fun c hc => (hdigits c hc).2).trans (List.map_id _)
  rw [hstrip, lower, hlower, String.ofList_toList]

/-- The key is set, and can be compared. -/
structure IsKey (apiKey : String) : Prop where
  ne_empty : apiKey ≠ ""
  ascii : isAscii apiKey = true

lemma catalogDetailIdent_web {apiKey : String} (hkey : IsKey apiKey) (getIdent : String) :
    catalogDetailIdent apiKey none ⟨apiKey, "web", signVisitorId hmac visitorId apiKey⟩ getIdent
      = .ok ("visitor:" ++ signVisitorId hmac visitorId apiKey) := by
  have hsignature := @isHex_signVisitorId hmac visitorId apiKey
  have htrusted : isTrustedCatalogService apiKey ⟨apiKey, "web", signVisitorId hmac visitorId apiKey⟩
      = .ok true := by
    simp [isTrustedCatalogService, compareDigest, hkey.ne_empty, hkey.ascii]
  simp only [catalogDetailIdent, getTrustedCatalogVisitor, htrusted, lower_strip hsignature, hsignature]
  rfl

/-! ### Browsers -/

/-- A value of `crypto.randomUUID()`, by the digits between its dashes. -/
structure Uuid where
  groups : List (List Char)
  length_eq : groups.map List.length = [8, 4, 4, 4, 12]
  digits : ∀ group ∈ groups, ∀ c ∈ group, c ∈ Sha256.hexDigits

def Uuid.text (uuid : Uuid) : String := String.ofList (['-'].intercalate uuid.groups)

lemma filter_intercalate {c : Char} {groups : List (List Char)} (h : ∀ group ∈ groups, c ∉ group) :
    ([c].intercalate groups).filter (· ≠ c) = groups.flatten := by
  have hkept : ∀ group ∈ groups, group.filter (· ≠ c) = group := by
    intro group hgroup
    exact List.filter_eq_self.mpr fun d hd => decide_eq_true fun heq => h group hgroup (heq ▸ hd)
  induction groups with
  | nil => rfl
  | cons group groups ih =>
    obtain ⟨hgroup, hgroups⟩ := List.forall_mem_cons.mp hkept
    have hrest := ih (List.forall_mem_cons.mp h).2 hgroups
    cases groups with
    | nil => simpa [List.intercalate] using hgroup
    | cons group' groups =>
      rw [List.intercalate_cons_cons, List.append_assoc, List.filter_append, hgroup,
        List.filter_append, hrest, List.flatten_cons]
      simp

lemma Uuid.isHex_compact (uuid : Uuid) : isHex 32 (compact uuid.text).toList = true := by
  have hfilter : (['-'].intercalate uuid.groups).filter (· ≠ '-') = uuid.groups.flatten :=
    filter_intercalate fun group hgroup hdash =>
      absurd (uuid.digits group hgroup '-' hdash) (by decide)
  rw [compact, Uuid.text, String.toList_ofList, String.toList_ofList, hfilter]
  refine isHex_iff.mpr ⟨?_, fun c hc => ?_⟩
  · rw [List.length_flatten, uuid.length_eq]
    rfl
  · obtain ⟨group, hgroup, hc⟩ := List.mem_flatten.mp hc
    exact uuid.digits group hgroup c hc

/-- The cookie of a browser, and how often its user has cleared or replaced it. -/
structure Browser where
  cookie : Option String := none
  session : ℕ := 0

/-- A page view, with the cookie that the browser presented and the quota that it was counted under. -/
structure Visit (β : Type*) where
  browser : β
  session : ℕ
  presented : Option String
  uuid : Uuid
  ident : Except String String

structure VisitState (β : Type*) where
  browsers : β → Browser := fun _ => {}
  visits : List (Visit β) := []

inductive VisitEvent (β : Type*)
  | visit (browser : β) (uuid : Uuid)
  | replaceCookie (browser : β) (cookie : Option String)

section

variable {β : Type*} [DecidableEq β]

/-- A page view of an anonymous visitor, and what its user does with the cookie. All of the pages are
    served from one host. -/
def VisitState.step (hmac : String → String → Signature) (apiKey webHost : String) (s : VisitState β) :
    VisitEvent β → Option (VisitState β)
  | .visit browser uuid =>
    let ⟨presented, session⟩ := s.browsers browser
    match buildCatalogVisitorHeaders hmac apiKey presented uuid.text with
    | .ok (headers, cookie) =>
      let ident := catalogDetailIdent apiKey none headers webHost
      some
        { browsers := Function.update s.browsers browser ⟨cookie.or presented, session⟩
          visits := ⟨browser, session, presented, uuid, ident⟩ :: s.visits }
    | .error message =>
      some { s with visits := ⟨browser, session, presented, uuid, .error message⟩ :: s.visits }
  | .replaceCookie browser cookie =>
    some { s with browsers :=
      Function.update s.browsers browser ⟨cookie, (s.browsers browser).session + 1⟩ }

variable {apiKey webHost : String} {s s' : VisitState β}

/-- The cookie is the one that the server creates for a visitor, and the quota is that visitor's. -/
structure BelongsTo (hmac : String → String → Signature) (apiKey visitorId : String)
    (cookie : Option String) (ident : Except String String) : Prop where
  isHex : isHex 32 visitorId.toList = true
  cookie : createCatalogVisitorCookieValue hmac visitorId apiKey = cookie
  ident : ident = .ok ("visitor:" ++ signVisitorId hmac visitorId apiKey)

lemma BelongsTo.read {cookie : Option String} {ident : Except String String} (hkey : IsKey apiKey)
    (h : BelongsTo hmac apiKey visitorId cookie ident) :
    readCatalogVisitorId hmac cookie apiKey = some visitorId := by
  refine readCatalogVisitorId_eq_some.mpr ⟨?_, h.cookie⟩
  rw [← h.cookie, createCatalogVisitorCookieValue_eq_some.mpr ⟨h.isHex, hkey.ne_empty, rfl⟩]
  rfl

/-- A page view leaves the browser with the cookie of the visitor that it was counted for: the one whose
    cookie it presented, or a new one if the server knows no such visitor. -/
lemma visit_spec (hkey : IsKey apiKey) {browser : β} {uuid : Uuid}
    (h : s.step hmac apiKey webHost (.visit browser uuid) = some s') :
    ∃ visitorId ident cookie, BelongsTo hmac apiKey visitorId cookie ident ∧
      s'.visits = ⟨browser, (s.browsers browser).session, (s.browsers browser).cookie, uuid, ident⟩
        :: s.visits ∧
      s'.browsers = Function.update s.browsers browser ⟨cookie, (s.browsers browser).session⟩ ∧
      (readCatalogVisitorId hmac (s.browsers browser).cookie apiKey = some visitorId ∨
        readCatalogVisitorId hmac (s.browsers browser).cookie apiKey = none ∧
          visitorId = compact uuid.text) := by
  simp only [VisitState.step, buildCatalogVisitorHeaders, if_neg hkey.ne_empty,
    getOrCreateCatalogVisitorFingerprint] at h
  cases hread : readCatalogVisitorId hmac (s.browsers browser).cookie apiKey with
  | some visitorId =>
    obtain ⟨hsome, hcookie⟩ := readCatalogVisitorId_eq_some.mp hread
    obtain ⟨value, hvalue⟩ := Option.isSome_iff_exists.mp hsome
    have hid := (createCatalogVisitorCookieValue_eq_some.mp (hcookie.trans hvalue)).1
    simp only [hread, Except.map, catalogDetailIdent_web hkey, Option.none_or] at h
    obtain rfl := Option.some.inj h
    exact ⟨visitorId, _, _, ⟨hid, hcookie, rfl⟩, rfl, rfl, .inl rfl⟩
  | none =>
    have hcookie := createCatalogVisitorCookieValue_eq_some.mpr
      ⟨uuid.isHex_compact, hkey.ne_empty, @rfl _ (_ ++ "." ++ signVisitorId hmac _ apiKey)⟩
    simp only [hread, hcookie, Except.map, catalogDetailIdent_web hkey, Option.some_or] at h
    obtain rfl := Option.some.inj h
    exact ⟨_, _, _, ⟨uuid.isHex_compact, hcookie, rfl⟩, rfl, rfl, .inr ⟨rfl, rfl⟩⟩

/-- The page view was counted for one visitor: the one whose cookie it presented, or a new one if the
    server had not created the cookie. -/
def Visit.CountedForOne (hmac : String → String → Signature) (apiKey : String) (visit : Visit β) : Prop :=
  ∃ visitorId cookie, BelongsTo hmac apiKey visitorId cookie visit.ident ∧
    (readCatalogVisitorId hmac visit.presented apiKey = some visitorId ∨
      readCatalogVisitorId hmac visit.presented apiKey = none ∧ visitorId = compact visit.uuid.text)

/-- Page views by one browser are counted under one quota until its user touches the cookie. -/
structure Tracked (hmac : String → String → Signature) (apiKey : String) (s : VisitState β) : Prop where
  counted : ∀ visit ∈ s.visits, visit.CountedForOne hmac apiKey
  past : ∀ visit ∈ s.visits, visit.session ≤ (s.browsers visit.browser).session
  current : ∀ visit ∈ s.visits, visit.session = (s.browsers visit.browser).session →
    ∃ visitorId, BelongsTo hmac apiKey visitorId (s.browsers visit.browser).cookie visit.ident
  kept : ∀ visit ∈ s.visits, ∀ visit' ∈ s.visits, visit.browser = visit'.browser →
    visit.session = visit'.session → visit.ident = visit'.ident

/-- A page view with the cookie of an earlier one is counted under the same quota. -/
lemma BelongsTo.same {visitorId' : String} {cookie cookie' : Option String}
    {ident ident' : Except String String} (hkey : IsKey apiKey)
    (h : BelongsTo hmac apiKey visitorId cookie ident)
    (h' : BelongsTo hmac apiKey visitorId' cookie' ident')
    (hread : readCatalogVisitorId hmac cookie apiKey = some visitorId' ∨
      readCatalogVisitorId hmac cookie apiKey = none) : ident' = ident := by
  rw [h.read hkey] at hread
  obtain rfl : visitorId = visitorId' := by simpa using hread
  exact h'.ident.trans h.ident.symm

lemma Tracked.step (hkey : IsKey apiKey) (h : Tracked hmac apiKey s) {event : VisitEvent β}
    (hstep : s.step hmac apiKey webHost event = some s') : Tracked hmac apiKey s' := by
  cases event with
  | replaceCookie browser cookie =>
    obtain rfl := Option.some.inj hstep
    refine ⟨h.counted, fun visit hvisit => ?_, fun visit hvisit hsession => ?_, h.kept⟩
    · have hpast := h.past visit hvisit
      by_cases hbrowser : visit.browser = browser
      · subst hbrowser
        simp only [Function.update_self]
        omega
      · simpa only [Function.update_of_ne hbrowser] using hpast
    · have hpast := h.past visit hvisit
      by_cases hbrowser : visit.browser = browser
      · subst hbrowser
        simp only [Function.update_self] at hsession
        omega
      · simp only [Function.update_of_ne hbrowser] at hsession ⊢
        exact h.current visit hvisit hsession
  | visit browser uuid =>
    obtain ⟨visitorId, ident, cookie, hbelongs, hvisits, hbrowsers, hread⟩ := visit_spec hkey hstep
    have hsame : ∀ visit ∈ s.visits, visit.browser = browser →
        visit.session = (s.browsers browser).session → ident = visit.ident := by
      rintro visit hvisit rfl hsession
      obtain ⟨earlier, hearlier⟩ := h.current visit hvisit hsession
      exact hearlier.same hkey hbelongs (hread.imp_right And.left)
    refine ⟨?_, ?_, ?_, ?_⟩ <;> rw [hvisits] <;> try rw [hbrowsers]
    · exact List.forall_mem_cons.mpr ⟨⟨visitorId, cookie, hbelongs, hread⟩, h.counted⟩
    · refine List.forall_mem_cons.mpr ⟨by simp only [Function.update_self, le_refl], ?_⟩
      intro visit hvisit
      by_cases hbrowser : visit.browser = browser
      · subst hbrowser
        simpa only [Function.update_self] using h.past visit hvisit
      · simpa only [Function.update_of_ne hbrowser] using h.past visit hvisit
    · refine List.forall_mem_cons.mpr ⟨fun _ => ⟨visitorId, ?_⟩, ?_⟩
      · simpa only [Function.update_self] using hbelongs
      intro visit hvisit hsession
      by_cases hbrowser : visit.browser = browser
      · subst hbrowser
        simp only [Function.update_self] at hsession ⊢
        exact ⟨visitorId, hsame visit hvisit rfl hsession ▸ hbelongs⟩
      · simp only [Function.update_of_ne hbrowser] at hsession ⊢
        exact h.current visit hvisit hsession
    · refine List.forall_mem_cons.mpr ⟨?_, fun visit hvisit => ?_⟩
      · refine List.forall_mem_cons.mpr ⟨fun _ _ => rfl, fun visit hvisit hbrowser hsession => ?_⟩
        exact hsame visit hvisit hbrowser.symm hsession.symm
      · refine List.forall_mem_cons.mpr ⟨fun hbrowser hsession => ?_, h.kept visit hvisit⟩
        exact (hsame visit hvisit hbrowser hsession).symm

end

/-! ### Two page views -/

end Denn.Web.CatalogVisitor
