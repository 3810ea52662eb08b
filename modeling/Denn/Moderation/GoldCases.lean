import Denn.Content.Rearranged
import Denn.Core.OrderedMap
import Denn.Core.Pattern

/-!
# Gold cases

The schema of evaluation cases describes the moderation state once more: a case is accepted if its
state has exactly the named fields, at every level, and no text in it looks like a URL or a credential.
The export of candidates leaves out the items whose case the schema refuses.
-/

namespace Denn.Core.TextTree

mutual

def toJson : TextTree → Json
  | .text s => .str s
  | .list values => .arr (toJsonList values)
  | .object fields => .obj (toJsonFields fields)

def toJsonList : List TextTree → List Json
  | [] => []
  | value :: values => value.toJson :: toJsonList values

def toJsonFields : List (String × TextTree) → List (String × Json)
  | [] => []
  | (name, value) :: fields => (name, value.toJson) :: toJsonFields fields

/-- `_state_texts`. -/
def leaves : TextTree → List String
  | .text s => [s]
  | .list values => leavesList values
  | .object fields => leavesFields fields

def leavesList : List TextTree → List String
  | [] => []
  | value :: values => value.leaves ++ leavesList values

def leavesFields : List (String × TextTree) → List String
  | [] => []
  | (_, value) :: fields => value.leaves ++ leavesFields fields

end

end Denn.Core.TextTree

namespace Denn.Moderation

open Denn.Core

/-! ### The schema -/

structure GoldCaseValidationError where
  message : String

section Patterns

open Pattern

def asciiLetters (c : Char) : Bool := ('a' ≤ c && c ≤ 'z') || ('A' ≤ c && c ≤ 'Z')

def asciiDigit (c : Char) : Bool := '0' ≤ c && c ≤ '9'

def anyOf (chars : String) (c : Char) : Bool := c ∈ chars.toList

/-- A lower-case word in a pattern that ignores case. -/
def phrase (text : String) : Pattern := run (text.toList.map ignoringCase)

def blank : Pattern := .char isSpace

def visible : Pattern := .char fun c => !isSpace c

def caseIdPattern : Pattern :=
  run ("case_".toList.map (fun c d => decide (d = c)) ++
    List.replicate 12 fun c => asciiDigit c || ('a' ≤ c && c ≤ 'f'))

def slugPattern : Pattern :=
  .seq (.char fun c => 'a' ≤ c && c ≤ 'z')
    (upTo (fun c => ('a' ≤ c && c ≤ 'z') || asciiDigit c || anyOf "_-" c) 31)

def guidelinePattern : Pattern :=
  .seq (.char fun c => asciiLetters c || asciiDigit c)
    (upTo (fun c => asciiLetters c || asciiDigit c || anyOf "._-" c) 63)

def urlPattern : Pattern :=
  choice [concat [phrase "http", optional (phrase "s"), literal "://"],
    concat [phrase "www", literal "."]]

def secretPattern : Pattern :=
  concat [.boundary,
    choice [concat [phrase "api", optional (.char (anyOf "_ -")), phrase "key"],
      concat [phrase "access", optional (.char (anyOf "_ -")), phrase "token"],
      concat [phrase "client", optional (.char (anyOf "_ -")), phrase "secret"],
      phrase "password", phrase "bearer"],
    .boundary, .star blank,
    choice [concat [.char (anyOf ":="), .star blank, atLeast 1 visible],
      concat [atLeast 1 blank, atLeast 8 visible]]]

def jwtPattern : Pattern :=
  let token := atLeast 8 (.char fun c => asciiLetters c || asciiDigit c || anyOf "_-" c)
  concat [.boundary, literal "eyJ", token, literal ".", token, literal ".", token, .boundary]

end Patterns

/-- What a value must be. -/
inductive Shape where
  | text
  | list (entry : Shape)
  | object (fields : List (String × Shape))

def screenShape : Shape :=
  .object [("original_title", .text), ("tagline", .text), ("genres", .list .text),
    ("keywords", .list .text)]

/-- `TYPE_SPECIFIC_SHAPES`. -/
def typeSpecificShapes : List (String × Shape) :=
  [("movie", .object [("movie", screenShape)]),
    ("tv_show", .object [("tv_show", screenShape)]),
    ("game", .object [("game", .object [("genres", .list .text), ("themes", .list .text),
      ("game_modes", .list .text), ("game_type", .text), ("series", .text),
      ("keywords", .list .text)])]),
    ("season", .object [("season", .object [("parent_show_name", .text),
      ("episodes", .list (.object [("title", .text), ("description", .text)]))])]),
    ("album", .object [("album", .object [("artists", .list .text),
      ("tracks", .list (.object [("title", .text),
        ("credits", .list (.object [("name", .text), ("role", .text)])),
        ("parental_advisory", .text)]))])]),
    ("book", .object [("book", .object [("authors", .list .text), ("subjects", .list .text)])])]

def goldSchemaVersion : String := "jev-moderation-gold-cases/v2"

def caseFields : List String :=
  ["case_id", "split", "source_kind", "provider", "content_type", "language", "state", "gold_class",
    "adjudication", "provider_explicit"]

def stateFields : List String := ["provider", "content_type", "title", "description", "type_specific"]

def adjudicationFields : List String := ["status", "reviewer_count", "guideline_revision"]

def goldClasses : List String :=
  ["safe_for_automatic_discovery", "explicit_or_sensitive", "needs_review"]

def providerOverrideTargets : List (String × String) :=
  [("tmdb", "movie"), ("tmdb", "tv_show"), ("igdb", "game")]

/-! ### Validation -/

def ensure (condition : Bool) (message : String) : Except GoldCaseValidationError Unit :=
  if condition then .ok () else .error ⟨message⟩

/-- `_require_fields`. -/
def requireFields (value : Json) (fields : List String) (path : String) :
    Except GoldCaseValidationError Unit :=
  match value with
  | .obj entries =>
    ensure (entries.all (fun entry => entry.1 ∈ fields) &&
        fields.all fun field => field ∈ entries.map Prod.fst)
      (path ++ ": object fields do not match the v2 schema")
  | _ => .error ⟨path ++ ": object fields do not match the v2 schema"⟩

def textIn (value : Json) (allowed : List String) : Bool :=
  match value with
  | .str s => s ∈ allowed
  | _ => false

def stringOf : Json → String
  | .str s => s
  | _ => ""

variable (isWord : Char → Bool)

/-- The text looks like a URL, a credential or a token. `isWord` tells the letters, digits and
    underscores of Unicode. -/
def isProhibited (s : String) : Bool :=
  urlPattern.search isWord s || secretPattern.search isWord s || jwtPattern.search isWord s

def textMatches (value : Json) (pattern : Pattern) : Bool :=
  match value with
  | .str s => pattern.fullMatch isWord s
  | _ => false

mutual

/-- `_validate_shape`. -/
def validateShape (value : Json) (path : String) : Shape → Except GoldCaseValidationError Unit
  | .text =>
    match value with
    | .str s =>
      ensure (!isProhibited isWord s) (path ++ ": URL or credential-like text is prohibited")
    | _ => .error ⟨path ++ ": expected text"⟩
  | .list entry =>
    match value with
    | .arr values => values.zipIdx.forM fun item =>
      validateShape item.1 (path ++ "[" ++ toString item.2 ++ "]") entry
    | _ => .error ⟨path ++ ": expected a list"⟩
  | .object fields => do
    requireFields value (fields.map Prod.fst) path
    validateFields value path fields

def validateFields (value : Json) (path : String) :
    List (String × Shape) → Except GoldCaseValidationError Unit
  | [] => .ok ()
  | (name, shape) :: fields => do
    validateShape (value.get name) (path ++ "." ++ name) shape
    validateFields value path fields

end

def validateState (provider contentType : String) (state : Json) (path : String) :
    Except GoldCaseValidationError Unit := do
  requireFields state stateFields path
  ensure ((state.get "provider").equals (.str provider) &&
    (state.get "content_type").equals (.str contentType.toUpper))
    (path ++ ": provider/content type mismatch")
  validateShape isWord (state.get "title") (path ++ ".title") .text
  validateShape isWord (state.get "description") (path ++ ".description") .text
  validateShape isWord (state.get "type_specific") (path ++ ".type_specific")
    ((typeSpecificShapes.lookup contentType).getD .text)

def validateAdjudication (sourceKind : Json) (adjudication : Json) (path : String) :
    Except GoldCaseValidationError Unit := do
  requireFields adjudication adjudicationFields path
  let reviewers : Option ℤ := match adjudication.get "reviewer_count" with
    | .int n => some n
    | _ => none
  ensure (textIn (adjudication.get "status") ["synthetic", "human_adjudicated"])
    (path ++ ".status: unsupported status")
  ensure (reviewers.any (0 ≤ ·)) (path ++ ".reviewer_count: expected non-negative integer")
  ensure (textMatches isWord (adjudication.get "guideline_revision") guidelinePattern)
    (path ++ ".guideline_revision: invalid revision label")
  ensure (!textIn (adjudication.get "status") ["synthetic"] ||
    (textIn sourceKind ["synthetic_text"] && reviewers = some 0))
    (path ++ ": synthetic metadata mismatch")
  ensure (!textIn (adjudication.get "status") ["human_adjudicated"] ||
    (textIn sourceKind ["catalog_text"] && reviewers.any (1 ≤ ·)))
    (path ++ ": human label metadata mismatch")

/-- The checks of one case; its id is returned. -/
def validateCase (seen : List String) (raw : Json) (path : String) :
    Except GoldCaseValidationError String := do
  requireFields raw caseFields path
  ensure (textMatches isWord (raw.get "case_id") caseIdPattern && !textIn (raw.get "case_id") seen)
    (path ++ ".case_id: expected a unique opaque case ID")
  ensure (textIn (raw.get "split") ["development", "evaluation", "holdout"])
    (path ++ ".split: unsupported split")
  ensure (textIn (raw.get "source_kind") ["synthetic_text", "catalog_text"])
    (path ++ ".source_kind: unsupported source kind")
  ensure (textMatches isWord (raw.get "provider") slugPattern)
    (path ++ ".provider: expected a lowercase slug")
  ensure (textIn (raw.get "content_type") (typeSpecificShapes.map Prod.fst))
    (path ++ ".content_type: unsupported content type")
  ensure (textIn (raw.get "language") ["en", "es", "other"])
    (path ++ ".language: expected a manual language label")
  ensure (textIn (raw.get "gold_class") goldClasses) (path ++ ".gold_class: unsupported class")
  let provider := stringOf (raw.get "provider")
  let contentType := stringOf (raw.get "content_type")
  match raw.get "provider_explicit" with
  | .null => .ok ()
  | .bool explicit =>
    ensure (!explicit || (provider, contentType) ∈ providerOverrideTargets)
      (path ++ ".provider_explicit: true is supported only for TMDB movies and TV shows and IGDB games")
  | _ => .error ⟨path ++ ".provider_explicit: expected bool or null"⟩
  validateState isWord provider contentType (raw.get "state") (path ++ ".state")
  validateAdjudication isWord (raw.get "source_kind") (raw.get "adjudication")
    (path ++ ".adjudication")
  return stringOf (raw.get "case_id")

def validateCases (seen : List String) : List (Json × ℕ) → Except GoldCaseValidationError Unit
  | [] => .ok ()
  | (raw, index) :: rest => do
    let caseId ← validateCase isWord seen raw ("cases[" ++ toString index ++ "]")
    validateCases (caseId :: seen) rest

/-- `validate_gold_dataset`, which returns the cases as they are. -/
def validateGoldDataset (document : Json) : Except GoldCaseValidationError (List Json) := do
  requireFields document ["schema_version", "cases"] "dataset"
  match document.get "cases" with
  | .arr cases =>
    ensure (textIn (document.get "schema_version") [goldSchemaVersion])
      "dataset: unsupported version or invalid cases list"
    validateCases isWord [] cases.zipIdx
    return cases
  | _ => .error ⟨"dataset: unsupported version or invalid cases list"⟩

end Denn.Moderation
