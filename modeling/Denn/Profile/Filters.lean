import Denn.Core.PyDecimal
import Denn.Core.Window
import Denn.Lists.Explore

/-!
# Filters of public profiles

The query parameters of the public progress and ratings pages: kinds, statuses, flags, bounds of the
score, and the order. A parameter that has several values is read by its last one, unless it is a
filter with several values.
-/

namespace Denn.Profile

open Core

/-! ### Parameters -/

/-- The parameters of a query string, in their order. -/
abbrev QueryDict := List (String × String)

namespace QueryDict

/-- `query_params.getlist(name)`. -/
def getlist (params : QueryDict) (name : String) : List String :=
  (params.filter fun parameter => parameter.1 = name).map Prod.snd

/-- `query_params.get(name)`. -/
def get (params : QueryDict) (name : String) : Option String := (params.getlist name).getLast?

end QueryDict

/-- A refused parameter, or the exception of a comparison. -/
inductive FilterError where
  | validationError (field : String) (messages : List String)
  | invalidOperation
  deriving DecidableEq

section Parsers

variable (params : QueryDict) (name : String)

/-- The comparisons that a score has to stand. -/
def checkRange (score : PyDecimal) : Except FilterError (Option PyDecimal) := do
  let below ← (PyDecimal.less score (.finite false 5 (-1))).mapError fun _ => .invalidOperation
  if below then .error (.validationError name ["Must be between 0.5 and 10.0."])
  else
    let above ← (PyDecimal.less (.finite false 100 (-1)) score).mapError fun _ => .invalidOperation
    if above then .error (.validationError name ["Must be between 0.5 and 10.0."])
    else .ok (some score)

/-- `_parse_score_filter`. -/
def parseScoreFilter : Except FilterError (Option PyDecimal) :=
  match params.get name with
  | none => .ok none
  | some raw =>
    if raw = "" then .ok none
    else
      match PyDecimal.read raw with
      | none => .error (.validationError name ["Must be a number from 0.5 to 10.0."])
      | some score => checkRange name score

/-- `_parse_bool_filter`. -/
def parseBoolFilter : Except FilterError (Option Bool) :=
  match params.get name with
  | none => .ok none
  | some raw =>
    if raw = "" then .ok none
    else if raw ∈ ["true", "false"] then .ok (some (raw = "true"))
    else .error (.validationError name ["Must be true or false."])

/-- `_parse_multi_filter`. -/
def parseMultiFilter (allowed : List String) : List String :=
  (((params.getlist name).flatMap Lists.csv).filter (· ∈ allowed)).eraseDups

/-- The bounds of the score, with the check that compares them. -/
def parseScoreBounds : Except FilterError (Option PyDecimal × Option PyDecimal) := do
  let minScore ← parseScoreFilter params "minScore"
  let maxScore ← parseScoreFilter params "maxScore"
  match minScore, maxScore with
  | some low, some high =>
    let crossed ← (PyDecimal.less high low).mapError fun _ => .invalidOperation
    if crossed then
      .error (.validationError "maxScore" ["Must be greater than or equal to minScore."])
    else .ok (minScore, maxScore)
  | _, _ => .ok (minScore, maxScore)

end Parsers

def contentTypeValues : List String := ["MOVIE", "TV_SHOW", "SEASON", "GAME", "ALBUM", "BOOK"]

def statusValues : List String := ["backlog", "in_progress", "completed", "on_hold", "dropped"]

/-! ### Progress -/

/-- A tracking row of the profile with what is annotated to it. -/
structure ProgressRow where
  id : ℕ
  contentType : ContentType
  displayTitle : Option String
  status : TrackingStatus
  updatedAt : Time
  lastCompletedAt : Option Time
  isFavorite : Bool
  /-- The score and the comment of the active rating. -/
  rating : Option (ℚ × Option String)

/-- The columns that the progress is sorted by. -/
inductive ProgressSort where
  | updated
  | title
  | score
  | completed
  deriving DecidableEq

def ProgressSort.ofName : String → Option ProgressSort
  | "updated" => some updated
  | "title" => some title
  | "score" => some score
  | "completed" => some completed
  | _ => none

structure ProgressQuery where
  text : String
  contentTypes : List String
  tvKind : String
  statuses : List String
  rated : Option Bool
  reviewed : Option Bool
  favorite : Option Bool
  minScore : Option PyDecimal
  maxScore : Option PyDecimal
  sort : ProgressSort
  descending : Bool

/-- `legacy_sort`. -/
def legacySort : String → Option (ProgressSort × Bool)
  | "recent" => some (.updated, true)
  | "oldest" => some (.updated, false)
  | "-title" => some (.title, true)
  | "-score" => some (.score, true)
  | _ => none

/-- `_progress_ordering`: the column, and whether it descends. -/
def progressOrdering (params : QueryDict) : ProgressSort × Bool :=
  let rawSort := (params.get "sort").getD "updated"
  let sort := ((legacySort rawSort).map Prod.fst).getD ((ProgressSort.ofName rawSort).getD .updated)
  let legacyOrder := (legacySort rawSort).map Prod.snd
  let order := match params.get "order" with
    | some "asc" => some false
    | some "desc" => some true
    | _ => none
  (sort, (order.orElse fun _ => legacyOrder).getD (sort ≠ .title))

/-- The filters of `PublicProfileProgressView.get`, in the order in which they are parsed. -/
def parseProgress (params : QueryDict) : Except FilterError ProgressQuery := do
  let contentTypes := parseMultiFilter params "type" contentTypeValues
  let statuses := parseMultiFilter params "status" statusValues
  let rated ← parseBoolFilter params "rated"
  let reviewed ← parseBoolFilter params "reviewed"
  let favorite ← parseBoolFilter params "favorite"
  let bounds ← parseScoreBounds params
  return { text := strip ((params.get "q").getD "")
           contentTypes
           tvKind := (params.get "tvKind").getD "all"
           statuses, rated, reviewed, favorite
           minScore := bounds.1
           maxScore := bounds.2
           sort := (progressOrdering params).1
           descending := (progressOrdering params).2 }

namespace ProgressQuery

variable (query : ProgressQuery)

/-- `expanded_types`. -/
def expandedTypes : List String :=
  if "TV_SHOW" ∈ query.contentTypes then
    if query.tvKind = "seasons" then "SEASON" :: query.contentTypes.filter (· ≠ "TV_SHOW")
    else if query.tvKind ≠ "series" then "SEASON" :: query.contentTypes
    else query.contentTypes
  else query.contentTypes

/-- The score is within the bounds; a row without a score is not. -/
def admitsScore (low high : Option PyDecimal) (score : Option ℚ) : Bool :=
  let value := score.map fun q => (((q : WithTop ℚ) : WithBot (WithTop ℚ)))
  low.all (fun low => value.any fun q => low.magnitude ≤ q) &&
    high.all fun high => value.any fun q => q ≤ high.magnitude

/-- The rows that pass the filters; `contains` ignores case. -/
def admits (contains : String → String → Bool) (row : ProgressRow) : Bool :=
  let reviewed := (row.rating.bind Prod.snd).any (· ≠ "")
  (query.text = "" || row.displayTitle.any fun title => contains title query.text) &&
    (query.contentTypes = [] || row.contentType.value ∈ query.expandedTypes) &&
    (query.statuses = [] || Lists.trackingStatusValue row.status ∈ query.statuses) &&
    query.rated.all (· = row.rating.isSome) && query.reviewed.all (· = reviewed) &&
    query.favorite.all (· = row.isFavorite) &&
    admitsScore query.minScore query.maxScore (row.rating.map Prod.fst)

end ProgressQuery

section Columns

open Lists (Value number text instant nullable)

variable {κ : Type*} (collate : String ↪ κ)

def ProgressSort.column (sort : ProgressSort) (row : ProgressRow) : Value κ :=
  match sort with
  | updated => instant row.updatedAt
  | title => text collate (row.displayTitle.getD "")
  | score => nullable (fun rating : ℚ × Option String => number rating.1) row.rating
  | completed => nullable instant row.lastCompletedAt

def ProgressSort.isNull (sort : ProgressSort) (row : ProgressRow) : Bool :=
  match sort with
  | score => row.rating.isNone
  | completed => row.lastCompletedAt.isNone
  | _ => false

/-- The order of the progress: nulls last in both directions, then the key. -/
def ProgressQuery.clauses (query : ProgressQuery) : List (Clause ProgressRow (Value κ)) :=
  [⟨fun row => number (if query.sort.isNull row then 1 else 0), false⟩,
    ⟨query.sort.column collate, query.descending⟩, ⟨fun row => number row.id, query.descending⟩]

end Columns

/-! ### Ratings -/

/-- An active rating of the profile with what is annotated to it. -/
structure RatingRow where
  id : ℕ
  contentType : ContentType
  displayTitle : Option String
  score : ℚ
  comment : Option String
  isFavorite : Bool
  createdAt : Time

structure RatingsQuery where
  text : String
  contentType : Option String
  kind : String
  favorite : Option Bool
  minScore : Option PyDecimal
  maxScore : Option PyDecimal
  sort : Option String

/-- The filters of `PublicProfileRatingsView.get`, in the order in which they are parsed. -/
def parseRatings (params : QueryDict) : Except FilterError RatingsQuery := do
  let bounds ← parseScoreBounds params
  return { text := strip ((params.get "q").getD "")
           contentType := (params.get "type").filter (· ∈ contentTypeValues)
           kind := (params.get "kind").getD "all"
           favorite := ((params.get "favorite").filter (· ∈ ["true", "false"])).map (· = "true")
           minScore := bounds.1
           maxScore := bounds.2
           sort := params.get "sort" }

/-- The ratings that pass the filters. -/
def RatingsQuery.admits (query : RatingsQuery) (contains : String → String → Bool)
    (row : RatingRow) : Bool :=
  let reviewed := row.comment.any (· ≠ "")
  (query.text = "" || row.displayTitle.any fun title => contains title query.text) &&
    query.contentType.all (· = row.contentType.value) &&
    (query.kind ≠ "reviews" || reviewed) && (query.kind ≠ "ratings_only" || !reviewed) &&
    query.favorite.all (· = row.isFavorite) &&
    ProgressQuery.admitsScore query.minScore query.maxScore (some row.score)

section Columns

open Lists (Value number instant)

variable {κ : Type*} (collate : String ↪ κ)

def RatingsQuery.clauses (query : RatingsQuery) : List (Clause RatingRow (Value κ)) :=
  let createdAt (row : RatingRow) : Value κ := instant row.createdAt
  let contentTitle (row : RatingRow) : Value κ := Lists.text collate (row.displayTitle.getD "")
  let score (row : RatingRow) : Value κ := number row.score
  let id (row : RatingRow) : Value κ := number row.id
  match query.sort with
  | some "oldest" => [⟨createdAt, false⟩, ⟨id, false⟩]
  | some "title" => [⟨contentTitle, false⟩, ⟨id, false⟩]
  | some "-title" => [⟨contentTitle, true⟩, ⟨id, true⟩]
  | some "score" => [⟨score, false⟩, ⟨id, false⟩]
  | some "-score" => [⟨score, true⟩, ⟨id, true⟩]
  | _ => [⟨createdAt, true⟩, ⟨id, true⟩]

end Columns

/-! ### Scores -/

/-- A number from 0.5 to 10.0. -/
def InRange (score : PyDecimal) : Prop :=
  ∃ q : ℚ, score.magnitude = ((q : WithTop ℚ) : WithBot (WithTop ℚ)) ∧ 1 / 2 ≤ q ∧ q ≤ 10

/-- The parameter spells a value that is not a number. -/
def SpellsNan (raw : Option String) : Prop :=
  ∃ text, raw = some text ∧ ∃ signaling, PyDecimal.read text = some (.nan signaling)

/-- The parameter is absent, empty, or a number in range. -/
def IsScore (raw : Option String) : Prop :=
  ∀ text, raw = some text → text = "" ∨ ∃ score, PyDecimal.read text = some score ∧ InRange score

variable {params : QueryDict} {name : String}

lemma inRange_iff {score : PyDecimal} :
    InRange score ↔ ¬ score.magnitude < (PyDecimal.finite false 5 (-1)).magnitude ∧
      ¬ (PyDecimal.finite false 100 (-1)).magnitude < score.magnitude := by
  have hlow : (PyDecimal.finite false 5 (-1)).magnitude =
      (((1 / 2 : ℚ) : WithTop ℚ) : WithBot (WithTop ℚ)) := by
    rw [PyDecimal.magnitude]
    norm_num
  have hhigh : (PyDecimal.finite false 100 (-1)).magnitude =
      (((10 : ℚ) : WithTop ℚ) : WithBot (WithTop ℚ)) := by
    rw [PyDecimal.magnitude]
    norm_num
  rw [hlow, hhigh, not_lt, not_lt]
  constructor
  · rintro ⟨q, hq, hlo, hhi⟩
    rw [hq, WithBot.coe_le_coe, WithBot.coe_le_coe, WithTop.coe_le_coe, WithTop.coe_le_coe]
    exact ⟨hlo, hhi⟩
  · rintro ⟨hlo, hhi⟩
    exact PyDecimal.finite_of_magnitude hlo hhi

lemma checkRange_nan (name : String) (signaling : Bool) :
    checkRange name (.nan signaling) = .error .invalidOperation := rfl

lemma checkRange_of_not_nan (name : String) {score : PyDecimal} (h : score.isNan = false) :
    (InRange score ∧ checkRange name score = .ok (some score)) ∨
      ¬ InRange score ∧ ∃ messages, checkRange name score = .error (.validationError name messages) := by
  have hbelow := PyDecimal.less_eq_ok.mpr
    ⟨h, (rfl : (PyDecimal.finite false 5 (-1)).isNan = false), rfl⟩
  have habove := PyDecimal.less_eq_ok.mpr
    ⟨(rfl : (PyDecimal.finite false 100 (-1)).isNan = false), h, rfl⟩
  rw [checkRange, hbelow, habove, inRange_iff]
  by_cases hlow : score.magnitude < (PyDecimal.finite false 5 (-1)).magnitude
  · refine .inr ⟨fun hrange => hrange.1 hlow, ["Must be between 0.5 and 10.0."], ?_⟩
    rw [decide_eq_true hlow]
    rfl
  · by_cases hhigh : (PyDecimal.finite false 100 (-1)).magnitude < score.magnitude
    · refine .inr ⟨fun hrange => hrange.2 hhigh, ["Must be between 0.5 and 10.0."], ?_⟩
      rw [decide_eq_false hlow, decide_eq_true hhigh]
      rfl
    · refine .inl ⟨⟨hlow, hhigh⟩, ?_⟩
      rw [decide_eq_false hlow, decide_eq_false hhigh]
      rfl

/-- What a score filter comes to. -/
inductive ScoreOutcome (raw : Option String) (name : String) :
    Except FilterError (Option PyDecimal) → Prop where
  | escapes (h : SpellsNan raw) : ScoreOutcome raw name (.error .invalidOperation)
  | refused (h : ¬ SpellsNan raw) (hscore : ¬ IsScore raw) (messages : List String) :
      ScoreOutcome raw name (.error (.validationError name messages))
  | parsed (h : ¬ SpellsNan raw) (hscore : IsScore raw) (score : Option PyDecimal)
      (hrange : ∀ s, score = some s → s.isNan = false ∧ InRange s) : ScoreOutcome raw name (.ok score)

lemma parseScoreFilter_outcome (params : QueryDict) (name : String) :
    ScoreOutcome (params.get name) name (parseScoreFilter params name) := by
  rw [parseScoreFilter]
  cases hget : params.get name with
  | none => exact .parsed (by simp [SpellsNan]) (by simp [IsScore]) none (by simp)
  | some raw =>
    have hread : SpellsNan (some raw) ↔ ∃ signaling, PyDecimal.read raw = some (.nan signaling) := by
      simp [SpellsNan]
    by_cases hempty : raw = ""
    · subst hempty
      refine .parsed ?_ (by simp [IsScore]) none (by simp)
      rw [hread]
      decide +kernel
    have hscore : IsScore (some raw) ↔ ∃ score, PyDecimal.read raw = some score ∧ InRange score := by
      simp [IsScore, hempty]
    simp only [hempty, if_false]
    cases hvalue : PyDecimal.read raw with
    | none =>
      rw [hvalue] at hread hscore
      exact .refused (by simp [hread]) (by simp [hscore]) _
    | some score =>
      rw [hvalue] at hread hscore
      cases hnan : score.isNan with
      | true =>
        obtain ⟨signaling, rfl⟩ := PyDecimal.isNan_eq_true.mp hnan
        exact .escapes (hread.mpr ⟨signaling, rfl⟩)
      | false =>
        have hnot : ¬ SpellsNan (some raw) := by
          rw [hread]
          rintro ⟨signaling, hsignaling⟩
          cases hsignaling
          cases hnan
        rcases checkRange_of_not_nan name hnan with ⟨hrange, hok⟩ | ⟨hrange, messages, herror⟩
        · simp only [hok]
          refine .parsed hnot (hscore.mpr ⟨score, rfl, hrange⟩) _ ?_
          rintro s hs
          cases hs
          exact ⟨hnan, hrange⟩
        · simp only [herror]
          refine .refused hnot ?_ messages
          rw [hscore]
          rintro ⟨s, hs, hs'⟩
          cases hs
          exact hrange hs'

/-- Bounds that are absent or in range, the lower one not above the upper one. -/
structure SoundBounds (low high : Option PyDecimal) : Prop where
  inLow : ∀ s, low = some s → InRange s
  inHigh : ∀ s, high = some s → InRange s
  le : ∀ s t, low = some s → high = some t → s.magnitude ≤ t.magnitude

/-- The bounds are parsed up to one that is not a number. -/
def ReachesNan (params : QueryDict) : Prop :=
  SpellsNan (params.get "minScore") ∨ IsScore (params.get "minScore") ∧ SpellsNan (params.get "maxScore")

/-- What both bounds and the comparison between them come to. -/
inductive BoundsOutcome (params : QueryDict) :
    Except FilterError (Option PyDecimal × Option PyDecimal) → Prop where
  | escapes (h : ReachesNan params) : BoundsOutcome params (.error .invalidOperation)
  | refused (h : ¬ ReachesNan params) (field : String) (messages : List String) :
      BoundsOutcome params (.error (.validationError field messages))
  | parsed (h : ¬ ReachesNan params) (low high : Option PyDecimal) (hsound : SoundBounds low high) :
      BoundsOutcome params (.ok (low, high))

lemma parseScoreBounds_outcome (params : QueryDict) :
    BoundsOutcome params (parseScoreBounds params) := by
  rw [parseScoreBounds]
  have hmin := parseScoreFilter_outcome params "minScore"
  have hmax := parseScoreFilter_outcome params "maxScore"
  generalize parseScoreFilter params "minScore" = low at hmin ⊢
  generalize parseScoreFilter params "maxScore" = high at hmax ⊢
  cases hmin with
  | escapes h => exact .escapes (.inl h)
  | refused h hscore messages => exact .refused (by simp [ReachesNan, h, hscore]) _ _
  | parsed h hscore low hlow =>
    cases hmax with
    | escapes h' => exact .escapes (.inr ⟨hscore, h'⟩)
    | refused h' hscore' messages => exact .refused (by simp [ReachesNan, h, h']) _ _
    | parsed h' hscore' high hhigh =>
      have hgood : ¬ ReachesNan params := by simp [ReachesNan, h, h']
      have hlow' := fun s hs => (hlow s hs).2
      have hhigh' := fun s hs => (hhigh s hs).2
      cases low with
      | none => exact .parsed hgood none high ⟨hlow', hhigh', by simp⟩
      | some low =>
        cases high with
        | none => exact .parsed hgood (some low) none ⟨hlow', hhigh', by simp⟩
        | some high =>
          have hless := PyDecimal.less_eq_ok.mpr ⟨(hhigh high rfl).1, (hlow low rfl).1, rfl⟩
          simp only [ok_bind, hless]
          by_cases hcrossed : high.magnitude < low.magnitude
          · rw [decide_eq_true hcrossed]
            exact .refused hgood _ _
          · rw [decide_eq_false hcrossed]
            refine .parsed hgood (some low) (some high) ⟨hlow', hhigh', ?_⟩
            rintro s t hs ht
            cases hs
            cases ht
            exact not_lt.mp hcrossed

/-! ### Flags -/

/-- The parameter is absent, empty, or a flag. -/
def IsFlag (raw : Option String) : Prop := ∀ text, raw = some text → text ∈ ["", "true", "false"]

lemma parseBoolFilter_outcome (params : QueryDict) (name : String) :
    (IsFlag (params.get name) ∧ ∃ flag, parseBoolFilter params name = .ok flag) ∨
      ¬ IsFlag (params.get name) ∧
        ∃ messages, parseBoolFilter params name = .error (.validationError name messages) := by
  rw [parseBoolFilter]
  cases hget : params.get name with
  | none => exact .inl ⟨by simp [IsFlag], none, rfl⟩
  | some raw =>
    have hflag : IsFlag (some raw) ↔ raw = "" ∨ raw ∈ ["true", "false"] := by
      simp [IsFlag]
    rw [hflag]
    by_cases hempty : raw = ""
    · exact .inl ⟨.inl hempty, none, by simp [hempty]⟩
    · by_cases hmem : raw ∈ ["true", "false"]
      · exact .inl ⟨.inr hmem, some (raw = "true"), by simp only [hempty, hmem, if_false, if_true]⟩
      · refine .inr ⟨by simp [hempty, hmem], ["Must be true or false."], ?_⟩
        simp only [hempty, hmem, if_false]

/-! ### Filters with several values -/

lemma mem_parseMultiFilter {allowed : List String} {value : String}
    (h : value ∈ parseMultiFilter params name allowed) : value ∈ allowed := by
  rw [parseMultiFilter, List.mem_eraseDups, List.mem_filter] at h
  exact of_decide_eq_true h.2

lemma nodup_parseMultiFilter (params : QueryDict) (name : String) (allowed : List String) :
    (parseMultiFilter params name allowed).Nodup := nodup_eraseDups _

/-! ### Orders -/

/-- A strict total order of rows with different keys; so pages of a fixed state, each read by a query
    of its own, neither skip a row nor repeat one. -/
structure OrdersStrictly {α κ : Type*} [LinearOrder κ] (clauses : List (Clause α κ)) (key : α → ℕ) :
    Prop where
  irrefl : ∀ a, ¬ Before clauses a a
  trans : ∀ a b c, Before clauses a b → Before clauses b c → Before clauses a c
  total : ∀ a b, key a ≠ key b → Before clauses a b ∨ Before clauses b a
  pages : ∀ rows : List α, (rows.map key).Nodup → ∀ size, 0 < size → ∀ read : ℕ → List α,
    (∀ page, Answers clauses rows (read page)) →
      ((List.range' 1 (pageCount size rows.length)).flatMap fun page =>
        window size page (read page)).Perm rows

/-- A column that tells the keys apart is enough. -/
lemma ordersStrictly_of_key {α κ : Type*} [LinearOrder κ] {clauses : List (Clause α κ)} {key : α → ℕ}
    {clause : Clause α κ} (hmem : clause ∈ clauses)
    (hkey : ∀ a b, clause.column a = clause.column b → key a = key b) : OrdersStrictly clauses key where
  irrefl a := before_irrefl
  trans a b c := before_trans
  total a b hne := by
    rcases before_or_tied_or_after clauses a b with h | h | h
    · exact .inl h
    · exact absurd (hkey a b (tied_iff.mp h clause hmem)) hne
    · exact .inr h
  pages rows hnodup size hsize read hread := by
    rw [flatMap_window_of_answers hnodup.of_map ?_ hsize hread]
    · exact orderBy_perm clauses rows
    · intro a ha b hb htied
      exact List.inj_on_of_nodup_map hnodup ha hb (hkey a b (tied_iff.mp htied clause hmem))

section Keys

variable {κ : Type*}

lemma number_natCast_inj {m n : ℕ} (h : (Lists.number m : Lists.Value κ) = Lists.number n) : m = n := by
  have hsum := toLex.injective (WithTop.coe_injective h)
  exact_mod_cast Sum.inl_injective hsum

lemma progress_ordersStrictly [LinearOrder κ] (collate : String ↪ κ) (query : ProgressQuery) :
    OrdersStrictly (query.clauses collate) ProgressRow.id :=
  ordersStrictly_of_key (List.mem_cons_of_mem _ (List.mem_cons_of_mem _ List.mem_cons_self))
    fun _ _ => number_natCast_inj

lemma ratings_ordersStrictly [LinearOrder κ] (collate : String ↪ κ) (query : RatingsQuery) :
    OrdersStrictly (query.clauses collate) RatingRow.id := by
  have hkey : ∀ (first : Clause RatingRow (Lists.Value κ)) (descending : Bool),
      OrdersStrictly [first, ⟨fun row => Lists.number row.id, descending⟩] RatingRow.id :=
    fun first descending => ordersStrictly_of_key (List.mem_cons_of_mem _ List.mem_cons_self)
      fun _ _ => number_natCast_inj
  rw [RatingsQuery.clauses]
  split <;> exact hkey _ _

end Keys

/-! ### Requests -/

/-- Values from the allowed ones, none of them twice. -/
def IsSelection (allowed values : List String) : Prop := values ⊆ allowed ∧ values.Nodup

lemma isSelection_parseMultiFilter (params : QueryDict) (name : String) (allowed : List String) :
    IsSelection allowed (parseMultiFilter params name allowed) :=
  ⟨fun _ => mem_parseMultiFilter, nodup_parseMultiFilter params name allowed⟩

section Requests

variable {κ : Type*} [LinearOrder κ] (collate : String ↪ κ) (params : QueryDict)

/-- The filters of the progress are refused or sound. -/
structure ProgressSafe : Prop where
  caught : parseProgress params ≠ .error .invalidOperation
  bounds : ∀ query, parseProgress params = .ok query → SoundBounds query.minScore query.maxScore
  selected : ∀ query, parseProgress params = .ok query →
    IsSelection contentTypeValues query.contentTypes ∧ IsSelection statusValues query.statuses
  ordered : ∀ query, parseProgress params = .ok query →
    OrdersStrictly (query.clauses collate) ProgressRow.id

/-- The filters of the ratings are refused or sound. -/
structure RatingsSafe : Prop where
  caught : parseRatings params ≠ .error .invalidOperation
  bounds : ∀ query, parseRatings params = .ok query → SoundBounds query.minScore query.maxScore
  selected : ∀ query, parseRatings params = .ok query →
    ∀ value, query.contentType = some value → value ∈ contentTypeValues
  ordered : ∀ query, parseRatings params = .ok query →
    OrdersStrictly (query.clauses collate) RatingRow.id

/-- The flags are well-formed, so the bounds are parsed. -/
def FlagsParse : Prop :=
  IsFlag (params.get "rated") ∧ IsFlag (params.get "reviewed") ∧ IsFlag (params.get "favorite")

variable {params}

/-- The flags come first. -/
lemma parseProgress_cases :
    (FlagsParse params ∧ ∃ rated reviewed favorite, parseProgress params =
      (parseScoreBounds params).map fun bounds =>
        { text := strip ((params.get "q").getD "")
          contentTypes := parseMultiFilter params "type" contentTypeValues
          tvKind := (params.get "tvKind").getD "all"
          statuses := parseMultiFilter params "status" statusValues
          rated, reviewed, favorite
          minScore := bounds.1
          maxScore := bounds.2
          sort := (progressOrdering params).1
          descending := (progressOrdering params).2 }) ∨
      ¬ FlagsParse params ∧
        ∃ field messages, parseProgress params = .error (.validationError field messages) := by
  rw [parseProgress, FlagsParse]
  rcases parseBoolFilter_outcome params "rated" with ⟨hrated, rated, h⟩ | ⟨hrated, messages, h⟩
  · rw [h]
    rcases parseBoolFilter_outcome params "reviewed" with
      ⟨hreviewed, reviewed, h⟩ | ⟨hreviewed, messages, h⟩
    · rw [h]
      rcases parseBoolFilter_outcome params "favorite" with
        ⟨hfavorite, favorite, h⟩ | ⟨hfavorite, messages, h⟩
      · rw [h]
        refine .inl ⟨⟨hrated, hreviewed, hfavorite⟩, rated, reviewed, favorite, ?_⟩
        cases parseScoreBounds params <;> rfl
      · rw [h]
        exact .inr ⟨fun hflags => hfavorite hflags.2.2, _, _, rfl⟩
    · rw [h]
      exact .inr ⟨fun hflags => hreviewed hflags.2.1, _, _, rfl⟩
  · rw [h]
    exact .inr ⟨fun hflags => hrated hflags.1, _, _, rfl⟩

lemma progressSafe_iff (collate : String ↪ κ) (params : QueryDict) :
    ProgressSafe collate params ↔ ¬ (FlagsParse params ∧ ReachesNan params) := by
  rcases @parseProgress_cases params with
    ⟨hflags, rated, reviewed, favorite, h⟩ | ⟨hflags, field, messages, h⟩
  · have hbounds := parseScoreBounds_outcome params
    generalize parseScoreBounds params = result at h hbounds
    cases hbounds with
    | escapes hnan => exact ⟨fun hsafe => absurd h hsafe.caught, fun hnot => absurd ⟨hflags, hnan⟩ hnot⟩
    | refused hnan field messages =>
      refine ⟨fun _ hreaches => hnan hreaches.2, fun _ => ?_⟩
      constructor <;> simp [h, Except.map]
    | parsed hnan low high hsound =>
      refine ⟨fun _ hreaches => hnan hreaches.2, fun _ => ?_⟩
      constructor
      · simp [h, Except.map]
      · intro query hquery
        cases h.symm.trans hquery
        exact hsound
      · intro query hquery
        cases h.symm.trans hquery
        exact ⟨isSelection_parseMultiFilter .., isSelection_parseMultiFilter ..⟩
      · exact fun query _ => progress_ordersStrictly collate query
  · refine ⟨fun _ hreaches => hflags hreaches.1, fun _ => ?_⟩
    constructor <;> simp [h]

lemma ratingsSafe_iff (collate : String ↪ κ) (params : QueryDict) :
    RatingsSafe collate params ↔ ¬ ReachesNan params := by
  have hbounds := parseScoreBounds_outcome params
  have h : parseRatings params = (parseScoreBounds params).map fun bounds =>
      { text := strip ((params.get "q").getD "")
        contentType := (params.get "type").filter (· ∈ contentTypeValues)
        kind := (params.get "kind").getD "all"
        favorite := ((params.get "favorite").filter (· ∈ ["true", "false"])).map (· = "true")
        minScore := bounds.1
        maxScore := bounds.2
        sort := params.get "sort" } := by
    rw [parseRatings]
    cases parseScoreBounds params <;> rfl
  generalize parseScoreBounds params = result at h hbounds
  cases hbounds with
  | escapes hnan => exact ⟨fun hsafe => absurd h hsafe.caught, fun hnot => absurd hnan hnot⟩
  | refused hnan field messages =>
    refine ⟨fun _ => hnan, fun _ => ?_⟩
    constructor <;> simp [h, Except.map]
  | parsed hnan low high hsound =>
    refine ⟨fun _ => hnan, fun _ => ?_⟩
    constructor
    · simp [h, Except.map]
    · intro query hquery
      cases h.symm.trans hquery
      exact hsound
    · intro query hquery value hvalue
      cases h.symm.trans hquery
      exact of_decide_eq_true (Option.filter_eq_some_iff.mp hvalue).2
    · exact fun query _ => ratings_ordersStrictly collate query

/-- The filters of a public profile are refused or sound, whatever the parameters are, if and only if
    the parsing does not reach a bound that is not a number. -/
theorem profile_filters_iff (collate : String ↪ κ) (params : QueryDict) :
    (ProgressSafe collate params ↔ ¬ (FlagsParse params ∧ ReachesNan params)) ∧
      (RatingsSafe collate params ↔ ¬ ReachesNan params) :=
  ⟨progressSafe_iff collate params, ratingsSafe_iff collate params⟩

end Requests

theorem nan_score_escapes : ¬ ∀ params, ProgressSafe (Function.Embedding.refl String) params ∧
    RatingsSafe (Function.Embedding.refl String) params :=
  fun h => (h [("minScore", "NaN")]).1.caught (by rfl)

end Denn.Profile
