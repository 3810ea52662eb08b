import Denn.Core.OrderedMap
import Denn.Web.Numerals
import Mathlib.Tactic.Common

/-!
# The query of a list page in the URL

How a query over the items of a list is written as search parameters, how the router writes each
parameter into the URL and how the page reads the query back.
-/

namespace Denn.Web

open Core

/-! ### The fields of a query -/

/-- The member of a set of names that a text names. -/
def ofName {α : Type} (all : List α) (name : α → Units) (text : Units) : Option α :=
  all.find? fun a => name a = text

inductive FilterField
  | contextStatus | trackingStatus | contentType | sourceApi | addedBy
  deriving DecidableEq, Repr

namespace FilterField

def name : FilterField → Units
  | contextStatus => units "context_status"
  | trackingStatus => units "tracking_status"
  | contentType => units "content_type"
  | sourceApi => units "source_api"
  | addedBy => units "added_by"

/-- `ALLOWED_FILTERS`. -/
def all : List FilterField := [contextStatus, trackingStatus, contentType, sourceApi, addedBy]

end FilterField

inductive RangeFilterField
  | listRatingGte | listRatingLte | addedAtGte | addedAtLte | contextCompletedAtGte
  | contextCompletedAtLte | releaseDateGte | releaseDateLte
  deriving DecidableEq, Repr

namespace RangeFilterField

def name : RangeFilterField → Units
  | listRatingGte => units "list_rating_gte"
  | listRatingLte => units "list_rating_lte"
  | addedAtGte => units "added_at_gte"
  | addedAtLte => units "added_at_lte"
  | contextCompletedAtGte => units "context_completed_at_gte"
  | contextCompletedAtLte => units "context_completed_at_lte"
  | releaseDateGte => units "release_date_gte"
  | releaseDateLte => units "release_date_lte"

/-- `ALLOWED_RANGE_FILTERS`. -/
def all : List RangeFilterField :=
  [listRatingGte, listRatingLte, addedAtGte, addedAtLte, contextCompletedAtGte, contextCompletedAtLte,
    releaseDateGte, releaseDateLte]

end RangeFilterField

inductive SortField
  | listOrder | addedAt | contextCompletedAt | contextStatus | trackingStatus | contentType
  | listRating | displayTitle | artist | albumTitle | releaseDate
  deriving DecidableEq, Repr

namespace SortField

def name : SortField → Units
  | listOrder => units "list_order"
  | addedAt => units "added_at"
  | contextCompletedAt => units "context_completed_at"
  | contextStatus => units "context_status"
  | trackingStatus => units "tracking_status"
  | contentType => units "content_type"
  | listRating => units "list_rating"
  | displayTitle => units "display_title"
  | artist => units "artist"
  | albumTitle => units "album_title"
  | releaseDate => units "release_date"

/-- `ALLOWED_SORTS`. -/
def all : List SortField :=
  [listOrder, addedAt, contextCompletedAt, contextStatus, trackingStatus, contentType, listRating,
    displayTitle, artist, albumTitle, releaseDate]

end SortField

inductive GroupByField
  | contextStatus | trackingStatus | contentType | sourceApi | addedBy | artist
  deriving DecidableEq, Repr

namespace GroupByField

def name : GroupByField → Units
  | contextStatus => units "context_status"
  | trackingStatus => units "tracking_status"
  | contentType => units "content_type"
  | sourceApi => units "source_api"
  | addedBy => units "added_by"
  | artist => units "artist"

/-- `ALLOWED_GROUPS`. -/
def all : List GroupByField := [contextStatus, trackingStatus, contentType, sourceApi, addedBy, artist]

end GroupByField

inductive PageSize
  | ten | twenty | fifty
  deriving DecidableEq, Repr

namespace PageSize

def value : PageSize → ℕ
  | ten => 10
  | twenty => 20
  | fifty => 50

/-- `VALID_PAGE_SIZES`. -/
def all : List PageSize := [ten, twenty, fifty]

/-- `DEFAULT_LIST_ITEM_QUERY.pageSize`. -/
def standard : PageSize := twenty

end PageSize

inductive Direction
  | asc | desc
  deriving DecidableEq, Repr

structure SortClause where
  field : SortField
  direction : Direction
  deriving DecidableEq, Repr

/-! ### Queries -/

/-- What `String(value)` makes of a number. -/
structure NumberText where
  text : Units
  nonempty : text ≠ []
  plain : ∀ u ∈ text, u ∈ units "0123456789+-.einfINaty"

inductive FilterValue
  | text (value : Units)
  | number (value : NumberText)
  | texts (values : List Units)
  | numbers (values : List NumberText)

namespace FilterValue

/-- The texts of the values. -/
def written : FilterValue → List Units
  | text value => [value]
  | number value => [value.text]
  | texts values => values
  | numbers values => values.map NumberText.text

/-- `parts.length > 1 ? parts : parts[0]`. -/
def ofParts : List Units → Option FilterValue
  | [] => none
  | [part] => some (text part)
  | parts => some (texts parts)

end FilterValue

inductive RangeValue
  | text (value : Units)
  | number (value : NumberText)

def RangeValue.written : RangeValue → Units
  | text value => value
  | number value => value.text

/-- A field without a value is there with the value `undefined`. -/
structure ListItemQuery where
  filters : OrderedMap FilterField (Option FilterValue)
  rangeFilters : OrderedMap RangeFilterField (Option RangeValue)
  sort : List SortClause
  groupBy : Option GroupByField
  page : Whole
  pageSize : PageSize

/-! ### Writing a query -/

/-- The parameters of the URL by what they are for. -/
inductive ParamKey
  | filter (field : FilterField)
  | range (field : RangeFilterField)
  | sort | groupBy | page | pageSize
  deriving DecidableEq

def filterName (field : Units) : Units := units "filter[" ++ field ++ units "]"

def ParamKey.name : ParamKey → Units
  | filter field => filterName field.name
  | range field => filterName field.name
  | sort => units "sort"
  | groupBy => units "group_by"
  | page => units "page"
  | pageSize => units "page_size"

/-- Texts with a comma between them. -/
def joinCommas (texts : List Units) : Units := [44].intercalate texts

def SortClause.token (clause : SortClause) : Units :=
  match clause.direction with
  | .desc => 45 :: clause.field.name
  | .asc => clause.field.name

/-- A text that is written when it is not empty. -/
def nonEmpty (text : Units) : Option Units := if text = [] then none else some text

namespace ListItemQuery

def filterParams (q : ListItemQuery) : List (ParamKey × Units) :=
  q.filters.entries.filterMap fun entry =>
    (entry.2.bind fun value => nonEmpty (joinCommas value.written)).map fun text =>
      (.filter entry.1, text)

def rangeParams (q : ListItemQuery) : List (ParamKey × Units) :=
  q.rangeFilters.entries.filterMap fun entry =>
    (entry.2.bind fun value => nonEmpty value.written).map fun text => (.range entry.1, text)

def sortText (q : ListItemQuery) : Option Units :=
  if q.sort.length > 0 then some (joinCommas (q.sort.map SortClause.token)) else none

def pageText (q : ListItemQuery) : Option Units :=
  if q.page.value > 1 then some (numeral q.page.value) else none

def pageSizeText (q : ListItemQuery) : Option Units :=
  if q.pageSize ≠ PageSize.standard then some (numeral q.pageSize.value) else none

def otherParams (q : ListItemQuery) : List (ParamKey × Units) :=
  (q.sortText.map fun text => (.sort, text)).toList
    ++ (q.groupBy.map fun field => (.groupBy, field.name)).toList
    ++ (q.pageText.map fun text => (.page, text)).toList
    ++ (q.pageSizeText.map fun text => (.pageSize, text)).toList

def params (q : ListItemQuery) : List (ParamKey × Units) :=
  q.filterParams ++ q.rangeParams ++ q.otherParams

/-- Search parameters hold well-formed text only. -/
def serializeQueryToParams (q : ListItemQuery) : OrderedMap Units Units :=
  .ofList (q.params.map fun param => (param.1.name, toWellFormed false param.2))

end ListItemQuery

/-! ### The parameters in the URL -/

/-- The router writes a text that reads as JSON as a string of JSON. -/
def encodeSearchValue (text : Units) : Units := if isJson text then stringify text else text

/-- The parameters as they are read from the URL that the router has written. -/
def routed (params : OrderedMap Units Units) : OrderedMap Units Units :=
  params.mapValues fun _ text => encodeSearchValue text

/-! ### Reading a query -/

def decodeRouteSearchValue (raw : Units) : Units :=
  if 2 ≤ raw.length ∧ raw.head? = some 34 ∧ raw.getLast? = some 34 then
    (parseJsonString raw).getD raw
  else raw

def isLineTerminator (u : ℕ) : Bool := u = 0x0A || u = 0x0D || u = 0x2028 || u = 0x2029

/-- The group of `/^filter\[(.+)\]$/`. -/
def bracketed (key : Units) : Option Units :=
  let field := (key.drop 7).dropLast
  if key = filterName field ∧ field ≠ [] ∧ field.all (!isLineTerminator ·) then some field else none

/-- What a parameter contributes to the filters of a query. -/
inductive FilterEntry
  | filter (field : FilterField) (value : Option FilterValue)
  | range (field : RangeFilterField) (value : Units)

namespace FilterEntry

def filter? : FilterEntry → Option (FilterField × Option FilterValue)
  | filter field value => some (field, value)
  | range _ _ => none

def range? : FilterEntry → Option (RangeFilterField × Option RangeValue)
  | filter _ _ => none
  | range field value => some (field, some (.text value))

end FilterEntry

def parts (value : Units) : List Units := ((value.splitOn 44).map trimUnits).filter (· ≠ [])

def readParam (param : Units × Units) : Option FilterEntry :=
  let value := decodeRouteSearchValue param.2
  (bracketed param.1).bind fun field =>
    if value = [] then none
    else match ofName FilterField.all FilterField.name field with
      | some field => some (.filter field (FilterValue.ofParts (parts value)))
      | none => (ofName RangeFilterField.all RangeFilterField.name field).map fun field => .range field value

def readClause (tokenRaw : Units) : Option SortClause :=
  let token := trimUnits tokenRaw
  if token = [] then none
  else if token.head? = some 45 then
    (ofName SortField.all SortField.name token.tail).map fun field => ⟨field, .desc⟩
  else (ofName SortField.all SortField.name token).map fun field => ⟨field, .asc⟩

def parseSort (raw : Option Units) : List SortClause :=
  match raw.map decodeRouteSearchValue with
  | none => []
  | some value => if value = [] then [] else (value.splitOn 44).filterMap readClause

/-- `Number(decodeRouteSearchValue(raw))`; the number of nothing is 0. -/
def readNumber (raw : Option Units) : Option Double :=
  raw.elim (toNumber []) fun raw => toNumber (decodeRouteSearchValue raw)

def parsePage (raw : Option Units) : Whole :=
  match readNumber raw with
  | some n => if 1 ≤ n.value then n.floor else .one
  | none => .one

def parsePageSize (raw : Option Units) : PageSize :=
  ((readNumber raw).bind fun n => PageSize.all.find? fun size => (size.value : ℚ) = n.value).getD .standard

/-- The value of the first parameter with the name. -/
def getParam (params : List (Units × Units)) (name : Units) : Option Units :=
  (params.find? fun param => param.1 = name).map Prod.snd

def parseQueryFromParams (params : List (Units × Units)) : ListItemQuery where
  filters := .ofList ((params.filterMap readParam).filterMap FilterEntry.filter?)
  rangeFilters := .ofList ((params.filterMap readParam).filterMap FilterEntry.range?)
  sort := parseSort (getParam params (units "sort"))
  groupBy := ((getParam params (units "group_by")).map decodeRouteSearchValue).bind
    (ofName GroupByField.all GroupByField.name)
  page := parsePage (getParam params (units "page"))
  pageSize := parsePageSize (getParam params (units "page_size"))

/-- The query that is read from the URL in which the router has written a query. -/
def reread (q : ListItemQuery) : ListItemQuery :=
  parseQueryFromParams (routed q.serializeQueryToParams).entries

/-- Queries with the same values, but for the difference between a list of one and its element, a
    number and its text, and `undefined` and no value. -/
structure Same (q q' : ListItemQuery) : Prop where
  filters : ∀ field, (q.filters.get? field).join.map FilterValue.written
    = (q'.filters.get? field).join.map FilterValue.written
  rangeFilters : ∀ field, (q.rangeFilters.get? field).join.map RangeValue.written
    = (q'.rangeFilters.get? field).join.map RangeValue.written
  sort : q.sort = q'.sort
  groupBy : q.groupBy = q'.groupBy
  page : q.page = q'.page
  pageSize : q.pageSize = q'.pageSize

/-! ### The quotes of the router -/

/-- Every text is read from the URL as it was given to the router. -/
theorem decodeRouteSearchValue_encode (text : Units) :
    decodeRouteSearchValue (encodeSearchValue text) = text := by
  rw [encodeSearchValue]
  split_ifs with hjson
  · have hquotes : 2 ≤ (stringify text).length ∧ (stringify text).head? = some 34 ∧
        (stringify text).getLast? = some 34 := by
      refine ⟨?_, rfl, List.getLast?_concat⟩
      simp [stringify]
    rw [decodeRouteSearchValue, if_pos hquotes, parseJsonString_stringify, Option.getD_some]
  · rw [decodeRouteSearchValue]
    -- a text in quotes that reads as a string would have been quoted once more
    cases hparse : parseJsonString text with
    | none => simp
    | some value => exact absurd (isJson_of_parseJsonString hparse) hjson

/-! ### Names -/

lemma name_of_ofName {α : Type} {all : List α} {name : α → Units} {text : Units} {a : α}
    (h : ofName all name text = some a) : name a = text := by
  simpa using List.find?_some h

lemma ofName_filterField (field : FilterField) :
    ofName FilterField.all FilterField.name field.name = some field := by
  cases field <;> decide

lemma ofName_rangeFilterField (field : RangeFilterField) :
    ofName FilterField.all FilterField.name field.name = none ∧
      ofName RangeFilterField.all RangeFilterField.name field.name = some field := by
  cases field <;> decide

lemma ofName_groupByField (field : GroupByField) :
    ofName GroupByField.all GroupByField.name field.name = some field := by
  cases field <;> decide

lemma bracketed_filterField (field : FilterField) :
    bracketed (filterName field.name) = some field.name := by
  cases field <;> decide

lemma bracketed_rangeFilterField (field : RangeFilterField) :
    bracketed (filterName field.name) = some field.name := by
  cases field <;> decide

lemma eq_of_bracketed {key field : Units} (h : bracketed key = some field) : key = filterName field := by
  rw [bracketed] at h
  split_ifs at h with hkey
  rw [← Option.some.inj h]
  exact hkey.1

/-- What the name of a parameter is for. -/
def ParamKey.ofName? (name : Units) : Option ParamKey :=
  if name = units "sort" then some .sort
  else if name = units "group_by" then some .groupBy
  else if name = units "page" then some .page
  else if name = units "page_size" then some .pageSize
  else (bracketed name).bind fun field =>
    ((ofName FilterField.all FilterField.name field).map .filter).or
      ((ofName RangeFilterField.all RangeFilterField.name field).map .range)

lemma ParamKey.ofName?_name (key : ParamKey) : ofName? key.name = some key := by
  cases key with
  | filter field => cases field <;> decide
  | range field => cases field <;> decide
  | sort => decide
  | groupBy => decide
  | page => decide
  | pageSize => decide

lemma ParamKey.name_injective : Function.Injective ParamKey.name := by
  intro key key' h
  exact Option.some.inj (by rw [← ofName?_name key, h, ofName?_name])

lemma readClause_token (clause : SortClause) :
    readClause clause.token = some clause ∧ 44 ∉ clause.token ∧ clause.token.all (· < 0xD800) := by
  obtain ⟨field, direction⟩ := clause
  cases direction <;> cases field <;> decide

/-! ### What is written -/

lemma nonEmpty_eq_some {text written : Units} :
    nonEmpty text = some written ↔ text = written ∧ text ≠ [] := by
  rw [nonEmpty]
  split_ifs with hempty
  · simp [hempty]
  · simp [hempty]

namespace ListItemQuery

variable (q : ListItemQuery)

/-- The text of a parameter, where a query has one. -/
def param : ParamKey → Option Units
  | .filter field => (q.filters.get? field).join.bind fun value => nonEmpty (joinCommas value.written)
  | .range field => (q.rangeFilters.get? field).join.bind fun value => nonEmpty value.written
  | .sort => q.sortText
  | .groupBy => q.groupBy.map GroupByField.name
  | .page => q.pageText
  | .pageSize => q.pageSizeText

lemma mem_filterParams {key : ParamKey} {text : Units} :
    (key, text) ∈ q.filterParams ↔ ∃ field, key = .filter field ∧ q.param key = some text := by
  simp only [filterParams, List.mem_filterMap, Option.map_eq_some_iff, Prod.exists,
    OrderedMap.mem_entries, Prod.mk.injEq]
  constructor
  · rintro ⟨field, value, hget, written, hwritten, rfl, rfl⟩
    refine ⟨field, rfl, ?_⟩
    rw [param, hget]
    exact hwritten
  · rintro ⟨field, rfl, hparam⟩
    rw [param] at hparam
    obtain ⟨value, hvalue, hwritten⟩ := Option.bind_eq_some_iff.mp hparam
    exact ⟨field, some value, Option.join_eq_some_iff.mp hvalue, text, hwritten, rfl, rfl⟩

lemma mem_rangeParams {key : ParamKey} {text : Units} :
    (key, text) ∈ q.rangeParams ↔ ∃ field, key = .range field ∧ q.param key = some text := by
  simp only [rangeParams, List.mem_filterMap, Option.map_eq_some_iff, Prod.exists,
    OrderedMap.mem_entries, Prod.mk.injEq]
  constructor
  · rintro ⟨field, value, hget, written, hwritten, rfl, rfl⟩
    refine ⟨field, rfl, ?_⟩
    rw [param, hget]
    exact hwritten
  · rintro ⟨field, rfl, hparam⟩
    rw [param] at hparam
    obtain ⟨value, hvalue, hwritten⟩ := Option.bind_eq_some_iff.mp hparam
    exact ⟨field, some value, Option.join_eq_some_iff.mp hvalue, text, hwritten, rfl, rfl⟩

lemma mem_otherParams {key : ParamKey} {text : Units} :
    (key, text) ∈ q.otherParams ↔
      key ∈ [ParamKey.sort, .groupBy, .page, .pageSize] ∧ q.param key = some text := by
  simp only [otherParams, List.mem_append, Option.mem_toList, Option.map_eq_some_iff, Prod.mk.injEq]
  cases key <;> simp [param]

lemma mem_params {key : ParamKey} {text : Units} :
    (key, text) ∈ q.params ↔ q.param key = some text := by
  rw [params, List.mem_append, List.mem_append, mem_filterParams, mem_rangeParams, mem_otherParams]
  cases key <;> simp

/-- The parameters of a query. -/
lemma get?_serialize (key : ParamKey) :
    q.serializeQueryToParams.get? key.name = (q.param key).map (toWellFormed false) := by
  have hmem : ∀ text, (key.name, text) ∈ q.params.map (fun param =>
      (param.1.name, toWellFormed false param.2)) ↔ (q.param key).map (toWellFormed false) = some text := by
    intro text
    simp only [List.mem_map, Prod.exists, Prod.mk.injEq, mem_params, Option.map_eq_some_iff]
    constructor
    · rintro ⟨other, written, hparam, hname, rfl⟩
      rw [ParamKey.name_injective hname] at hparam
      exact ⟨written, hparam, rfl⟩
    · rintro ⟨written, hparam, rfl⟩
      exact ⟨key, written, hparam, rfl, rfl⟩
  exact OrderedMap.get?_ofList_eq hmem

/-- What the page reads of a parameter. -/
lemma get?_routed (key : ParamKey) :
    ((routed q.serializeQueryToParams).get? key.name).map decodeRouteSearchValue
      = (q.param key).map (toWellFormed false) := by
  rw [routed, OrderedMap.get?_mapValues, get?_serialize, Option.map_map]
  cases q.param key with
  | none => rfl
  | some text => exact congrArg some (decodeRouteSearchValue_encode _)

end ListItemQuery

/-! ### What is read -/

lemma getParam_entries (params : OrderedMap Units Units) (name : Units) :
    getParam params.entries name = params.get? name := by
  rw [getParam, OrderedMap.get?]
  induction params.entries with
  | nil => rfl
  | cons param entries ih =>
    rw [List.find?_cons, OrderedMap.lookup_cons]
    by_cases hname : param.1 = name
    · simp [hname]
    · rw [if_neg (Ne.symm hname), ← ih]
      simp [hname]

lemma readParam_eq_filter {name raw : Units} {field : FilterField} {value : Option FilterValue} :
    readParam (name, raw) = some (.filter field value) ↔
      name = filterName field.name ∧ decodeRouteSearchValue raw ≠ [] ∧
        value = FilterValue.ofParts (parts (decodeRouteSearchValue raw)) := by
  constructor
  · intro h
    obtain ⟨text, hbracketed, h⟩ := Option.bind_eq_some_iff.mp h
    split_ifs at h with hempty
    cases hfield : ofName FilterField.all FilterField.name text with
    | none => simp [hfield] at h
    | some found =>
      simp only [hfield, Option.some.injEq, FilterEntry.filter.injEq] at h
      obtain ⟨rfl, rfl⟩ := h
      rw [name_of_ofName hfield]
      exact ⟨eq_of_bracketed hbracketed, hempty, rfl⟩
  · rintro ⟨rfl, hne, rfl⟩
    rw [readParam]
    simp only [bracketed_filterField, Option.bind_some, if_neg hne, ofName_filterField]

lemma readParam_eq_range {name raw : Units} {field : RangeFilterField} {value : Units} :
    readParam (name, raw) = some (.range field value) ↔
      name = filterName field.name ∧ decodeRouteSearchValue raw ≠ [] ∧
        value = decodeRouteSearchValue raw := by
  constructor
  · intro h
    obtain ⟨text, hbracketed, h⟩ := Option.bind_eq_some_iff.mp h
    split_ifs at h with hempty
    cases hfield : ofName FilterField.all FilterField.name text with
    | some found => simp [hfield] at h
    | none =>
      simp only [hfield] at h
      obtain ⟨found, hfound, hvalue⟩ := Option.map_eq_some_iff.mp h
      obtain ⟨rfl, rfl⟩ := FilterEntry.range.inj hvalue
      rw [name_of_ofName hfound]
      exact ⟨eq_of_bracketed hbracketed, hempty, rfl⟩
  · rintro ⟨rfl, hne, rfl⟩
    obtain ⟨hnone, hsome⟩ := ofName_rangeFilterField field
    rw [readParam]
    simp only [bracketed_rangeFilterField, Option.bind_some, if_neg hne, hnone, hsome, Option.map_some]

lemma mem_filterEntries {params : List (Units × Units)} {field : FilterField}
    {value : Option FilterValue} :
    (field, value) ∈ (params.filterMap readParam).filterMap FilterEntry.filter? ↔
      ∃ raw, (filterName field.name, raw) ∈ params ∧ decodeRouteSearchValue raw ≠ [] ∧
        value = FilterValue.ofParts (parts (decodeRouteSearchValue raw)) := by
  simp only [List.mem_filterMap, Prod.exists]
  constructor
  · rintro ⟨entry, ⟨name, raw, hmem, hread⟩, hentry⟩
    cases entry with
    | range _ _ => exact absurd hentry (by simp [FilterEntry.filter?])
    | filter found read =>
      obtain ⟨rfl, rfl⟩ := Prod.mk.inj (Option.some.inj hentry)
      obtain ⟨rfl, hne, hvalue⟩ := readParam_eq_filter.mp hread
      exact ⟨raw, hmem, hne, hvalue⟩
  · rintro ⟨raw, hmem, hne, hvalue⟩
    exact ⟨.filter field value, ⟨_, raw, hmem, readParam_eq_filter.mpr ⟨rfl, hne, hvalue⟩⟩, rfl⟩

lemma mem_rangeEntries {params : List (Units × Units)} {field : RangeFilterField}
    {value : Option RangeValue} :
    (field, value) ∈ (params.filterMap readParam).filterMap FilterEntry.range? ↔
      ∃ raw, (filterName field.name, raw) ∈ params ∧ decodeRouteSearchValue raw ≠ [] ∧
        value = some (.text (decodeRouteSearchValue raw)) := by
  simp only [List.mem_filterMap, Prod.exists]
  constructor
  · rintro ⟨entry, ⟨name, raw, hmem, hread⟩, hentry⟩
    cases entry with
    | filter _ _ => exact absurd hentry (by simp [FilterEntry.range?])
    | range found read =>
      obtain ⟨rfl, rfl⟩ := Prod.mk.inj (Option.some.inj hentry)
      obtain ⟨rfl, hne, rfl⟩ := readParam_eq_range.mp hread
      exact ⟨raw, hmem, hne, rfl⟩
  · rintro ⟨raw, hmem, hne, rfl⟩
    exact ⟨.range field _, ⟨_, raw, hmem, readParam_eq_range.mpr ⟨rfl, hne, rfl⟩⟩, rfl⟩

/-- The text of a filter, as it is read from parameters of different names. -/
def readText (params : OrderedMap Units Units) (name : Units) : Option Units :=
  ((params.get? name).map decodeRouteSearchValue).bind nonEmpty

lemma readText_eq_some {params : OrderedMap Units Units} {name text : Units} :
    readText params name = some text ↔
      ∃ raw, (name, raw) ∈ params.entries ∧ decodeRouteSearchValue raw ≠ [] ∧
        text = decodeRouteSearchValue raw := by
  simp only [readText, Option.bind_eq_some_iff, Option.map_eq_some_iff, nonEmpty_eq_some,
    OrderedMap.mem_entries]
  constructor
  · rintro ⟨_, ⟨raw, hget, rfl⟩, rfl, hne⟩
    exact ⟨raw, hget, hne, rfl⟩
  · rintro ⟨raw, hget, hne, rfl⟩
    exact ⟨_, ⟨raw, hget, rfl⟩, rfl, hne⟩

lemma get?_filters (params : OrderedMap Units Units) (field : FilterField) :
    (parseQueryFromParams params.entries).filters.get? field =
      (readText params (filterName field.name)).map fun text => FilterValue.ofParts (parts text) := by
  have hmem : ∀ value, (field, value) ∈
      (params.entries.filterMap readParam).filterMap FilterEntry.filter? ↔
      (readText params (filterName field.name)).map (fun text => FilterValue.ofParts (parts text))
        = some value := by
    intro value
    rw [mem_filterEntries, Option.map_eq_some_iff]
    simp only [readText_eq_some]
    constructor
    · rintro ⟨raw, hraw, hne, rfl⟩
      exact ⟨_, ⟨raw, hraw, hne, rfl⟩, rfl⟩
    · rintro ⟨_, ⟨raw, hraw, hne, rfl⟩, rfl⟩
      exact ⟨raw, hraw, hne, rfl⟩
  exact OrderedMap.get?_ofList_eq hmem

lemma get?_rangeFilters (params : OrderedMap Units Units) (field : RangeFilterField) :
    (parseQueryFromParams params.entries).rangeFilters.get? field =
      (readText params (filterName field.name)).map fun text => some (.text text) := by
  have hmem : ∀ value, (field, value) ∈
      (params.entries.filterMap readParam).filterMap FilterEntry.range? ↔
      (readText params (filterName field.name)).map (fun text => some (RangeValue.text text))
        = some value := by
    intro value
    rw [mem_rangeEntries, Option.map_eq_some_iff]
    simp only [readText_eq_some]
    constructor
    · rintro ⟨raw, hraw, hne, rfl⟩
      exact ⟨_, ⟨raw, hraw, hne, rfl⟩, rfl⟩
    · rintro ⟨_, ⟨raw, hraw, hne, rfl⟩, rfl⟩
      exact ⟨raw, hraw, hne, rfl⟩
  exact OrderedMap.get?_ofList_eq hmem

end Denn.Web
