import Denn.Core.Integer
import Denn.Core.OrderBy
import Denn.Lists.Order
import Mathlib.Data.Sum.Order

/-!
# Exploring the items of a list

The query parameters of the list endpoint: filters, a sort with several keys and a grouping. The
database compares texts by its collation and puts nulls behind all values.
-/

namespace Denn.Lists

open Core

/-! ### Rows -/

/-- A `content_item_browse_metadata` row. -/
structure BrowseMeta where
  displayTitle : String
  artist : String
  albumTitle : String
  releaseDate : Option Time
  deriving DecidableEq, Repr

structure Content where
  contentType : ContentType
  sourceApi : SourceAPI
  browseMeta : Option BrowseMeta
  deriving DecidableEq, Repr

/-- The columns of an item that tell who added it, and when. -/
structure Addition where
  addedBy : UserId
  addedAt : Time
  contextCompletedAt : Option Time
  deriving DecidableEq, Repr

/-- The tables that an exploration reads. -/
structure ExploreDatabase extends ListDatabase where
  additions : ListItemId → Addition
  contents : ItemId → Content

/-- A rating of the content of an item, and whether the averages of the list count it. -/
structure JoinedRating where
  score : ℚ
  isCounted : Bool
  deriving DecidableEq, Repr

/-- A row of the queryset with what is joined to it. -/
structure ExploredItem where
  id : ListItemId
  row : ListItem
  addition : Addition
  content : Content
  personalTrackingStatus : Option TrackingStatus
  ratings : List JoinedRating
  deriving DecidableEq, Repr

def countedScores (ratings : List JoinedRating) : List ℚ :=
  (ratings.filter (·.isCounted)).map (·.score)

/-- `member_rating_avg_annotated`. -/
def ExploredItem.memberRatingAvg (item : ExploredItem) : Option ℚ :=
  average (countedScores item.ratings)

namespace ExploreDatabase

variable (db : ExploreDatabase)

/-- The ratings that an item is joined with, of all users. -/
def joinedRatings (row : ListItem) : List JoinedRating :=
  (db.ratings.rows.filter fun rating => rating.1.2 = row.contentItem).map fun rating =>
    { score := rating.2.score
      isCounted := rating.2.isActive && rating.1.1 ∈ effectiveMemberIds db.lists row.userList }

def exploreItem (user : UserId) (id : ListItemId) (row : ListItem) : ExploredItem where
  id := id
  row := row
  addition := db.additions id
  content := db.contents row.contentItem
  personalTrackingStatus := (db.tracking.get? (user, row.contentItem)).map (·.status)
  ratings := db.joinedRatings row

/-- The rows of `get_queryset`. -/
def exploredItems (user : UserId) (listPk : ListId) : List ExploredItem :=
  (db.items.rows.filter fun row => row.2.userList = listPk).map fun row =>
    db.exploreItem user row.1 row.2

end ExploreDatabase

/-! ### Columns -/

def ContextStatus.value : ContextStatus → String
  | pending => "PENDING"
  | completed => "COMPLETED"

def trackingStatusValue : TrackingStatus → String
  | .backlog => "backlog"
  | .inProgress => "in_progress"
  | .completed => "completed"
  | .onHold => "on_hold"
  | .dropped => "dropped"

/-- What the database compares: numbers and instants, collated texts, and nulls behind them. -/
abbrev Value (κ : Type*) := WithTop (ℚ ⊕ₗ κ)

/-- The fields of `ALLOWED_SORTS`. -/
inductive SortField where
  | listOrder
  | addedAt
  | contextCompletedAt
  | contextStatus
  | trackingStatus
  | contentType
  | listRating
  | displayTitle
  | artist
  | albumTitle
  | releaseDate
  deriving DecidableEq, Repr

def SortField.ofName : String → Option SortField
  | "list_order" => some listOrder
  | "added_at" => some addedAt
  | "context_completed_at" => some contextCompletedAt
  | "context_status" => some contextStatus
  | "tracking_status" => some trackingStatus
  | "content_type" => some contentType
  | "list_rating" => some listRating
  | "display_title" => some displayTitle
  | "artist" => some artist
  | "album_title" => some albumTitle
  | "release_date" => some releaseDate
  | _ => none

/-- The fields of `ALLOWED_GROUPS`. -/
inductive GroupField where
  | contextStatus
  | trackingStatus
  | contentType
  | sourceApi
  | addedBy
  | artist
  deriving DecidableEq, Repr

def GroupField.ofName : String → Option GroupField
  | "context_status" => some contextStatus
  | "tracking_status" => some trackingStatus
  | "content_type" => some contentType
  | "source_api" => some sourceApi
  | "added_by" => some addedBy
  | "artist" => some artist
  | _ => none

/-- A value of the column that groups are made of: a text or, for users, their number. -/
abbrev GroupValue := Option (String ⊕ UserId)

def GroupField.groupValue (field : GroupField) (item : ExploredItem) : GroupValue :=
  match field with
  | contextStatus => item.row.contextStatus.map fun status => .inl status.value
  | trackingStatus => item.personalTrackingStatus.map fun status => .inl (trackingStatusValue status)
  | contentType => some (.inl item.content.contentType.value)
  | sourceApi => some (.inl item.content.sourceApi.value)
  | addedBy => some (.inr item.addition.addedBy)
  | artist => item.content.browseMeta.map fun browseMeta => .inl browseMeta.artist

section Columns

variable {κ : Type*} (collate : String ↪ κ)

def number (q : ℚ) : Value κ := ((toLex (Sum.inl q) : ℚ ⊕ₗ κ) : WithTop (ℚ ⊕ₗ κ))

def text (s : String) : Value κ := ((toLex (Sum.inr (collate s)) : ℚ ⊕ₗ κ) : WithTop (ℚ ⊕ₗ κ))

/-- An instant. -/
def instant (time : Time) : Value κ := number time

def nullable {β : Type*} (value : β → Value κ) : Option β → Value κ
  | none => ⊤
  | some b => value b

def SortField.column (field : SortField) (item : ExploredItem) : Value κ :=
  match field with
  | listOrder => number item.row.listOrder
  | addedAt => instant item.addition.addedAt
  | contextCompletedAt => nullable instant item.addition.contextCompletedAt
  | contextStatus => nullable (fun status => text collate status.value) item.row.contextStatus
  | trackingStatus =>
    nullable (fun status => text collate (trackingStatusValue status)) item.personalTrackingStatus
  | contentType => text collate item.content.contentType.value
  | listRating => nullable number item.memberRatingAvg
  | displayTitle =>
    nullable (fun browseMeta => text collate browseMeta.displayTitle) item.content.browseMeta
  | artist => nullable (fun browseMeta => text collate browseMeta.artist) item.content.browseMeta
  | albumTitle =>
    nullable (fun browseMeta => text collate browseMeta.albumTitle) item.content.browseMeta
  | releaseDate => nullable instant (item.content.browseMeta.bind (·.releaseDate))

def GroupField.column (field : GroupField) (item : ExploredItem) : Value κ :=
  nullable (Sum.elim (text collate) fun user : UserId => number user) (field.groupValue item)

end Columns

/-! ### Queries -/

structure SortClause where
  field : SortField
  descending : Bool := false
  deriving DecidableEq, Repr

/-- The fields of `ALLOWED_FILTERS`. -/
inductive FilterField where
  | contextStatus
  | trackingStatus
  | contentType
  | sourceApi
  | addedBy
  deriving DecidableEq, Repr

def FilterField.ofName : String → Option FilterField
  | "context_status" => some contextStatus
  | "tracking_status" => some trackingStatus
  | "content_type" => some contentType
  | "source_api" => some sourceApi
  | "added_by" => some addedBy
  | _ => none

/-- An equality with one of some values. -/
structure Filter where
  field : FilterField
  values : List String
  deriving DecidableEq, Repr

/-- The columns of `RANGE_FILTERS`. -/
inductive RangeColumn where
  | listRating
  | addedAt
  | contextCompletedAt
  | releaseDate
  deriving DecidableEq, Repr

/-- The column of a range filter, and whether the value bounds it from above. -/
def rangeColumn : String → Option (RangeColumn × Bool)
  | "list_rating_gte" => some (.listRating, false)
  | "list_rating_lte" => some (.listRating, true)
  | "added_at_gte" => some (.addedAt, false)
  | "added_at_lte" => some (.addedAt, true)
  | "context_completed_at_gte" => some (.contextCompletedAt, false)
  | "context_completed_at_lte" => some (.contextCompletedAt, true)
  | "release_date_gte" => some (.releaseDate, false)
  | "release_date_lte" => some (.releaseDate, true)
  | _ => none

structure RangeFilter where
  column : RangeColumn
  isUpper : Bool
  bound : ℚ
  deriving DecidableEq, Repr

structure ListItemQuery where
  filters : List Filter := []
  rangeFilters : List RangeFilter := []
  sort : List SortClause := []
  groupBy : Option GroupField := none
  deriving DecidableEq, Repr

/-- What a query fails with: the error that the endpoints answer with 400, or an exception of the
    values that the filters are compared with. -/
inductive QueryError where
  | parseError
  | valueError
  deriving DecidableEq, Repr

/-- How the values of the range filters are read: `float`, and the date fields of the framework. -/
structure Readers where
  float : String → Option ℚ
  datetime : String → Option Time
  date : String → Option Time

/-- The fields between commas, stripped, without the blank ones. -/
def csv (s : String) : List String :=
  ((s.toList.splitOn ',').map fun part => strip (String.ofList part)).filter fun part => part ≠ ""

/-- The name in `filter[name]`. -/
def filterName (key : String) : Option String :=
  if "filter[".toList.isPrefixOf key.toList && "]".toList.isSuffixOf key.toList then
    some (String.ofList (key.toList.drop 7).dropLast)
  else none

def readBound (readers : Readers) : RangeColumn → String → Except QueryError ℚ
  | .listRating, value => (readers.float value).elim (.error .parseError) .ok
  | .releaseDate, value => (readers.date value).elim (.error .valueError) fun time => .ok time
  | _, value => (readers.datetime value).elim (.error .valueError) fun time => .ok time

/-- One query parameter. -/
def addParameter (readers : Readers) (query : ListItemQuery) (parameter : String × String) :
    Except QueryError ListItemQuery :=
  match filterName parameter.1 with
  | none => .ok query
  | some name =>
    if parameter.2 = "" then .ok query
    else
      match FilterField.ofName name, rangeColumn name with
      | some field, _ =>
        if csv parameter.2 = [] then .ok query
        else if field = .addedBy ∧ (csv parameter.2).any fun value => (readInt value).isNone then
          .error .valueError
        else .ok { query with filters := query.filters ++ [⟨field, csv parameter.2⟩] }
      | none, some (column, isUpper) =>
        (readBound readers column parameter.2).map fun bound =>
          { query with rangeFilters := query.rangeFilters ++ [⟨column, isUpper, bound⟩] }
      | none, none => .error .parseError

def parseClause (token : String) : Except QueryError SortClause :=
  match token.toList with
  | '-' :: rest =>
    (SortField.ofName (String.ofList rest)).elim (.error .parseError) fun field => .ok ⟨field, true⟩
  | _ => (SortField.ofName token).elim (.error .parseError) fun field => .ok ⟨field, false⟩

def parseSort (sort : String) : Except QueryError (List SortClause) :=
  (csv (strip sort)).mapM parseClause

def parseGroup (group : String) : Except QueryError (Option GroupField) :=
  if strip group = "" then .ok none
  else (GroupField.ofName (strip group)).elim (.error .parseError) fun field => .ok (some field)

/-- `parse_list_item_query`. -/
def parseListItemQuery (readers : Readers) (params : List (String × String)) :
    Except QueryError ListItemQuery := do
  let query ← params.foldlM (addParameter readers) {}
  let sort ← parseSort ((params.lookup "sort").getD "")
  let groupBy ← parseGroup ((params.lookup "group_by").getD "")
  return { query with sort, groupBy }

/-! ### Applying a query -/

def FilterField.text (field : FilterField) (item : ExploredItem) : Option String :=
  match field with
  | contextStatus => item.row.contextStatus.map ContextStatus.value
  | trackingStatus => item.personalTrackingStatus.map trackingStatusValue
  | contentType => some item.content.contentType.value
  | sourceApi => some item.content.sourceApi.value
  | addedBy => none

def Filter.admits (filter : Filter) (item : ExploredItem) : Bool :=
  filter.values.any fun value =>
    if filter.field = .addedBy then readInt value = some (item.addition.addedBy : ℤ)
    else filter.field.text item = some value

/-- A comparison with null is not true. -/
def RangeFilter.admitsValue (filter : RangeFilter) (value : Option ℚ) : Bool :=
  value.any fun q => if filter.isUpper then q ≤ filter.bound else filter.bound ≤ q

def RangeColumn.value (column : RangeColumn) (item : ExploredItem) : Option ℚ :=
  match column with
  | listRating => item.memberRatingAvg
  | addedAt => some item.addition.addedAt
  | contextCompletedAt => item.addition.contextCompletedAt.map fun time => (time : ℚ)
  | releaseDate =>
    (item.content.browseMeta.bind (·.releaseDate)).map fun time => (time : ℚ)

namespace ListItemQuery

variable (query : ListItemQuery)

/-- The filters on columns of single rows. -/
def admitsRow (item : ExploredItem) : Bool :=
  (query.filters.all fun filter => filter.admits item) &&
    query.rangeFilters.all fun filter =>
      filter.column = .listRating || filter.admitsValue (filter.column.value item)

/-- The filters on the average of the ratings, which the database compares after grouping. -/
def admitsAverage (average : Option ℚ) : Bool :=
  query.rangeFilters.all fun filter => filter.column ≠ .listRating || filter.admitsValue average

def admits (item : ExploredItem) : Bool :=
  query.admitsRow item && query.admitsAverage item.memberRatingAvg

variable {κ : Type*} (collate : String ↪ κ)

/-- The canonical order, which breaks the ties of every other one. -/
def tieBreakers : List (Clause ExploredItem (Value κ)) :=
  [⟨SortField.listOrder.column collate, false⟩, ⟨SortField.addedAt.column collate, true⟩]

/-- The columns that the queryset is ordered by. -/
def clauses : List (Clause ExploredItem (Value κ)) :=
  if query.sort ≠ [] then
    query.sort.map (fun clause => ⟨clause.field.column collate, clause.descending⟩)
      ++ tieBreakers collate
  else
    match query.groupBy with
    | some field => ⟨field.column collate, false⟩ :: tieBreakers collate
    | none => tieBreakers collate

/-- `apply_query`. -/
def applyQuery [LinearOrder κ] (items : List ExploredItem) : List ExploredItem :=
  orderBy (query.clauses collate) (items.filter query.admits)

end ListItemQuery

end Denn.Lists
