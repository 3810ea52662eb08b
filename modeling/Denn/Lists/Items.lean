import Denn.Core.Rounding
import Denn.Lists.System
import Denn.Rating.Cache

/-!
# The items of a list, as served

The queryset behind the list-items endpoint and the rating fields of its serializer. The ratings
that a list shows come from a prefetch, their mean and their count from annotations.
-/

namespace Denn.Lists

open Core

abbrev ListItemId := ℕ

/-- `ListItem.Status`. -/
inductive ContextStatus where
  | pending
  | completed
  deriving DecidableEq, Repr

/-- A `list_items` row; its primary key is the key it is stored under. -/
structure ListItem where
  userList : ListId
  contentItem : ItemId
  contextStatus : Option ContextStatus := none
  listOrder : ℤ
  deriving DecidableEq, Repr

/-- The tables that the endpoint reads. -/
structure ListDatabase where
  lists : ListState
  items : Table ListItemId ListItem
  tracking : Table (UserId × ItemId) Tracking
  ratings : Ratings

/-- A rating with its user. -/
structure UserRating where
  user : UserId
  rating : Rating
  deriving DecidableEq, Repr

/-- The mean of the scores, as `Avg` computes it. -/
def average (scores : List ℚ) : Option ℚ :=
  if scores = [] then none else some (scores.sum / scores.length)

/-- The active ratings of an item by the users with `p`. -/
def activeRatings (ratings : Ratings) (item : ItemId) (p : UserId → Bool) : List UserRating :=
  (ratings.rows.filter fun row => row.1.2 = item && row.2.isActive && p row.1.1).map fun row =>
    ⟨row.1.1, row.2⟩

/-- A list item as it reaches the serializer. An attribute that a queryset may or may not have set
    is optional. -/
structure LoadedItem where
  id : ListItemId
  row : ListItem
  list : LoadedList
  personalTrackingStatus : Option TrackingStatus := none
  memberRatingsPrefetched : Option (List UserRating) := none
  memberRatingAvgAnnotated : Option (Option ℚ) := none
  memberRatingCountAnnotated : Option ℕ := none

/-! ### The queryset -/

/-- `annotate_items_with_ratings`. -/
def annotateWithRatings (ratings : Ratings) (memberIds : List UserId) (item : LoadedItem) :
    LoadedItem :=
  let rated := activeRatings ratings item.row.contentItem fun user => user ∈ memberIds
  { item with
    memberRatingAvgAnnotated := some (average (rated.map (·.rating.score)))
    memberRatingCountAnnotated := some rated.length }

namespace ListDatabase

variable (db : ListDatabase)

/-- One item of `ListItemViewSet.get_queryset`: the ratings of the members and of the owner are
    prefetched, the tracking status of the requesting user and the statistics are annotated. -/
def loadItem (user : UserId) (id : ListItemId) (row : ListItem) (list : UserList) : LoadedItem :=
  annotateWithRatings db.ratings (effectiveMemberIds db.lists row.userList)
    { id, row
      list :=
        { id := row.userList, row := list
          prefetchedObjectsCache := some (membershipsOf row.userList db.lists.memberships) }
      personalTrackingStatus := (db.tracking.get? (user, row.contentItem)).map (·.status)
      memberRatingsPrefetched := some (activeRatings db.ratings row.contentItem fun rater =>
        rater ∈ memberIdsSubquery db.lists row.userList || rater = list.owner) }

/-- `ListItemViewSet.get_queryset`, in list order. -/
def getQueryset (user : UserId) (listPk : ListId) : List LoadedItem :=
  ((db.items.rows.filter fun row => row.2.userList = listPk).filterMap fun row =>
    (db.lists.lists.get? row.2.userList).map fun list =>
      db.loadItem user row.1 row.2 list).insertionSort fun a b => a.row.listOrder ≤ b.row.listOrder

/-! ### The serializer -/

/-- An entry of `member_ratings`. -/
structure MemberRating where
  user : UserId
  score : ℚ
  comment : Option String
  isOwner : Bool
  deriving DecidableEq, Repr

def serializeRating (list : UserList) (rating : UserRating) : MemberRating where
  user := rating.user
  score := rating.rating.score
  comment := rating.rating.comment
  isOwner := rating.user = list.owner

/-- `_ratings_are_visible`. -/
def ratingsAreVisible (item : LoadedItem) : Bool :=
  if item.list.row.listType = .shared then item.row.contextStatus = some .completed
  else item.personalTrackingStatus = some .completed

def getMemberRatings (item : LoadedItem) : List MemberRating :=
  if !ratingsAreVisible item then []
  else
    match item.memberRatingsPrefetched with
    | some ratings => ratings.map (serializeRating item.list.row)
    | none =>
      (activeRatings db.ratings item.row.contentItem fun user =>
        user ∈ getMemberIds db.lists item.list).map (serializeRating item.list.row)

/-- The sum of the scores in double precision. -/
def floatSum (ratings : List UserRating) : ℚ :=
  ratings.foldl (fun total r => toBinary64 (total + toBinary64 r.rating.score)) 0

def getListRating (item : LoadedItem) : Option ℚ :=
  if !ratingsAreVisible item then none
  else
    match item.memberRatingAvgAnnotated, item.memberRatingsPrefetched with
    | some avg, _ => avg.map roundOneDecimal
    | none, some [] => none
    | none, some ratings => some (roundOneDecimal (floatSum ratings / ratings.length))
    | none, none => none

def getMemberRatingCount (item : LoadedItem) : ℕ :=
  if !ratingsAreVisible item then 0
  else
    match item.memberRatingCountAnnotated, item.memberRatingsPrefetched with
    | some count, _ => count
    | none, some ratings => ratings.length
    | none, none => 0

/-- The rating fields of a served item. -/
structure ItemPayload where
  id : ListItemId
  memberRatings : List MemberRating
  listRating : Option ℚ
  memberRatingCount : ℕ
  deriving DecidableEq, Repr

def serialize (item : LoadedItem) : ItemPayload where
  id := item.id
  memberRatings := db.getMemberRatings item
  listRating := getListRating item
  memberRatingCount := getMemberRatingCount item

/-- `ListItemViewSet.list`. The query parameters choose, order and cut the items, and change none
    of their fields. -/
def listItems (user : Requester) (listPk : ListId) : Except ListError (List ItemPayload) :=
  (db.lists.authorize user listPk .view).map fun user =>
    (db.getQueryset user listPk).map db.serialize

end ListDatabase

end Denn.Lists
