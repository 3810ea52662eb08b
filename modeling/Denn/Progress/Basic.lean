import Denn.Core.Table
import Denn.Core.Text
import Denn.Content.Item
import Mathlib.Algebra.Order.Field.Rat

/-!
# Personal progress: rows and policy

The rows one user owns: tracking rows and ratings, at most one of each per content item, the
public-profile banner, and the system lists that mirror tracking. Every service call locks the
user first, so the state of one user is what a call reads and writes.
-/

namespace Denn

open Core

/-! ### Progress policy -/

inductive TrackingStatus where
  | backlog
  | inProgress
  | completed
  | onHold
  | dropped
  deriving DecidableEq, Repr

def supportedStates : ContentType → List TrackingStatus
  | .movie  => [.backlog, .inProgress, .dropped, .completed]
  | .tvShow => [.backlog, .inProgress, .onHold, .dropped, .completed]
  | .season => [.backlog, .inProgress, .onHold, .dropped, .completed]
  | .book   => [.backlog, .inProgress, .onHold, .dropped, .completed]
  | .game   => [.backlog, .inProgress, .onHold, .dropped, .completed]
  | .album  => [.backlog, .inProgress, .completed]

def isStatusSupported (contentType : ContentType) (status : TrackingStatus) : Bool :=
  status ∈ supportedStates contentType

/-! ### Rows -/

/-- A `user_content_tracking` row. -/
structure Tracking where
  status : TrackingStatus
  lastCompletedAt : Option Time := none
  isFavorite : Bool := false
  favoritedAt : Option Time := none
  deriving DecidableEq, Repr

/-- A `ratings` row. -/
structure Rating where
  score : ℚ
  comment : Option String
  spoiler : Bool
  isActive : Bool
  deriving DecidableEq, Repr

/-- The banner columns of the public-profile row. -/
structure BannerSelection where
  bannerContentItem : Option ItemId := none
  bannerImage : Option ImageId := none
  deriving DecidableEq, Repr

inductive CollectionKey where
  | backlog
  | inProgress
  | onHold
  | dropped
  | completed
  | movies
  | series
  | games
  | albums
  | books
  deriving DecidableEq, Repr

/-- A `list_items` row of a dynamic list; the content item is the key it is stored under. -/
structure ListItem where
  id : ℕ
  listOrder : ℤ
  deriving DecidableEq, Repr

/-- The dynamic lists of a user. `nextId` is the primary key the next list item will get. -/
structure DynamicLists where
  lists : Table CollectionKey (Table ItemId ListItem)
  nextId : ℕ

/-- Everything the personal-progress service reads and writes for one user. -/
structure UserProgress where
  tracking : Table ItemId Tracking
  ratings : Table ItemId Rating
  profile : Option BannerSelection
  dynamicLists : DynamicLists

/-- A user without rows. -/
def UserProgress.empty : UserProgress where
  tracking := .empty
  ratings := .empty
  profile := none
  dynamicLists := ⟨.empty, 0⟩

/-- What the calls look up outside the user's rows: the content type of an item, and the item
    that an image belongs to. -/
structure Catalog where
  contentType : ItemId → ContentType
  imageItem : ImageId → Option ItemId

/-- The comment has text once stripped, so the rating is a review. -/
def Rating.isReview (rating : Rating) : Bool :=
  strip (rating.comment.getD "") ≠ ""

end Denn
