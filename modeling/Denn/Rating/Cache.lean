import Denn.Core.Transition
import Denn.Progress.Tracking
import Mathlib.Data.Rat.Floor

/-!
# The cached rating statistics of an item

Every save or deletion of a rating fires a signal that recomputes `rating_count` and
`average_rating` of the item in one `UPDATE`. Raters are separate `READ COMMITTED` transactions:
each writes its own rating row, starts the `UPDATE`, whose sub-selects see what is committed at
that moment and the transaction's own row, waits for the lock on the item row, and commits. A
transaction holds the lock on its user from the start, so a user has at most one.
-/

namespace Denn

open Core

/-! ### Aggregates -/

/-- The cached columns of an item row. -/
structure ItemCache where
  ratingCount : ℕ := 0
  averageRating : Option ℚ := none
  deriving DecidableEq, Repr

abbrev Ratings := Table (UserId × ItemId) Rating

/-- A number as a `numeric(4, 2)` column stores it: two decimals, ties away from zero. -/
def roundCents (x : ℚ) : ℚ :=
  if x < 0 then -(⌊-x * 100 + 1 / 2⌋ : ℚ) / 100 else (⌊x * 100 + 1 / 2⌋ : ℚ) / 100

/-- The scores of the active ratings of an item. -/
def activeScores (item : ItemId) (ratings : Ratings) : List ℚ :=
  ((ratings.rows.filter fun row => row.1.2 = item).filter fun row => row.2.isActive).map
    fun row => row.2.score

/-- The count and the mean of the active ratings, as the sub-selects of the signal compute them.
    There is no mean without ratings. -/
def ratingStatistics (item : ItemId) (ratings : Ratings) : ItemCache :=
  let scores := activeScores item ratings
  { ratingCount := scores.length
    averageRating :=
      if scores = [] then none else some (roundCents (scores.sum / scores.length)) }

/-- The statistics of an item depend on its own ratings only. -/
lemma ratingStatistics_congr {item : ItemId} {ratings ratings' : Ratings}
    (h : ∀ user, ratings.get? (user, item) = ratings'.get? (user, item)) :
    ratingStatistics item ratings = ratingStatistics item ratings' := by
  have hkeys : ∀ key : UserId × ItemId, decide (key.2 = item) = true →
      ratings.get? key = ratings'.get? key := by
    rintro ⟨user, i⟩ hi
    rw [decide_eq_true_eq] at hi
    subst hi
    exact h user
  have hscores : (activeScores item ratings).Perm (activeScores item ratings') :=
    ((Table.rows_filter_perm _ hkeys).filter _).map _
  have hempty : activeScores item ratings = [] ↔ activeScores item ratings' = [] := by
    rw [← List.length_eq_zero_iff, hscores.length_eq, List.length_eq_zero_iff]
  simp only [ratingStatistics, hscores.length_eq, hscores.sum_eq, hempty]

/-! ### Transactions -/

/-- What a transaction does to its user's rating row. -/
inductive RatingWrite where
  | save (score : ℚ) (comment : Option String) (spoiler : Bool)
  | archive
  | reactivate
  | delete

/-- The row after a write, if the write is made on the row at all. -/
def RatingWrite.apply (old : Option Rating) : RatingWrite → Option (Option Rating)
  | .save score comment spoiler => some (some (savedRating score comment spoiler))
  | .archive => (old.filter (·.isActive)).map fun rating => some rating.archive
  | .reactivate => (old.filter (!·.isActive)).map fun rating => some rating.reactivate
  | .delete => old.map fun _ => none

/-- How far a transaction is. The statistics are computed when the `UPDATE` starts. -/
inductive RatingPhase where
  | wrote
  | waiting (cache : ItemCache)
  | updated (cache : ItemCache)

structure RatingTransaction where
  item : ItemId
  row : Option Rating
  phase : RatingPhase

/-- The statistics of an `UPDATE` that has started. -/
def RatingTransaction.pending (txn : RatingTransaction) : Option ItemCache :=
  match txn.phase with
  | .wrote => none
  | .waiting cache => some cache
  | .updated cache => some cache

def RatingTransaction.holdsLock (txn : RatingTransaction) : Bool :=
  match txn.phase with
  | .updated _ => true
  | _ => false

/-- The committed ratings and item rows, and the open transactions by user. -/
structure RatingStore where
  ratings : Ratings
  items : Table ItemId ItemCache
  transactions : Table UserId RatingTransaction

/-- The ratings as a transaction sees them: what is committed, with its own row in place. -/
def RatingTransaction.view (txn : RatingTransaction) (user : UserId) (ratings : Ratings) :
    Ratings :=
  match txn.row with
  | some rating => ratings.set (user, txn.item) rating
  | none => ratings.delete (user, txn.item)

inductive RatingEvent where
  | write (user : UserId) (item : ItemId) (write : RatingWrite)
  | startUpdate (user : UserId)
  | lockItem (user : UserId)
  | commit (user : UserId)
  | rollback (user : UserId)

/-- One step of one transaction. -/
def RatingStore.step (s : RatingStore) : RatingEvent → Option RatingStore
  | .write user item write =>
    if (s.transactions.get? user).isNone ∧ (s.items.get? item).isSome then
      (write.apply (s.ratings.get? (user, item))).map fun row =>
        { s with transactions := s.transactions.set user ⟨item, row, .wrote⟩ }
    else none
  | .startUpdate user =>
    match s.transactions.get? user with
    | some txn =>
      match txn.phase with
      | .wrote =>
        let cache := ratingStatistics txn.item (txn.view user s.ratings)
        some { s with
          transactions := s.transactions.set user { txn with phase := .waiting cache } }
      | _ => none
    | none => none
  | .lockItem user =>
    match s.transactions.get? user with
    | some txn =>
      match txn.phase with
      | .waiting cache =>
        if s.transactions.any fun _ other => other.item = txn.item && other.holdsLock then none
        else some { s with
          transactions := s.transactions.set user { txn with phase := .updated cache } }
      | _ => none
    | none => none
  | .commit user =>
    match s.transactions.get? user with
    | some txn =>
      match txn.phase with
      | .updated cache =>
        some
          { ratings := txn.view user s.ratings
            items := s.items.set txn.item cache
            transactions := s.transactions.delete user }
      | _ => none
    | none => none
  | .rollback user =>
    (s.transactions.get? user).map fun _ =>
      { s with transactions := s.transactions.delete user }

/-- Items without ratings, cached as such, and no transaction open. -/
def RatingStore.isInitial (s : RatingStore) : Prop :=
  (∀ key, s.ratings.get? key = none) ∧
  (∀ item cache, s.items.get? item = some cache → cache = {}) ∧
  ∀ user, s.transactions.get? user = none

def ratingSystem : TransitionSystem RatingStore RatingEvent where
  initial := RatingStore.isInitial
  step := RatingStore.step

/-- The cached columns of every item row are the statistics of its committed ratings. -/
def RatingStore.CacheCorrect (s : RatingStore) : Prop :=
  ∀ item cache, s.items.get? item = some cache → cache = ratingStatistics item s.ratings

end Denn
