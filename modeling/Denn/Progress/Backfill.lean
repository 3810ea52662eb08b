import Denn.Lists.Items
import Mathlib.Data.Finset.Sort

/-!
# The progress backfill

`backfill_public_profiles_tracking` creates missing profiles, links seasons to their shows, and
seeds tracking rows from ratings and from personal lists, whose context it then clears. The
diagnostic entries of its report are left out.
-/

namespace Denn.Backfill

open Core Lists

/-! ### Rows -/

/-- A `user_public_profiles` row. -/
structure PublicProfile where
  bio : String := ""
  avatarUrl : String := ""
  banner : BannerSelection := {}
  createdAt : Time
  updatedAt : Time
  deriving DecidableEq, Repr

/-- The columns of `unique_external_content`. -/
structure ContentItem where
  sourceApi : SourceAPI
  externalId : String
  contentType : ContentType
  deriving DecidableEq, Repr

/-- A `content_season_detail` row, as far as its parent goes. -/
structure SeasonDetail where
  contentItem : ItemId
  tvShow : Option ItemId := none
  deriving DecidableEq, Repr

/-- A `ratings` row, as far as the backfill reads it. -/
structure Rating where
  id : ℕ
  isActive : Bool
  createdAt : Time
  deriving DecidableEq, Repr

/-- A `list_items` row, as far as the backfill reads it. -/
structure ListItem where
  userList : ListId
  contentItem : ItemId
  contextStatus : Option ContextStatus := none
  addedAt : Time
  contextCompletedAt : Option Time := none
  deriving DecidableEq, Repr

/-- A `user_content_tracking` row under its two check constraints. -/
structure Tracking where
  status : TrackingStatus
  lastCompletedAt : Option Time := none
  isFavorite : Bool := false
  favoritedAt : Option Time := none
  createdAt : Time
  updatedAt : Time
  favorite_date_consistent : favoritedAt.isSome = isFavorite := by rfl
  favorite_requires_completed : isFavorite = true → status = .completed := by simp
  deriving DecidableEq, Repr

/-- A user and a content item, by which a rating and a tracking row are unique. -/
abbrev Pair := UserId × ItemId

abbrev TrackingTable := Table Pair Tracking

/-- The tables of the command. -/
structure Database where
  users : Finset UserId
  profiles : Table UserId PublicProfile
  contentItems : Table ItemId ContentItem
  seasonDetails : Table ℕ SeasonDetail
  ratings : Table Pair Rating
  lists : Table ListId UserList
  listItems : Table ListItemId ListItem
  tracking : TrackingTable

/-- The counts of a report. -/
structure Report where
  profilesCreated : ℕ := 0
  seasonParentsLinked : ℕ := 0
  trackingSeededFromRatings : ℕ := 0
  activeRatingsNormalizedToCompleted : ℕ := 0
  trackingSeededFromPersonalLists : ℕ := 0
  trackingSeededFromPersonalListsAsCompleted : ℕ := 0
  trackingSeededFromPersonalListsAsBacklog : ℕ := 0
  personalContextRowsCleared : ℕ := 0
  deriving DecidableEq, Repr

/-- `bulk_create` with `ignore_conflicts`. -/
def bulkCreate {κ ρ : Type} [DecidableEq κ] (row : ρ) (keys : List κ) (table : Table κ ρ) :
    Table κ ρ :=
  keys.foldl (fun table key => if (table.get? key).isSome then table else table.set key row) table

/-- The ascending order of pairs. -/
def pairLE (a b : Pair) : Prop := a.1 < b.1 ∨ a.1 = b.1 ∧ a.2 ≤ b.2

instance : DecidableRel pairLE := fun _ _ => inferInstanceAs (Decidable (_ ∨ _))

/-! ### Profiles and season parents -/

/-- `_backfill_profiles`. -/
def backfillProfiles (now : Time) (db : Database) : Database × ℕ :=
  let missingIds := (db.users.filter fun user => (db.profiles.get? user).isNone).sort
  ({ db with
    profiles := bulkCreate { createdAt := now, updatedAt := now } missingIds db.profiles },
    missingIds.length)

/-- The part of an external id before its first colon, if it has one and does not start with it. -/
def parentExternalId (externalId : String) : Option String :=
  let (tvExternalId, separator) := externalId.toList.span (· ≠ ':')
  if separator = [] ∨ tvExternalId = [] then none else some (String.ofList tvExternalId)

/-- `_find_parent` of the content item of a season. -/
def findParent (contentItems : Table ItemId ContentItem) (season : ItemId) : Option ItemId := do
  let item ← contentItems.get? season
  let tvExternalId ← parentExternalId item.externalId
  contentItems.first fun _ row => row = ⟨item.sourceApi, tvExternalId, .tvShow⟩

/-- A detail with the parent that is found for it. -/
def SeasonDetail.linked (contentItems : Table ItemId ContentItem) (detail : SeasonDetail) :
    Option SeasonDetail :=
  (findParent contentItems detail.contentItem).map fun parent =>
    { detail with tvShow := some parent }

/-- `_backfill_season_parents`. -/
def backfillSeasonParents (db : Database) : Database × ℕ :=
  let unlinked := db.seasonDetails.keysWhere fun _ detail => detail.tvShow = none
  let linked pk := (db.seasonDetails.get? pk).bind (·.linked db.contentItems)
  ({ db with seasonDetails := db.seasonDetails.assign linked unlinked },
    unlinked.countP fun pk => (linked pk).isSome)

/-! ### Seeding -/

/-- One item of evidence: the pair, when it was completed, and whether the status of an existing row
    is normalized. -/
structure Evidence where
  pair : Pair
  completedAt : Time
  normalizeStatus : Bool

/-- What a seeding loop changes and counts. -/
structure Seeding where
  tracking : TrackingTable
  seeded : ℕ := 0
  normalized : ℕ := 0

def Evidence.statusChanged (evidence : Evidence) (existing : Tracking) : Bool :=
  evidence.normalizeStatus && existing.status ≠ .completed

/-- The row that the evidence finds is saved: its status changes, or its completion becomes
    earlier. -/
def Evidence.changes (evidence : Evidence) (existing : Tracking) : Bool :=
  evidence.statusChanged existing || existing.lastCompletedAt.all (evidence.completedAt < ·)

def Evidence.save (evidence : Evidence) (now : Time) (existing : Tracking) : Tracking :=
  { existing with
    status := if evidence.statusChanged existing then .completed else existing.status
    lastCompletedAt := some evidence.completedAt
    updatedAt := now
    favorite_requires_completed := fun h => by
      have hcompleted := existing.favorite_requires_completed h
      simp [hcompleted] }

def Evidence.create (evidence : Evidence) (now : Time) : Tracking where
  status := .completed
  lastCompletedAt := some evidence.completedAt
  createdAt := now
  updatedAt := now

/-- `_ensure_completed_tracking`, and the counting of its callers. -/
def ensureCompletedTracking (now : Time) (state : Seeding) (evidence : Evidence) : Seeding :=
  match state.tracking.get? evidence.pair with
  | some existing =>
    { state with
      tracking :=
        if evidence.changes existing then
          state.tracking.set evidence.pair (evidence.save now existing)
        else state.tracking
      normalized := state.normalized + if evidence.statusChanged existing then 1 else 0 }
  | none =>
    { state with
      tracking := state.tracking.set evidence.pair (evidence.create now)
      seeded := state.seeded + 1 }

/-- The ratings by creation and primary key, as evidence. -/
def ratingEvidence (ratings : Table Pair Rating) : List Evidence :=
  (ratings.rows.insertionSort fun a b => a.2.createdAt < b.2.createdAt
    ∨ a.2.createdAt = b.2.createdAt ∧ a.2.id ≤ b.2.id).map fun row =>
      ⟨row.1, row.2.createdAt, row.2.isActive⟩

/-- `_seed_from_ratings`. -/
def seedFromRatings (now : Time) (db : Database) : Seeding :=
  (ratingEvidence db.ratings).foldl (ensureCompletedTracking now) { tracking := db.tracking }

/-- The pair of a personal list's owner and an item of it. -/
def personalPair (db : Database) (item : ListItem) : Option Pair :=
  ((db.lists.get? item.userList).filter (·.listType = .personal)).map fun list =>
    (list.owner, item.contentItem)

/-- The pairs of the personal list items with `p`. -/
def personalPairs (db : Database) (p : ListItem → Bool) : List Pair :=
  (db.listItems.rows.filter fun row => p row.2).filterMap fun row => personalPair db row.2

/-- The earliest evidence of each pair. -/
def keepEarliest (earliest : Table Pair Time) (pair : Pair) (evidenceAt : Time) :
    Table Pair Time :=
  if (earliest.get? pair).all (evidenceAt < ·) then earliest.set pair evidenceAt else earliest

/-- A list item as evidence, if it is a completed item of a personal list. -/
def collectEarliest (db : Database) (earliest : Table Pair Time) (row : ListItemId × ListItem) :
    Table Pair Time :=
  match personalPair db row.2 with
  | some pair =>
    if row.2.contextStatus = some .completed then
      keepEarliest earliest pair (row.2.contextCompletedAt.getD row.2.addedAt)
    else earliest
  | none => earliest

/-- The earliest completions of personal list items. Their order does not matter to a minimum. -/
def earliestCompletions (db : Database) : Table Pair Time :=
  db.listItems.rows.foldl (collectEarliest db) Table.empty

/-- The earliest completions by their pairs, as evidence. -/
def personalEvidence (db : Database) : List Evidence :=
  ((earliestCompletions db).rows.insertionSort fun a b => pairLE a.1 b.1).map fun row =>
    ⟨row.1, row.2, false⟩

/-- `_seed_from_personal_lists`. -/
def seedFromPersonalLists (now : Time) (db : Database) : Seeding :=
  (personalEvidence db).foldl (ensureCompletedTracking now) { tracking := db.tracking }

/-- The candidates that are not tracked, not rated and not completed in a personal list. The three
    queries are about the users and the items of the candidates. -/
def missingPairs (db : Database) (candidates : List Pair) : List Pair :=
  let userIds := candidates.map Prod.fst
  let contentIds := candidates.map Prod.snd
  let isAmong (pair : Pair) : Bool := pair.1 ∈ userIds && pair.2 ∈ contentIds
  let existing := db.tracking.keysWhere fun pair _ => isAmong pair
  let ratingPairs := db.ratings.keysWhere fun pair _ => isAmong pair
  let completedListPairs :=
    (personalPairs db fun item => item.contextStatus = some .completed).filter isAmong
  (candidates.filter fun pair =>
    pair ∉ existing && pair ∉ ratingPairs && pair ∉ completedListPairs).insertionSort pairLE

/-- `_seed_missing_personal_list_backlog`. -/
def seedMissingPersonalListBacklog (now : Time) (db : Database) : TrackingTable × ℕ :=
  let candidates := (personalPairs db fun item => item.contextStatus ≠ some .completed).dedup
  if candidates = [] then (db.tracking, 0)
  else
    let missing := missingPairs db candidates
    (bulkCreate { status := .backlog, createdAt := now, updatedAt := now } missing db.tracking,
      missing.length)

/-- The item is in a personal list and has a context status. -/
def hasPersonalContext (db : Database) (item : ListItem) : Bool :=
  (personalPair db item).isSome && item.contextStatus.isSome

/-- `_clear_personal_context`. -/
def clearPersonalContext (db : Database) : Database × ℕ :=
  ({ db with
    listItems := db.listItems.updateWhere (fun _ item => hasPersonalContext db item)
      fun _ item => { item with contextStatus := none, contextCompletedAt := none } },
    db.listItems.count fun _ item => hasPersonalContext db item)

/-- `_run`. -/
def run (now : Time) (db : Database) : Database × Report :=
  let (db, profilesCreated) := backfillProfiles now db
  let (db, seasonParentsLinked) := backfillSeasonParents db
  let ratings := seedFromRatings now db
  let db := { db with tracking := ratings.tracking }
  let completed := seedFromPersonalLists now db
  let db := { db with tracking := completed.tracking }
  let (tracking, backlogListsSeeded) := seedMissingPersonalListBacklog now db
  let (db, cleared) := clearPersonalContext { db with tracking }
  (db,
    { profilesCreated, seasonParentsLinked
      trackingSeededFromRatings := ratings.seeded
      activeRatingsNormalizedToCompleted := ratings.normalized
      trackingSeededFromPersonalLists := completed.seeded + backlogListsSeeded
      trackingSeededFromPersonalListsAsCompleted := completed.seeded
      trackingSeededFromPersonalListsAsBacklog := backlogListsSeeded
      personalContextRowsCleared := cleared })

end Denn.Backfill
