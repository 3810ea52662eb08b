import Denn.Core.Requests
import Denn.Progress.Collections

/-!
# Synchronising the dynamic collections, statement by statement

A list read of the user synchronises without a lock. A tracking operation locks the user first, and
its synchronisation belongs to the same transaction. Nothing but the unique constraints keeps two
synchronisations apart.
-/

namespace Denn.Sync

open Core

/-! ### Rows -/

/-- The primary keys of the tables. -/
inductive RowKey where
  | user
  | list (id : ℕ)
  | item (id : ℕ)
  | tracking (id : ℕ)
  deriving DecidableEq

/-- A `list_items` row. -/
structure CollectionItem where
  userList : ℕ
  contentItem : ItemId
  listOrder : ℤ
  deriving DecidableEq

/-- The rows of one user: his own, which `lock_user` selects, his dynamic lists, the items of all
    lists, and what he tracks. -/
inductive Row where
  | user
  | list (dynamicKey : CollectionKey)
  | item (item : CollectionItem)
  | tracking (contentItem : ItemId) (tracking : Tracking)
  deriving DecidableEq

abbrev Rows := Table RowKey Row

/-- The constraints `unique_list_order_per_list` and `unique_item_per_list`. -/
def CollectionItem.clash (item item' : CollectionItem) : Bool :=
  item.userList = item'.userList &&
    (item.listOrder = item'.listOrder || item.contentItem = item'.contentItem)

/-- The unique constraints of all tables. -/
def Row.clash : Row → Row → Bool
  | .list dynamicKey, .list dynamicKey' => dynamicKey = dynamicKey'
  | .item entry, .item entry' => entry.clash entry'
  | .tracking contentItem _, .tracking contentItem' _ => contentItem = contentItem'
  | _, _ => false

/-- The row belongs to the table of the key. -/
def RowKey.holds : RowKey → Row → Bool
  | .user, .user => true
  | .list _, .list _ => true
  | .item _, .item _ => true
  | .tracking _, .tracking _ _ => true
  | _, _ => false

/-! ### Reads -/

/-- The dictionary of the dynamic lists by their keys. -/
def dynamicLists (rows : Rows) : Table CollectionKey ℕ :=
  rows.collect fun k row =>
    match k, row with
    | .list id, .list dynamicKey => some (dynamicKey, id)
    | _, _ => none

def trackingRows (rows : Rows) : Table ItemId Tracking :=
  rows.collect fun _ row =>
    match row with
    | .tracking contentItem tracking => some (contentItem, tracking)
    | _ => none

def trackingIds (rows : Rows) : Table ItemId ℕ :=
  rows.collect fun k row =>
    match k, row with
    | .tracking id, .tracking contentItem _ => some (contentItem, id)
    | _, _ => none

/-- The items of some lists. -/
def listItems (lists : Table CollectionKey ℕ) (rows : Rows) : Table ℕ CollectionItem :=
  rows.collect fun k row =>
    match k, row with
    | .item id, .item item =>
      if lists.any fun _ list => list = item.userList then some (id, item) else none
    | _, _ => none

/-- What a synchronisation has read. -/
structure Reads where
  lists : Table CollectionKey ℕ
  tracking : Table ItemId Tracking
  items : Table ℕ CollectionItem

/-- `existing_items[key]`. -/
def Reads.existingItems (reads : Reads) (key : CollectionKey) : Table ItemId ListItem :=
  reads.items.collect fun id item =>
    if reads.lists.get? key = some item.userList then
      some (item.contentItem, { id := id, listOrder := item.listOrder })
    else none

section

variable (catalog : Catalog)

/-- The rows of items that a collection does not admit any more. -/
def Reads.staleItemIds (reads : Reads) (definition : DynamicCollectionDefinition) : List ℕ :=
  ((reads.existingItems definition.key).rows.filter fun row =>
    !isAdmitted catalog reads.tracking definition row.1).map fun row => row.2.id

/-- The rows of items that a collection admits and that it lacks, behind the largest order value. -/
def Reads.newItems (reads : Reads) (definition : DynamicCollectionDefinition) :
    List CollectionItem :=
  match reads.lists.get? definition.key with
  | none => []
  | some userList =>
    (missingIds catalog reads.tracking definition
      (reads.existingItems definition.key)).zipIdx.map fun new =>
        { userList := userList, contentItem := new.1,
          listOrder := nextOrder (reads.existingItems definition.key) + new.2 }

/-! ### Tracking operations -/

/-- A service call on one tracking row. -/
inductive TrackingOperation where
  | ensureTracking (status : TrackingStatus)
  | transitionTracking (status : TrackingStatus) (acknowledgeEffects : Bool)
  | saveRating (score : ℚ) (comment : Option String) (spoiler : Bool)
  | setFavorite (isFavorite : Bool)
  | deleteTracking (acknowledgeEffects : Bool)

/-- What an operation does with its tracking row. -/
inductive TrackingChange where
  | refuse
  /-- It returns early. -/
  | finish
  | keep
  | save (tracking : Tracking)
  | delete

namespace TrackingOperation

/-- The check before the user is locked. -/
def isSupported (item : ItemId) : TrackingOperation → Bool
  | .ensureTracking status => isStatusSupported (catalog.contentType item) status
  | .transitionTracking status _ => isStatusSupported (catalog.contentType item) status
  | _ => true

/-- A favorite changes no collection. -/
def synchronises : TrackingOperation → Bool
  | .setFavorite _ => false
  | _ => true

/-- What an operation does, once it has read the rating of the item and the tracking rows. -/
def change (now : Time) (rating : Option Rating) (item : ItemId)
    (tracking : Table ItemId Tracking) : TrackingOperation → TrackingChange
  | .ensureTracking status =>
    match tracking.get? item with
    | none => .save { status }
    | some _ => .keep
  | .transitionTracking status acknowledgeEffects =>
    if transitionEffects (tracking.get? item) status rating ≠ [] ∧ !acknowledgeEffects then .refuse
    else .save (transitionRows now item (tracking.get? item) status rating none).1
  | .saveRating _ _ _ =>
    match tracking.get? item with
    | none => .save { status := .completed, lastCompletedAt := some now }
    | some row =>
      if row.status = .completed then .keep
      else .save { row with status := .completed, lastCompletedAt := some now }
  | .setFavorite isFavorite =>
    match tracking.get? item with
    | none => .refuse
    | some row =>
      if isFavorite ∧ row.status ≠ .completed then .refuse
      else if isFavorite ∧ !row.isFavorite
          ∧ favoriteLimitPerType
            ≤ favoriteCount catalog (catalog.contentType item) (tracking.delete item) then .refuse
      else .save { row with isFavorite, favoritedAt := if isFavorite then some now else none }
  | .deleteTracking acknowledgeEffects =>
    match tracking.get? item with
    | none => .finish
    | some row =>
      if deleteEffects row (rating.filter (·.isActive)) ≠ [] ∧ !acknowledgeEffects then .refuse
      else .delete

end TrackingOperation

/-! ### Statements -/

inductive SyncRequest where
  | sync
  | track (item : ItemId) (operation : TrackingOperation)

/-- What is decided outside a call: whether the database gives it up, for a deadlock say, the key of
    a row that is inserted or the next row of a deletion, the clock, and the item's rating. -/
structure SyncChoice where
  cancel : Bool := false
  id : ℕ := 0
  now : Time := 0
  rating : Option Rating := none

/-- What a call has read and what remains of it, by its next statement. -/
inductive SyncState where
  | called (item : ItemId) (operation : TrackingOperation)
  | locked (item : ItemId) (operation : TrackingOperation)
  | save (item : ItemId) (existing : Option ℕ) (row : Option Tracking) (synchronises : Bool)
  | lists
  | create (lists : Table CollectionKey ℕ) (missing : List CollectionKey)
  | tracking (lists : Table CollectionKey ℕ)
  | items (lists : Table CollectionKey ℕ) (tracking : Table ItemId Tracking)
  | delete (reads : Reads) (stale : List ℕ) (new : List CollectionItem)
  | insert (reads : Reads) (new : List CollectionItem)
  | done

def SyncRequest.start : SyncRequest → SyncState
  | .sync => .lists
  | .track item operation => .called item operation

abbrev SyncStatement := Statement RowKey Row SyncState

/-- After the list dictionary is read: the missing lists are created, if there are any. -/
def SyncState.ensured (listsByKey : Table CollectionKey ℕ) : SyncState :=
  let missing := (dynamicCollections.map DynamicCollectionDefinition.key).filter fun key =>
    (listsByKey.get? key).isNone
  if missing = [] then .tracking listsByKey else .create listsByKey missing

/-- The statement that saves or deletes the tracking row. -/
def saveStatement (choice : SyncChoice) (rows : Rows) (item : ItemId) (row : Option Tracking)
    (next : SyncState) : Option ℕ → SyncStatement
  | some id =>
    if (rows.get? (.tracking id)).isSome then
      .write false (.tracking id) (row.map (.tracking item)) next
    else .abort
  | none => row.elim .abort fun row =>
    .write true (.tracking choice.id) (some (.tracking item row)) next

/-- The next statement of a call that is not given up. -/
def SyncState.next (choice : SyncChoice) (rows : Rows) : SyncState → Option SyncStatement
  | .called item operation =>
    if operation.isSupported catalog item ∧ rows.get? .user = some .user then
      some (.write false .user (some .user) (.locked item operation))
    else some .abort
  | .locked item operation =>
    match operation.change catalog choice.now choice.rating item (trackingRows rows) with
    | .refuse => some .abort
    | .finish => some (.query .done)
    | .keep => some (.query .lists)
    | .save row =>
      some (.query (.save item ((trackingIds rows).get? item) (some row) operation.synchronises))
    | .delete =>
      some (.query (.save item ((trackingIds rows).get? item) none operation.synchronises))
  | .save item existing row synchronises =>
    some (saveStatement choice rows item row (if synchronises then .lists else .done) existing)
  -- `sync_dynamic_collections`
  | .lists => some (.query (.ensured (dynamicLists rows)))
  | .create _ [] => some (.query (.tracking (dynamicLists rows)))
  | .create listsByKey (key :: missing) =>
    some (.write true (.list choice.id) (some (.list key)) (.create listsByKey missing))
  | .tracking listsByKey => some (.query (.items listsByKey (trackingRows rows)))
  | .items listsByKey tracked =>
    let reads : Reads :=
      { lists := listsByKey, tracking := tracked, items := listItems listsByKey rows }
    -- `lists_by_key[key]`
    if dynamicCollections.all fun definition => (listsByKey.get? definition.key).isSome then
      some (.query (.delete reads (dynamicCollections.flatMap (reads.staleItemIds catalog))
        (dynamicCollections.flatMap (reads.newItems catalog))))
    else some .abort
  | .delete reads [] new => some (.query (.insert reads new))
  | .delete reads stale new =>
    if choice.id ∈ stale then
      -- a row that is gone is left out
      if (rows.get? (.item choice.id)).isSome then
        some (.write false (.item choice.id) none (.delete reads (stale.erase choice.id) new))
      else some (.query (.delete reads (stale.erase choice.id) new))
    else none
  | .insert _ [] => some .commit
  | .insert reads (item :: new) =>
    some (.write true (.item choice.id) (some (.item item)) (.insert reads new))
  | .done => some .commit

/-- The calls of one user. -/
def syncProgram : Program RowKey Row SyncRequest SyncState SyncChoice where
  clash := Row.clash
  init := SyncRequest.start
  next state choice rows := if choice.cancel then some .abort else state.next catalog choice rows

end

/-! ### Insertions of what is up to date -/

/-- A call that inserts a list has read all lists, and one that inserts an item all items of its
    list. -/
def SyncState.upToDate (committed : Rows) : SyncState → Bool
  | .create listsByKey (_ :: _) => !committed.any fun k row =>
    match k, row with
    | .list id, .list key => listsByKey.get? key ≠ some id
    | _, _ => false
  | .insert reads (item :: _) => !committed.any fun k row =>
    match k, row with
    | .item id, .item other => other.userList = item.userList && reads.items.get? id ≠ some other
    | _, _ => false
  | _ => true

abbrev SyncSession (τ : Type*) := Session τ RowKey Row SyncRequest SyncState SyncChoice

/-- A call inserts a row only while its reads are up to date. -/
def undisturbed {τ : Type*} [DecidableEq τ] (s : SyncSession τ) :
    Action τ SyncRequest SyncChoice → Bool
  | .start _ _ => true
  | .run x choice => choice.cancel ||
    (s.calls.get? x).all fun call => call.state.upToDate s.store.committed

end Denn.Sync
