import Denn.Progress.Basic
import Mathlib.Data.List.Sort

/-!
# Dynamic collections

The ten system lists and their synchronisation with the tracking rows.
-/

namespace Denn

open Core

/-- A system list: the tracking rows with the given status (any, if there is none) whose item has
    one of the given content types (any, if the list is empty). -/
structure DynamicCollectionDefinition where
  key : CollectionKey
  status : Option TrackingStatus := none
  contentTypes : List ContentType := []

def dynamicCollections : List DynamicCollectionDefinition :=
  [ { key := .backlog, status := some .backlog },
    { key := .inProgress, status := some .inProgress },
    { key := .onHold, status := some .onHold },
    { key := .dropped, status := some .dropped },
    { key := .completed, status := some .completed },
    { key := .movies, contentTypes := [.movie] },
    { key := .series, contentTypes := [.tvShow, .season] },
    { key := .games, contentTypes := [.game] },
    { key := .albums, contentTypes := [.album] },
    { key := .books, contentTypes := [.book] } ]

/-- The filter that `sync_dynamic_collections` applies to one tracking row. -/
def DynamicCollectionDefinition.admits (definition : DynamicCollectionDefinition)
    (status : TrackingStatus) (contentType : ContentType) : Bool :=
  (definition.status.all fun wanted => wanted = status)
    && (definition.contentTypes.isEmpty || contentType ∈ definition.contentTypes)

/-- Create the system lists that are missing. -/
def ensureDynamicCollections (lists : Table CollectionKey (Table ItemId ListItem)) :
    Table CollectionKey (Table ItemId ListItem) :=
  dynamicCollections.foldl
    (fun lists definition =>
      if (lists.get? definition.key).isSome then lists else lists.set definition.key .empty)
    lists

variable (catalog : Catalog)

/-- Bring one list in line with the tracking rows. New items are appended behind the largest
    order value the list had before its stale items were removed. -/
def syncCollection (tracking : Table ItemId Tracking) (dynamicLists : DynamicLists)
    (definition : DynamicCollectionDefinition) : DynamicLists :=
  let current := (dynamicLists.lists.get? definition.key).getD .empty
  let targetIds := (tracking.rows.filter fun row =>
    definition.admits row.2.status (catalog.contentType row.1)).map Prod.fst
  let missingIds :=
    (targetIds.filter fun item => (current.get? item).isNone).insertionSort (· ≤ ·)
  let nextOrder := ((current.rows.map fun row => row.2.listOrder).max?.getD 0) + 1
  let kept := current.deleteWhere fun item _ => item ∉ targetIds
  let items := missingIds.zipIdx.foldl
    (fun items new => items.set new.1
      { id := dynamicLists.nextId + new.2, listOrder := nextOrder + new.2 })
    kept
  { lists := dynamicLists.lists.set definition.key items
    nextId := dynamicLists.nextId + missingIds.length }

/-- Materialize the tracking filters as list membership. -/
def syncDynamicCollections (s : UserProgress) : UserProgress :=
  let ensured := { s.dynamicLists with lists := ensureDynamicCollections s.dynamicLists.lists }
  { s with dynamicLists := dynamicCollections.foldl (syncCollection catalog s.tracking) ensured }

@[simp] lemma syncDynamicCollections_tracking (s : UserProgress) :
    (syncDynamicCollections catalog s).tracking = s.tracking := rfl

@[simp] lemma syncDynamicCollections_ratings (s : UserProgress) :
    (syncDynamicCollections catalog s).ratings = s.ratings := rfl

@[simp] lemma syncDynamicCollections_profile (s : UserProgress) :
    (syncDynamicCollections catalog s).profile = s.profile := rfl

end Denn
