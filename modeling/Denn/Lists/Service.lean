import Denn.Lists.Policy

/-!
# The list service

Saving a list keeps the membership of its owner in place; the service adds and removes the other
memberships, creates the system lists, and reads the lists of a user.
-/

namespace Denn.Lists

open Core

/-- What a request is answered with when it does not succeed. `detail` is a response made by the
    view, `validation` names the fields of a serializer, and the last three are uncaught. -/
inductive ListError where
  | notAuthenticated
  | permissionDenied
  | notFound
  | detail (status : ℕ) (text : String)
  | validation (errors : List (String × String))
  | invalid (text : String)
  | valueError (text : String)
  | multipleObjectsReturned
  | integrityError
  deriving DecidableEq, Repr

/-! ### Owner memberships -/

/-- The owner rows of other users become editor rows, then the owner gets the owner row. -/
def repairOwner (list : ListId) (owner : UserId) (memberships : Memberships) : Memberships :=
  (memberships.updateWhere
    (fun key role => key.1 = list && role = .owner && key.2 ≠ owner) fun _ _ => .editor).set
    (list, owner) .owner

namespace ListState

variable (s : ListState)

/-- `UserList.save`. -/
def save (id : ListId) (row : UserList) : ListState :=
  { s with
    lists := s.lists.set id row
    memberships :=
      if row.listType ≠ .dynamic then repairOwner id row.owner s.memberships
      else s.memberships.deleteWhere fun key _ => key.1 = id }

/-- A new list is saved under the next primary key. -/
def insertList (row : UserList) : ListState :=
  { s with nextList := s.nextList + 1 }.save s.nextList row

/-- Deletion cascades to the memberships and the invitations. -/
def deleteList (id : ListId) : ListState :=
  { s with
    lists := s.lists.delete id
    memberships := s.memberships.deleteWhere fun key _ => key.1 = id
    invitations := s.invitations.deleteWhere fun _ invitation => invitation.userList = id }

def ensureOwnerMembership (id : ListId) (row : UserList) : ListState :=
  if row.listType = .dynamic then s
  else { s with memberships := repairOwner id row.owner s.memberships }

/-! ### Members -/

def addMember (id : ListId) (row : UserList) (user : UserId) (role : ListRole) :
    Except ListError ListState :=
  if !isCollaborative row then
    .error (.valueError "Solo las listas compartidas admiten miembros.")
  else if role = .owner then
    .error (.valueError "El owner se gestiona mediante UserList.owner.")
  else match s.memberships.get? (id, user) with
    | some _ => .ok s
    | none => .ok { s with memberships := s.memberships.set (id, user) role }

def removeMember (id : ListId) (row : UserList) (userToRemove : UserId) :
    Except ListError ListState :=
  if !isCollaborative row then
    .error (.detail 400 "Solo se pueden eliminar miembros de listas compartidas.")
  else if userToRemove = row.owner then
    .error (.detail 400 "El propietario no puede eliminarse de la lista.")
  else match s.memberships.get? (id, userToRemove) with
    | none => .error (.detail 400 "El usuario no es miembro de esta lista.")
    | some _ => .ok { s with memberships := s.memberships.delete (id, userToRemove) }

/-! ### System lists -/

/-- The row of a system list. -/
def collectionList (user : UserId) (key : CollectionKey) : UserList where
  owner := user
  name := listName key
  description := some "Automatically populated from your progress."
  listType := .dynamic
  dynamicKey := some key
  visibility := .isPublic

/-- `bulk_create` writes the row of a system list without saving it. -/
def createCollection (user : UserId) (key : CollectionKey) : ListState :=
  { s with lists := s.lists.set s.nextList (collectionList user key), nextList := s.nextList + 1 }

/-- The user has the system list. -/
def hasCollection (user : UserId) (key : CollectionKey) : Bool :=
  s.lists.any fun _ list =>
    list.owner = user && list.listType = .dynamic && list.dynamicKey = some key

/-- `ensure_dynamic_collections`. -/
def ensureDynamicCollections (user : UserId) : ListState :=
  ((dynamicCollections.filter fun definition => !s.hasCollection user definition.key).foldl
    (fun s definition => s.createCollection user definition.key) s)

/-- `collection_settings` has the collection on. -/
def isCollectionEnabled (user : UserId) (key : CollectionKey) : Bool :=
  key ∉ (s.hiddenCollections.get? user).getD []

/-! ### The lists of a user -/

/-- A list of `get_user_lists`: its memberships are prefetched, and the members that the query
    counts are those of the joined rows that its `WHERE` has left. -/
structure AnnotatedList where
  list : LoadedList
  countedMembers : List UserId

/-- `member_count_annotated`. -/
def AnnotatedList.memberCountAnnotated (annotated : AnnotatedList) : ℕ :=
  annotated.countedMembers.length

/-- `Count("memberships", filter=effective_membership_count_filter())` over joined rows. -/
def countMembers (row : UserList) (joined : List (Option ListMembership)) : List UserId :=
  (joined.filter (effectiveMembershipCountFilter row)).filterMap fun membership =>
    membership.map (·.user)

/-- One list of `get_user_lists`, if the user has access to it. The count is made on the join that
    the `WHERE` clause has filtered. -/
def annotate (user : Option UserId) (id : ListId) (row : UserList) : Option AnnotatedList :=
  let joined := (leftJoin id s.memberships).filter (accessibleListsQ user row)
  if joined = [] then none
  else some
    { list := { id, row, prefetchedObjectsCache := some (membershipsOf id s.memberships) }
      countedMembers := countMembers row joined }

def getUserLists (user : Option UserId) : List AnnotatedList :=
  s.lists.rows.filterMap fun list => s.annotate user list.1 list.2

/-- The members that the public profile counts: its lists are selected by a subquery of ids, so
    that the count is made on the whole join. -/
def profileCountedMembers (id : ListId) (row : UserList) : List UserId :=
  countMembers row (leftJoin id s.memberships)

end ListState

end Denn.Lists
