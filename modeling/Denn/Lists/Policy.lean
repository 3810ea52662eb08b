import Denn.Lists.Basic

/-!
# The list policy

Who may do what with a list, and who its effective members are: over the memberships that were
loaded with the list, over a query, as a subquery, and as a filter on joined rows.
-/

namespace Denn.Lists

open Core

inductive ListAction where
  | view
  | editContent
  | reorder
  | manageSettings
  | manageMembers
  | invite
  | changeRole
  | delete
  deriving DecidableEq, Repr

def editableRoles : List ListRole := [.owner, .editor]

def allMemberRoles : List ListRole := [.owner, .editor, .viewer]

@[simp] lemma mem_allMemberRoles (role : ListRole) : role ∈ allMemberRoles := by
  cases role <;> decide

/-- A list as it is loaded: its row, and the memberships that were prefetched with it, into an
    attribute of their own or into the cache of the related manager. -/
structure LoadedList where
  id : ListId
  row : UserList
  membershipsPrefetched : Option (List ListMembership) := none
  prefetchedObjectsCache : Option (List ListMembership) := none

/-- `_cached_memberships`. -/
def LoadedList.cachedMemberships (list : LoadedList) : Option (List ListMembership) :=
  list.membershipsPrefetched.or list.prefetchedObjectsCache

def isCollaborative (list : UserList) : Bool := list.listType = .shared

/-! ### Permissions -/

section Permissions

variable (memberships : Memberships)

/-- The membership of a user; an anonymous user has none. The owner's is made up from the list. -/
def getMembership (list : LoadedList) (user : Option UserId) : Option ListMembership :=
  user.bind fun user =>
    if list.row.owner = user then some ⟨list.id, user, .owner⟩
    else if !isCollaborative list.row then none
    else (list.cachedMemberships.getD (membershipsOf list.id memberships)).find? fun membership =>
      membership.user = user

def getRole (list : LoadedList) (user : Option UserId) : Option ListRole :=
  (getMembership memberships list user).map (·.role)

/-- What a role allows. -/
def roleAllows (list : UserList) (role : ListRole) (action : ListAction) : Bool :=
  if list.listType = .dynamic then
    role = .owner && action ∈ [.view, .reorder, .manageSettings, .delete]
  else
    match action with
    | .view => role ∈ allMemberRoles
    | .editContent | .reorder => role ∈ editableRoles
    | .manageMembers | .invite | .changeRole => role = .owner && isCollaborative list
    | .manageSettings | .delete => role = .owner

/-- `can`. -/
def can (list : LoadedList) (user : Option UserId) (action : ListAction) : Bool :=
  if action = .view ∧ user = none then
    list.row.visibility = .isPublic && list.row.listType ≠ .dynamic
  else (getRole memberships list user).any fun role => roleAllows list.row role action

end Permissions

/-! ### Effective members -/

/-- `effective_memberships`: the loaded memberships that count for the type of the list, or the
    same selection as a query if none were loaded. -/
def effectiveMemberships (memberships : Memberships) (list : LoadedList) : List ListMembership :=
  match list.cachedMemberships with
  | some prefetched =>
    if list.row.listType = .dynamic then []
    else if isCollaborative list.row then prefetched.filter fun m => m.role ∈ allMemberRoles
    else prefetched.filter fun m => m.user = list.row.owner && m.role = .owner
  | none =>
    if list.row.listType = .dynamic then []
    else if isCollaborative list.row then
      (membershipsOf list.id memberships).filter fun m => m.role ∈ allMemberRoles
    else
      (membershipsOf list.id memberships).filter fun m => m.user = list.row.owner && m.role = .owner

/-- `effective_membership_count_filter`, on a list joined with one of its memberships. -/
def effectiveMembershipCountFilter (list : UserList) (membership : Option ListMembership) : Bool :=
  (list.listType = .shared && membership.any fun m => m.role ∈ allMemberRoles)
    || (list.listType = .personal && membership.any fun m => m.user = list.owner && m.role = .owner)

/-- `accessible_lists_q`, on a list joined with one of its memberships. -/
def accessibleListsQ (user : Option UserId) (list : UserList) (membership : Option ListMembership) :
    Bool :=
  user.any fun user =>
    list.owner = user
      || (list.listType = .shared
        && membership.any fun m => m.user = user && m.role ∈ allMemberRoles)

/-- `member_ids_subquery`. -/
def memberIdsSubquery (s : ListState) (listPk : ListId) : List UserId :=
  (((membershipsOf listPk s.memberships).filter fun m => m.role ∈ allMemberRoles).filter fun m =>
    (s.lists.get? m.userList).any fun list =>
      list.listType = .shared || (list.listType = .personal && m.user = list.owner)).map (·.user)

def effectiveMemberIds (s : ListState) (listPk : ListId) : List UserId := memberIdsSubquery s listPk

/-- `_get_member_ids` of the list item serializer: its own reading of a list whose memberships were
    prefetched into an attribute. -/
def getMemberIds (s : ListState) (list : LoadedList) : List UserId :=
  match list.membershipsPrefetched with
  | none => effectiveMemberIds s list.id
  | some memberships =>
    match list.row.listType with
    | .shared => (memberships.filter fun m => m.role ∈ allMemberRoles).map (·.user)
    | .personal =>
      (memberships.filter fun m => m.user = list.row.owner && m.role = .owner).map (·.user)
    | .dynamic => []

/-- The memberships that a list is joined with; the outer join keeps a list without any. -/
def leftJoin (id : ListId) (memberships : Memberships) : List (Option ListMembership) :=
  match membershipsOf id memberships with
  | [] => [none]
  | joined => joined.map some

/-- `UserList.objects.filter(accessible_lists_q(user))` has the list. -/
def isAccessible (memberships : Memberships) (user : Option UserId) (id : ListId)
    (row : UserList) : Bool :=
  (leftJoin id memberships).any (accessibleListsQ user row)

/-! ### The permission class -/

/-- `ListActionPermission(action).has_permission`: the user is authenticated, the list exists, and
    the policy allows the action on it. The list is loaded without memberships. -/
def hasPermission (s : ListState) (user : Option UserId) (listPk : ListId) (action : ListAction) :
    Bool :=
  user.isSome && (s.lists.get? listPk).any fun row =>
    can s.memberships ⟨listPk, row, none, none⟩ user action

/-! ### What the policy says -/

variable {memberships : Memberships}

/-- The membership that is found for a user who does not own the list is a row of the table. -/
lemma getMembership_of_not_owner {list : LoadedList} {user : UserId} {m : ListMembership}
    (hcache : list.cachedMemberships = none) (howner : list.row.owner ≠ user)
    (h : getMembership memberships list (some user) = some m) :
    list.row.listType = .shared ∧ memberships.get? (list.id, user) = some m.role := by
  simp only [getMembership, Option.bind_some, if_neg howner] at h
  split_ifs at h with hshared
  rw [hcache, Option.getD_none] at h
  have hmem := mem_membershipsOf.mp (List.mem_of_find?_eq_some h)
  have huser := List.find?_some h
  rw [decide_eq_true_eq] at huser
  rw [huser] at hmem
  simp only [isCollaborative, Bool.not_eq_true', decide_eq_false_iff_not, not_not] at hshared
  exact ⟨hshared, hmem.2⟩

end Denn.Lists
