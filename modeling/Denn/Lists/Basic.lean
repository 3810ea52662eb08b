import Denn.Core.Table
import Denn.Progress.DynamicCollections

/-!
# Lists, memberships and invitations

The rows behind the list endpoints: lists with their owner, memberships with a role, pending
invitations, and the users that an invitation looks up.
-/

namespace Denn.Lists

open Core

abbrev ListId := ℕ
abbrev InvitationId := ℕ

/-! ### Rows -/

inductive ListType where
  | personal
  | shared
  | dynamic
  deriving DecidableEq, Repr

inductive Visibility where
  | isPublic
  | isPrivate
  deriving DecidableEq, Repr

/-- `ListMembership.Role`. -/
inductive ListRole where
  | owner
  | editor
  | viewer
  deriving DecidableEq, Repr

inductive InvitationStatus where
  | pending
  | accepted
  | rejected
  deriving DecidableEq, Repr

/-- A `user_lists` row; its primary key is the key it is stored under. -/
structure UserList where
  owner : UserId
  name : String
  description : Option String := none
  listType : ListType := .personal
  dynamicKey : Option CollectionKey := none
  visibility : Visibility := .isPrivate
  deriving DecidableEq, Repr

/-- A membership as an object. In the table the list and the user are the key. -/
structure ListMembership where
  userList : ListId
  user : UserId
  role : ListRole
  deriving DecidableEq, Repr

/-- The `user_lists_members` table under its unique pair of list and user. -/
abbrev Memberships := Table (ListId × UserId) ListRole

/-- A `list_invitations` row; its primary key is the key it is stored under. -/
structure ListInvitation where
  userList : ListId
  inviter : UserId
  invitee : UserId
  status : InvitationStatus := .pending
  role : ListRole := .editor
  deriving DecidableEq, Repr

/-- The columns of a user that an invitation is addressed by. -/
structure User where
  username : String
  email : String
  deriving DecidableEq, Repr

/-- The tables. `nextList` and `nextInvitation` are the primary keys that the next rows will get;
    `hiddenCollections` holds the collections that a user has switched off. -/
structure ListState where
  users : Table UserId User
  lists : Table ListId UserList
  memberships : Memberships
  invitations : Table InvitationId ListInvitation
  hiddenCollections : Table UserId (List CollectionKey)
  nextList : ListId
  nextInvitation : InvitationId

def ListState.empty : ListState where
  users := .empty
  lists := .empty
  memberships := .empty
  invitations := .empty
  hiddenCollections := .empty
  nextList := 1
  nextInvitation := 1

/-! ### Choices -/

/-- `ChoiceField` over `ListType.choices`. -/
def ListType.ofValue : String → Option ListType
  | "PERSONAL" => some .personal
  | "SHARED" => some .shared
  | "DYNAMIC" => some .dynamic
  | _ => none

/-- `ChoiceField` over `Visibility.choices`. -/
def Visibility.ofValue : String → Option Visibility
  | "PUBLIC" => some .isPublic
  | "PRIVATE" => some .isPrivate
  | _ => none

/-- The `ChoiceField` of the roles that can be given to a member, turned to upper case. -/
def ListRole.ofChoice : String → Option ListRole
  | "editor" => some .editor
  | "viewer" => some .viewer
  | _ => none

lemma ListRole.ofChoice_ne_owner {value : String} {role : ListRole}
    (h : ListRole.ofChoice value = some role) : role ≠ .owner := by
  rintro rfl
  unfold ListRole.ofChoice at h
  split at h <;> simp at h

/-- The name of a system list. -/
def listName : CollectionKey → String
  | .backlog => "Backlog"
  | .inProgress => "In progress"
  | .onHold => "On hold"
  | .dropped => "Dropped"
  | .completed => "Completed"
  | .movies => "Movies"
  | .series => "Series"
  | .games => "Games"
  | .albums => "Albums"
  | .books => "Books"

/-! ### Memberships of one list -/

/-- The memberships of a list, as its related manager yields them. -/
def membershipsOf (list : ListId) (memberships : Memberships) : List ListMembership :=
  (memberships.rows.filter fun row => row.1.1 = list).map fun row => ⟨row.1.1, row.1.2, row.2⟩

lemma mem_membershipsOf {list : ListId} {memberships : Memberships} {m : ListMembership} :
    m ∈ membershipsOf list memberships ↔
      m.userList = list ∧ memberships.get? (list, m.user) = some m.role := by
  simp only [membershipsOf, List.mem_map, List.mem_filter, decide_eq_true_eq, Prod.exists]
  constructor
  · rintro ⟨l, u, role, ⟨hmem, rfl⟩, rfl⟩
    exact ⟨rfl, (Table.mem_rows_iff _ _ _).mp hmem⟩
  · obtain ⟨l, u, role⟩ := m
    rintro ⟨rfl, hget⟩
    exact ⟨l, u, role, ⟨(Table.mem_rows_iff _ _ _).mpr hget, rfl⟩, rfl⟩

/-- The role of a user on a list. -/
def ListState.role (s : ListState) (list : ListId) (user : UserId) : Option ListRole :=
  s.memberships.get? (list, user)

end Denn.Lists
