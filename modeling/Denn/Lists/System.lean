import Denn.Core.Transition
import Denn.Lists.Service

/-!
# The list endpoints

Every endpoint that writes lists, invitations or memberships, with the checks of its permission
class, its view, its serializer and the service it calls, in their order. A request that fails is
rolled back. The system takes the requests of all users in any order.
-/

namespace Denn.Lists

open Core

/-! ### Serializers -/

/-- The writable fields of `UserListSerializer` as they arrive. -/
structure ListFields where
  name : Option String := none
  description : Option (Option String) := none
  listType : Option String := none
  visibility : Option String := none

/-- The validated fields. -/
structure ListAttrs where
  name : Option String
  description : Option (Option String)
  listType : Option ListType
  visibility : Option Visibility

def validateName (isPatch : Bool) : Option String → Except String (Option String)
  | none => if isPatch then .ok none else .error "This field is required."
  | some name =>
    let name := strip name
    if name = "" then .error "This field may not be blank."
    else if 255 < name.length then .error "Ensure this field has no more than 255 characters."
    else .ok (some name)

/-- An optional `ChoiceField`. -/
def validateChoice {α : Type} (ofValue : String → Option α) :
    Option String → Except String (Option α)
  | none => .ok none
  | some value =>
    match ofValue value with
    | some choice => .ok (some choice)
    | none => .error ("\"" ++ value ++ "\" is not a valid choice.")

/-- A required `ChoiceField`. -/
def requireChoice {α : Type} (ofValue : String → Option α) : Option String → Except String α
  | none => .error "This field is required."
  | some value =>
    match ofValue value with
    | some choice => .ok choice
    | none => .error ("\"" ++ value ++ "\" is not a valid choice.")

/-- The `ChoiceField` of the list type and `validate_list_type`. -/
def validateListType (instance? : Option UserList) (value : Option String) :
    Except String (Option ListType) :=
  (validateChoice ListType.ofValue value).bind fun
    | none => .ok none
    | some listType =>
      if listType = .dynamic then
        .error "Dynamic lists are created and maintained by the system."
      else if instance?.any fun list => list.listType ≠ listType then
        .error "Cannot change the list type after creation."
      else .ok (some listType)

def fieldErrors {α : Type} (field : String) : Except String α → List (String × String)
  | .ok _ => []
  | .error text => [(field, text)]

/-- `UserListSerializer.is_valid`. -/
def validateList (instance? : Option UserList) (isPatch : Bool) (fields : ListFields) :
    Except ListError ListAttrs :=
  match validateName isPatch fields.name, validateListType instance? fields.listType,
      validateChoice Visibility.ofValue fields.visibility with
  | .ok name, .ok listType, .ok visibility =>
    .ok { name, description := fields.description, listType, visibility }
  | name, listType, visibility =>
    .error (.validation (fieldErrors "name" name ++ fieldErrors "list_type" listType
      ++ fieldErrors "visibility" visibility))

/-- The row with the validated fields set. -/
def ListAttrs.assign (attrs : ListAttrs) (row : UserList) : UserList :=
  { row with
    name := attrs.name.getD row.name
    description := attrs.description.getD row.description
    listType := attrs.listType.getD row.listType
    visibility := attrs.visibility.getD row.visibility }

/-- The fields of `ListInvitationCreateSerializer`; the user name and the address as their own
    fields leave them. -/
structure InvitationData where
  username : Option String := none
  email : Option String := none
  role : Option String := none

inductive InvitationAnswer where
  | accept
  | reject
  deriving DecidableEq, Repr

def InvitationAnswer.ofValue : String → Option InvitationAnswer
  | "accept" => some .accept
  | "reject" => some .reject
  | _ => none

/-! ### Endpoints -/

/-- Who is asking; an anonymous request has no user. -/
abbrev Requester := Option UserId

inductive ListRequest where
  | createList (user : Requester) (fields : ListFields)
  | updateList (user : Requester) (list : ListId) (isPatch : Bool) (fields : ListFields)
  | destroyList (user : Requester) (list : ListId)
  | syncCollections (user : Requester)
  | createInvitation (user : Requester) (list : ListId) (data : InvitationData)
  | respond (user : Requester) (invitation : InvitationId) (answer : Option String)
  | cancelInvitation (user : Requester) (invitation : InvitationId)
  | updateRole (user : Requester) (list : ListId) (member : UserId) (role : Option String)
  | removeMember (user : Requester) (list : ListId) (member : UserId)
  | saveList (list : ListId)
  | ensureOwner (list : ListId)
  | setUser (id : UserId) (user : User)
  | hideCollections (user : UserId) (keys : List CollectionKey)

namespace ListState

variable (s : ListState)

/-- `IsAuthenticated`. -/
def authenticate (user : Requester) : Except ListError UserId :=
  match user with
  | some user => .ok user
  | none => .error .notAuthenticated

/-- `IsAuthenticated` and `ListActionPermission`. -/
def authorize (user : Requester) (list : ListId) (action : ListAction) :
    Except ListError UserId :=
  (authenticate user).bind fun id =>
    if hasPermission s user list action then .ok id else .error .permissionDenied

/-- `UserListViewSet.get_object`: an accessible list; a system list only if it is switched on. -/
def getList (user : UserId) (list : ListId) : Except ListError UserList :=
  match s.lists.get? list with
  | none => .error .notFound
  | some row =>
    if !isAccessible s.memberships (some user) list row then .error .notFound
    else if row.listType = .dynamic ∧ !row.dynamicKey.any (s.isCollectionEnabled user) then
      .error .notFound
    else .ok row

def createList (user : Requester) (fields : ListFields) : Except ListError ListState :=
  (authenticate user).bind fun user =>
  (validateList none false fields).bind fun attrs =>
    .ok (s.insertList (attrs.assign { owner := user, name := "" }))

def updateList (user : Requester) (list : ListId) (isPatch : Bool) (fields : ListFields) :
    Except ListError ListState :=
  (s.authorize user list .manageSettings).bind fun user =>
  (s.getList user list).bind fun row =>
  (validateList (some row) isPatch fields).bind fun attrs =>
    if row.listType = .dynamic then .error (.invalid "System-managed lists cannot be edited.")
    else .ok (s.save list (attrs.assign row))

def destroyList (user : Requester) (list : ListId) : Except ListError ListState :=
  (s.authorize user list .manageSettings).bind fun user =>
  (s.getList user list).bind fun row =>
    if row.listType = .dynamic then .error (.invalid "System-managed lists cannot be deleted.")
    else .ok (s.deleteList list)

/-- `User.objects.get`, where a user that does not exist is an error of the form. -/
def getUser (p : User → Bool) : Except ListError UserId :=
  match s.users.keysWhere fun _ user => p user with
  | [] => .error (.validation [("detail", "User not found.")])
  | [user] => .ok user
  | _ => .error .multipleObjectsReturned

/-- The user that an invitation is for. -/
def findInvitee (data : InvitationData) : Except ListError UserId :=
  match data.username, data.email with
  | some username, _ => s.getUser fun user => user.username = username
  | none, some email => s.getUser fun user => user.email = email
  | none, none => .error (.validation [("detail", "You must provide username or email.")])

def displayName (user : UserId) : String := ((s.users.get? user).map (·.username)).getD ""

/-- `ListInvitationCreateSerializer.is_valid`: the invitee and the role. -/
def validateInvitation (user : UserId) (list : ListId) (data : InvitationData) :
    Except ListError (UserId × ListRole) :=
  match validateChoice ListRole.ofChoice data.role with
  | .error text => .error (.validation [("role", text)])
  | .ok role =>
    (s.findInvitee data).bind fun invitee =>
      if invitee = user then .error (.validation [("detail", "You cannot invite yourself.")])
      else if (s.memberships.get? (list, invitee)).isSome then
        .error (.validation
          [("detail", "User " ++ s.displayName invitee ++ " is already a member of this list.")])
      else if s.invitations.any fun _ invitation =>
          invitation.userList = list && invitation.invitee = invitee
            && invitation.status = .pending then
        .error (.validation
          [("detail", "User " ++ s.displayName invitee
            ++ " already has a pending invitation to this list.")])
      else .ok (invitee, role.getD .editor)

/-- The list and the invitee are unique together. -/
def insertInvitation (invitation : ListInvitation) : Except ListError ListState :=
  if s.invitations.any fun _ other =>
      other.userList = invitation.userList && other.invitee = invitation.invitee then
    .error .integrityError
  else .ok { s with
    invitations := s.invitations.set s.nextInvitation invitation
    nextInvitation := s.nextInvitation + 1 }

def createInvitation (user : Requester) (list : ListId) (data : InvitationData) :
    Except ListError ListState :=
  (s.authorize user list .invite).bind fun inviter =>
  match s.lists.get? list with
  | none => .error (.detail 404 "List not found.")
  | some row =>
    if !can s.memberships ⟨list, row, none, none⟩ user .invite then
      .error (.detail 403 "Only the list owner can send invitations.")
    else if !isCollaborative row then
      .error (.detail 400 "Only shared lists can have invitations.")
    else
      (s.validateInvitation inviter list data).bind fun valid =>
        s.insertInvitation
          { userList := list, inviter, invitee := valid.1, role := valid.2 }

/-- `ListInvitationViewSet.get_object`: an invitation of the user, by them, or to a list of
    theirs. -/
def getInvitation (user : UserId) (invitation : InvitationId) :
    Except ListError (ListInvitation × UserList) :=
  match s.invitations.get? invitation with
  | none => .error .notFound
  | some row =>
    match s.lists.get? row.userList with
    | none => .error .notFound
    | some list =>
      if row.invitee = user ∨ row.inviter = user ∨ list.owner = user then .ok (row, list)
      else .error .notFound

def deleteInvitation (invitation : InvitationId) : ListState :=
  { s with invitations := s.invitations.delete invitation }

def respond (user : Requester) (invitation : InvitationId) (answer : Option String) :
    Except ListError ListState :=
  (authenticate user).bind fun user =>
  (s.getInvitation user invitation).bind fun (row, list) =>
    if row.invitee ≠ user then
      .error (.detail 403 "You can only respond to your own invitations.")
    else if row.status ≠ .pending then
      .error (.detail 400 "This invitation has already been responded to.")
    else
      match requireChoice InvitationAnswer.ofValue answer with
      | .error text => .error (.validation [("action", text)])
      | .ok .accept =>
        (s.addMember row.userList list row.invitee row.role).map (·.deleteInvitation invitation)
      | .ok .reject => .ok (s.deleteInvitation invitation)

def cancelInvitation (user : Requester) (invitation : InvitationId) : Except ListError ListState :=
  (authenticate user).bind fun id =>
  (s.getInvitation id invitation).bind fun (row, list) =>
    if row.inviter ≠ id ∧ !can s.memberships ⟨row.userList, list, none, none⟩ user .invite then
      .error (.detail 403 "Only the inviter or list owner can delete this invitation.")
    else .ok (s.deleteInvitation invitation)

/-- `_update_role`. -/
def updateRole (user : Requester) (list : ListId) (member : UserId) (role : Option String) :
    Except ListError ListState :=
  (s.authorize user list .manageMembers).bind fun _ =>
    if !(s.lists.get? list).any isCollaborative then
      .error (.detail 404 "Solo las listas compartidas tienen roles de membresía.")
    else
      match s.memberships.get? (list, member) with
      | none => .error (.detail 404 "El usuario no es miembro de la lista.")
      | some .owner =>
        .error (.detail 400 "El owner no puede cambiarse mediante este endpoint.")
      | some _ =>
        match requireChoice ListRole.ofChoice role with
        | .error text => .error (.validation [("role", text)])
        | .ok role => .ok { s with memberships := s.memberships.set (list, member) role }

/-- `ListMemberViewSet.destroy`. -/
def destroyMember (user : Requester) (list : ListId) (member : UserId) :
    Except ListError ListState :=
  (s.authorize user list .manageMembers).bind fun _ =>
  match s.lists.get? list with
  | none => .error (.detail 404 "Lista no encontrada.")
  | some row =>
    if (s.users.get? member).isNone then .error (.detail 404 "Usuario no encontrado.")
    else s.removeMember list row member

/-! ### The system -/

def handle : ListRequest → Except ListError ListState
  | .createList user fields => s.createList user fields
  | .updateList user list isPatch fields => s.updateList user list isPatch fields
  | .destroyList user list => s.destroyList user list
  | .syncCollections user => (authenticate user).map s.ensureDynamicCollections
  | .createInvitation user list data => s.createInvitation user list data
  | .respond user invitation answer => s.respond user invitation answer
  | .cancelInvitation user invitation => s.cancelInvitation user invitation
  | .updateRole user list member role => s.updateRole user list member role
  | .removeMember user list member => s.destroyMember user list member
  | .saveList list =>
    match s.lists.get? list with
    | none => .error .notFound
    | some row => .ok (s.save list row)
  | .ensureOwner list =>
    match s.lists.get? list with
    | none => .error .notFound
    | some row => .ok (s.ensureOwnerMembership list row)
  | .setUser id user => .ok { s with users := s.users.set id user }
  | .hideCollections user keys =>
    .ok { s with hiddenCollections := s.hiddenCollections.set user keys }

/-- A request is handled in one transaction; one that fails leaves the rows as they were. -/
def step (request : ListRequest) : ListState :=
  match s.handle request with
  | .ok s' => s'
  | .error _ => s

end ListState

/-- The list system, from the empty tables. -/
def listSystem : TransitionSystem ListState ListRequest where
  initial s := s = .empty
  step s request := some (s.step request)

end Denn.Lists
