import Denn.Core.Except
import Denn.Lists.System

/-!
# What a list request writes

Each request either leaves the rows alone or makes one of a few writes, and has checked what the
write needs. Everything later is derived from these alternatives.
-/

namespace Denn.Lists

open Core

/-! ### Owner memberships -/

/-- An owner row turned into an editor row. -/
def ListRole.demoted (role : ListRole) : ListRole := if role = .owner then .editor else role

lemma ListRole.demoted_ne_owner (role : ListRole) : role.demoted ≠ .owner := by
  cases role <;> decide

lemma get?_repairOwner (list : ListId) (owner : UserId) (memberships : Memberships) (id : ListId)
    (user : UserId) :
    (repairOwner list owner memberships).get? (id, user) =
      if id = list then
        if user = owner then some .owner else (memberships.get? (id, user)).map ListRole.demoted
      else memberships.get? (id, user) := by
  rw [repairOwner, Table.get?_set, Table.get?_updateWhere]
  by_cases hid : id = list
  · subst hid
    by_cases huser : user = owner
    · simp [huser]
    · simp [huser]
      rfl
  · simp [hid]

/-- Deleting the memberships of a list. -/
lemma get?_deleteMemberships (list : ListId) (memberships : Memberships) (id : ListId)
    (user : UserId) :
    (memberships.deleteWhere fun key _ => key.1 = list).get? (id, user) =
      if id = list then none else memberships.get? (id, user) := by
  have hkey := Table.get?_deleteWhere_key (fun key : ListId × UserId => key.1 = list) memberships
    (id, user)
  simpa only [decide_eq_true_eq] using hkey

/-! ### System lists -/

/-- `s'` is `s` with system lists added under new primary keys. -/
structure Extends (s s' : ListState) : Prop where
  memberships : s'.memberships = s.memberships
  invitations : s'.invitations = s.invitations
  nextInvitation : s'.nextInvitation = s.nextInvitation
  nextList : s.nextList ≤ s'.nextList
  old : ∀ id, id < s.nextList → s'.lists.get? id = s.lists.get? id
  new : ∀ id row, s.nextList ≤ id → s'.lists.get? id = some row →
    s.lists.get? id = some row ∨ id < s'.nextList ∧ row.listType = .dynamic

lemma Extends.refl (s : ListState) : Extends s s where
  memberships := rfl
  invitations := rfl
  nextInvitation := rfl
  nextList := le_rfl
  old _ _ := rfl
  new _ _ _ hrow := .inl hrow

lemma Extends.createCollection {s s' : ListState} (h : Extends s s') (user : UserId)
    (key : CollectionKey) : Extends s (s'.createCollection user key) where
  memberships := h.memberships
  invitations := h.invitations
  nextInvitation := h.nextInvitation
  nextList := h.nextList.trans (Nat.le_succ _)
  old id hid := by
    have hne : id ≠ s'.nextList := (hid.trans_le h.nextList).ne
    rw [ListState.createCollection, Table.get?_set_ne _ _ hne, h.old id hid]
  new id row hid hrow := by
    rw [ListState.createCollection, Table.get?_set] at hrow
    simp only [ListState.createCollection]
    split_ifs at hrow with hnew
    · cases hrow
      exact .inr ⟨hnew ▸ Nat.lt_succ_self _, rfl⟩
    · rcases h.new id row hid hrow with hold | ⟨hlt, hdynamic⟩
      · exact .inl hold
      · exact .inr ⟨hlt.trans (Nat.lt_succ_self _), hdynamic⟩

lemma extends_ensureDynamicCollections (s : ListState) (user : UserId) :
    Extends s (s.ensureDynamicCollections user) := by
  have hfold : ∀ (definitions : List DynamicCollectionDefinition) (s' : ListState),
      Extends s s' →
      Extends s (definitions.foldl (fun s d => s.createCollection user d.key) s') := by
    intro definitions
    induction definitions with
    | nil => exact fun s' h => h
    | cons d definitions ih => exact fun s' h => ih _ (h.createCollection user d.key)
  exact hfold _ s (.refl s)

/-! ### What the permissions check -/

variable {s s' : ListState}

/-- Sending invitations and managing members is for the owner of a shared list, or whoever has
    the role. -/
lemma can_manage {id : ListId} {row : UserList} {user : UserId} {action : ListAction}
    (haction : action = .invite ∨ action = .manageMembers)
    (h : can s.memberships ⟨id, row, none, none⟩ (some user) action = true) :
    row.listType = .shared ∧ (row.owner = user ∨ s.role id user = some .owner) := by
  rw [can, if_neg (by simp)] at h
  obtain ⟨role, hrole, hallows⟩ := Option.any_eq_true _ _ |>.mp h
  obtain ⟨m, hm, rfl⟩ := Option.map_eq_some_iff.mp hrole
  have hshared : row.listType = .shared ∧ m.role = .owner := by
    rcases haction with rfl | rfl <;>
    · simp only [roleAllows] at hallows
      split_ifs at hallows with hdynamic
      · simp at hallows
      · simpa [isCollaborative, and_comm] using hallows
  refine ⟨hshared.1, ?_⟩
  by_cases howner : row.owner = user
  · exact .inl howner
  · exact .inr (hshared.2 ▸ (getMembership_of_not_owner rfl howner hm).2)

lemma authorize_ok {user : Requester} {id : ListId} {action : ListAction} {u : UserId}
    (h : s.authorize user id action = .ok u) :
    user = some u ∧ ∃ row, s.lists.get? id = some row ∧
      can s.memberships ⟨id, row, none, none⟩ (some u) action = true := by
  obtain ⟨u', huser, hcheck⟩ := bind_eq_ok h
  cases user with
  | none => cases huser
  | some v =>
    cases huser
    split_ifs at hcheck with hpermission
    cases hcheck
    simp only [hasPermission, Option.isSome_some, Bool.true_and] at hpermission
    obtain ⟨row, hrow, hcan⟩ := Option.any_eq_true _ _ |>.mp hpermission
    exact ⟨rfl, row, hrow, hcan⟩

lemma getList_ok {user : UserId} {id : ListId} {row : UserList}
    (h : s.getList user id = .ok row) : s.lists.get? id = some row := by
  unfold ListState.getList at h
  split at h
  · cases h
  · next hrow =>
    split_ifs at h
    cases h
    exact hrow

lemma getInvitation_ok {user : UserId} {id : InvitationId} {found : ListInvitation × UserList}
    (h : s.getInvitation user id = .ok found) :
    s.invitations.get? id = some found.1 ∧ s.lists.get? found.1.userList = some found.2 := by
  unfold ListState.getInvitation at h
  split at h
  · cases h
  · next hinvitation =>
    split at h
    · cases h
    · next hlist =>
      split_ifs at h
      cases h
      exact ⟨hinvitation, hlist⟩

/-- The validated list type is that of the list, or of a list that users make. -/
lemma validateList_ok {instance? : Option UserList} {isPatch : Bool} {fields : ListFields}
    {attrs : ListAttrs} (h : validateList instance? isPatch fields = .ok attrs) :
    ∀ listType, attrs.listType = some listType →
      listType ≠ .dynamic ∧ ∀ row, instance? = some row → row.listType = listType := by
  unfold validateList at h
  split at h
  · next listType visibility hname hlistType hvisibility =>
    cases h
    intro value hvalue
    obtain rfl : listType = some value := hvalue
    obtain ⟨choice, -, hchecked⟩ := bind_eq_ok hlistType
    cases choice with
    | none => cases hchecked
    | some choice =>
      simp only at hchecked
      split_ifs at hchecked with hdynamic hchanged
      cases hchecked
      refine ⟨hdynamic, ?_⟩
      rintro row rfl
      simpa using hchanged
  · cases h

/-! ### The writes -/

/-- The role that an invitation asks for. -/
def InvitationData.invitedRole (data : InvitationData) : Option ListRole :=
  data.role.elim (some .editor) ListRole.ofChoice

/-- What a request may write, with what it has checked before. -/
inductive Write (s : ListState) : ListRequest → ListState → Prop
  | extended {request : ListRequest} {s' : ListState} (h : Extends s s') : Write s request s'
  | saved {request : ListRequest} {id : ListId} {old row : UserList}
      (hold : s.lists.get? id = some old) (howner : row.owner = old.owner)
      (htype : row.listType = old.listType) : Write s request (s.save id row)
  | created {request : ListRequest} {row : UserList} (htype : row.listType ≠ .dynamic) :
      Write s request (s.insertList row)
  | deleted {request : ListRequest} {id : ListId} : Write s request (s.deleteList id)
  | repaired {request : ListRequest} {id : ListId} {row : UserList}
      (hrow : s.lists.get? id = some row) : Write s request (s.ensureOwnerMembership id row)
  | invited {user invitee : UserId} {list : ListId} {data : InvitationData} {row : UserList}
      {role : ListRole} (hrow : s.lists.get? list = some row) (hshared : row.listType = .shared)
      (howner : row.owner = user ∨ s.role list user = some .owner)
      (hinvitee : s.findInvitee data = .ok invitee) (hself : invitee ≠ user)
      (hrole : data.invitedRole = some role) :
      Write s (.createInvitation (some user) list data)
        { s with
          invitations := s.invitations.set s.nextInvitation
            { userList := list, inviter := user, invitee, role }
          nextInvitation := s.nextInvitation + 1 }
  | accepted {id : InvitationId} {row : ListInvitation} {list : UserList}
      (hrow : s.invitations.get? id = some row) (hlist : s.lists.get? row.userList = some list)
      (hshared : list.listType = .shared) (hrole : row.role ≠ .owner)
      (hnew : s.role row.userList row.invitee = none) :
      Write s (.respond (some row.invitee) id (some "accept"))
        ({ s with memberships := s.memberships.set (row.userList, row.invitee) row.role
          }.deleteInvitation id)
  | answered {request : ListRequest} {id : InvitationId} : Write s request (s.deleteInvitation id)
  | roleChanged {request : ListRequest} {list : ListId} {member : UserId} {old role : ListRole}
      (hold : s.role list member = some old) (hnot : old ≠ .owner) (hrole : role ≠ .owner) :
      Write s request { s with memberships := s.memberships.set (list, member) role }
  | removed {request : ListRequest} {list : ListId} {member : UserId} {row : UserList}
      (hrow : s.lists.get? list = some row) (hshared : row.listType = .shared)
      (hne : member ≠ row.owner) :
      Write s request { s with memberships := s.memberships.delete (list, member) }

lemma createList_write {user : Requester} {fields : ListFields}
    (h : s.createList user fields = .ok s') : Write s (.createList user fields) s' := by
  obtain ⟨owner, -, h⟩ := bind_eq_ok h
  obtain ⟨attrs, hattrs, h⟩ := bind_eq_ok h
  cases h
  refine .created ?_
  cases hlistType : attrs.listType with
  | none => simp [ListAttrs.assign, hlistType]
  | some listType => simpa [ListAttrs.assign, hlistType] using (validateList_ok hattrs _ hlistType).1

lemma updateList_write {user : Requester} {list : ListId} {isPatch : Bool} {fields : ListFields}
    (h : s.updateList user list isPatch fields = .ok s') :
    Write s (.updateList user list isPatch fields) s' := by
  obtain ⟨u, -, h⟩ := bind_eq_ok h
  obtain ⟨row, hrow, h⟩ := bind_eq_ok h
  obtain ⟨attrs, hattrs, h⟩ := bind_eq_ok h
  split_ifs at h
  cases h
  refine .saved (getList_ok hrow) rfl ?_
  cases hlistType : attrs.listType with
  | none => simp [ListAttrs.assign, hlistType]
  | some listType =>
    have hsame := (validateList_ok hattrs _ hlistType).2 row rfl
    simp [ListAttrs.assign, hlistType, hsame]

lemma destroyList_write {user : Requester} {list : ListId}
    (h : s.destroyList user list = .ok s') : Write s (.destroyList user list) s' := by
  obtain ⟨u, -, h⟩ := bind_eq_ok h
  obtain ⟨row, -, h⟩ := bind_eq_ok h
  split_ifs at h
  cases h
  exact .deleted

lemma validateInvitation_ok {user invitee : UserId} {list : ListId} {data : InvitationData}
    {role : ListRole} (h : s.validateInvitation user list data = .ok (invitee, role)) :
    s.findInvitee data = .ok invitee ∧ invitee ≠ user ∧ data.invitedRole = some role := by
  unfold ListState.validateInvitation at h
  split at h
  · cases h
  · next choice hchoice =>
    obtain ⟨found, hfound, h⟩ := bind_eq_ok h
    split_ifs at h with hself
    cases h
    refine ⟨hfound, hself, ?_⟩
    rw [InvitationData.invitedRole]
    cases hdata : data.role with
    | none =>
      rw [hdata] at hchoice
      cases hchoice
      rfl
    | some value =>
      rw [hdata, validateChoice] at hchoice
      split at hchoice <;> cases hchoice
      assumption

lemma createInvitation_write {user : Requester} {list : ListId} {data : InvitationData}
    (h : s.createInvitation user list data = .ok s') :
    Write s (.createInvitation user list data) s' := by
  obtain ⟨inviter, hauthorized, h⟩ := bind_eq_ok h
  obtain ⟨rfl, row, hrow, hcan⟩ := authorize_ok hauthorized
  obtain ⟨hshared, howner⟩ := can_manage (.inl rfl) hcan
  simp only [hrow] at h
  split_ifs at h
  obtain ⟨⟨invitee, role⟩, hvalid, h⟩ := bind_eq_ok h
  obtain ⟨hinvitee, hself, hrole⟩ := validateInvitation_ok hvalid
  unfold ListState.insertInvitation at h
  split_ifs at h
  cases h
  exact .invited hrow hshared howner hinvitee hself hrole

/-- Accepting is answering with the word for it. -/
lemma requireChoice_accept {answer : Option String}
    (h : requireChoice InvitationAnswer.ofValue answer = .ok .accept) :
    answer = some "accept" := by
  cases answer with
  | none => cases h
  | some value =>
    simp only [requireChoice] at h
    split at h <;> cases h
    next hvalue =>
    unfold InvitationAnswer.ofValue at hvalue
    split at hvalue <;> simp at hvalue
    rfl

lemma respond_write {user : Requester} {invitation : InvitationId} {answer : Option String}
    (h : s.respond user invitation answer = .ok s') :
    Write s (.respond user invitation answer) s' := by
  cases user with
  | none => cases h
  | some u =>
    obtain ⟨v, huser, hrest⟩ := bind_eq_ok h
    obtain rfl : u = v := Except.ok.inj huser
    obtain ⟨⟨row, list⟩, hfound, hbranch⟩ := bind_eq_ok hrest
    obtain ⟨hrow, hlist⟩ := getInvitation_ok hfound
    simp only at hbranch hrow hlist
    split_ifs at hbranch with hinvitee hstatus
    obtain rfl : row.invitee = u := not_not.mp hinvitee
    split at hbranch
    · cases hbranch
    · next hanswer =>
      obtain rfl := requireChoice_accept hanswer
      obtain ⟨added, hadded, rfl⟩ := map_eq_ok hbranch
      unfold ListState.addMember at hadded
      split_ifs at hadded with hshared hrole
      split at hadded <;> cases hadded
      · exact .answered
      · next hnew =>
        exact .accepted hrow hlist (by simpa [isCollaborative] using hshared) hrole hnew
    · cases hbranch
      exact .answered

lemma cancelInvitation_write {user : Requester} {invitation : InvitationId}
    (h : s.cancelInvitation user invitation = .ok s') :
    Write s (.cancelInvitation user invitation) s' := by
  obtain ⟨u, -, h⟩ := bind_eq_ok h
  obtain ⟨⟨row, list⟩, -, h⟩ := bind_eq_ok h
  simp only at h
  split_ifs at h
  cases h
  exact .answered

lemma updateRole_write {user : Requester} {list : ListId} {member : UserId}
    {role : Option String} (h : s.updateRole user list member role = .ok s') :
    Write s (.updateRole user list member role) s' := by
  obtain ⟨u, -, h⟩ := bind_eq_ok h
  split_ifs at h
  split at h
  · cases h
  · cases h
  · next old hnot hold =>
    split at h <;> cases h
    next role hrole =>
    refine .roleChanged hold (fun howner => hnot (howner ▸ rfl)) ?_
    unfold requireChoice at hrole
    split at hrole
    · cases hrole
    · split at hrole <;> cases hrole
      next hchoice => exact ListRole.ofChoice_ne_owner hchoice

lemma destroyMember_write {user : Requester} {list : ListId} {member : UserId}
    (h : s.destroyMember user list member = .ok s') :
    Write s (.removeMember user list member) s' := by
  obtain ⟨u, -, h⟩ := bind_eq_ok h
  split at h
  · cases h
  · next row hrow =>
    split_ifs at h
    unfold ListState.removeMember at h
    split_ifs at h with hshared howner
    split at h <;> cases h
    exact .removed hrow (by simpa [isCollaborative] using hshared) howner

/-- A request that succeeds makes one of the writes. -/
lemma handle_write {request : ListRequest} (h : s.handle request = .ok s') :
    Write s request s' := by
  cases request with
  | createList user fields => exact createList_write h
  | updateList user list isPatch fields => exact updateList_write h
  | destroyList user list => exact destroyList_write h
  | syncCollections user =>
    obtain ⟨u, -, rfl⟩ := map_eq_ok h
    exact .extended (extends_ensureDynamicCollections s u)
  | createInvitation user list data => exact createInvitation_write h
  | respond user invitation answer => exact respond_write h
  | cancelInvitation user invitation => exact cancelInvitation_write h
  | updateRole user list member role => exact updateRole_write h
  | removeMember user list member => exact destroyMember_write h
  | saveList list =>
    simp only [ListState.handle] at h
    split at h <;> cases h
    next row hrow => exact .saved hrow rfl rfl
  | ensureOwner list =>
    simp only [ListState.handle] at h
    split at h <;> cases h
    next row hrow => exact .repaired hrow
  | setUser id user =>
    cases h
    exact .extended ⟨rfl, rfl, rfl, le_rfl, fun _ _ => rfl, fun _ _ _ hrow => .inl hrow⟩
  | hideCollections user keys =>
    cases h
    exact .extended ⟨rfl, rfl, rfl, le_rfl, fun _ _ => rfl, fun _ _ _ hrow => .inl hrow⟩

/-- Every step makes one of the writes. -/
theorem step_write (s : ListState) (request : ListRequest) : Write s request (s.step request) := by
  unfold ListState.step
  split
  · next h => exact handle_write h
  · exact .extended (.refl s)

end Denn.Lists
