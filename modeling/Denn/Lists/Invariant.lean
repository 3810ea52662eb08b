import Denn.Lists.Writes

/-!
# Owners and members in every reachable state

A list is known here by its owner and its type, which no write changes. The invariant ties the
owner rows of the memberships to the owners of the lists, and the pending invitations to shared
lists and their owners.
-/

namespace Denn.Lists

open Core

namespace ListState

variable (s : ListState)

/-- The owner and the type of a list. -/
def kind (id : ListId) : Option (UserId × ListType) :=
  (s.lists.get? id).map fun row => (row.owner, row.listType)

variable {s}

lemma kind_of_row {id : ListId} {row : UserList} (h : s.lists.get? id = some row) :
    s.kind id = some (row.owner, row.listType) := by
  rw [kind, h, Option.map_some]

lemma kind_eq_some_iff {id : ListId} {owner : UserId} {listType : ListType} :
    s.kind id = some (owner, listType) ↔
      ∃ row, s.lists.get? id = some row ∧ row.owner = owner ∧ row.listType = listType := by
  simp [kind]

/-- What holds in every reachable state. -/
structure Invariant (s : ListState) : Prop where
  fresh : ∀ id kind, s.kind id = some kind → id < s.nextList
  member : ∀ id user role, s.role id user = some role →
    ∃ owner listType, s.kind id = some (owner, listType) ∧ listType ≠ .dynamic
  owner : ∀ id owner listType, s.kind id = some (owner, listType) → listType ≠ .dynamic →
    ∀ user, s.role id user = some .owner ↔ user = owner
  invitation : ∀ id invitation, s.invitations.get? id = some invitation →
    s.kind invitation.userList = some (invitation.inviter, .shared) ∧
    invitation.invitee ≠ invitation.inviter

lemma Invariant.empty : ListState.empty.Invariant where
  fresh id kind h := by simp [ListState.kind, ListState.empty] at h
  member id user role h := by simp [ListState.role, ListState.empty] at h
  owner id owner listType h := by simp [ListState.kind, ListState.empty] at h
  invitation id invitation h := by simp [ListState.empty] at h

lemma Invariant.role_eq_none (h : s.Invariant) {id : ListId} (hid : s.nextList ≤ id)
    (user : UserId) : s.role id user = none := by
  by_contra hrole
  obtain ⟨role, hrole⟩ := Option.ne_none_iff_exists'.mp hrole
  obtain ⟨owner, listType, hkind, -⟩ := h.member id user role hrole
  exact absurd (h.fresh id _ hkind) (Nat.not_lt.mpr hid)

lemma Invariant.role_dynamic (h : s.Invariant) {id : ListId} {owner : UserId}
    (hkind : s.kind id = some (owner, .dynamic)) (user : UserId) : s.role id user = none := by
  by_contra hrole
  obtain ⟨role, hrole⟩ := Option.ne_none_iff_exists'.mp hrole
  obtain ⟨owner', listType, hkind', hdynamic⟩ := h.member id user role hrole
  rw [hkind, Option.some.injEq, Prod.mk.injEq] at hkind'
  exact hdynamic hkind'.2.symm

/-! ### Repairs -/

/-- In a state with the invariant there is nothing to repair. -/
lemma Invariant.get?_repairOwner (h : s.Invariant) {list : ListId} {owner : UserId}
    {listType : ListType} (hkind : s.kind list = some (owner, listType))
    (hdynamic : listType ≠ .dynamic) (id : ListId) (user : UserId) :
    (repairOwner list owner s.memberships).get? (id, user) = s.role id user := by
  rw [Lists.get?_repairOwner]
  split_ifs with hid huser
  · subst hid
    exact ((h.owner id owner listType hkind hdynamic user).mpr huser).symm
  · subst hid
    have hnot : s.role id user ≠ some .owner := fun hrole =>
      huser ((h.owner id owner listType hkind hdynamic user).mp hrole)
    rw [ListState.role] at hnot ⊢
    cases hrole : s.memberships.get? (id, user) with
    | none => rfl
    | some role =>
      rw [hrole] at hnot
      have hne : role ≠ .owner := fun heq => hnot (congrArg some heq)
      rw [Option.map_some, ListRole.demoted, if_neg hne]
  · rfl

lemma kind_save {id : ListId} {old row : UserList} (hold : s.lists.get? id = some old)
    (howner : row.owner = old.owner) (htype : row.listType = old.listType) (l : ListId) :
    (s.save id row).kind l = s.kind l := by
  rw [kind, kind, save, Table.get?_set]
  split_ifs with hl
  · rw [hl, hold, Option.map_some, Option.map_some, howner, htype]
  · rfl

lemma Invariant.role_save (h : s.Invariant) {id : ListId} {old row : UserList}
    (hold : s.lists.get? id = some old) (howner : row.owner = old.owner)
    (htype : row.listType = old.listType) (l : ListId) (user : UserId) :
    (s.save id row).role l user = s.role l user := by
  have hkind : s.kind id = some (row.owner, row.listType) := by
    rw [kind_of_row hold, howner, htype]
  by_cases hdynamic : row.listType = .dynamic
  · rw [hdynamic] at hkind
    simp only [role, save, ne_eq, hdynamic, not_true_eq_false, if_false]
    rw [get?_deleteMemberships]
    split_ifs with hl
    · subst hl
      exact (h.role_dynamic hkind user).symm
    · rfl
  · have hrepair := h.get?_repairOwner hkind hdynamic l user
    rwa [← if_pos (c := row.listType ≠ .dynamic) (t := repairOwner id row.owner s.memberships)
      (e := s.memberships.deleteWhere fun key _ => key.1 = id) hdynamic] at hrepair

lemma Invariant.role_ensureOwnerMembership (h : s.Invariant) {id : ListId} {row : UserList}
    (hrow : s.lists.get? id = some row) (l : ListId) (user : UserId) :
    (s.ensureOwnerMembership id row).role l user = s.role l user := by
  rw [ensureOwnerMembership]
  split_ifs with hdynamic
  · rfl
  · exact h.get?_repairOwner (kind_of_row hrow) hdynamic l user

/-! ### New lists and deleted lists -/

lemma kind_insertList (row : UserList) (l : ListId) :
    (s.insertList row).kind l =
      if l = s.nextList then some (row.owner, row.listType) else s.kind l := by
  rw [kind, kind, insertList, save, Table.get?_set]
  split_ifs <;> rfl

lemma Invariant.role_insertList (h : s.Invariant) {row : UserList}
    (htype : row.listType ≠ .dynamic) (l : ListId) (user : UserId) :
    (s.insertList row).role l user =
      if l = s.nextList ∧ user = row.owner then some .owner else s.role l user := by
  have hrepair : (s.insertList row).role l user
      = (repairOwner s.nextList row.owner s.memberships).get? (l, user) := by
    simp only [role, insertList, save, ne_eq, htype, not_false_eq_true, if_true]
  rw [hrepair, Lists.get?_repairOwner]
  by_cases hl : l = s.nextList
  · subst hl
    have hnone := h.role_eq_none le_rfl user
    rw [role] at hnone
    simp [role, hnone]
  · simp [role, hl]

lemma kind_deleteList (id l : ListId) :
    (s.deleteList id).kind l = if l = id then none else s.kind l := by
  rw [kind, kind, deleteList, Table.get?_delete]
  split_ifs <;> rfl

lemma role_deleteList (id l : ListId) (user : UserId) :
    (s.deleteList id).role l user = if l = id then none else s.role l user := by
  rw [role, role, deleteList]
  exact get?_deleteMemberships id s.memberships l user

/-! ### Single memberships -/

/-- The role after one membership row was written. -/
lemma role_setMembership (list : ListId) (member : UserId) (role : ListRole) (l : ListId)
    (user : UserId) :
    { s with memberships := s.memberships.set (list, member) role }.role l user =
      if l = list ∧ user = member then some role else s.role l user := by
  rw [ListState.role, ListState.role, Table.get?_set]
  simp only [Prod.mk.injEq]

lemma role_deleteMembership (list : ListId) (member : UserId) (l : ListId) (user : UserId) :
    { s with memberships := s.memberships.delete (list, member) }.role l user =
      if l = list ∧ user = member then none else s.role l user := by
  rw [ListState.role, ListState.role, Table.get?_delete]
  simp only [Prod.mk.injEq]

/-! ### The step -/

/-- The lists stay as they are, and so do the owner rows. -/
structure KeepsLists (s s' : ListState) : Prop where
  kind : ∀ l, s'.kind l = s.kind l
  nextList : s'.nextList = s.nextList
  owner : ∀ l user, s'.role l user = some .owner ↔ s.role l user = some .owner

/-- A write keeps the lists and the owner rows, adds system lists, adds a list that is no system
    list, or deletes a list. -/
lemma Invariant.write_cases {request : ListRequest} {s' : ListState} (h : s.Invariant)
    (hwrite : Write s request s') :
    KeepsLists s s' ∨ Extends s s' ∨
    (∃ row : UserList, row.listType ≠ .dynamic ∧ s' = s.insertList row) ∨
    ∃ id, s' = s.deleteList id := by
  cases hwrite with
  | extended hext => exact .inr (.inl hext)
  | saved hold howner htype =>
    refine .inl ⟨kind_save hold howner htype, rfl, fun l user => ?_⟩
    rw [h.role_save hold howner htype]
  | @created _ row htype => exact .inr (.inr (.inl ⟨row, htype, rfl⟩))
  | @deleted _ id => exact .inr (.inr (.inr ⟨id, rfl⟩))
  | @repaired _ id row hrow =>
    refine .inl ⟨fun l => ?_, ?_, fun l user => ?_⟩
    · unfold ensureOwnerMembership
      split_ifs <;> rfl
    · unfold ensureOwnerMembership
      split_ifs <;> rfl
    · rw [h.role_ensureOwnerMembership hrow]
  | invited => exact .inl ⟨fun _ => rfl, rfl, fun _ _ => Iff.rfl⟩
  | @accepted id row list hrow hlist hshared hrole hnew =>
    refine .inl ⟨fun _ => rfl, rfl, fun l user => ?_⟩
    have hset := role_setMembership (s := s) row.userList row.invitee row.role l user
    change ({ s with memberships := s.memberships.set (row.userList, row.invitee) row.role
      } : ListState).role l user = some .owner ↔ _
    rw [hset]
    split_ifs with hsame
    · obtain ⟨rfl, rfl⟩ := hsame
      simp [hrole, hnew]
    · exact Iff.rfl
  | answered => exact .inl ⟨fun _ => rfl, rfl, fun _ _ => Iff.rfl⟩
  | @roleChanged _ list member old role hold hnot hrole =>
    refine .inl ⟨fun _ => rfl, rfl, fun l user => ?_⟩
    rw [role_setMembership]
    split_ifs with hsame
    · obtain ⟨rfl, rfl⟩ := hsame
      simp [hrole, hold, hnot]
    · exact Iff.rfl
  | @removed _ list member row hrow hshared hne =>
    refine .inl ⟨fun _ => rfl, rfl, fun l user => ?_⟩
    rw [role_deleteMembership]
    split_ifs with hsame
    · obtain ⟨rfl, rfl⟩ := hsame
      have hdynamic : row.listType ≠ .dynamic := by simp [hshared]
      rw [h.owner _ _ _ (kind_of_row hrow) hdynamic]
      simp [hne]
    · exact Iff.rfl

/-- A new member is the owner of a new list, or has accepted an invitation to a shared list. -/
lemma Invariant.joined {request : ListRequest} {s' : ListState} (h : s.Invariant)
    (hwrite : Write s request s') {l : ListId} {user : UserId} {role : ListRole}
    (hnone : s.role l user = none) (hrole : s'.role l user = some role) :
    (∃ row : UserList, row.listType ≠ .dynamic ∧ s' = s.insertList row ∧ l = s.nextList
      ∧ user = row.owner ∧ role = .owner) ∨
    ∃ id invitation owner, s.invitations.get? id = some invitation
      ∧ request = .respond (some user) id (some "accept") ∧ invitation.userList = l
      ∧ invitation.invitee = user ∧ invitation.role = role ∧ s.kind l = some (owner, .shared) := by
  have hkept : s'.role l user ≠ s.role l user := by
    rw [hnone, hrole]
    exact Option.some_ne_none role
  cases hwrite with
  | extended hext =>
    rw [ListState.role, ListState.role, hext.memberships] at hkept
    exact absurd rfl hkept
  | saved hold howner htype => exact absurd (h.role_save hold howner htype l user) hkept
  | @created _ row htype =>
    rw [h.role_insertList htype] at hrole
    split_ifs at hrole with hnew
    · cases hrole
      exact .inl ⟨row, htype, rfl, hnew.1, hnew.2, rfl⟩
    · rw [hnone] at hrole
      cases hrole
  | @deleted _ id =>
    rw [role_deleteList] at hrole
    split_ifs at hrole
    rw [hnone] at hrole
    cases hrole
  | repaired hrow => exact absurd (h.role_ensureOwnerMembership hrow l user) hkept
  | invited => exact absurd rfl hkept
  | @accepted id row list hrow hlist hshared hnot hnew =>
    have hset := role_setMembership (s := s) row.userList row.invitee row.role l user
    by_cases hsame : l = row.userList ∧ user = row.invitee
    · rw [if_pos hsame] at hset
      obtain ⟨rfl, rfl⟩ := hsame
      have hrole' : some row.role = some role := hset.symm.trans hrole
      rw [Option.some.injEq] at hrole'
      exact .inr ⟨id, row, list.owner, hrow, rfl, rfl, rfl, hrole', hshared ▸ kind_of_row hlist⟩
    · rw [if_neg hsame] at hset
      exact absurd hset hkept
  | answered => exact absurd rfl hkept
  | @roleChanged _ list member old new hold hnot hnew =>
    rw [role_setMembership] at hrole
    split_ifs at hrole with hsame
    · obtain ⟨rfl, rfl⟩ := hsame
      rw [hnone] at hold
      cases hold
    · rw [hnone] at hrole
      cases hrole
  | @removed _ list member row hrow hshared hne =>
    rw [role_deleteMembership] at hrole
    split_ifs at hrole
    rw [hnone] at hrole
    cases hrole

/-- Where an invitation comes from: the owner of the shared list has sent it. -/
structure SentBy (s : ListState) (request : ListRequest) (invitation : ListInvitation) : Prop where
  kind : s.kind invitation.userList = some (invitation.inviter, .shared)
  invitee_ne : invitation.invitee ≠ invitation.inviter
  sent : ∃ data, request = .createInvitation (some invitation.inviter) invitation.userList data
    ∧ s.findInvitee data = .ok invitation.invitee ∧ data.invitedRole = some invitation.role

lemma Invariant.kind_extended {s' : ListState} (h : s.Invariant) (hext : Extends s s')
    {l : ListId} {kind : UserId × ListType} (hkind : s.kind l = some kind) :
    s'.kind l = some kind := by
  rw [ListState.kind, hext.old l (h.fresh l _ hkind)]
  exact hkind

lemma Invariant.kind_inserted (h : s.Invariant) (row : UserList) {l : ListId}
    {kind : UserId × ListType} (hkind : s.kind l = some kind) :
    (s.insertList row).kind l = some kind := by
  rw [kind_insertList, if_neg (h.fresh l _ hkind).ne, hkind]

/-- An invitation was there before, or the owner of its list has sent it; either way its list
    stays as it is. -/
lemma Invariant.invitation_write {request : ListRequest} {s' : ListState} (h : s.Invariant)
    (hwrite : Write s request s') {id : InvitationId} {invitation : ListInvitation}
    (hinvitation : s'.invitations.get? id = some invitation) :
    s'.kind invitation.userList = s.kind invitation.userList ∧
    (s.invitations.get? id = some invitation ∨ SentBy s request invitation) := by
  cases hwrite with
  | extended hext =>
    rw [hext.invitations] at hinvitation
    obtain ⟨hkind, -⟩ := h.invitation id invitation hinvitation
    exact ⟨by rw [h.kind_extended hext hkind, hkind], .inl hinvitation⟩
  | saved hold howner htype => exact ⟨kind_save hold howner htype _, .inl hinvitation⟩
  | @created _ row htype =>
    obtain ⟨hkind, -⟩ := h.invitation id invitation hinvitation
    exact ⟨by rw [h.kind_inserted row hkind, hkind], .inl hinvitation⟩
  | @deleted _ l =>
    simp only [deleteList, Table.get?_deleteWhere] at hinvitation
    rw [Option.filter_eq_some_iff] at hinvitation
    have hne : invitation.userList ≠ l := by simpa using hinvitation.2
    exact ⟨by rw [kind_deleteList, if_neg hne], .inl hinvitation.1⟩
  | @repaired _ l row hrow =>
    unfold ensureOwnerMembership at hinvitation ⊢
    split_ifs at hinvitation ⊢ <;> exact ⟨rfl, .inl hinvitation⟩
  | @invited user invitee list data row role hrow hshared howner hinvitee hself hrole =>
    rcases Table.get?_set_cases hinvitation with ⟨-, rfl⟩ | hinvitation
    · have hkind : s.kind list = some (row.owner, .shared) := hshared ▸ kind_of_row hrow
      have hsender : row.owner = user :=
        howner.elim (fun heq => heq) fun hrole =>
          ((h.owner _ _ _ hkind (by simp) _).mp hrole).symm
      subst hsender
      exact ⟨rfl, .inr ⟨hkind, hself, data, rfl, hinvitee, hrole⟩⟩
    · exact ⟨rfl, .inl hinvitation⟩
  | accepted | answered => exact ⟨rfl, .inl (Table.get?_of_delete hinvitation).2⟩
  | roleChanged | removed => exact ⟨rfl, .inl hinvitation⟩

/-- A role stands on a list that is no system list, also after the write. -/
lemma Invariant.member_write {request : ListRequest} {s' : ListState} (h : s.Invariant)
    (hwrite : Write s request s') {l : ListId} {user : UserId} {role : ListRole}
    (hrole : s'.role l user = some role) :
    ∃ owner listType, s'.kind l = some (owner, listType) ∧ listType ≠ .dynamic := by
  have hold : ∀ role, s.role l user = some role →
      ∃ owner listType, s.kind l = some (owner, listType) ∧ listType ≠ .dynamic :=
    fun role => h.member l user role
  rcases h.write_cases hwrite with hkeeps | hext | ⟨row, htype, rfl⟩ | ⟨id, rfl⟩
  · rw [hkeeps.kind]
    cases hbefore : s.role l user with
    | some before => exact hold before hbefore
    | none =>
      rcases h.joined hwrite hbefore hrole with ⟨row, -, rfl, rfl, -⟩ | hinvited
      · exact absurd hkeeps.nextList (Nat.succ_ne_self _)
      · obtain ⟨-, -, owner, -, -, -, -, -, hkind⟩ := hinvited
        exact ⟨owner, .shared, hkind, by simp⟩
  · rw [ListState.role, hext.memberships] at hrole
    obtain ⟨owner, listType, hkind, hdynamic⟩ := hold role hrole
    exact ⟨owner, listType, h.kind_extended hext hkind, hdynamic⟩
  · rw [h.role_insertList htype] at hrole
    split_ifs at hrole with hnew
    · exact ⟨row.owner, row.listType, by rw [kind_insertList, if_pos hnew.1], htype⟩
    · obtain ⟨owner, listType, hkind, hdynamic⟩ := hold role hrole
      exact ⟨owner, listType, h.kind_inserted row hkind, hdynamic⟩
  · rw [role_deleteList] at hrole
    rw [kind_deleteList]
    split_ifs at hrole ⊢
    exact hold role hrole

/-- The owner row of a list is that of its owner, also after the write. -/
lemma Invariant.owner_write {request : ListRequest} {s' : ListState} (h : s.Invariant)
    (hwrite : Write s request s') {l : ListId} {owner : UserId} {listType : ListType}
    (hkind : s'.kind l = some (owner, listType)) (hdynamic : listType ≠ .dynamic)
    (user : UserId) : s'.role l user = some .owner ↔ user = owner := by
  rcases h.write_cases hwrite with hkeeps | hext | ⟨row, htype, rfl⟩ | ⟨id, rfl⟩
  · rw [hkeeps.kind] at hkind
    rw [hkeeps.owner, h.owner l owner listType hkind hdynamic]
  · rw [ListState.role, hext.memberships]
    obtain ⟨row, hrow, howner, htype⟩ := kind_eq_some_iff.mp hkind
    rcases Nat.lt_or_ge l s.nextList with hlt | hge
    · rw [kind, hext.old l hlt] at hkind
      exact h.owner l owner listType hkind hdynamic user
    · rcases hext.new l row hge hrow with hold | ⟨-, hnew⟩
      · exact h.owner l owner listType (by rw [kind_of_row hold, howner, htype]) hdynamic user
      · exact absurd (htype ▸ hnew) hdynamic
  · rw [kind_insertList] at hkind
    rw [h.role_insertList htype]
    split_ifs at hkind with hl
    · subst hl
      cases hkind
      by_cases huser : user = row.owner <;> simp [huser, h.role_eq_none le_rfl]
    · simp only [hl, false_and, if_false]
      exact h.owner l owner listType hkind hdynamic user
  · rw [kind_deleteList] at hkind
    rw [role_deleteList]
    split_ifs at hkind ⊢
    exact h.owner l owner listType hkind hdynamic user

/-- Primary keys stay below the next one. -/
lemma Invariant.fresh_write {request : ListRequest} {s' : ListState} (h : s.Invariant)
    (hwrite : Write s request s') {l : ListId} {kind : UserId × ListType}
    (hkind : s'.kind l = some kind) : l < s'.nextList := by
  rcases h.write_cases hwrite with hkeeps | hext | ⟨row, htype, rfl⟩ | ⟨id, rfl⟩
  · rw [hkeeps.kind] at hkind
    rw [hkeeps.nextList]
    exact h.fresh l kind hkind
  · obtain ⟨row, hrow, -, -⟩ := kind_eq_some_iff.mp hkind
    rcases Nat.lt_or_ge l s.nextList with hlt | hge
    · exact hlt.trans_le hext.nextList
    · rcases hext.new l row hge hrow with hold | ⟨hlt, -⟩
      · exact (h.fresh l _ (kind_of_row hold)).trans_le hext.nextList
      · exact hlt
  · rw [kind_insertList] at hkind
    split_ifs at hkind with hl
    · exact hl ▸ Nat.lt_succ_self _
    · exact (h.fresh l _ hkind).trans (Nat.lt_succ_self _)
  · rw [kind_deleteList] at hkind
    split_ifs at hkind
    exact h.fresh l _ hkind

theorem Invariant.step (h : s.Invariant) (request : ListRequest) : (s.step request).Invariant where
  fresh _ _ hkind := h.fresh_write (step_write s request) hkind
  member _ _ _ hrole := h.member_write (step_write s request) hrole
  owner _ _ _ hkind hdynamic user := h.owner_write (step_write s request) hkind hdynamic user
  invitation id invitation hinvitation := by
    obtain ⟨hkind, hold | hsent⟩ := h.invitation_write (step_write s request) hinvitation
    · rw [hkind]
      exact h.invitation id invitation hold
    · rw [hkind]
      exact ⟨hsent.kind, hsent.invitee_ne⟩

/-- The invariant holds in every reachable state. -/
theorem invariant_of_reachable (h : listSystem.Reachable s) : s.Invariant := by
  refine h.invariant (fun s hs => hs ▸ Invariant.empty) fun s request s' hinv hstep => ?_
  cases hstep
  exact hinv.step request

end ListState

end Denn.Lists
