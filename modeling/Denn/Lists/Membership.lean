import Denn.Lists.Invariant

/-!
# Ownership and membership over whole runs

Over every sequence of requests: who holds the owner row of a list, how anybody else becomes a
member, and that a list keeps its type.
-/

namespace Denn.Lists

open Core ListState

variable {s : ListState} {requests : List ListRequest}

/-- The state after requests, newest first. -/
def after (requests : List ListRequest) : ListState :=
  requests.foldr (fun request s => s.step request) .empty

lemma run_after (requests : List ListRequest) : listSystem.Run .empty requests (after requests) := by
  induction requests with
  | nil => exact .nil
  | cons request requests ih => exact .cons ih rfl

/-! ### Invitations are sent by owners -/

/-- Among the requests, newest first, is one by which the owner of the shared list has sent the
    invitation. -/
def Sent (requests : List ListRequest) (invitation : ListInvitation) : Prop :=
  ∃ earlier later s request, requests = later ++ request :: earlier
    ∧ listSystem.Run .empty earlier s ∧ SentBy s request invitation

lemma Sent.cons {invitation : ListInvitation} (h : Sent requests invitation)
    (request : ListRequest) : Sent (request :: requests) invitation := by
  obtain ⟨earlier, later, s, sender, rfl, hrun, hsent⟩ := h
  exact ⟨earlier, request :: later, s, sender, rfl, hrun, hsent⟩

lemma reachable_of_run (h : listSystem.Run .empty requests s) : listSystem.Reachable s :=
  h.reachable (.initial rfl)

/-- Every pending invitation was sent in the run. -/
lemma sent_of_run (h : listSystem.Run .empty requests s) {id : InvitationId}
    {invitation : ListInvitation} (hinvitation : s.invitations.get? id = some invitation) :
    Sent requests invitation := by
  induction h with
  | nil => simp [ListState.empty] at hinvitation
  | @cons s s' requests request hrun hstep ih =>
    cases hstep
    have hinv := invariant_of_reachable (reachable_of_run hrun)
    obtain ⟨-, hold | hsent⟩ := hinv.invitation_write (step_write s request) hinvitation
    · exact (ih hold).cons request
    · exact ⟨requests, [], s, request, rfl, hrun, hsent⟩

/-! ### Lists keep their kind -/

/-- A step keeps the owner and the type of a list, or deletes the list. -/
lemma Invariant.kind_step (h : s.Invariant) (request : ListRequest) {l : ListId}
    (hl : l < s.nextList) :
    l < (s.step request).nextList ∧
    ((s.step request).kind l = s.kind l ∨ (s.step request).kind l = none) := by
  rcases h.write_cases (step_write s request) with hkeeps | hext | ⟨row, -, hs'⟩ | ⟨id, hs'⟩
  · exact ⟨hkeeps.nextList.symm ▸ hl, .inl (hkeeps.kind l)⟩
  · refine ⟨hl.trans_le hext.nextList, .inl ?_⟩
    rw [kind, hext.old l hl]
    rfl
  · rw [hs', kind_insertList, if_neg hl.ne]
    exact ⟨hl.trans (Nat.lt_succ_self _), .inl rfl⟩
  · rw [hs', kind_deleteList]
    refine ⟨hl, ?_⟩
    split_ifs
    · exact .inr rfl
    · exact .inl rfl

/-- The owner and the type of a list stay what they are for as long as the list exists; its
    primary key is never used again. -/
lemma kind_run (hs : listSystem.Reachable s) {s' : ListState} {later : List ListRequest}
    (hrun : listSystem.Run s later s') {l : ListId} {k : UserId × ListType}
    (hkind : s.kind l = some k) : s'.kind l = some k ∨ s'.kind l = none := by
  have hkeeps := hrun.keeps
    (P := fun s' => l < s'.nextList ∧ (s'.kind l = some k ∨ s'.kind l = none)) ?_ hs
    ⟨(invariant_of_reachable hs).fresh l k hkind, .inl hkind⟩
  · exact hkeeps.2
  · rintro s₁ request s₂ hreachable ⟨hl, hold⟩ hstep
    cases hstep
    obtain ⟨hlt, hsame | hdeleted⟩ :=
      Invariant.kind_step (invariant_of_reachable hreachable) request hl
    · exact ⟨hlt, hsame ▸ hold⟩
    · exact ⟨hlt, .inr hdeleted⟩

/-- Nobody but the owner has a role on a personal list. -/
lemma eq_owner_of_personal (h : listSystem.Reachable s) {l : ListId} {user owner : UserId}
    {role : ListRole} (hrole : s.role l user = some role)
    (hkind : s.kind l = some (owner, .personal)) : user = owner := by
  refine h.invariant_of (I := fun s => ∀ user owner role, s.role l user = some role →
    s.kind l = some (owner, .personal) → user = owner) (fun _ => invariant_of_reachable) ?_ ?_
    user owner role hrole hkind
  · rintro s rfl user owner role hrole
    simp [ListState.role, ListState.empty] at hrole
  · rintro s request s' hinv ih hstep user owner role hrole hkind
    cases hstep
    cases hbefore : s.role l user with
    | some before =>
      obtain ⟨owner', listType, hold, -⟩ := hinv.member l user before hbefore
      obtain ⟨-, hsame | hdeleted⟩ := Invariant.kind_step hinv request (hinv.fresh l _ hold)
      · exact ih user owner before hbefore (hsame ▸ hkind)
      · rw [hdeleted] at hkind
        cases hkind
    | none =>
      rcases hinv.joined (step_write s request) hbefore hrole with
        ⟨new, -, hs', rfl, rfl, -⟩ | ⟨-, -, owner', -, -, -, -, -, hold⟩
      · rw [hs', kind_insertList, if_pos rfl, Option.some.injEq, Prod.mk.injEq] at hkind
        exact hkind.1
      · obtain ⟨-, hsame | hdeleted⟩ := Invariant.kind_step hinv request (hinv.fresh l _ hold)
        · rw [hsame, hold, Option.some.injEq, Prod.mk.injEq] at hkind
          cases hkind.2
        · rw [hdeleted] at hkind
          cases hkind

/-! ### The membership invariant -/

/-- A request neither gives the owner row of an existing list to anyone nor takes it. -/
lemma Invariant.owner_step (h : s.Invariant) (request : ListRequest) {l : ListId}
    {k k' : UserId × ListType} (hkind : s.kind l = some k)
    (hkind' : (s.step request).kind l = some k') (user : UserId) :
    (s.step request).role l user = some .owner ↔ s.role l user = some .owner := by
  rcases h.write_cases (step_write s request) with hkeeps | hext | ⟨row, htype, hs'⟩ | ⟨id, hs'⟩
  · exact hkeeps.owner l user
  · rw [ListState.role, hext.memberships]
    rfl
  · have hne : l ≠ s.nextList := (h.fresh l k hkind).ne
    rw [hs', h.role_insertList htype, if_neg fun hnew => hne hnew.1]
  · rw [hs', kind_deleteList] at hkind'
    rw [hs', role_deleteList]
    split_ifs at hkind' ⊢
    rfl

/-- After any sequence of requests the owner row of every personal or shared list is the one of
    its owner, and a dynamic list has no membership. The next request moves no owner row of a list
    that stays; whoever it makes a member without being the owner accepts an invitation by it,
    which the owner of the shared list has sent, and gets the invited role. A list keeps its
    type for good. -/
theorem list_membership_invariant (h : listSystem.Run .empty requests s) :
    (∀ l row, s.lists.get? l = some row → row.listType ≠ .dynamic →
      ∀ user, s.role l user = some .owner ↔ user = row.owner) ∧
    (∀ l row, s.lists.get? l = some row → row.listType = .dynamic →
      ∀ user, s.role l user = none) ∧
    (∀ request l, (s.lists.get? l).isSome → ((s.step request).lists.get? l).isSome →
      ∀ user, (s.step request).role l user = some .owner ↔ s.role l user = some .owner) ∧
    (∀ request l user role row, s.role l user = none →
      (s.step request).role l user = some role → (s.step request).lists.get? l = some row →
      user ≠ row.owner →
      ∃ id invitation, s.invitations.get? id = some invitation ∧
        request = .respond (some user) id (some "accept") ∧ invitation.userList = l ∧
        invitation.invitee = user ∧ invitation.role = role ∧ invitation.inviter = row.owner ∧
        row.listType = .shared ∧ Sent requests invitation) ∧
    ∀ later s' l row row', listSystem.Run s later s' → s.lists.get? l = some row →
      s'.lists.get? l = some row' → row'.listType = row.listType := by
  have hreachable := reachable_of_run h
  have hinv := invariant_of_reachable hreachable
  refine ⟨?_, ?_, ?_, ?_, ?_⟩
  · intro l row hrow
    exact hinv.owner l row.owner row.listType (kind_of_row hrow)
  · intro l row hrow hdynamic
    exact hinv.role_dynamic (hdynamic ▸ kind_of_row hrow)
  · intro request l hl hl'
    obtain ⟨row, hrow⟩ := Option.isSome_iff_exists.mp hl
    obtain ⟨row', hrow'⟩ := Option.isSome_iff_exists.mp hl'
    exact Invariant.owner_step hinv request (kind_of_row hrow) (kind_of_row hrow')
  · intro request l user role row hnone hrole hrow huser
    rcases hinv.joined (step_write s request) hnone hrole with ⟨new, -, hs', rfl, rfl, -⟩ | hjoined
    · have hkind := kind_of_row hrow
      rw [hs', kind_insertList, if_pos rfl, Option.some.injEq, Prod.mk.injEq] at hkind
      exact absurd hkind.1 huser
    · obtain ⟨id, invitation, owner, hinvitation, rfl, rfl, rfl, rfl, -⟩ := hjoined
      obtain ⟨hkind, -⟩ := hinv.invitation id invitation hinvitation
      obtain ⟨-, hsame | hdeleted⟩ := Invariant.kind_step hinv
        (.respond (some invitation.invitee) id (some "accept")) (hinv.fresh _ _ hkind)
      · rw [hkind, kind_of_row hrow, Option.some.injEq, Prod.mk.injEq] at hsame
        exact ⟨id, invitation, hinvitation, rfl, rfl, rfl, rfl, hsame.1.symm, hsame.2,
          sent_of_run h hinvitation⟩
      · rw [kind_of_row hrow] at hdeleted
        cases hdeleted
  · intro later s' l row row' hrun hrow hrow'
    rcases kind_run hreachable hrun (kind_of_row hrow) with hsame | hdeleted
    · rw [kind_of_row hrow', Option.some.injEq, Prod.mk.injEq] at hsame
      exact hsame.2
    · rw [kind_of_row hrow'] at hdeleted
      cases hdeleted

/-- The owner of a shared list invites a viewer, who accepts. -/
def sharedListRequests : List ListRequest :=
  [ .respond (some 2) 1 (some "accept"),
    .createInvitation (some 1) 1 { username := some "maria", role := some "viewer" },
    .createList (some 1) { name := some "Family Movies", listType := some "SHARED" },
    .setUser 2 { username := "maria", email := "maria@example.com" },
    .setUser 1 { username := "john", email := "john@example.com" } ]

theorem list_membership_invariant_shared :
    (after sharedListRequests).role 1 2 = some .viewer ∧
    ∀ user, (after sharedListRequests).role 1 user = some .owner ↔ user = 1 :=
  ⟨by decide +kernel,
    (list_membership_invariant (run_after sharedListRequests)).1 1
      { owner := 1, name := "Family Movies", listType := .shared } (by decide +kernel)
      (by decide)⟩

end Denn.Lists
