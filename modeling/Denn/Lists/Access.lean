import Denn.Lists.Membership

/-!
# The access predicates

Access to a list is decided by a filter on joined rows and by the policy, and its effective members
are computed in six places. Here each is brought to one form, a condition on the role that a user
has, and the forms are compared.
-/

namespace Denn.Lists

open Core ListState

variable {s : ListState}

/-! ### Access -/

/-- The list was loaded from the tables, with or without its memberships. -/
structure LoadedList.LoadedFrom (list : LoadedList) (s : ListState) : Prop where
  row : s.lists.get? list.id = some list.row
  prefetched : ∀ memberships, list.membershipsPrefetched = some memberships →
    memberships = membershipsOf list.id s.memberships
  cache : ∀ memberships, list.prefetchedObjectsCache = some memberships →
    memberships = membershipsOf list.id s.memberships

lemma LoadedList.LoadedFrom.cached {list : LoadedList} (h : list.LoadedFrom s) :
    list.cachedMemberships = none ∨
    list.cachedMemberships = some (membershipsOf list.id s.memberships) := by
  unfold LoadedList.cachedMemberships
  cases hprefetched : list.membershipsPrefetched with
  | some memberships => exact .inr (congrArg some (h.prefetched memberships hprefetched))
  | none =>
    cases hcache : list.prefetchedObjectsCache with
    | none => exact .inl rfl
    | some memberships => exact .inr (congrArg some (h.cache memberships hcache))

lemma some_mem_leftJoin {id : ListId} {memberships : Memberships} {m : ListMembership} :
    some m ∈ leftJoin id memberships ↔ m ∈ membershipsOf id memberships := by
  unfold leftJoin
  split
  · next hnil => simp [hnil]
  · simp

lemma leftJoin_ne_nil (id : ListId) (memberships : Memberships) :
    leftJoin id memberships ≠ [] := by
  unfold leftJoin
  split
  · simp
  · next hne => simpa using hne

/-- A user has access to the lists they own and to the shared lists they are a member of. -/
lemma isAccessible_iff (id : ListId) (row : UserList) (user : UserId) :
    isAccessible s.memberships (some user) id row = true ↔
      row.owner = user ∨ row.listType = .shared ∧ (s.role id user).isSome := by
  unfold isAccessible
  rw [List.any_eq_true]
  constructor
  · rintro ⟨m, hmem, hm⟩
    simp only [accessibleListsQ, Option.any_some, Bool.or_eq_true, Bool.and_eq_true,
      decide_eq_true_eq] at hm
    rcases hm with howner | ⟨hshared, hm⟩
    · exact .inl howner
    · obtain ⟨m, rfl, huser⟩ := Option.any_eq_true _ _ |>.mp hm
      obtain ⟨-, hrole⟩ := mem_membershipsOf.mp (some_mem_leftJoin.mp hmem)
      simp only [mem_allMemberRoles, decide_true, Bool.and_true, decide_eq_true_eq] at huser
      exact .inr ⟨hshared, Option.isSome_iff_exists.mpr ⟨m.role, huser ▸ hrole⟩⟩
  · rintro (howner | ⟨hshared, hrole⟩)
    · obtain ⟨m, hmem⟩ := List.exists_mem_of_ne_nil _ (leftJoin_ne_nil id s.memberships)
      exact ⟨m, hmem, by simp [accessibleListsQ, howner]⟩
    · obtain ⟨role, hrole⟩ := Option.isSome_iff_exists.mp hrole
      refine ⟨some ⟨id, user, role⟩,
        some_mem_leftJoin.mpr (mem_membershipsOf.mpr ⟨rfl, hrole⟩), ?_⟩
      simp [accessibleListsQ, hshared]

/-- The policy lets a user see the same lists. -/
lemma can_view_iff {list : LoadedList} (h : list.LoadedFrom s) (user : UserId) :
    can s.memberships list (some user) .view = true ↔
      list.row.owner = user ∨ list.row.listType = .shared ∧ (s.role list.id user).isSome := by
  have hloaded : list.cachedMemberships.getD (membershipsOf list.id s.memberships)
      = membershipsOf list.id s.memberships := by
    rcases h.cached with hnone | hsome
    · rw [hnone, Option.getD_none]
    · rw [hsome, Option.getD_some]
  rw [can, if_neg (by simp), getRole, getMembership, Option.bind_some, hloaded]
  by_cases howner : list.row.owner = user
  · simp only [roleAllows, howner, true_or, iff_true]
    split_ifs <;> simp
  · rw [if_neg howner]
    by_cases hshared : list.row.listType = .shared
    · have hfind : ((membershipsOf list.id s.memberships).find? fun m => m.user = user).isSome ↔
          (s.role list.id user).isSome := by
        rw [List.find?_isSome, Option.isSome_iff_exists]
        constructor
        · rintro ⟨m, hmem, huser⟩
          rw [decide_eq_true_eq] at huser
          exact ⟨m.role, huser ▸ (mem_membershipsOf.mp hmem).2⟩
        · rintro ⟨role, hrole⟩
          exact ⟨⟨list.id, user, role⟩, mem_membershipsOf.mpr ⟨rfl, hrole⟩, by simp⟩
      simp only [isCollaborative, hshared, decide_true, Bool.not_true, Bool.false_eq_true, if_false,
        howner, false_or, true_and, ← hfind]
      cases (membershipsOf list.id s.memberships).find? fun m => m.user = user with
      | none => simp
      | some m => simp [roleAllows, hshared]
    · simp [isCollaborative, hshared, howner]

/-! ### Effective members -/

/-- The user is an effective member: anyone with a role on a shared list, the owner with the owner
    role on a personal list, and nobody on a dynamic list. -/
def IsEffectiveMember (s : ListState) (id : ListId) (row : UserList) (user : UserId) : Prop :=
  (row.listType = .shared ∧ (s.role id user).isSome) ∨
  (row.listType = .personal ∧ user = row.owner ∧ s.role id user = some .owner)

/-- The users of a selection of memberships. -/
lemma mem_users_filter {id : ListId} {p : ListMembership → Bool} {user : UserId} :
    user ∈ ((membershipsOf id s.memberships).filter p).map (·.user) ↔
      ∃ role, s.role id user = some role ∧ p ⟨id, user, role⟩ = true := by
  rw [List.mem_map]
  constructor
  · rintro ⟨m, hm, rfl⟩
    obtain ⟨hmem, hp⟩ := List.mem_filter.mp hm
    obtain ⟨rfl, hrole⟩ := mem_membershipsOf.mp hmem
    exact ⟨m.role, hrole, hp⟩
  · rintro ⟨role, hrole, hp⟩
    exact ⟨⟨id, user, role⟩,
      List.mem_filter.mpr ⟨mem_membershipsOf.mpr ⟨rfl, hrole⟩, hp⟩, rfl⟩

/-- The policy's own selection, over loaded memberships or as a query. -/
lemma mem_effectiveMemberships {list : LoadedList} (h : list.LoadedFrom s) (user : UserId) :
    user ∈ (effectiveMemberships s.memberships list).map (·.user) ↔
      IsEffectiveMember s list.id list.row user := by
  have hselect : effectiveMemberships s.memberships list =
      if list.row.listType = .dynamic then []
      else if isCollaborative list.row then
        (membershipsOf list.id s.memberships).filter fun m => m.role ∈ allMemberRoles
      else (membershipsOf list.id s.memberships).filter
        fun m => m.user = list.row.owner && m.role = .owner := by
    unfold effectiveMemberships
    rcases h.cached with hnone | hsome
    · rw [hnone]
    · rw [hsome]
  rw [hselect]
  cases htype : list.row.listType with
  | dynamic => simp [IsEffectiveMember, htype]
  | shared =>
    simp only [isCollaborative, htype, reduceCtorEq, if_false, decide_true, if_true]
    rw [mem_users_filter]
    simp [IsEffectiveMember, htype, Option.isSome_iff_exists]
  | personal =>
    simp only [isCollaborative, htype, reduceCtorEq, if_false, decide_false, Bool.false_eq_true]
    rw [mem_users_filter]
    simp [IsEffectiveMember, htype, and_comm]

/-- The subquery asks no role of the owner of a personal list, who has the owner role anyway. -/
lemma mem_memberIdsSubquery (hinv : s.Invariant) {id : ListId} {row : UserList}
    (hrow : s.lists.get? id = some row) (user : UserId) :
    user ∈ memberIdsSubquery s id ↔ IsEffectiveMember s id row user := by
  rw [memberIdsSubquery, List.filter_filter, mem_users_filter]
  simp only [hrow, Option.any_some, mem_allMemberRoles, decide_true, Bool.and_true, Bool.or_eq_true,
    Bool.and_eq_true, decide_eq_true_eq, exists_and_right, IsEffectiveMember,
    Option.isSome_iff_exists]
  constructor
  · rintro ⟨hrole, hshared | ⟨hpersonal, howner⟩⟩
    · exact .inl ⟨hshared, hrole⟩
    · refine .inr ⟨hpersonal, howner, ?_⟩
      exact (hinv.owner id _ _ (kind_of_row hrow) (by simp [hpersonal]) user).mpr howner
  · rintro (⟨hshared, hrole⟩ | ⟨hpersonal, howner, hrole⟩)
    · exact ⟨hrole, .inl hshared⟩
    · exact ⟨⟨_, hrole⟩, .inr ⟨hpersonal, howner⟩⟩

lemma mem_getMemberIds (hinv : s.Invariant) {list : LoadedList} (h : list.LoadedFrom s)
    (user : UserId) : user ∈ getMemberIds s list ↔ IsEffectiveMember s list.id list.row user := by
  unfold getMemberIds
  cases hprefetched : list.membershipsPrefetched with
  | none => exact mem_memberIdsSubquery hinv h.row user
  | some memberships =>
    obtain rfl := h.prefetched memberships hprefetched
    cases htype : list.row.listType with
    | dynamic => simp [IsEffectiveMember, htype]
    | shared =>
      simp only
      rw [mem_users_filter]
      simp [IsEffectiveMember, htype, Option.isSome_iff_exists]
    | personal =>
      simp only
      rw [mem_users_filter]
      simp [IsEffectiveMember, htype, and_comm]

/-- The members that a count over joined rows finds. -/
lemma mem_countMembers {row : UserList} {joined : List (Option ListMembership)} {user : UserId} :
    user ∈ countMembers row joined ↔
      ∃ m, some m ∈ joined ∧ effectiveMembershipCountFilter row (some m) = true ∧
        m.user = user := by
  simp only [countMembers, List.mem_filterMap, List.mem_filter]
  constructor
  · rintro ⟨joinedRow, ⟨hmem, hcount⟩, huser⟩
    obtain ⟨m, rfl, rfl⟩ := Option.map_eq_some_iff.mp huser
    exact ⟨m, hmem, hcount, rfl⟩
  · rintro ⟨m, hmem, hcount, rfl⟩
    exact ⟨some m, ⟨hmem, hcount⟩, rfl⟩

/-- The count filter, on the whole join. -/
lemma mem_profileCountedMembers (id : ListId) (row : UserList) (user : UserId) :
    user ∈ s.profileCountedMembers id row ↔ IsEffectiveMember s id row user := by
  rw [profileCountedMembers, mem_countMembers]
  simp only [some_mem_leftJoin, mem_membershipsOf, effectiveMembershipCountFilter, Option.any_some,
    mem_allMemberRoles, decide_true, Bool.and_true, Bool.or_eq_true, Bool.and_eq_true,
    decide_eq_true_eq, IsEffectiveMember, Option.isSome_iff_exists]
  constructor
  · rintro ⟨m, ⟨-, hrole⟩, hshared | ⟨hpersonal, howner, hm⟩, rfl⟩
    · exact .inl ⟨hshared, m.role, hrole⟩
    · exact .inr ⟨hpersonal, howner, hm ▸ hrole⟩
  · rintro (⟨hshared, role, hrole⟩ | ⟨hpersonal, howner, hrole⟩)
    · exact ⟨⟨id, user, role⟩, ⟨rfl, hrole⟩, .inl hshared, rfl⟩
    · exact ⟨⟨id, user, .owner⟩, ⟨rfl, hrole⟩, .inr ⟨hpersonal, howner, rfl⟩, rfl⟩

/-! ### The lists of a user -/

lemma annotate_eq_some {user : Option UserId} {id : ListId} {row : UserList}
    {annotated : AnnotatedList} (h : s.annotate user id row = some annotated) :
    annotated.list.id = id ∧ annotated.list.row = row ∧ annotated.countedMembers
      = countMembers row ((leftJoin id s.memberships).filter (accessibleListsQ user row)) := by
  simp only [annotate] at h
  split_ifs at h
  cases h
  exact ⟨rfl, rfl, rfl⟩

lemma mem_getUserLists {user : Option UserId} {annotated : AnnotatedList} :
    annotated ∈ s.getUserLists user ↔
      ∃ id row, s.lists.get? id = some row ∧ s.annotate user id row = some annotated := by
  simp only [getUserLists, List.mem_filterMap, Prod.exists, Table.mem_rows_iff]

/-- The owner's query keeps the whole join. -/
lemma countedMembers_owner {id : ListId} {row : UserList} {annotated : AnnotatedList}
    (h : s.annotate (some row.owner) id row = some annotated) :
    annotated.countedMembers = s.profileCountedMembers id row := by
  obtain ⟨-, -, hcounted⟩ := annotate_eq_some h
  have hall : ∀ m ∈ leftJoin id s.memberships, accessibleListsQ (some row.owner) row m = true :=
    fun m _ => by simp [accessibleListsQ]
  rw [hcounted, List.filter_eq_self.mpr hall, profileCountedMembers]

/-- Anybody else's query has filtered the join down to their own row. -/
lemma eq_of_mem_countedMembers {id : ListId} {row : UserList} {user member : UserId}
    {annotated : AnnotatedList} (h : s.annotate (some user) id row = some annotated)
    (howner : row.owner ≠ user) (hmem : member ∈ annotated.countedMembers) : member = user := by
  obtain ⟨-, -, hcounted⟩ := annotate_eq_some h
  rw [hcounted, mem_countMembers] at hmem
  obtain ⟨m, hm, -, rfl⟩ := hmem
  have hfilter := (List.mem_filter.mp hm).2
  simp only [accessibleListsQ, Option.any_some, howner, decide_false, Bool.false_or,
    Bool.and_eq_true, decide_eq_true_eq] at hfilter
  exact hfilter.2.1

/-- A list is annotated for those who have access to it. -/
lemma isSome_annotate (user : UserId) (id : ListId) (row : UserList) :
    (s.annotate (some user) id row).isSome ↔
      row.owner = user ∨ row.listType = .shared ∧ (s.role id user).isSome := by
  rw [← isAccessible_iff]
  simp only [annotate, isAccessible, List.any_eq_true]
  constructor
  · intro h
    split_ifs at h with hnil
    · cases h
    · obtain ⟨m, hm⟩ := List.exists_mem_of_ne_nil _ hnil
      exact ⟨m, List.mem_filter.mp hm⟩
  · rintro ⟨m, hm⟩
    rw [if_neg (List.ne_nil_of_mem (List.mem_filter.mpr hm))]
    rfl

/-- The access predicates agree about a user and a list: access by the filter is permission to
    view, and the policy over loaded or queried memberships, the serializer and the count filters
    select the members that the subquery does. -/
structure AccessAgrees (s : ListState) (user : UserId) (id : ListId) (row : UserList) : Prop where
  access : ∀ list : LoadedList, list.LoadedFrom s → list.id = id →
    (isAccessible s.memberships (some user) id row = true ↔
      can s.memberships list (some user) .view = true)
  effective : ∀ list : LoadedList, list.LoadedFrom s → list.id = id → ∀ member,
    member ∈ (effectiveMemberships s.memberships list).map (·.user) ↔
      member ∈ memberIdsSubquery s id
  serializer : ∀ list : LoadedList, list.LoadedFrom s → list.id = id → ∀ member,
    member ∈ getMemberIds s list ↔ member ∈ memberIdsSubquery s id
  profileCount : ∀ member,
    member ∈ s.profileCountedMembers id row ↔ member ∈ memberIdsSubquery s id
  count : ∀ annotated ∈ s.getUserLists (some user), annotated.list.id = id → ∀ member,
    member ∈ annotated.countedMembers ↔ member ∈ memberIdsSubquery s id

/-- In every reachable state the access predicates agree about a user and a list, unless the user
    is a member of the shared list of somebody else: then `get_user_lists` counts nobody but them. -/
theorem access_agrees_iff (h : listSystem.Reachable s) (user : UserId) {id : ListId}
    {row : UserList} (hrow : s.lists.get? id = some row) :
    AccessAgrees s user id row ↔
      (row.listType = .shared → row.owner = user ∨ s.role id user = none) := by
  have hinv := invariant_of_reachable h
  have hsub := mem_memberIdsSubquery hinv hrow
  have hloaded : ∀ list : LoadedList, list.LoadedFrom s → list.id = id → list.row = row := by
    rintro list hlist rfl
    exact Option.some.inj (hlist.row.symm.trans hrow)
  constructor
  · intro hagrees hshared
    by_contra hnot
    rw [not_or] at hnot
    have hrole : (s.role id user).isSome := Option.isSome_iff_ne_none.mpr hnot.2
    have hannotated := (isSome_annotate (s := s) user id row).mpr (.inr ⟨hshared, hrole⟩)
    obtain ⟨annotated, hannotated⟩ := Option.isSome_iff_exists.mp hannotated
    have howner : s.role id row.owner = some .owner :=
      (hinv.owner id _ _ (kind_of_row hrow) (by simp [hshared]) row.owner).mpr rfl
    -- the owner is an effective member whom the user's query does not count
    have heffective : row.owner ∈ memberIdsSubquery s id :=
      (hsub row.owner).mpr (.inl ⟨hshared, by simp [howner]⟩)
    have hcounted := (hagrees.count annotated
      (mem_getUserLists.mpr ⟨id, row, hrow, hannotated⟩)
      (annotate_eq_some hannotated).1 row.owner).mpr heffective
    exact hnot.1 (eq_of_mem_countedMembers hannotated hnot.1 hcounted)
  · intro hcondition
    refine ⟨?_, ?_, ?_, ?_, ?_⟩
    · rintro list hlist rfl
      rw [isAccessible_iff, can_view_iff hlist, hloaded list hlist rfl]
    · rintro list hlist rfl member
      rw [mem_effectiveMemberships hlist, hloaded list hlist rfl, hsub]
    · rintro list hlist rfl member
      rw [mem_getMemberIds hinv hlist, hloaded list hlist rfl, hsub]
    · intro member
      rw [mem_profileCountedMembers, hsub]
    · rintro annotated hmem hid member
      obtain ⟨id', row', hrow', hannotated⟩ := mem_getUserLists.mp hmem
      obtain rfl : id' = id := (annotate_eq_some hannotated).1.symm.trans hid
      obtain rfl : row' = row := Option.some.inj (hrow'.symm.trans hrow)
      have haccess := (isSome_annotate (s := s) user id' row').mp
        (Option.isSome_iff_exists.mpr ⟨annotated, hannotated⟩)
      have howner : row'.owner = user := by
        rcases haccess with howner | ⟨hshared, hrole⟩
        · exact howner
        · exact (hcondition hshared).resolve_right (Option.isSome_iff_ne_none.mp hrole)
      subst howner
      rw [countedMembers_owner hannotated, mem_profileCountedMembers, hsub]

/-- The list that `sharedListRequests` make. -/
def familyMovies : UserList := { owner := 1, name := "Family Movies", listType := .shared }

theorem access_agrees_iff_owner : AccessAgrees (after sharedListRequests) 1 1 familyMovies :=
  (access_agrees_iff (reachable_of_run (run_after sharedListRequests)) 1 (by decide +kernel)).mpr
    fun _ => .inl rfl

/-- The viewer of the shared list is told that it has one member: the viewer. -/
theorem access_disagrees_for_member :
    ((after sharedListRequests).getUserLists (some 2)).map (·.memberCountAnnotated) = [1] ∧
    (memberIdsSubquery (after sharedListRequests) 1).length = 2 ∧
    ¬ ∀ s, listSystem.Reachable s → ∀ user id row, s.lists.get? id = some row →
      AccessAgrees s user id row := by
  refine ⟨by decide +kernel, by decide +kernel, fun hall => ?_⟩
  have hagrees := hall _ (reachable_of_run (run_after sharedListRequests)) 2 1 familyMovies
    (by decide +kernel)
  have hsome : ((after sharedListRequests).annotate (some 2) 1 familyMovies).isSome := by
    decide +kernel
  obtain ⟨annotated, hannotated⟩ := Option.isSome_iff_exists.mp hsome
  have hcounted := (hagrees.count annotated
    (mem_getUserLists.mpr ⟨1, familyMovies, by decide +kernel, hannotated⟩)
    (annotate_eq_some hannotated).1 1).mpr (by decide +kernel)
  exact absurd (eq_of_mem_countedMembers hannotated (by decide) hcounted) (by decide)

end Denn.Lists
