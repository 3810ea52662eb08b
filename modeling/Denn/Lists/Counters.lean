import Denn.Core.Join
import Denn.Lists.Access
import Denn.Lists.Items

/-!
# The counters of a list

Three queries count the items and the members of the lists that a user has access to, and the
statistics of a list count them again. The queries select lists by a filter that joins the
memberships, and their counts are aggregates over the rows which that filter has left.
-/

namespace Denn.Lists

open Core ListState

/-! ### Content -/

/-- A `content_items` row. -/
structure ContentItem where
  sourceApi : SourceAPI
  externalId : String
  contentType : ContentType
  deriving DecidableEq, Repr

/-- The lookups that `_parse_item_filters` makes from the query parameters. -/
structure ItemFilters where
  externalId : Option String := none
  sourceApi : Option String := none
  contentType : Option String := none

def ItemFilters.keeps (filters : ItemFilters) (content : ContentItem) : Bool :=
  (filters.externalId.all fun value => content.externalId = value)
    && (filters.sourceApi.all fun value => content.sourceApi.value = value)
    && (filters.contentType.all fun value => content.contentType.value = value)

/-- The tables with the content that the items refer to; the reference is a foreign key. -/
structure ListCatalog extends ListDatabase where
  content : ItemId → ContentItem

abbrev ItemEntry := ListItemId × ListItem

namespace ListCatalog

variable (db : ListCatalog)

def itemsOf (id : ListId) : List ItemEntry := db.items.rows.filter fun row => row.2.userList = id

/-! ### The queries -/

/-- The rows of `UserList.objects.filter(accessible_lists_q(user))` that a list contributes, joined
    with its items. The counts of the query are made on these rows. -/
def joinedRows (user : Requester) (id : ListId) (row : UserList) :
    List (Option ListMembership × Option ItemEntry) :=
  outerJoin ((leftJoin id db.lists.memberships).filter (accessibleListsQ user row)) (db.itemsOf id)

/-- `Count("items", distinct=True)`. -/
def countItemsDistinct (joined : List (Option ListMembership × Option ItemEntry)) : ℕ :=
  countDistinct (fun row => row.2.map Prod.fst) joined

/-- `Count("items")`. -/
def countItems (joined : List (Option ListMembership × Option ItemEntry)) : ℕ :=
  countColumn (fun row => row.2.map Prod.fst) joined

/-- A membership as a counted column: null where the filter of the count does not hold. -/
def effectiveMembership (row : UserList) (membership : Option ListMembership) :
    Option ListMembership :=
  if effectiveMembershipCountFilter row membership then membership else none

/-- `Count("memberships", filter=effective_membership_count_filter(), distinct=True)`. -/
def countMembersDistinct (row : UserList)
    (joined : List (Option ListMembership × Option ItemEntry)) : ℕ :=
  countDistinct (fun joinedRow => effectiveMembership row joinedRow.1) joined

/-- A list with its annotations. -/
structure CountedList where
  list : LoadedList
  itemCountAnnotated : ℕ
  memberCountAnnotated : ℕ

/-- The annotations of a loaded list, if the filter has left any of its rows. -/
def annotateCounts (user : Requester) (list : LoadedList) : Option CountedList :=
  let joined := db.joinedRows user list.id list.row
  if joined = [] then none
  else some
    { list
      itemCountAnnotated := countItemsDistinct joined
      memberCountAnnotated := countMembersDistinct list.row joined }

/-- `UserListViewSet.get_queryset`, for an authenticated user. -/
def getQueryset (user : UserId) : List CountedList :=
  db.lists.lists.rows.filterMap fun list => db.annotateCounts (some user)
    { id := list.1, row := list.2
      membershipsPrefetched := some (membershipsOf list.1 db.lists.memberships) }

/-- `get_user_lists`. -/
def getUserLists (user : UserId) : List CountedList :=
  db.lists.lists.rows.filterMap fun list => db.annotateCounts (some user)
    { id := list.1, row := list.2
      prefetchedObjectsCache := some (membershipsOf list.1 db.lists.memberships) }

/-! ### The bulk check -/

structure MatchedItem where
  listItemId : ListItemId
  contentItemId : ItemId
  content : ContentItem
  deriving DecidableEq, Repr

structure CheckedList where
  id : ListId
  name : String
  listType : ListType
  itemCount : ℕ
  matchedCount : ℕ
  matchedItems : List MatchedItem
  deriving DecidableEq, Repr

structure BulkCheck where
  queriedItemsCount : ℕ
  lists : List CheckedList
  deriving DecidableEq, Repr

/-- The items of a list whose content is asked for, in list order. -/
def matchedItems (id : ListId) (validatedItems : List ContentItem) : List MatchedItem :=
  (((db.itemsOf id).filter fun item => db.content item.2.contentItem ∈ validatedItems).insertionSort
    fun a b => a.2.listOrder ≤ b.2.listOrder).map fun item =>
      ⟨item.1, item.2.contentItem, db.content item.2.contentItem⟩

def checkList (user : UserId) (validatedItems : List ContentItem) (id : ListId) (row : UserList) :
    Option CheckedList :=
  let joined := db.joinedRows (some user) id row
  if joined = [] then none
  else
    let matched := db.matchedItems id validatedItems
    some
      { id, name := row.name, listType := row.listType
        itemCount := countItems joined
        matchedCount := matched.length
        matchedItems := matched }

def checkItemsInLists (user : UserId) (validatedItems : List ContentItem) : BulkCheck where
  queriedItemsCount := validatedItems.length
  lists := db.lists.lists.rows.filterMap fun list => db.checkList user validatedItems list.1 list.2

/-! ### The statistics -/

structure ListStats where
  totalItems : ℕ
  pendingItems : ℤ
  completedItems : ℕ
  memberCount : ℕ
  contentTypes : List (ContentType × ℕ)
  deriving DecidableEq, Repr

/-- The items of personal and system lists that their owner has completed. -/
def completedByOwner (row : UserList) (items : List ItemEntry) : ℕ :=
  let trackedIds := items.map fun item => item.2.contentItem
  db.tracking.count fun key tracking =>
    key.1 = row.owner && key.2 ∈ trackedIds && tracking.status = .completed

/-- `get_list_stats` of a list and of what `user_list.items.all()` yields for it. -/
def getListStats (list : LoadedList) (items : List ItemEntry) : ListStats :=
  let total := items.length
  let completed :=
    if list.row.listType ∈ [.personal, .dynamic] then db.completedByOwner list.row items
    else items.countP fun item => item.2.contextStatus = some .completed
  let pending : ℤ :=
    if list.row.listType ∈ [.personal, .dynamic] then total - completed
    else items.countP fun item => item.2.contextStatus = some .pending
  let contentTypes := items.map fun item => (db.content item.2.contentItem).contentType
  { totalItems := total
    pendingItems := pending
    completedItems := completed
    memberCount := (effectiveMemberships db.lists.memberships list).length
    contentTypes := contentTypes.dedup.map fun contentType =>
      (contentType, contentTypes.count contentType) }

/-- The items that are prefetched with a list: those which the query parameters ask for. They stay
    in the cache that `items.all()` reads. -/
def prefetchedItems (filters : ItemFilters) (id : ListId) : List ItemEntry :=
  (db.itemsOf id).filter fun item => filters.keeps (db.content item.2.contentItem)

/-- `UserListViewSet.stats`. -/
def stats (user : Requester) (filters : ItemFilters) (id : ListId) : Except ListError ListStats :=
  (authenticate user).bind fun user =>
  (db.lists.getList user id).bind fun row =>
    let list : LoadedList :=
      { id, row, membershipsPrefetched := some (membershipsOf id db.lists.memberships) }
    if !can db.lists.memberships list (some user) .view then
      .error (.detail 403 "No tienes permiso para ver las estadísticas de esta lista.")
    else .ok (db.getListStats list (db.prefetchedItems filters id))

end ListCatalog

/-! ### What is counted -/

variable {db : ListCatalog} {id : ListId} {row : UserList} {user : UserId}

noncomputable def itemCount (db : ListCatalog) (id : ListId) : ℕ :=
  {item | ∃ entry, db.items.get? item = some entry ∧ entry.userList = id}.ncard

noncomputable def memberCount (db : ListCatalog) (id : ListId) (row : UserList) : ℕ :=
  {member | IsEffectiveMember db.lists id row member}.ncard

lemma mem_itemsOf {entry : ItemEntry} :
    entry ∈ db.itemsOf id ↔ db.items.get? entry.1 = some entry.2 ∧ entry.2.userList = id := by
  rw [ListCatalog.itemsOf, List.mem_filter, ← Table.mem_rows_iff, decide_eq_true_eq]

lemma nodup_itemsOf (db : ListCatalog) (id : ListId) :
    ((db.itemsOf id).map Prod.fst).Nodup :=
  db.items.nodup_keys.sublist (List.filter_sublist.map Prod.fst)

lemma itemCount_eq (db : ListCatalog) (id : ListId) : itemCount db id = (db.itemsOf id).length := by
  rw [itemCount, ← List.length_map (f := Prod.fst)]
  refine ncard_setOf_eq_length (nodup_itemsOf db id) fun item => ?_
  simp only [List.mem_map, mem_itemsOf, Prod.exists, exists_and_right, exists_eq_right]

lemma leftJoin_eq_outer (id : ListId) (memberships : Memberships) :
    leftJoin id memberships = outer (membershipsOf id memberships) := by
  unfold leftJoin
  cases membershipsOf id memberships <;> rfl

/-- A user has one membership of a list at most. -/
lemma nodup_members (id : ListId) (memberships : Memberships) :
    ((membershipsOf id memberships).map (·.user)).Nodup := by
  rw [membershipsOf, List.map_map]
  refine List.Nodup.map_on ?_ (memberships.nodup_rows.filter _)
  rintro ⟨⟨l, u⟩, role⟩ hrow ⟨⟨l', u'⟩, role'⟩ hrow' huser
  simp only [List.mem_filter, decide_eq_true_eq, Table.mem_rows_iff] at hrow hrow'
  obtain ⟨hget, rfl⟩ := hrow
  obtain ⟨hget', rfl⟩ := hrow'
  obtain rfl : u = u' := huser
  rw [Option.some.inj (hget.symm.trans hget')]

lemma memberCount_eq {members : List UserId} (hnodup : members.Nodup)
    (h : ∀ member, member ∈ members ↔ IsEffectiveMember db.lists id row member) :
    memberCount db id row = members.length :=
  ncard_setOf_eq_length hnodup h

/-! ### The counts of the queries -/

/-- The rows that the filter leaves of a list that the user has access to. -/
def visibleRows (db : ListCatalog) (user : UserId) (id : ListId) (row : UserList) :
    List (Option ListMembership) :=
  (leftJoin id db.lists.memberships).filter (accessibleListsQ (some user) row)

lemma visibleRows_ne_nil (h : isAccessible db.lists.memberships (some user) id row = true) :
    visibleRows db user id row ≠ [] := by
  obtain ⟨m, hmem, hm⟩ := List.any_eq_true.mp h
  exact List.ne_nil_of_mem (List.mem_filter.mpr ⟨hmem, hm⟩)

/-- The number of items is counted right for everybody. -/
lemma countItemsDistinct_eq (h : isAccessible db.lists.memberships (some user) id row = true) :
    ListCatalog.countItemsDistinct (db.joinedRows (some user) id row) = itemCount db id := by
  rw [itemCount_eq]
  exact countDistinct_outerJoin_right (visibleRows_ne_nil h) (nodup_itemsOf db id)

/-- The bulk check counts every item once for each membership that the filter has left. -/
lemma countItems_eq (db : ListCatalog) (user : UserId) (id : ListId) (row : UserList) :
    ListCatalog.countItems (db.joinedRows (some user) id row)
      = (visibleRows db user id row).length * itemCount db id := by
  rw [itemCount_eq]
  exact countColumn_outerJoin Prod.fst (visibleRows db user id row) (db.itemsOf id)

/-- The users that the members query counts stand in it once. -/
lemma nodup_countMembers (db : ListCatalog) (user : UserId) (id : ListId) (row : UserList) :
    (ListState.countMembers row (visibleRows db user id row)).Nodup := by
  refine (nodup_members id db.lists.memberships).sublist ?_
  rw [← filterMap_outer, ← leftJoin_eq_outer]
  exact (List.filter_sublist.trans List.filter_sublist).filterMap _

lemma map_effectiveMembership (row : UserList) (rows : List (Option ListMembership)) :
    (rows.filterMap (ListCatalog.effectiveMembership row)).map (·.user)
      = ListState.countMembers row rows := by
  rw [ListState.countMembers, List.map_filterMap, List.filterMap_filter]
  refine List.filterMap_congr fun membership _ => ?_
  rw [ListCatalog.effectiveMembership]
  split_ifs <;> rfl

/-- The count of the members does not see the items, and is that of the query without them. -/
lemma countMembersDistinct_eq (db : ListCatalog) (user : UserId) (id : ListId) (row : UserList) :
    ListCatalog.countMembersDistinct row (db.joinedRows (some user) id row)
      = (ListState.countMembers row (visibleRows db user id row)).length := by
  have hjoin : ListCatalog.countMembersDistinct row (db.joinedRows (some user) id row)
      = countDistinct (ListCatalog.effectiveMembership row) (visibleRows db user id row) :=
    countDistinct_outerJoin_left _ _ _
  have hnodup := nodup_countMembers db user id row
  rw [← map_effectiveMembership] at hnodup ⊢
  rw [hjoin, countDistinct, List.dedup_eq_self.mpr hnodup.of_map, List.length_map]

/-- The owner's query leaves the whole join. -/
lemma visibleRows_owner (db : ListCatalog) (id : ListId) (row : UserList) :
    visibleRows db row.owner id row = leftJoin id db.lists.memberships :=
  List.filter_eq_self.mpr fun m _ => by simp [accessibleListsQ]

/-- The owner is told how many members there are. -/
lemma countMembersDistinct_owner (db : ListCatalog) (id : ListId) (row : UserList) :
    ListCatalog.countMembersDistinct row (db.joinedRows (some row.owner) id row)
      = memberCount db id row := by
  have hnodup := nodup_countMembers db row.owner id row
  rw [countMembersDistinct_eq]
  rw [visibleRows_owner] at hnodup ⊢
  exact (memberCount_eq hnodup (mem_profileCountedMembers id row)).symm

/-- Anybody else is told of one member at most. -/
lemma countMembersDistinct_le_one (db : ListCatalog) (id : ListId) (howner : row.owner ≠ user) :
    ListCatalog.countMembersDistinct row (db.joinedRows (some user) id row) ≤ 1 := by
  rw [countMembersDistinct_eq]
  have hsubset : ListState.countMembers row (visibleRows db user id row) ⊆ [user] := by
    intro member hmember
    obtain ⟨m, hm, -, rfl⟩ := mem_countMembers.mp hmember
    have hfilter := (List.mem_filter.mp hm).2
    simp only [accessibleListsQ, Option.any_some, howner, decide_false, Bool.false_or,
      Bool.and_eq_true, decide_eq_true_eq] at hfilter
    exact List.mem_singleton.mpr hfilter.2.1
  exact (List.subperm_of_subset (nodup_countMembers db user id row) hsubset).length_le

/-- Whoever sees the shared list of somebody else is one of at least two members. -/
lemma one_lt_memberCount (h : listSystem.Reachable db.lists)
    (hrow : db.lists.lists.get? id = some row)
    (haccess : isAccessible db.lists.memberships (some user) id row = true)
    (howner : row.owner ≠ user) : 1 < memberCount db id row := by
  obtain ⟨hshared, hrole⟩ := ((isAccessible_iff id row user).mp haccess).resolve_left howner
  have hownerRole : db.lists.role id row.owner = some .owner :=
    ((invariant_of_reachable h).owner id _ _ (kind_of_row hrow) (by simp [hshared]) _).mpr rfl
  have hfinite : {member | IsEffectiveMember db.lists id row member}.Finite :=
    (List.finite_toSet (db.lists.profileCountedMembers id row)).subset
      fun member hmember => (mem_profileCountedMembers id row member).mpr hmember
  rw [memberCount, Set.one_lt_ncard_iff hfinite]
  exact ⟨row.owner, user, .inl ⟨hshared, by rw [hownerRole, Option.isSome_some]⟩,
    .inl ⟨hshared, hrole⟩, howner⟩

/-- Nobody but the owner has a role on the list. -/
def OwnerAlone (s : ListState) (id : ListId) (row : UserList) : Prop :=
  ∀ member, (s.role id member).isSome → member = row.owner

/-- Only the list of an owner who is alone on it is joined with a single row. -/
lemma length_leftJoin_eq_one_iff (h : listSystem.Reachable db.lists)
    (hrow : db.lists.lists.get? id = some row) :
    (leftJoin id db.lists.memberships).length = 1 ↔ OwnerAlone db.lists id row := by
  have hinv := invariant_of_reachable h
  have hmem : ∀ {member role}, db.lists.role id member = some role →
      ⟨id, member, role⟩ ∈ membershipsOf id db.lists.memberships :=
    fun hrole => mem_membershipsOf.mpr ⟨rfl, hrole⟩
  rw [leftJoin_eq_outer, length_outer_eq_one]
  constructor
  · intro hlength member hmember
    obtain ⟨role, hrole⟩ := Option.isSome_iff_exists.mp hmember
    obtain ⟨owner, listType, hkind, hdynamic⟩ := hinv.member id member role hrole
    rw [kind_of_row hrow, Option.some.injEq, Prod.mk.injEq] at hkind
    obtain ⟨rfl, rfl⟩ := hkind
    have howner := (hinv.owner id _ _ (kind_of_row hrow) hdynamic row.owner).mpr rfl
    obtain ⟨m, hm⟩ := List.length_eq_one_iff.mp
      (hlength.antisymm (List.length_pos_of_mem (hmem hrole)))
    have hsame := hmem hrole
    have hsame' := hmem howner
    rw [hm, List.mem_singleton] at hsame hsame'
    exact congrArg ListMembership.user (hsame.trans hsame'.symm)
  · intro halone
    have hsubset : (membershipsOf id db.lists.memberships).map (·.user) ⊆ [row.owner] := by
      intro member hmember
      obtain ⟨m, hm, rfl⟩ := List.mem_map.mp hmember
      have hrole : db.lists.role id m.user = some m.role := (mem_membershipsOf.mp hm).2
      exact List.mem_singleton.mpr (halone m.user (by rw [hrole, Option.isSome_some]))
    have hle := (List.subperm_of_subset (nodup_members id db.lists.memberships) hsubset).length_le
    rwa [List.length_map] at hle

/-- Only shared lists have anybody but their owner. -/
lemma ownerAlone_of_not_shared (h : listSystem.Reachable db.lists)
    (hrow : db.lists.lists.get? id = some row) (hshared : row.listType ≠ .shared) :
    OwnerAlone db.lists id row := by
  intro member hmember
  obtain ⟨role, hrole⟩ := Option.isSome_iff_exists.mp hmember
  have hkind := kind_of_row hrow
  cases htype : row.listType with
  | shared => exact absurd htype hshared
  | personal => exact eq_owner_of_personal h hrole (htype ▸ hkind)
  | dynamic =>
    rw [(invariant_of_reachable h).role_dynamic (htype ▸ hkind)] at hrole
    cases hrole

/-! ### The statistics -/

lemma getListStats_memberCount {list : LoadedList} (h : list.LoadedFrom db.lists)
    (items : List ItemEntry) :
    (db.getListStats list items).memberCount = memberCount db list.id list.row := by
  have hselect : ∃ p, effectiveMemberships db.lists.memberships list
      = (membershipsOf list.id db.lists.memberships).filter p := by
    unfold effectiveMemberships
    rcases h.cached with hcached | hcached
    all_goals
      rw [hcached]
      dsimp only
      split_ifs
      · exact ⟨fun _ => false, (List.filter_false _).symm⟩
      · exact ⟨_, rfl⟩
      · exact ⟨_, rfl⟩
  obtain ⟨p, hp⟩ := hselect
  have hnodup : ((effectiveMemberships db.lists.memberships list).map (·.user)).Nodup := by
    rw [hp]
    exact (nodup_members _ _).sublist (List.filter_sublist.map _)
  rw [memberCount_eq hnodup (mem_effectiveMemberships h), List.length_map]
  rfl

lemma length_prefetchedItems_eq_iff (db : ListCatalog) (filters : ItemFilters) (id : ListId) :
    (db.prefetchedItems filters id).length = itemCount db id ↔
      ∀ entry ∈ db.itemsOf id, filters.keeps (db.content entry.2.contentItem) = true := by
  rw [itemCount_eq, ListCatalog.prefetchedItems, List.length_filter_eq_length_iff]

/-- An item without a status is neither pending nor completed. -/
lemma countP_status_add (items : List ItemEntry) :
    (items.countP fun item => item.2.contextStatus = some .pending)
        + (items.countP fun item => item.2.contextStatus = some .completed)
      = items.countP fun item => item.2.contextStatus.isSome := by
  induction items with
  | nil => rfl
  | cons item items ih =>
    rw [List.countP_cons, List.countP_cons, List.countP_cons, ← ih]
    cases item.2.contextStatus with
    | none => simp
    | some status => cases status <;> simp <;> omega

/-- The statistics of a personal or a system list add up; those of a shared list do if every item
    has a status. -/
lemma getListStats_split_iff (db : ListCatalog) (list : LoadedList) (items : List ItemEntry) :
    (db.getListStats list items).pendingItems + (db.getListStats list items).completedItems
        = (db.getListStats list items).totalItems ↔
      (list.row.listType = .shared → ∀ item ∈ items, item.2.contextStatus.isSome) := by
  by_cases hshared : list.row.listType = .shared
  · have hadd := countP_status_add items
    simp only [ListCatalog.getListStats, hshared, List.mem_cons, reduceCtorEq, List.not_mem_nil,
      or_self, if_false, forall_const]
    rw [← Nat.cast_add, Nat.cast_inj, hadd, List.countP_eq_length]
  · have hmem : list.row.listType ∈ [ListType.personal, .dynamic] := by
      cases htype : list.row.listType <;> simp_all
    simp only [ListCatalog.getListStats, if_pos hmem, sub_add_cancel, hshared, false_imp_iff]

/-! ### The counters agree -/

structure StatsRight (db : ListCatalog) (id : ListId) (row : UserList)
    (stats : ListCatalog.ListStats) : Prop where
  total : stats.totalItems = itemCount db id
  members : stats.memberCount = memberCount db id row
  split : stats.pendingItems + stats.completedItems = stats.totalItems

/-- All that a user is told of the numbers of items and members of a list is right. -/
structure CountersRight (db : ListCatalog) (user : UserId) (id : ListId) (row : UserList)
    (filters : ItemFilters) : Prop where
  listed : ∀ counted ∈ db.getQueryset user, counted.list.id = id →
    counted.itemCountAnnotated = itemCount db id ∧
    counted.memberCountAnnotated = memberCount db id row
  userLists : ∀ counted ∈ db.getUserLists user, counted.list.id = id →
    counted.itemCountAnnotated = itemCount db id ∧
    counted.memberCountAnnotated = memberCount db id row
  bulk : ∀ validatedItems, ∀ checked ∈ (db.checkItemsInLists user validatedItems).lists,
    checked.id = id → checked.itemCount = itemCount db id
  stats : ∀ list : LoadedList, list.LoadedFrom db.lists → list.id = id →
    StatsRight db id row (db.getListStats list (db.prefetchedItems filters id))

lemma annotateCounts_eq_some {list : LoadedList} {counted : ListCatalog.CountedList}
    (h : db.annotateCounts (some user) list = some counted) :
    counted.list = list ∧
    counted.itemCountAnnotated
      = ListCatalog.countItemsDistinct (db.joinedRows (some user) list.id list.row) ∧
    counted.memberCountAnnotated
      = ListCatalog.countMembersDistinct list.row (db.joinedRows (some user) list.id list.row) := by
  simp only [ListCatalog.annotateCounts] at h
  split_ifs at h
  cases h
  exact ⟨rfl, rfl, rfl⟩

/-- Both queries count on the joined rows of the list, whatever they prefetch with it. -/
lemma counts_of_mem {load : ListId × UserList → LoadedList}
    (hload : ∀ list, (load list).id = list.1 ∧ (load list).row = list.2)
    (hrow : db.lists.lists.get? id = some row) {counted : ListCatalog.CountedList}
    (hmem : counted ∈ db.lists.lists.rows.filterMap fun list =>
      db.annotateCounts (some user) (load list)) (hid : counted.list.id = id) :
    counted.itemCountAnnotated
      = ListCatalog.countItemsDistinct (db.joinedRows (some user) id row) ∧
    counted.memberCountAnnotated
      = ListCatalog.countMembersDistinct row (db.joinedRows (some user) id row) := by
  obtain ⟨⟨id', row'⟩, hlist, hcounted⟩ := List.mem_filterMap.mp hmem
  obtain ⟨hloaded, hitems, hmembers⟩ := annotateCounts_eq_some hcounted
  obtain ⟨hid', hrow'⟩ := hload (id', row')
  obtain rfl : id' = id := by rw [← hid, hloaded, hid']
  obtain rfl : row' = row :=
    Option.some.inj (((Table.mem_rows_iff _ _ _).mp hlist).symm.trans hrow)
  rw [hid', hrow'] at hitems hmembers
  exact ⟨hitems, hmembers⟩

lemma joinedRows_ne_nil (haccess : isAccessible db.lists.memberships (some user) id row = true) :
    db.joinedRows (some user) id row ≠ [] :=
  outerJoin_ne_nil (visibleRows_ne_nil haccess) _

/-- A list that the user has access to is among the lists of the queryset. -/
lemma exists_mem_getQueryset (hrow : db.lists.lists.get? id = some row)
    (haccess : isAccessible db.lists.memberships (some user) id row = true) :
    ∃ counted ∈ db.getQueryset user, counted.list.id = id := by
  obtain ⟨counted, hcounted⟩ : ∃ counted, db.annotateCounts (some user)
      ⟨id, row, some (membershipsOf id db.lists.memberships), none⟩ = some counted :=
    ⟨_, if_neg (joinedRows_ne_nil haccess)⟩
  refine ⟨counted, List.mem_filterMap.mpr
    ⟨(id, row), (Table.mem_rows_iff _ _ _).mpr hrow, hcounted⟩, ?_⟩
  rw [(annotateCounts_eq_some hcounted).1]

lemma checkList_eq (validatedItems : List ContentItem)
    (hne : db.joinedRows (some user) id row ≠ []) :
    db.checkList user validatedItems id row = some
      { id, name := row.name, listType := row.listType
        itemCount := (visibleRows db user id row).length * itemCount db id
        matchedCount := (db.matchedItems id validatedItems).length
        matchedItems := db.matchedItems id validatedItems } := by
  rw [ListCatalog.checkList, if_neg hne, countItems_eq]

lemma exists_mem_checkItemsInLists (hrow : db.lists.lists.get? id = some row)
    (haccess : isAccessible db.lists.memberships (some user) id row = true)
    (validatedItems : List ContentItem) :
    ∃ checked ∈ (db.checkItemsInLists user validatedItems).lists, checked.id = id :=
  ⟨_, List.mem_filterMap.mpr ⟨(id, row), (Table.mem_rows_iff _ _ _).mpr hrow,
    checkList_eq validatedItems (joinedRows_ne_nil haccess)⟩, rfl⟩

lemma itemCount_of_mem_checked (hrow : db.lists.lists.get? id = some row)
    {validatedItems : List ContentItem} {checked : ListCatalog.CheckedList}
    (hmem : checked ∈ (db.checkItemsInLists user validatedItems).lists) (hid : checked.id = id) :
    checked.itemCount = (visibleRows db user id row).length * itemCount db id := by
  obtain ⟨⟨id', row'⟩, hlist, hchecked⟩ := List.mem_filterMap.mp hmem
  have hne : db.joinedRows (some user) id' row' ≠ [] := by
    intro hnil
    rw [ListCatalog.checkList, if_pos hnil] at hchecked
    cases hchecked
  obtain rfl := Option.some.inj ((checkList_eq validatedItems hne).symm.trans hchecked)
  obtain rfl : id' = id := hid
  obtain rfl : row' = row :=
    Option.some.inj (((Table.mem_rows_iff _ _ _).mp hlist).symm.trans hrow)
  rfl

/-- The statistics of the endpoint are those of a list that was loaded from the tables. -/
lemma stats_eq_getListStats {filters : ItemFilters} {stats : ListCatalog.ListStats}
    (h : db.stats (some user) filters id = .ok stats) :
    ∃ list : LoadedList, list.LoadedFrom db.lists ∧ list.id = id ∧
      stats = db.getListStats list (db.prefetchedItems filters id) := by
  rw [ListCatalog.stats, authenticate] at h
  cases hlist : db.lists.getList user id with
  | error e =>
    simp only [hlist, Except.bind] at h
    cases h
  | ok row =>
    simp only [hlist, Except.bind] at h
    split_ifs at h
    cases h
    refine ⟨_, ⟨?_, ?_, ?_⟩, rfl, rfl⟩
    · unfold getList at hlist
      cases hget : db.lists.lists.get? id with
      | none =>
        rw [hget] at hlist
        cases hlist
      | some row' =>
        simp only [hget] at hlist
        split_ifs at hlist
        cases hlist
        rfl
    · rintro memberships ⟨⟩
      rfl
    · rintro memberships ⟨⟩

/-- Whoever does not own the list is told of one member. -/
lemma CountersRight.owner {filters : ItemFilters} (h : CountersRight db user id row filters)
    (hreachable : listSystem.Reachable db.lists) (hrow : db.lists.lists.get? id = some row)
    (haccess : isAccessible db.lists.memberships (some user) id row = true) :
    row.owner = user := by
  by_contra howner
  obtain ⟨counted, hmem, hid⟩ := exists_mem_getQueryset hrow haccess
  have hcount := (h.listed counted hmem hid).2
  rw [(counts_of_mem (fun _ => ⟨rfl, rfl⟩) hrow hmem hid).2] at hcount
  have hle := countMembersDistinct_le_one db id howner
  have hlt := one_lt_memberCount hreachable hrow haccess howner
  omega

/-- In every reachable state the counters of a list are right for a user who has access to it if,
    and only if, the query parameters of the statistics leave no item out and, on a shared list,
    the user is its owner, the list is empty or the owner is alone on it, and every item has a
    status. -/
theorem counters_right_iff (h : listSystem.Reachable db.lists) (user : UserId) {id : ListId}
    {row : UserList} (hrow : db.lists.lists.get? id = some row)
    (haccess : isAccessible db.lists.memberships (some user) id row = true)
    (filters : ItemFilters) :
    CountersRight db user id row filters ↔
      (∀ entry ∈ db.itemsOf id, filters.keeps (db.content entry.2.contentItem) = true) ∧
      (row.listType = .shared → row.owner = user ∧
        (db.itemsOf id = [] ∨ OwnerAlone db.lists id row) ∧
        ∀ entry ∈ db.itemsOf id, entry.2.contextStatus.isSome) := by
  have hloaded : ∀ list : LoadedList, list.LoadedFrom db.lists → list.id = id → list.row = row := by
    rintro list hlist rfl
    exact Option.some.inj (hlist.row.symm.trans hrow)
  constructor
  · intro hright
    have hstats := hright.stats ⟨id, row, none, none⟩ ⟨hrow, by simp, by simp⟩ rfl
    have hkeeps := (length_prefetchedItems_eq_iff db filters id).mp hstats.total
    have hall : db.prefetchedItems filters id = db.itemsOf id := List.filter_eq_self.mpr hkeeps
    refine ⟨hkeeps, fun hshared => ?_⟩
    obtain rfl := hright.owner h hrow haccess
    refine ⟨rfl, ?_, ?_⟩
    · obtain ⟨checked, hmem, hid⟩ := exists_mem_checkItemsInLists hrow haccess []
      have hcount := hright.bulk [] checked hmem hid
      rw [itemCount_of_mem_checked hrow hmem hid, visibleRows_owner] at hcount
      by_cases hnil : db.itemsOf id = []
      · exact .inl hnil
      · have hpos : 0 < itemCount db id := by
          rw [itemCount_eq]
          exact List.length_pos_iff.mpr hnil
        exact .inr ((length_leftJoin_eq_one_iff h hrow).mp
          (Nat.eq_of_mul_eq_mul_right hpos (hcount.trans (Nat.one_mul _).symm)))
    · have hsplit := (getListStats_split_iff db _ _).mp hstats.split hshared
      rwa [hall] at hsplit
  · rintro ⟨hkeeps, hcondition⟩
    have howner : row.owner = user := by
      rcases (isAccessible_iff id row user).mp haccess with howner | ⟨hshared, -⟩
      · exact howner
      · exact (hcondition hshared).1
    subst howner
    have hcounts : ∀ counted : ListCatalog.CountedList,
        (counted.itemCountAnnotated
            = ListCatalog.countItemsDistinct (db.joinedRows (some row.owner) id row) ∧
          counted.memberCountAnnotated
            = ListCatalog.countMembersDistinct row (db.joinedRows (some row.owner) id row)) →
        counted.itemCountAnnotated = itemCount db id ∧
          counted.memberCountAnnotated = memberCount db id row := by
      rintro counted ⟨hitems, hmembers⟩
      rw [hitems, hmembers]
      exact ⟨countItemsDistinct_eq haccess, countMembersDistinct_owner db id row⟩
    refine ⟨fun counted hmem hid => hcounts counted ?_, fun counted hmem hid => hcounts counted ?_,
      ?_, ?_⟩
    · exact counts_of_mem (fun _ => ⟨rfl, rfl⟩) hrow hmem hid
    · exact counts_of_mem (fun _ => ⟨rfl, rfl⟩) hrow hmem hid
    · intro validatedItems checked hmem hid
      rw [itemCount_of_mem_checked hrow hmem hid, visibleRows_owner, itemCount_eq]
      by_cases hnil : db.itemsOf id = []
      · rw [hnil, List.length_nil, Nat.mul_zero]
      · have halone : OwnerAlone db.lists id row := by
          by_cases hshared : row.listType = .shared
          · exact (hcondition hshared).2.1.resolve_left hnil
          · exact ownerAlone_of_not_shared h hrow hshared
        rw [(length_leftJoin_eq_one_iff h hrow).mpr halone, Nat.one_mul]
    · rintro list hlist rfl
      have hlistRow := hloaded list hlist rfl
      refine ⟨(length_prefetchedItems_eq_iff db filters list.id).mpr hkeeps, ?_, ?_⟩
      · rw [getListStats_memberCount hlist, hlistRow]
      · rw [getListStats_split_iff, hlistRow]
        exact fun hshared item hitem =>
          (hcondition hshared).2.2 item (List.mem_of_mem_filter hitem)

def pendingItem : ListItem :=
  { userList := 1, contentItem := 7, contextStatus := some .pending, listOrder := 1 }

/-- One item waits on the list that the requests make. -/
def catalogAfter (requests : List ListRequest) : ListCatalog where
  lists := after requests
  items := Table.empty.set 1 pendingItem
  tracking := .empty
  ratings := .empty
  content _ := ⟨.tmdb, "603", .movie⟩

/-- Nobody has been invited to the shared list yet. -/
theorem counters_right_alone :
    CountersRight (catalogAfter (sharedListRequests.drop 2)) 1 1 familyMovies {} := by
  have hreachable : listSystem.Reachable (catalogAfter (sharedListRequests.drop 2)).lists :=
    reachable_of_run (run_after _)
  have hrow : (catalogAfter (sharedListRequests.drop 2)).lists.lists.get? 1
      = some familyMovies := by
    decide +kernel
  refine (counters_right_iff hreachable 1 hrow (by decide +kernel) {}).mpr ⟨?_, fun _ => ?_⟩
  · exact fun _ _ => rfl
  · refine ⟨rfl, .inr ((length_leftJoin_eq_one_iff hreachable hrow).mp ?_), ?_⟩
    · decide +kernel
    · decide +kernel

/-- The viewer is told that the list has one member, and the owner's bulk check counts its item
    twice. -/
theorem counters_wrong_for_members :
    ((catalogAfter sharedListRequests).getQueryset 2).map (·.memberCountAnnotated) = [1] ∧
    (effectiveMemberIds (catalogAfter sharedListRequests).lists 1).length = 2 ∧
    ((catalogAfter sharedListRequests).checkItemsInLists 1 []).lists.map (·.itemCount) = [2] ∧
    ((catalogAfter sharedListRequests).itemsOf 1).length = 1 ∧
    ¬ ∀ db : ListCatalog, listSystem.Reachable db.lists → ∀ user id row,
      db.lists.lists.get? id = some row →
      isAccessible db.lists.memberships (some user) id row = true →
      CountersRight db user id row {} := by
  refine ⟨by decide +kernel, by decide +kernel, by decide +kernel, by decide +kernel,
    fun hall => ?_⟩
  have hreachable : listSystem.Reachable (catalogAfter sharedListRequests).lists :=
    reachable_of_run (run_after _)
  have hrow : (catalogAfter sharedListRequests).lists.lists.get? 1 = some familyMovies := by
    decide +kernel
  have haccess : isAccessible (catalogAfter sharedListRequests).lists.memberships (some 2) 1
      familyMovies = true := by
    decide +kernel
  have howner := (hall _ hreachable 2 1 familyMovies hrow haccess).owner hreachable hrow haccess
  exact absurd howner (by decide)

end Denn.Lists
