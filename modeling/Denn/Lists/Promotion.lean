import Denn.Lists.Explore
import Denn.Lists.Renumber

/-!
# Promoting a sort

The endpoint that makes an explored sort the canonical order of a list. The sort may use the order
values that it rewrites, as a key and to break ties.
-/

namespace Denn.Lists

open Core

/-! ### The endpoints -/

section Endpoints

variable {κ : Type*} [LinearOrder κ] (readers : Readers) (collate : String ↪ κ)

/-- `ListItemViewSet.list`, the items on all pages. -/
def exploreList (db : ExploreDatabase) (user : Requester) (listPk : ListId)
    (params : List (String × String)) : Except ListError (List ExploredItem) :=
  (db.lists.authorize user listPk .view).bind fun user =>
  match parseListItemQuery readers params with
  | .error .parseError => .error (.detail 400 "Invalid list query.")
  | .error .valueError => .error (.valueError "Invalid filter value.")
  | .ok query => .ok (query.applyQuery collate (db.exploredItems user listPk))

/-- The text under `sort` in the body. -/
def sortText (data : Json) : Option String :=
  match data.get "sort" with
  | .str sort => some sort
  | _ => none

/-- The checks of `apply_sort`, with the user and the query. -/
def validateSort (s : ListState) (user : Requester) (listPk : ListId)
    (params : List (String × String)) (data : Json) : Except ListError (UserId × ListItemQuery) :=
  (s.authorize user listPk .reorder).bind fun user =>
  if params.any fun parameter => "filter[".toList.isPrefixOf parameter.1.toList then
    .error (.detail 400 "Filters are not allowed when promoting a sort to the canonical order.")
  else if (params.lookup "group_by").getD "" ≠ "" then
    .error (.detail 400 "Grouping is not allowed when promoting a sort to the canonical order.")
  else if (sortText data).getD "" = "" then
    .error (.detail 400 "Body must include a non-empty \"sort\" string.")
  else
    match parseListItemQuery readers [("sort", (sortText data).getD "")] with
    | .error _ => .error (.detail 400 "Invalid list query.")
    | .ok query =>
      if query.sort = [] then
        .error (.detail 400 "\"sort\" must include at least one valid field.")
      else if query.sort.all fun clause => clause.field = .listOrder then
        .error (.detail 400 "Sort already matches the canonical list order; nothing to apply.")
      else .ok (user, query)

/-- `ListItemViewSet.apply_sort`: the items afterwards, and how many were updated. -/
def applySort (db : ExploreDatabase) (parking placing : Scan ListItemId) (user : Requester)
    (listPk : ListId) (params : List (String × String)) (data : Json) :
    Except ListError (ListItems × ℕ) :=
  (validateSort readers db.lists user listPk params data).bind fun (user, query) =>
    let items := query.applyQuery collate (db.exploredItems user listPk)
    if items = [] then .ok (db.items, 0)
    else
      let ids := items.map (·.id)
      ((renumber parking placing ids (fun id => ids.idxOf id + 1) db.items).mapError
        fun _ => .integrityError).map fun items' => (items', items.length)

end Endpoints

/-! ### Rows and items -/

section Rows

variable {db : ExploreDatabase} {user : UserId} {listPk : ListId} {a b : ExploredItem}

lemma map_id_exploredItems (db : ExploreDatabase) (user : UserId) (listPk : ListId) :
    (db.exploredItems user listPk).map (·.id) = itemIds listPk db.items := by
  simp [ExploreDatabase.exploredItems, ExploreDatabase.exploreItem, itemIds, Table.keysWhere]

lemma mem_exploredItems : a ∈ db.exploredItems user listPk ↔
    ∃ row, db.items.get? a.id = some row ∧ row.userList = listPk ∧
      a = db.exploreItem user a.id row := by
  simp only [ExploreDatabase.exploredItems, List.mem_map, List.mem_filter, Prod.exists,
    Table.mem_rows_iff, decide_eq_true_eq]
  constructor
  · rintro ⟨id, row, ⟨hrow, hlist⟩, rfl⟩
    exact ⟨row, hrow, hlist, rfl⟩
  · rintro ⟨row, hrow, hlist, heq⟩
    exact ⟨a.id, row, ⟨hrow, hlist⟩, heq.symm⟩

lemma nodup_exploredItems : (db.exploredItems user listPk).Nodup :=
  List.Nodup.of_map (·.id) (map_id_exploredItems db user listPk ▸ nodup_itemIds)

lemma id_mem_itemIds (ha : a ∈ db.exploredItems user listPk) : a.id ∈ itemIds listPk db.items :=
  map_id_exploredItems db user listPk ▸ List.mem_map_of_mem ha

lemma listOrder_eq (ha : a ∈ db.exploredItems user listPk) :
    a.row.listOrder = orderOf db.items a.id := by
  obtain ⟨row, hrow, -, heq⟩ := mem_exploredItems.mp ha
  rw [orderOf_eq hrow, heq]
  rfl

lemma eq_of_id_eq (ha : a ∈ db.exploredItems user listPk) (hb : b ∈ db.exploredItems user listPk)
    (hid : a.id = b.id) : a = b := by
  obtain ⟨row, hrow, -, ha⟩ := mem_exploredItems.mp ha
  obtain ⟨row', hrow', -, hb⟩ := mem_exploredItems.mp hb
  rw [hid, hrow', Option.some.injEq] at hrow
  rw [ha, hb, hid, hrow]

lemma eq_of_listOrder_eq (hordered : WellOrdered listPk db.items)
    (ha : a ∈ db.exploredItems user listPk) (hb : b ∈ db.exploredItems user listPk)
    (horder : a.row.listOrder = b.row.listOrder) : a = b := by
  rw [listOrder_eq ha, listOrder_eq hb] at horder
  exact eq_of_id_eq ha hb
    (hordered.distinct.inj (id_mem_itemIds ha) (id_mem_itemIds hb) horder)

/-- The row with another order value. -/
def ExploredItem.withOrder (order : ListItemId → ℤ) (item : ExploredItem) : ExploredItem :=
  { item with row := { item.row with listOrder := order item.id } }

/-- The rows after the items are reordered. -/
lemma exploredItems_reordered (db : ExploreDatabase) (user : UserId) {items' : ListItems} {order : ListItemId → ℤ}
    (h : Reordered listPk order db.items items') :
    (ExploreDatabase.exploredItems { db with items := items' } user listPk).Perm
      ((db.exploredItems user listPk).map (ExploredItem.withOrder order)) := by
  have hnodup : ((db.exploredItems user listPk).map (ExploredItem.withOrder order)).Nodup := by
    refine List.Nodup.of_map (·.id) ?_
    rw [List.map_map]
    exact map_id_exploredItems db user listPk ▸ nodup_itemIds
  rw [List.perm_ext_iff_of_nodup nodup_exploredItems hnodup]
  intro a
  rw [mem_exploredItems, List.mem_map]
  constructor
  · rintro ⟨row', hrow', hlist, heq⟩
    rw [h a.id] at hrow'
    obtain ⟨row, hrow, rfl⟩ := Option.map_eq_some_iff.mp hrow'
    by_cases hrowList : row.userList = listPk
    · refine ⟨db.exploreItem user a.id row,
        mem_exploredItems.mpr ⟨row, hrow, hrowList, rfl⟩, ?_⟩
      rw [heq, if_pos hrowList]
      rfl
    · rw [if_neg hrowList] at hlist
      exact absurd hlist hrowList
  · rintro ⟨b, hb, rfl⟩
    obtain ⟨row, hrow, hlist, heq⟩ := mem_exploredItems.mp hb
    refine ⟨{ row with listOrder := order b.id }, ?_, hlist, ?_⟩
    · change items'.get? b.id = _
      rw [h b.id, hrow, Option.map_some, if_pos hlist]
    · rw [heq]
      rfl

end Rows

/-! ### The first clause on the order values -/

section Clauses

variable {κ : Type*} {collate : String ↪ κ} {sort : List SortClause}

def SortClause.toClause (collate : String ↪ κ) (clause : SortClause) :
    Clause ExploredItem (Value κ) :=
  ⟨clause.field.column collate, clause.descending⟩

/-- The clauses in front of the first one on the order values. -/
def leading (sort : List SortClause) : List SortClause :=
  sort.takeWhile fun clause => clause.field ≠ .listOrder

/-- The first clause on the order values is descending. -/
def isReversed (sort : List SortClause) : Bool :=
  (sort.find? fun clause => clause.field = .listOrder).any (·.descending)

/-- Every sort reads the order values somewhere, at the latest to break ties. -/
lemma clauses_eq_append (collate : String ↪ κ) (sort : List SortClause) :
    ∃ rest, sort.map (SortClause.toClause collate) ++ ListItemQuery.tieBreakers collate =
      (leading sort).map (SortClause.toClause collate) ++
        ⟨SortField.listOrder.column collate, isReversed sort⟩ :: rest := by
  induction sort with
  | nil => exact ⟨_, rfl⟩
  | cons clause sort ih =>
    obtain ⟨rest, hrest⟩ := ih
    by_cases hfield : clause.field = .listOrder
    · obtain ⟨field, descending⟩ := clause
      obtain rfl : field = .listOrder := hfield
      exact ⟨sort.map (SortClause.toClause collate) ++ ListItemQuery.tieBreakers collate, rfl⟩
    · refine ⟨rest, ?_⟩
      have hleading : leading (clause :: sort) = clause :: leading sort := by
        simp [leading, hfield]
      have hreversed : isReversed (clause :: sort) = isReversed sort := by
        simp [isReversed, hfield]
      rw [hleading, hreversed, List.map_cons, List.map_cons, List.cons_append, List.cons_append,
        hrest]

lemma listOrder_column_inj {a b : ExploredItem} :
    SortField.listOrder.column collate a = SortField.listOrder.column collate b ↔
      a.row.listOrder = b.row.listOrder := by
  simp [SortField.column, number]

lemma column_withOrder {field : SortField} (hfield : field ≠ .listOrder)
    (order : ListItemId → ℤ) (a : ExploredItem) :
    field.column collate (a.withOrder order) = field.column collate a := by
  cases field with
  | listOrder => exact absurd rfl hfield
  | _ => rfl

/-- The clauses of a sort, with those that break the ties. -/
def sortClauses (collate : String ↪ κ) (sort : List SortClause) :
    List (Clause ExploredItem (Value κ)) :=
  sort.map (SortClause.toClause collate) ++ ListItemQuery.tieBreakers collate

/-- Two items agree in the clauses in front of the first one on the order values. -/
def TiedBefore (collate : String ↪ κ) (sort : List SortClause) (a b : ExploredItem) : Prop :=
  Tied ((leading sort).map (SortClause.toClause collate)) a b

lemma mem_leading_column {clause : Clause ExploredItem (Value κ)}
    (h : clause ∈ (leading sort).map (SortClause.toClause collate)) (order : ListItemId → ℤ)
    (a : ExploredItem) : clause.column (a.withOrder order) = clause.column a := by
  obtain ⟨sortClause, hmem, rfl⟩ := List.mem_map.mp h
  have hfield := List.mem_takeWhile_imp hmem
  exact column_withOrder (by simpa using hfield) order a

variable [LinearOrder κ]

lemma number_lt {p q : ℚ} : (number p : Value κ) < number q ↔ p < q :=
  WithTop.coe_lt_coe.trans Sum.Lex.inl_lt_inl_iff

lemma listOrder_column_lt {a b : ExploredItem} :
    SortField.listOrder.column collate a < SortField.listOrder.column collate b ↔
      a.row.listOrder < b.row.listOrder := by
  simp only [SortField.column, number_lt, Int.cast_lt]

/-- How a sort compares two items with different order values. -/
lemma before_iff {a b : ExploredItem} (hne : a.row.listOrder ≠ b.row.listOrder) :
    Before (sortClauses collate sort) a b ↔
      Before ((leading sort).map (SortClause.toClause collate)) a b ∨
        TiedBefore collate sort a b ∧
          if isReversed sort then b.row.listOrder < a.row.listOrder
          else a.row.listOrder < b.row.listOrder := by
  obtain ⟨rest, hrest⟩ := clauses_eq_append collate sort
  rw [sortClauses, hrest, before_append, Before]
  simp only [listOrder_column_inj, hne, false_and, or_false, Clause.lt, listOrder_column_lt]
  rfl

/-- How it compares them when they are numbered in its order. -/
lemma before_withOrder_iff {order : ListItemId → ℤ} {a b : ExploredItem}
    (hlt : order a.id < order b.id) :
    Before (sortClauses collate sort) (a.withOrder order) (b.withOrder order) ↔
      Before ((leading sort).map (SortClause.toClause collate)) a b ∨
        TiedBefore collate sort a b ∧ isReversed sort = false := by
  rw [before_iff (ne_of_lt hlt)]
  have hbefore : Before ((leading sort).map (SortClause.toClause collate)) (a.withOrder order)
      (b.withOrder order) ↔ Before ((leading sort).map (SortClause.toClause collate)) a b :=
    before_congr (fun clause hclause => mem_leading_column hclause order a)
      fun clause hclause => mem_leading_column hclause order b
  have htied : TiedBefore collate sort (a.withOrder order) (b.withOrder order) ↔
      TiedBefore collate sort a b := by
    rw [TiedBefore, TiedBefore, tied_iff, tied_iff]
    refine forall₂_congr fun clause hclause => ?_
    rw [mem_leading_column hclause, mem_leading_column hclause]
  rw [hbefore, htied]
  have hlt' : (a.withOrder order).row.listOrder < (b.withOrder order).row.listOrder := hlt
  cases isReversed sort with
  | false => simp [hlt']
  | true => simp [hlt'.le]

end Clauses

/-! ### The promoted order -/

section Promotion

variable {κ : Type*} [LinearOrder κ] {readers : Readers} {collate : String ↪ κ}
  {db : ExploreDatabase} {user : Requester} {uid : UserId} {listPk : ListId}
  {params : List (String × String)} {data : Json} {query : ListItemQuery} {sort : List SortClause}

lemma parse_sort {text : String} (h : parseListItemQuery readers [("sort", text)] = .ok query) :
    query = { sort := query.sort } := by
  obtain ⟨query', hquery, h⟩ := bind_eq_ok h
  obtain ⟨sort, -, h⟩ := bind_eq_ok h
  obtain ⟨groupBy, hgroup, h⟩ := bind_eq_ok h
  have hfilters : query' = {} := by
    have hname : filterName "sort" = none := by decide
    have hparameter : addParameter readers {} ("sort", text) = .ok {} := by
      rw [addParameter, hname]
    rw [List.foldlM_cons, hparameter, ok_bind] at hquery
    exact (Except.ok.inj hquery).symm
  have hnone : groupBy = none := by
    have hlookup : ([("sort", text)].lookup "group_by").getD "" = "" := rfl
    rw [hlookup] at hgroup
    exact (Except.ok.inj hgroup).symm
  rw [← Except.ok.inj h, hfilters, hnone]

/-- The query of an accepted sort has no filters and no groups. -/
lemma validateSort_eq_ok {s : ListState}
    (h : validateSort readers s user listPk params data = .ok (uid, query)) :
    s.authorize user listPk .reorder = .ok uid ∧
      parseListItemQuery readers [("sort", (sortText data).getD "")] = .ok query ∧
      query = { sort := query.sort } ∧ query.sort ≠ [] := by
  obtain ⟨uid', hauth, h⟩ := bind_eq_ok h
  split_ifs at h with hfilters hgroup htext
  cases hparse : parseListItemQuery readers [("sort", (sortText data).getD "")] with
  | error e => simp [hparse] at h
  | ok query' =>
    simp only [hparse] at h
    split_ifs at h with hempty hall
    obtain ⟨rfl, rfl⟩ := Prod.mk.inj (Except.ok.inj h)
    exact ⟨hauth, rfl, parse_sort hparse, hempty⟩

/-- Without filters and groups a query only sorts. -/
lemma applyQuery_eq {items : List ExploredItem} (hquery : query = { sort := query.sort })
    (hsort : query.sort ≠ []) :
    query.applyQuery collate items = orderBy (sortClauses collate query.sort) items := by
  rw [ListItemQuery.applyQuery]
  have hall : items.filter query.admits = items := by
    rw [List.filter_eq_self, hquery]
    intro item _
    rfl
  rw [hall, ListItemQuery.clauses, if_pos hsort]
  rfl

/-- The list as a sort shows it. -/
def sortedItems (collate : String ↪ κ) (sort : List SortClause) (db : ExploreDatabase)
    (user : UserId) (listPk : ListId) : List ExploredItem :=
  orderBy (sortClauses collate sort) (db.exploredItems user listPk)

lemma pairwise_sortedItems (collate : String ↪ κ) (sort : List SortClause) (db : ExploreDatabase)
    (uid : UserId) (hordered : WellOrdered listPk db.items) :
    (sortedItems collate sort db uid listPk).Pairwise (Before (sortClauses collate sort)) := by
  refine pairwise_before nodup_exploredItems fun a ha b hb htied => ?_
  refine eq_of_listOrder_eq hordered ha hb ?_
  have hcolumn : SortField.listOrder.column collate a = SortField.listOrder.column collate b :=
    tied_iff.mp htied ⟨SortField.listOrder.column collate, false⟩
      (by simp [sortClauses, ListItemQuery.tieBreakers])
  exact listOrder_column_inj.mp hcolumn

lemma map_id_sortedItems_perm (collate : String ↪ κ) (sort : List SortClause)
    (db : ExploreDatabase) (uid : UserId) (listPk : ListId) :
    ((sortedItems collate sort db uid listPk).map (·.id)).Perm (itemIds listPk db.items) := by
  rw [← map_id_exploredItems db uid listPk]
  exact (orderBy_perm _ _).map _

/-- The sort is applied in the opposite direction once its result is the canonical order: it has a
    descending clause on the order values that decides between two items. -/
def Reverses (collate : String ↪ κ) (sort : List SortClause) (shown : List ExploredItem) : Prop :=
  isReversed sort = true ∧ ∃ a ∈ shown, ∃ b ∈ shown, a ≠ b ∧ TiedBefore collate sort a b

/-- A promoted order is sorted again as it stands exactly if no descending clause on the order
    values decided it. -/
theorem sortedItems_promoted_iff {items' : ListItems} (hordered : WellOrdered listPk items')
    (hordered' : WellOrdered listPk db.items)
    (hreordered : Reordered listPk
      (fun id => ((sortedItems collate sort db uid listPk).map (·.id)).idxOf id + 1)
      db.items items') :
    (sortedItems collate sort { db with items := items' } uid listPk).map (·.id) =
        (sortedItems collate sort db uid listPk).map (·.id) ↔
      ¬ Reverses collate sort (sortedItems collate sort db uid listPk) := by
  have hsorted := pairwise_sortedItems collate sort db uid hordered'
  have hids := map_id_sortedItems_perm collate sort db uid listPk
  have hnodup := hids.nodup_iff.mpr nodup_itemIds
  generalize hshown : sortedItems collate sort db uid listPk = shown at hsorted hids hnodup hreordered
  have hperm := exploredItems_reordered db uid hreordered
  generalize horder : (fun id : ListItemId => (((shown.map (·.id)).idxOf id : ℕ) : ℤ) + 1) = order
    at hreordered hperm
  have hplaces : shown.Pairwise fun a b => order a.id < order b.id := by
    rw [← horder]
    exact (List.pairwise_map (f := fun item : ExploredItem => item.id)).mp (idxOf_succ_lt hnodup)
  have hmap : (shown.map (ExploredItem.withOrder order)).map (·.id) = shown.map (·.id) := by
    rw [List.map_map]
    rfl
  have hshownPerm : (shown.map (ExploredItem.withOrder order)).Perm
      (ExploreDatabase.exploredItems { db with items := items' } uid listPk) := by
    refine List.Perm.trans ?_ hperm.symm
    rw [← hshown]
    exact (orderBy_perm _ _).map _
  constructor
  · intro heq
    have hsorted' := pairwise_sortedItems collate sort { db with items := items' } uid hordered
    have hkeys : DistinctKeys (fun item : ExploredItem => item.id)
        (shown.map (ExploredItem.withOrder order)) := by
      rw [DistinctKeys, hmap]
      exact hnodup
    have hresult := hkeys.eq_of_map_eq ((orderBy_perm _ _).trans hshownPerm.symm)
      (heq.trans hmap.symm)
    rw [sortedItems, hresult, List.pairwise_map] at hsorted'
    rintro ⟨hreversed, a, ha, b, hb, hne, htied⟩
    have huntied : shown.Pairwise fun a b => ¬ TiedBefore collate sort a b := by
      refine (hsorted'.and hplaces).imp fun h htied => ?_
      rcases (before_withOrder_iff h.2).mp h.1 with hbefore | ⟨-, hforward⟩
      · exact not_before_of_tied htied hbefore
      · rw [hreversed] at hforward
        cases hforward
    have hsymm : Std.Symm fun a b => ¬ TiedBefore collate sort a b :=
      ⟨fun a b h htied => h (tied_symm htied)⟩
    exact huntied.forall ha hb hne htied
  · intro hreverses
    rw [← hmap]
    refine congrArg _ (orderBy_eq_of_pairwise hshownPerm ?_)
    rw [List.pairwise_map]
    refine (hsorted.and hplaces).imp_of_mem fun {a b} ha hb h => ?_
    have hne : a ≠ b := by
      rintro rfl
      exact lt_irrefl _ h.2
    have hmem : ∀ c ∈ shown, c ∈ db.exploredItems uid listPk := by
      intro c hc
      rw [← hshown] at hc
      exact mem_orderBy.mp hc
    have horderNe : a.row.listOrder ≠ b.row.listOrder := fun heq =>
      hne (eq_of_listOrder_eq hordered' (hmem a ha) (hmem b hb) heq)
    refine (before_withOrder_iff h.2).mpr ?_
    rcases (before_iff horderNe).mp h.1 with hbefore | ⟨htied, -⟩
    · exact .inl hbefore
    · refine .inr ⟨htied, ?_⟩
      by_contra hreversed
      exact hreverses ⟨by simpa using hreversed, a, ha, b, hb, hne, htied⟩

/-- Who may reorder a list may view it. -/
lemma authorize_view {s : ListState} (h : s.authorize user listPk .reorder = .ok uid) :
    s.authorize user listPk .view = .ok uid := by
  obtain ⟨id, hid, h⟩ := bind_eq_ok h
  split_ifs at h with hpermission
  rw [ListState.authorize, hid]
  have hview : hasPermission s user listPk .view = true := by
    simp only [hasPermission, Bool.and_eq_true, Option.any_eq_true] at hpermission ⊢
    obtain ⟨hsome, row, hrow, hcan⟩ := hpermission
    refine ⟨hsome, row, hrow, ?_⟩
    rw [can, if_neg (by simp), Option.any_eq_true] at hcan
    obtain ⟨role, hrole, hallows⟩ := hcan
    rw [can, if_neg (by rintro ⟨-, rfl⟩; simp at hsome), Option.any_eq_true]
    refine ⟨role, hrole, ?_⟩
    unfold roleAllows at hallows ⊢
    split_ifs at hallows ⊢ with hdynamic
    · simp_all
    · simp
  change (if hasPermission s user listPk .view = true then _ else _) = _
  rw [if_pos hview]
  exact h

/-- What an accepted sort does to the items. -/
lemma applySort_eq (collate : String ↪ κ) (db : ExploreDatabase) (parking placing : Scan ListItemId) (hordered : WellOrdered listPk db.items)
    (hvalid : validateSort readers db.lists user listPk params data = .ok (uid, query)) :
    ∃ items', applySort readers collate db parking placing user listPk params data =
        .ok (items', (sortedItems collate query.sort db uid listPk).length) ∧
      Reordered listPk (fun id =>
        ((sortedItems collate query.sort db uid listPk).map (·.id)).idxOf id + 1)
        db.items items' := by
  obtain ⟨-, -, hquery, hsort⟩ := validateSort_eq_ok hvalid
  have hids := map_id_sortedItems_perm collate query.sort db uid listPk
  have happly : query.applyQuery collate (db.exploredItems uid listPk) =
      sortedItems collate query.sort db uid listPk := applyQuery_eq hquery hsort
  rw [applySort, hvalid]
  simp only [Except.bind, happly]
  generalize sortedItems collate query.sort db uid listPk = shown at hids
  split_ifs with hempty
  · refine ⟨db.items, by rw [hempty, List.length_nil], fun id => ?_⟩
    rw [hempty, List.map_nil] at hids
    cases hrow : db.items.get? id with
    | none => rfl
    | some row =>
      have hlist : ¬ row.userList = listPk := fun hlist => by
        have hmem := hids.mem_iff.mpr (mem_itemIds.mpr ⟨row, hrow, hlist⟩)
        cases hmem
      simp [hlist]
  · obtain ⟨items', hrenumber, hreordered⟩ := renumber_ok parking placing hordered hids
      ((distinctKeys_idxOf hids).perm hids) fun id _ => by omega
    refine ⟨items', ?_, hreordered⟩
    rw [hrenumber]
    rfl

/-- Promoting a sort makes the order in which the list is shown under it the canonical one, numbered
    from 1, whatever order the rows are written in. The same sort then leaves the order as it is
    exactly if no descending clause on the order values decided it. -/
theorem applySort_promotes (collate : String ↪ κ) (parking placing parking' placing' : Scan ListItemId)
    (hordered : WellOrdered listPk db.items)
    (hvalid : validateSort readers db.lists user listPk params data = .ok (uid, query)) :
    ∃ shown items' again,
      exploreList readers collate db user listPk [("sort", (sortText data).getD "")] = .ok shown ∧
      applySort readers collate db parking placing user listPk params data =
        .ok (items', shown.length) ∧
      Numbered listPk (shown.map (·.id)) items' ∧
      applySort readers collate { db with items := items' } parking' placing' user listPk params
        data = .ok (again, shown.length) ∧
      (canonicalIds listPk again = canonicalIds listPk items' ↔
        ¬ Reverses collate query.sort shown) := by
  obtain ⟨hauth, hparse, hquery, hsort⟩ := validateSort_eq_ok hvalid
  have hids := map_id_sortedItems_perm collate query.sort db uid listPk
  obtain ⟨items', happly, hreordered⟩ := applySort_eq collate db parking placing hordered hvalid
  have hordered' : WellOrdered listPk items' :=
    hreordered.wellOrdered (distinctKeys_idxOf hids) fun id _ => by omega
  obtain ⟨again, hagain, hreordered'⟩ :=
    applySort_eq collate { db with items := items' } parking' placing' hordered' hvalid
  have hids' := map_id_sortedItems_perm collate query.sort { db with items := items' } uid listPk
  have hlength : (sortedItems collate query.sort { db with items := items' } uid listPk).length =
      (sortedItems collate query.sort db uid listPk).length := by
    simpa using (hids'.trans (hreordered.itemIds_perm.trans hids.symm)).length_eq
  rw [hlength] at hagain
  have hnumbered := Reordered.numbered hids hreordered
  refine ⟨_, items', again, ?_, happly, hnumbered, hagain, ?_⟩
  · rw [exploreList, authorize_view hauth]
    simp only [Except.bind, hparse]
    rw [applyQuery_eq hquery hsort]
    rfl
  · rw [(Reordered.numbered hids' hreordered').canonical, hnumbered.canonical]
    exact sortedItems_promoted_iff hordered' hordered hreordered

end Promotion

/-! ### Samples -/

section Samples

/-- The list of films, none of them tracked or rated. -/
def films (items : ListItems) : ExploreDatabase where
  lists := favourites
  items := items
  tracking := .empty
  ratings := .empty
  additions _ := { addedBy := 7, addedAt := 0, contextCompletedAt := none }
  contents _ := { contentType := .movie, sourceApi := .tmdb, browseMeta := none }

def noReaders : Readers := ⟨fun _ => none, fun _ => none, fun _ => none⟩

/-- A reversal of the list that another field makes acceptable. -/
def reversal : Json := .obj [("sort", .str "-list_order,added_at")]

lemma validateSort_reversal : validateSort noReaders favourites (some 7) 1 [] reversal =
    .ok (7, { sort := [⟨.listOrder, true⟩, ⟨.addedAt, false⟩] }) := by
  decide +kernel

/-- A promotion of the reversal. -/
theorem applySort_promotes_reversal : ∃ shown items' again,
    exploreList noReaders (.refl String) (films (itemsInOrder [1, 2])) (some 7) 1
      [("sort", (sortText reversal).getD "")] = .ok shown ∧
    applySort noReaders (.refl String) (films (itemsInOrder [1, 2])) Scan.forward Scan.forward
      (some 7) 1 [] reversal = .ok (items', shown.length) ∧
    Numbered 1 (shown.map (·.id)) items' ∧
    applySort noReaders (.refl String) (films items') Scan.forward Scan.forward
      (some 7) 1 [] reversal = .ok (again, shown.length) ∧
    (canonicalIds 1 again = canonicalIds 1 items' ↔
      ¬ Reverses (.refl String) [⟨.listOrder, true⟩, ⟨.addedAt, false⟩] shown) :=
  applySort_promotes (.refl String) Scan.forward Scan.forward Scan.forward Scan.forward
    (⟨by decide, by decide⟩ : WellOrdered 1 (films (itemsInOrder [1, 2])).items)
    validateSort_reversal

/-- The reversal is undone when it is promoted again. -/
theorem applySort_not_idempotent : ¬ ∀ (readers : Readers) (collate : String ↪ String)
    (db : ExploreDatabase) (parking placing : Scan ListItemId) (user : Requester) (listPk : ListId)
    (params : List (String × String)) (data : Json) (items' again : ListItems) (updated : ℕ),
    WellOrdered listPk db.items →
    applySort readers collate db parking placing user listPk params data = .ok (items', updated) →
    applySort readers collate { db with items := items' } parking placing user listPk params data =
      .ok (again, updated) →
    canonicalIds listPk again = canonicalIds listPk items' := by
  intro h
  have hruns : ((applySort noReaders (.refl String) (films (itemsInOrder [1, 2])) Scan.forward
      Scan.forward (some 7) 1 [] reversal).bind fun first =>
        (applySort noReaders (.refl String) (films first.1) Scan.forward Scan.forward (some 7) 1 []
          reversal).map fun second =>
            (first.2, second.2, canonicalIds 1 first.1, canonicalIds 1 second.1)) =
      .ok (2, 2, [2, 1], [1, 2]) := by
    decide +kernel
  obtain ⟨⟨items', n⟩, hfirst, hruns⟩ := bind_eq_ok hruns
  obtain ⟨⟨again, n'⟩, hsecond, hruns⟩ := map_eq_ok hruns
  simp only [Prod.mk.injEq] at hruns
  obtain ⟨rfl, rfl, hids, hids'⟩ := hruns
  have hsame := h noReaders (.refl String) (films (itemsInOrder [1, 2])) Scan.forward Scan.forward
    (some 7) 1 [] reversal items' again 2 ⟨by decide, by decide⟩ hfirst hsecond
  rw [hids, hids'] at hsame
  simp at hsame

end Samples

end Denn.Lists
