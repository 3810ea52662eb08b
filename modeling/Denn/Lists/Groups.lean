import Denn.Core.Constraint
import Denn.Core.Join
import Denn.Lists.Promotion
import Mathlib.Algebra.Order.BigOperators.Group.List

/-!
# Groups of an explored list

The group headers of a page. The groups of the page are made of the items as objects, their sizes in
the whole list come from a query that groups rows which are still joined with the ratings.
-/

namespace Denn.Lists

open Core

/-! ### Keys -/

/-- `_resolve_group_key`. -/
def GroupField.resolveKey (field : GroupField) (item : ExploredItem) : Option String :=
  match field with
  | contextStatus => item.row.contextStatus.map ContextStatus.value
  | trackingStatus => item.personalTrackingStatus.map trackingStatusValue
  | contentType => some item.content.contentType.value
  | sourceApi => some item.content.sourceApi.value
  | addedBy =>
    if item.addition.addedBy ≠ 0 then some (toString item.addition.addedBy) else none
  | artist => item.content.browseMeta.map (·.artist)

/-- `GROUP_LABELS`. -/
def groupLabels : GroupField → List (String × String)
  | .contextStatus => [("PENDING", "Pending"), ("COMPLETED", "Completed")]
  | .trackingStatus =>
    [("backlog", "Backlog"), ("in_progress", "In progress"), ("on_hold", "On hold"),
      ("dropped", "Dropped"), ("completed", "Completed")]
  | .contentType =>
    [("MOVIE", "Movies"), ("TV_SHOW", "TV Shows"), ("SEASON", "Seasons"), ("ALBUM", "Albums"),
      ("GAME", "Games"), ("BOOK", "Books")]
  | .sourceApi =>
    [("tmdb", "TMDB"), ("spotify", "Spotify"), ("igdb", "IGDB"), ("openlibrary", "OpenLibrary")]
  | _ => []

def groupLabel (field : GroupField) : Option String → String
  | none => "Sin valor"
  | some key => ((groupLabels field).lookup key).getD key

/-! ### Headers -/

structure GroupHeader where
  key : String
  label : String
  countInPage : ℕ
  countGlobal : ℕ
  deriving DecidableEq, Repr

/-- Each row once for every rating it is joined with, or once without one. -/
def joinRatings (items : List ExploredItem) : List (ExploredItem × Option JoinedRating) :=
  items.flatMap fun item => (outer item.ratings).map fun rating => (item, rating)

/-- The count of a group in the query that groups by the column: `COUNT(id)` over its joined rows,
    if their average passes the filters on it. A group without rows is not in the result. -/
def globalCount (query : ListItemQuery) (field : GroupField) (items : List ExploredItem)
    (value : GroupValue) : ℕ :=
  let joined := joinRatings
    (items.filter fun item => query.admitsRow item && field.groupValue item = value)
  if query.admitsAverage (average (countedScores (joined.filterMap (·.2)))) then
    countColumn (fun row => some row.1.id) joined
  else 0

/-- The keys of the page in the order in which they appear. -/
def pageKeys (field : GroupField) (page : List ExploredItem) : List (Option String) :=
  keepFirst id [] (page.map field.resolveKey)

/-- `build_group_metadata`. A key is looked up among the values of the column. -/
def buildGroupMetadata (query : ListItemQuery) (field : GroupField)
    (items page : List ExploredItem) : List GroupHeader :=
  (pageKeys field page).map fun key =>
    { key := key.getD ""
      label := groupLabel field key
      countInPage := (page.map field.resolveKey).count key
      countGlobal := globalCount query field items (key.map .inl) }

/-! ### Pages -/

/-- One page of a paginated list; pages are numbered from 1. -/
def pageOf {α : Type*} (size number : ℕ) (rows : List α) : List α :=
  (rows.drop ((number - 1) * size)).take size

def numPages (size count : ℕ) : ℕ := max 1 ((count + size - 1) / size)

structure ListedPage where
  items : List ExploredItem
  groups : Option (List GroupHeader)
  deriving DecidableEq, Repr

/-- `ListItemViewSet.list`, one page with its group headers. -/
def listPage {κ : Type*} [LinearOrder κ] (readers : Readers) (collate : String ↪ κ)
    (db : ExploreDatabase) (user : Requester) (listPk : ListId) (params : List (String × String))
    (size number : ℕ) : Except ListError ListedPage :=
  (db.lists.authorize user listPk .view).bind fun user =>
  match parseListItemQuery readers params with
  | .error .parseError => .error (.detail 400 "Invalid list query.")
  | .error .valueError => .error (.valueError "Invalid filter value.")
  | .ok query =>
    let items := db.exploredItems user listPk
    let all := query.applyQuery collate items
    if number = 0 ∨ numPages size all.length < number then .error .notFound
    else
      let page := pageOf size number all
      .ok
        { items := page
          groups := query.groupBy.map fun field => buildGroupMetadata query field items page }

/-! ### Sums over a list -/

section

variable {α β : Type*} {l : List α} {f : α → ℕ}

lemma mem_keepFirst [DecidableEq α] {a : α} : a ∈ keepFirst id [] l ↔ a ∈ l := by
  constructor
  · exact mem_of_mem_keepFirst
  · intro ha
    have hkept := exists_mem_keepFirst ha (List.not_mem_nil : id a ∉ [])
    simpa using hkept

lemma nodup_keepFirst_id [DecidableEq α] (l : List α) : (keepFirst id [] l).Nodup := by
  simpa using nodup_keepFirst id [] l

lemma sum_count_keepFirst [DecidableEq α] [hbeq : BEq α] [LawfulBEq α] (l : List α) :
    ((keepFirst id [] l).map fun a => l.count a).sum = l.length := by
  obtain rfl : hbeq = instBEqOfDecidableEq := lawful_beq_subsingleton _ _
  have hperm : (keepFirst id [] l).Perm l.dedup := by
    rw [List.perm_ext_iff_of_nodup (nodup_keepFirst_id l) (List.nodup_dedup l)]
    simp [mem_keepFirst]
  rw [(hperm.map _).sum_eq, List.sum_map_count_dedup_eq_length]

lemma length_le_sum (h : ∀ a ∈ l, 1 ≤ f a) : l.length ≤ (l.map f).sum := by
  induction l with
  | nil => simp
  | cons a l ih =>
    obtain ⟨ha, hl⟩ := List.forall_mem_cons.mp h
    have ih := ih hl
    rw [List.map_cons, List.sum_cons, List.length_cons]
    omega

lemma sum_eq_length_iff (h : ∀ a ∈ l, 1 ≤ f a) :
    (l.map f).sum = l.length ↔ ∀ a ∈ l, f a = 1 := by
  induction l with
  | nil => simp
  | cons a l ih =>
    obtain ⟨ha, hl⟩ := List.forall_mem_cons.mp h
    have hle := length_le_sum hl
    rw [List.map_cons, List.sum_cons, List.length_cons, List.forall_mem_cons, ← ih hl]
    omega

lemma flatMap_pages (size : ℕ) (l : List α) (n : ℕ) :
    (List.range n).flatMap (fun i => pageOf size (i + 1) l) = l.take (n * size) := by
  induction n with
  | zero => simp
  | succ n ih =>
    rw [List.range_succ, List.flatMap_append, ih, List.flatMap_singleton, pageOf,
      Nat.add_sub_cancel, Nat.succ_mul, List.take_add]

end

/-! ### What a header should say -/

/-- The headers of a page of the filtered items: their keys are distinct, the counts of the page add
    up to its length, and each header counts the items that share its key with an item of the
    page. -/
structure GroupsCorrect (field : GroupField) (filtered page : List ExploredItem)
    (groups : List GroupHeader) : Prop where
  distinct : (groups.map (·.key)).Nodup
  sum_countInPage : (groups.map (·.countInPage)).sum = page.length
  countGlobal : ∀ item ∈ page, ∀ header ∈ groups, header.key = (field.resolveKey item).getD "" →
    header.countGlobal = filtered.countP fun other => field.resolveKey other = field.resolveKey item
  countInPage_le : ∀ header ∈ groups, header.countInPage ≤ header.countGlobal

/-- Where the two keyings of a page agree: items are not grouped by users, no item without a value is
    beside one whose value is empty, and of the groups on the page all rows pass the filters on
    their own average and are joined with one rating at most. -/
structure Groupable (query : ListItemQuery) (field : GroupField) (items page : List ExploredItem) :
    Prop where
  notByUser : page = [] ∨ field ≠ .addedBy
  noEmpty : ¬ ((∃ item ∈ page, field.resolveKey item = none) ∧
    ∃ item ∈ page, field.resolveKey item = some "")
  rows : ∀ item ∈ items, query.admitsRow item = true →
    (∃ other ∈ page, field.resolveKey item = field.resolveKey other) →
    query.admitsAverage item.memberRatingAvg = true ∧ item.ratings.length ≤ 1

section Groups

variable {field : GroupField} {query : ListItemQuery} {items page : List ExploredItem}
  {item : ExploredItem} {key : Option String}

lemma mem_pageKeys : key ∈ pageKeys field page ↔ ∃ item ∈ page, field.resolveKey item = key := by
  simp [pageKeys, mem_keepFirst]

lemma nodup_pageKeys : (pageKeys field page).Nodup := nodup_keepFirst_id _

/-- Users aside, the column holds what the objects resolve to. -/
lemma groupValue_eq (hfield : field ≠ .addedBy) (item : ExploredItem) :
    field.groupValue item = (field.resolveKey item).map .inl := by
  cases field with
  | addedBy => exact absurd rfl hfield
  | contextStatus => simp [GroupField.groupValue, GroupField.resolveKey, Function.comp_def]
  | trackingStatus => simp [GroupField.groupValue, GroupField.resolveKey, Function.comp_def]
  | artist => simp [GroupField.groupValue, GroupField.resolveKey, Function.comp_def]
  | contentType => rfl
  | sourceApi => rfl

/-! ### Averages -/

lemma admitsValue_average {filter : RangeFilter} {scores : List ℚ}
    (h : ∀ score ∈ scores, filter.admitsValue (some score) = true) (hne : scores ≠ []) :
    filter.admitsValue (average scores) = true := by
  have hlength : (0 : ℚ) < scores.length := by
    rw [Nat.cast_pos, List.length_pos_iff]
    exact hne
  rw [average, if_neg hne]
  simp only [RangeFilter.admitsValue, Option.any_some] at h ⊢
  cases hupper : filter.isUpper with
  | true =>
    simp only [hupper, if_true, decide_eq_true_eq] at h ⊢
    rw [div_le_iff₀ hlength, mul_comm, ← nsmul_eq_mul]
    exact List.sum_le_card_nsmul scores filter.bound h
  | false =>
    simp only [hupper, Bool.false_eq_true, if_false, decide_eq_true_eq] at h ⊢
    rw [le_div_iff₀ hlength, mul_comm, ← nsmul_eq_mul]
    exact List.card_nsmul_le_sum scores filter.bound h

lemma countedScores_joinRatings (items : List ExploredItem) :
    countedScores ((joinRatings items).filterMap (·.2)) =
      items.flatMap fun item => countedScores item.ratings := by
  unfold countedScores
  induction items with
  | nil => rfl
  | cons item items ih =>
    have houter : ((outer item.ratings).map fun rating => (item, rating)).filterMap (·.2) =
        item.ratings := by
      rw [List.filterMap_map]
      simpa using filterMap_outer id item.ratings
    rw [joinRatings, List.flatMap_cons, List.filterMap_append, houter, ← joinRatings,
      List.filter_append, List.map_append, ih, List.flatMap_cons]

/-- An average that passes a filter is that of a single score, if there is one rating at most. -/
lemma countedScores_of_admitsValue {filter : RangeFilter} {ratings : List JoinedRating}
    (h : filter.admitsValue (average (countedScores ratings)) = true) (hlength : ratings.length ≤ 1) :
    ∃ score, countedScores ratings = [score] ∧ filter.admitsValue (some score) = true := by
  have hcounted : (countedScores ratings).length ≤ 1 := by
    rw [countedScores, List.length_map]
    exact (List.length_filter_le _ _).trans hlength
  cases hscores : countedScores ratings with
  | nil =>
    rw [hscores] at h
    simp [average, RangeFilter.admitsValue] at h
  | cons score rest =>
    rw [hscores] at h hcounted
    obtain rfl : rest = [] := by
      rw [← List.length_eq_zero_iff]
      simpa using hcounted
    exact ⟨score, rfl, by simpa [average] using h⟩

/-- If the average of each item with a single rating passes the filters, their common average
    does. -/
lemma admitsAverage_of_forall (hne : items ≠ [])
    (h : ∀ item ∈ items, query.admitsAverage item.memberRatingAvg = true ∧
      item.ratings.length ≤ 1) :
    query.admitsAverage
      (average (countedScores ((joinRatings items).filterMap (·.2)))) = true := by
  rw [ListItemQuery.admitsAverage, List.all_eq_true]
  intro filter hfilter
  by_cases hcolumn : filter.column = .listRating
  · have hscore : ∀ item ∈ items, ∃ score, countedScores item.ratings = [score] ∧
        filter.admitsValue (some score) = true := by
      intro item hitem
      obtain ⟨hadmits, hlength⟩ := h item hitem
      rw [ListItemQuery.admitsAverage, List.all_eq_true] at hadmits
      have hvalue := hadmits filter hfilter
      simp only [hcolumn, ne_eq, not_true_eq_false, decide_false, Bool.false_or] at hvalue
      exact countedScores_of_admitsValue hvalue hlength
    have hvalue : filter.admitsValue
        (average (countedScores ((joinRatings items).filterMap (·.2)))) = true := by
      rw [countedScores_joinRatings]
      apply admitsValue_average
      · intro score hmem
        obtain ⟨item, hitem, hmem⟩ := List.mem_flatMap.mp hmem
        obtain ⟨score', hscores, hadmits⟩ := hscore item hitem
        rw [hscores, List.mem_singleton] at hmem
        rwa [hmem]
      · obtain ⟨item, hitem⟩ := List.exists_mem_of_ne_nil items hne
        obtain ⟨score, hscores, -⟩ := hscore item hitem
        exact List.ne_nil_of_mem
          (List.mem_flatMap.mpr ⟨item, hitem, hscores ▸ List.mem_singleton_self score⟩)
    simp [hvalue]
  · simp [hcolumn]

/-! ### Counts -/

/-- The rows of the list that the grouping query counts for a value. -/
def grouped (query : ListItemQuery) (field : GroupField) (items : List ExploredItem)
    (value : GroupValue) : List ExploredItem :=
  items.filter fun item => query.admitsRow item && field.groupValue item = value

lemma globalCount_eq (value : GroupValue) :
    globalCount query field items value =
      if query.admitsAverage (average (countedScores
        ((joinRatings (grouped query field items value)).filterMap (·.2)))) then
        ((grouped query field items value).map fun item => (outer item.ratings).length).sum
      else 0 := by
  have hcount : ∀ rows : List ExploredItem,
      countColumn (fun row => some row.1.id) (joinRatings rows) =
        (rows.map fun item => (outer item.ratings).length).sum := by
    intro rows
    simp [countColumn, joinRatings, List.length_flatMap]
  rw [← hcount]
  rfl

lemma mem_grouped {value : GroupValue} : item ∈ grouped query field items value ↔
    item ∈ items ∧ query.admitsRow item = true ∧ field.groupValue item = value := by
  simp [grouped]

/-- The number of a user is not the text that its key is. -/
lemma grouped_addedBy (key : Option String) :
    grouped query .addedBy items (key.map .inl) = [] := by
  rw [List.eq_nil_iff_forall_not_mem]
  intro item hitem
  have hvalue := (mem_grouped.mp hitem).2.2
  cases key <;> simp [GroupField.groupValue] at hvalue

lemma mem_grouped_resolveKey (hfield : field ≠ .addedBy) {key : Option String} :
    item ∈ grouped query field items (key.map .inl) ↔
      item ∈ items ∧ query.admitsRow item = true ∧ field.resolveKey item = key := by
  rw [mem_grouped, groupValue_eq hfield, (Option.map_injective Sum.inl_injective).eq_iff]

/-- The rows that a header should count are those of the query that pass the filters on their own
    average. -/
lemma countP_filtered (hfield : field ≠ .addedBy) (key : Option String) :
    (items.filter query.admits).countP (fun item => field.resolveKey item = key) =
      (grouped query field items (key.map .inl)).countP
        fun item => query.admitsAverage item.memberRatingAvg := by
  rw [grouped, List.countP_filter, List.countP_filter]
  refine List.countP_congr fun item _ => ?_
  simp only [groupValue_eq hfield, (Option.map_injective Sum.inl_injective).eq_iff,
    ListItemQuery.admits, Bool.and_eq_true, decide_eq_true_eq]
  tauto

/-- A global count is right if and only if all rows of the group pass the filters on their own
    average and are joined with one rating at most. -/
theorem globalCount_eq_iff (hfield : field ≠ .addedBy) (hitem : item ∈ items)
    (hadmits : query.admits item = true) :
    globalCount query field items ((field.resolveKey item).map .inl) =
        (items.filter query.admits).countP
          (fun other => field.resolveKey other = field.resolveKey item) ↔
      ∀ other ∈ items, query.admitsRow other = true →
        field.resolveKey other = field.resolveKey item →
        query.admitsAverage other.memberRatingAvg = true ∧ other.ratings.length ≤ 1 := by
  obtain ⟨hrow, haverage⟩ := Bool.and_eq_true_iff.mp hadmits
  have hmem : item ∈ grouped query field items ((field.resolveKey item).map .inl) :=
    (mem_grouped_resolveKey hfield).mpr ⟨hitem, hrow, rfl⟩
  have hone : ∀ other ∈ grouped query field items ((field.resolveKey item).map .inl),
      1 ≤ (outer other.ratings).length := fun other _ =>
    List.length_pos_iff.mpr (outer_ne_nil _)
  have hle := length_le_sum hone
  have hcountP : (grouped query field items ((field.resolveKey item).map .inl)).countP
      (fun other => query.admitsAverage other.memberRatingAvg) ≤
        (grouped query field items ((field.resolveKey item).map .inl)).length :=
    List.countP_le_length
  rw [countP_filtered hfield, globalCount_eq]
  constructor
  · intro heq other hother hadmitsRow hkey
    have hpos : 0 < (grouped query field items ((field.resolveKey item).map .inl)).countP
        fun other => query.admitsAverage other.memberRatingAvg :=
      List.countP_pos_iff.mpr ⟨item, hmem, haverage⟩
    split_ifs at heq
    · have hmem' := (mem_grouped_resolveKey hfield).mpr ⟨hother, hadmitsRow, hkey⟩
      refine ⟨?_, length_outer_eq_one.mp ?_⟩
      · have hall := List.countP_eq_length.mp (hcountP.antisymm (by omega))
        exact hall other hmem'
      · exact (sum_eq_length_iff hone).mp (by omega) other hmem'
    · omega
  · intro hall
    have hgroup : ∀ other ∈ grouped query field items ((field.resolveKey item).map .inl),
        query.admitsAverage other.memberRatingAvg = true ∧ other.ratings.length ≤ 1 := by
      intro other hother
      obtain ⟨hother, hadmitsRow, hkey⟩ := (mem_grouped_resolveKey hfield).mp hother
      exact hall other hother hadmitsRow hkey
    rw [if_pos (admitsAverage_of_forall (List.ne_nil_of_mem hmem) hgroup),
      (sum_eq_length_iff hone).mpr fun other hother =>
        length_outer_eq_one.mpr (hgroup other hother).2]
    exact (List.countP_eq_length.mpr fun other hother => (hgroup other hother).1).symm

/-! ### Headers of a page -/

lemma nodup_map_getD {keys : List (Option String)} (hnodup : keys.Nodup) :
    (keys.map fun key => key.getD "").Nodup ↔ ¬ (none ∈ keys ∧ some "" ∈ keys) := by
  rw [List.nodup_map_iff_inj_on hnodup]
  constructor
  · rintro hinj ⟨hnone, hempty⟩
    exact absurd (hinj none hnone (some "") hempty rfl) (by simp)
  · intro hkeys key hkey key' hkey' heq
    cases key with
    | none =>
      cases key' with
      | none => rfl
      | some text' =>
        obtain rfl : "" = text' := heq
        exact absurd ⟨hkey, hkey'⟩ hkeys
    | some text =>
      cases key' with
      | none =>
        obtain rfl : text = "" := heq
        exact absurd ⟨hkey', hkey⟩ hkeys
      | some text' => exact congrArg some heq

lemma mem_buildGroupMetadata {header : GroupHeader} :
    header ∈ buildGroupMetadata query field items page ↔ ∃ item ∈ page,
      header = { key := (field.resolveKey item).getD ""
                 label := groupLabel field (field.resolveKey item)
                 countInPage := (page.map field.resolveKey).count (field.resolveKey item)
                 countGlobal := globalCount query field items
                  ((field.resolveKey item).map .inl) } := by
  simp only [buildGroupMetadata, List.mem_map, mem_pageKeys]
  constructor
  · rintro ⟨key, ⟨item, hitem, rfl⟩, rfl⟩
    exact ⟨item, hitem, rfl⟩
  · rintro ⟨item, hitem, rfl⟩
    exact ⟨field.resolveKey item, ⟨item, hitem, rfl⟩, rfl⟩

/-- The headers of a page are right exactly where the keyings agree. -/
theorem groupsCorrect_iff (hpage : page.Subperm (items.filter query.admits)) :
    GroupsCorrect field (items.filter query.admits) page
        (buildGroupMetadata query field items page) ↔ Groupable query field items page := by
  have hmem : ∀ item ∈ page, item ∈ items ∧ query.admits item = true := fun item hitem =>
    List.mem_filter.mp (hpage.subset hitem)
  have hdistinct : ((buildGroupMetadata query field items page).map (·.key)).Nodup ↔
      ¬ ((∃ item ∈ page, field.resolveKey item = none) ∧
        ∃ item ∈ page, field.resolveKey item = some "") := by
    rw [buildGroupMetadata, List.map_map, ← mem_pageKeys, ← mem_pageKeys]
    exact nodup_map_getD nodup_pageKeys
  constructor
  · intro hcorrect
    have hglobal : ∀ item ∈ page,
        globalCount query field items ((field.resolveKey item).map .inl) =
          (items.filter query.admits).countP
            fun other => field.resolveKey other = field.resolveKey item := fun item hitem =>
      hcorrect.countGlobal item hitem _ (mem_buildGroupMetadata.mpr ⟨item, hitem, rfl⟩) rfl
    have hfield : page = [] ∨ field ≠ .addedBy := by
      by_contra! h
      obtain ⟨hne, rfl⟩ := h
      obtain ⟨item, hitem⟩ := List.exists_mem_of_ne_nil page hne
      have hcount := hglobal item hitem
      rw [globalCount_eq, grouped_addedBy, List.map_nil, List.sum_nil, ite_self] at hcount
      have hpos : 0 < (items.filter query.admits).countP fun other =>
          GroupField.addedBy.resolveKey other = GroupField.addedBy.resolveKey item :=
        List.countP_pos_iff.mpr ⟨item, hpage.subset hitem, by simp⟩
      omega
    refine ⟨hfield, hdistinct.mp hcorrect.distinct, ?_⟩
    rintro item hitem hadmitsRow ⟨other, hother, hkey⟩
    have hfield : field ≠ .addedBy := hfield.resolve_left (List.ne_nil_of_mem hother)
    obtain ⟨hmemOther, hadmitsOther⟩ := hmem other hother
    exact (globalCount_eq_iff hfield hmemOther hadmitsOther).mp (hglobal other hother) item hitem
      hadmitsRow hkey
  · rintro ⟨hfield, hkeys, hrows⟩
    have hglobal : ∀ item ∈ page,
        globalCount query field items ((field.resolveKey item).map .inl) =
          (items.filter query.admits).countP
            fun other => field.resolveKey other = field.resolveKey item := by
      intro item hitem
      obtain ⟨hmemItem, hadmitsItem⟩ := hmem item hitem
      rw [globalCount_eq_iff (hfield.resolve_left (List.ne_nil_of_mem hitem)) hmemItem hadmitsItem]
      exact fun other hother hadmitsRow hkey => hrows other hother hadmitsRow ⟨item, hitem, hkey⟩
    refine ⟨hdistinct.mpr hkeys, ?_, ?_, ?_⟩
    · have hsum := sum_count_keepFirst (page.map field.resolveKey)
      rw [List.length_map] at hsum
      rw [buildGroupMetadata, List.map_map]
      exact hsum
    · intro item hitem header hheader hkey
      obtain ⟨other, hother, rfl⟩ := mem_buildGroupMetadata.mp hheader
      have hinj := (List.nodup_map_iff_inj_on nodup_pageKeys).mp ((nodup_map_getD nodup_pageKeys).mpr
        (by rwa [mem_pageKeys, mem_pageKeys] : ¬ (none ∈ pageKeys field page ∧ _)))
      have hsame : field.resolveKey other = field.resolveKey item :=
        hinj _ (mem_pageKeys.mpr ⟨other, hother, rfl⟩) _ (mem_pageKeys.mpr ⟨item, hitem, rfl⟩) hkey
      rw [← hsame]
      exact hglobal other hother
    · intro header hheader
      obtain ⟨item, hitem, rfl⟩ := mem_buildGroupMetadata.mp hheader
      show (page.map field.resolveKey).count (field.resolveKey item) ≤ globalCount query field items _
      rw [hglobal item hitem, List.count, List.countP_map]
      refine (hpage.countP_le _).trans (le_of_eq (List.countP_congr fun other _ => ?_))
      simp

/-! ### Pages with headers -/

lemma pageOf_sublist {α : Type*} (size number : ℕ) (rows : List α) :
    (pageOf size number rows).Sublist rows :=
  (List.take_sublist _ _).trans (List.drop_sublist _ _)

variable {κ : Type*} [LinearOrder κ] {readers : Readers} {collate : String ↪ κ}
  {db : ExploreDatabase} {user : Requester} {listPk : ListId} {params : List (String × String)}
  {size number : ℕ} {uid : UserId}

/-- What the endpoint answers for an accepted query with a grouping. -/
lemma listPage_eq (hauth : db.lists.authorize user listPk .view = .ok uid)
    (hparse : parseListItemQuery readers params = .ok query) (hgroup : query.groupBy = some field)
    (hnumber : 1 ≤ number ∧
      number ≤ numPages size (query.applyQuery collate (db.exploredItems uid listPk)).length)
    (hpage : pageOf size number (query.applyQuery collate (db.exploredItems uid listPk)) = page) :
    listPage readers collate db user listPk params size number =
      .ok ⟨page, some (buildGroupMetadata query field (db.exploredItems uid listPk) page)⟩ := by
  have hvalid : ¬ (number = 0 ∨
      numPages size (query.applyQuery collate (db.exploredItems uid listPk)).length < number) := by
    omega
  rw [listPage, hauth]
  simp only [Except.bind, hparse, if_neg hvalid, hgroup, hpage, Option.map_some]

/-- The headers of every page of a grouped list are right exactly where the keyings of the page
    agree. -/
theorem listPage_groups_iff (hauth : db.lists.authorize user listPk .view = .ok uid)
    (hparse : parseListItemQuery readers params = .ok query) (hgroup : query.groupBy = some field)
    (hnumber : 1 ≤ number ∧
      number ≤ numPages size (query.applyQuery collate (db.exploredItems uid listPk)).length)
    (hpage : pageOf size number (query.applyQuery collate (db.exploredItems uid listPk)) = page) :
    ∃ groups, listPage readers collate db user listPk params size number =
        .ok ⟨page, some groups⟩ ∧
      (GroupsCorrect field ((db.exploredItems uid listPk).filter query.admits) page groups ↔
        Groupable query field (db.exploredItems uid listPk) page) := by
  refine ⟨_, listPage_eq hauth hparse hgroup hnumber hpage, groupsCorrect_iff ?_⟩
  rw [← hpage]
  exact (pageOf_sublist _ _ _).subperm.trans (orderBy_perm _ _).subperm

end Groups

/-! ### Samples -/

section Samples

/-- Two films, each of them rated by nobody, grouped by their type. -/
theorem listPage_groups_films : ∃ groups,
    listPage noReaders (.refl String) (films (itemsInOrder [1, 2])) (some 7) 1
      [("group_by", "content_type")] 25 1 =
        .ok ⟨((films (itemsInOrder [1, 2])).exploredItems 7 1).reverse, some groups⟩ ∧
    GroupsCorrect .contentType
      (((films (itemsInOrder [1, 2])).exploredItems 7 1).filter
        ({ groupBy := some .contentType } : ListItemQuery).admits)
      ((films (itemsInOrder [1, 2])).exploredItems 7 1).reverse groups := by
  obtain ⟨groups, hlist, hcorrect⟩ : ∃ groups, _ ∧ (_ ↔ Groupable _ .contentType _ _) :=
    listPage_groups_iff (by decide : (films (itemsInOrder [1, 2])).lists.authorize (some 7) 1 .view
        = .ok 7)
      (by decide +kernel : parseListItemQuery noReaders [("group_by", "content_type")] =
        .ok { groupBy := some .contentType })
      rfl
      (by decide +kernel : 1 ≤ 1 ∧ 1 ≤ numPages 25
        (({ groupBy := some .contentType } : ListItemQuery).applyQuery (.refl String)
          ((films (itemsInOrder [1, 2])).exploredItems 7 1)).length)
      (by decide +kernel :
        pageOf 25 1 (({ groupBy := some .contentType } : ListItemQuery).applyQuery (.refl String)
          ((films (itemsInOrder [1, 2])).exploredItems 7 1)) =
            ((films (itemsInOrder [1, 2])).exploredItems 7 1).reverse)
  exact ⟨groups, hlist, hcorrect.mpr ⟨.inr (by decide), by decide +kernel, by decide +kernel⟩⟩

/-- The header of a user says that the whole list has none of the items of the page. -/
theorem listPage_miscounts : ¬ ∀ (readers : Readers) (collate : String ↪ String)
    (db : ExploreDatabase) (user : Requester) (listPk : ListId) (params : List (String × String))
    (size number : ℕ) (uid : UserId) (query : ListItemQuery) (field : GroupField)
    (page : List ExploredItem) (groups : List GroupHeader),
    db.lists.authorize user listPk .view = .ok uid →
    parseListItemQuery readers params = .ok query → query.groupBy = some field →
    listPage readers collate db user listPk params size number = .ok ⟨page, some groups⟩ →
    GroupsCorrect field ((db.exploredItems uid listPk).filter query.admits) page groups := by
  intro h
  have hlist : listPage noReaders (.refl String) (films (itemsInOrder [1])) (some 7) 1
      [("group_by", "added_by")] 25 1 =
        .ok ⟨(films (itemsInOrder [1])).exploredItems 7 1, some [⟨"7", "7", 1, 0⟩]⟩ := by
    decide +kernel
  have hcorrect := h _ _ _ _ _ _ _ _ 7 { groupBy := some .addedBy } .addedBy _ _ (by decide)
    (by decide +kernel) rfl hlist
  exact absurd (hcorrect.countInPage_le ⟨"7", "7", 1, 0⟩ (by simp)) (by decide)

end Samples

end Denn.Lists
