import Denn.Lists.Items
import Denn.Lists.Access
import Mathlib.Algebra.Order.BigOperators.Group.List

/-!
# The rating fields of a list item

The prefetch takes the ratings of the effective members and of the owner, the annotations those of
the effective members. The three fields of a served item agree unless this makes a difference.
-/

namespace Denn.Lists

open Core ListState ListDatabase

variable {db : ListDatabase}

/-! ### Selections of ratings -/

lemma activeRatings_congr {ratings : Ratings} {item : ItemId} {p q : UserId → Bool}
    (h : ∀ user rating, ratings.get? (user, item) = some rating → rating.isActive = true →
      p user = q user) : activeRatings ratings item p = activeRatings ratings item q := by
  unfold activeRatings
  congr 1
  refine List.filter_congr ?_
  rintro ⟨⟨user, i⟩, rating⟩ hrow
  by_cases hi : i = item
  · subst hi
    cases hactive : rating.isActive with
    | false => simp
    | true => simp [h user rating ((Table.mem_rows_iff _ _ _).mp hrow) hactive]
  · simp [hi]

/-- A wider selection with one more rating is longer. -/
lemma length_activeRatings_lt {ratings : Ratings} {item : ItemId} {p q : UserId → Bool}
    (hle : ∀ user, p user = true → q user = true) {user : UserId} {rating : Rating}
    (hrating : ratings.get? (user, item) = some rating) (hactive : rating.isActive = true)
    (hp : p user = false) (hq : q user = true) :
    (activeRatings ratings item p).length < (activeRatings ratings item q).length := by
  have hnested : (ratings.rows.filter fun row => row.1.2 = item && row.2.isActive && p row.1.1)
      = (ratings.rows.filter fun row => row.1.2 = item && row.2.isActive && q row.1.1).filter
          fun row => p row.1.1 := by
    rw [List.filter_filter]
    refine List.filter_congr fun row _ => ?_
    cases hrow : p row.1.1 with
    | false => simp
    | true => simp [hle _ hrow]
  simp only [activeRatings, List.length_map]
  rw [hnested, List.length_filter_lt_length_iff_exists]
  refine ⟨((user, item), rating), List.mem_filter.mpr ⟨(Table.mem_rows_iff _ _ _).mpr hrating, ?_⟩,
    by simp [hp]⟩
  simp [hactive, hq]

/-! ### Agreement -/

/-- The count is the number of the ratings shown; the list rating is the mean of their scores to
    one decimal, and null if there are none. -/
structure RatingsAgree (payload : ItemPayload) : Prop where
  count : payload.memberRatingCount = payload.memberRatings.length
  null : payload.listRating = none ↔ payload.memberRatings = []
  mean : payload.memberRatings ≠ [] → payload.listRating = some (roundOneDecimal
    ((payload.memberRatings.map (·.score)).sum / payload.memberRatings.length))

/-- The owner of the list has an active rating of the item. -/
def ownerHasRated (db : ListDatabase) (item : LoadedItem) : Bool :=
  (db.ratings.get? (item.list.row.owner, item.row.contentItem)).any (·.isActive)

lemma mem_getQueryset {user : UserId} {listPk : ListId} {item : LoadedItem} :
    item ∈ db.getQueryset user listPk ↔ ∃ id row list, db.items.get? id = some row ∧
      row.userList = listPk ∧ db.lists.lists.get? listPk = some list ∧
      db.loadItem user id row list = item := by
  rw [getQueryset, List.mem_insertionSort, List.mem_filterMap]
  simp only [List.mem_filter, decide_eq_true_eq, Option.map_eq_some_iff, Prod.exists,
    Table.mem_rows_iff]
  constructor
  · rintro ⟨id, row, ⟨hrow, rfl⟩, list, hlist, rfl⟩
    exact ⟨id, row, list, hrow, rfl, hlist, rfl⟩
  · rintro ⟨id, row, list, hrow, rfl, hlist, rfl⟩
    exact ⟨id, row, ⟨hrow, rfl⟩, list, hlist, rfl⟩

/-- Hidden ratings leave nothing to disagree. -/
lemma ratingsAgree_of_hidden {item : LoadedItem} (h : ratingsAreVisible item = false) :
    RatingsAgree (db.serialize item) := by
  refine ⟨?_, ?_, ?_⟩ <;>
    simp [serialize, getMemberRatings, getListRating, getMemberRatingCount, h]

/-- If the annotations are made over the prefetched ratings, the fields agree. -/
lemma ratingsAgree_of_same {item : LoadedItem} {rated : List UserRating}
    (hprefetched : item.memberRatingsPrefetched = some rated)
    (havg : item.memberRatingAvgAnnotated = some (average (rated.map (·.rating.score))))
    (hcount : item.memberRatingCountAnnotated = some rated.length) :
    RatingsAgree (db.serialize item) := by
  cases hvisible : ratingsAreVisible item with
  | false => exact ratingsAgree_of_hidden hvisible
  | true =>
    have hscores : (rated.map (serializeRating item.list.row)).map (·.score)
        = rated.map (·.rating.score) := by
      rw [List.map_map]
      rfl
    refine ⟨?_, ?_, ?_⟩
    · simp [serialize, getMemberRatings, getMemberRatingCount, hvisible, hprefetched, hcount]
    · simp [serialize, getMemberRatings, getListRating, hvisible, hprefetched, havg, average]
    · simp only [serialize, getMemberRatings, getListRating, hvisible, hprefetched, havg, average,
        Bool.not_true, Bool.false_eq_true, if_false, hscores, List.length_map, List.map_eq_nil_iff]
      intro hne
      have hrated : rated ≠ [] := fun hnil => hne (by rw [hnil, List.map_nil])
      rw [if_neg hrated, Option.map_some]

/-- If the fields agree, as many ratings are counted as are shown. -/
lemma RatingsAgree.length_eq {item : LoadedItem} {shown : List UserRating} {count : ℕ}
    (h : RatingsAgree (db.serialize item)) (hvisible : ratingsAreVisible item = true)
    (hprefetched : item.memberRatingsPrefetched = some shown)
    (hcount : item.memberRatingCountAnnotated = some count) : count = shown.length := by
  simpa [serialize, getMemberRatings, getMemberRatingCount, hvisible, hprefetched, hcount]
    using h.count

/-- The rating fields of an item agree if and only if its ratings are hidden, or the owner of the
    list is an effective member, or the owner has no active rating of the item. -/
theorem ratings_agree_iff {user : UserId} {listPk : ListId} {item : LoadedItem}
    (h : item ∈ db.getQueryset user listPk) :
    RatingsAgree (db.serialize item) ↔
      (ratingsAreVisible item = true → item.list.row.owner ∈ effectiveMemberIds db.lists listPk ∨
        ownerHasRated db item = false) := by
  obtain ⟨id, row, list, -, rfl, -, rfl⟩ := mem_getQueryset.mp h
  set members := effectiveMemberIds db.lists row.userList with hmembers
  set counted := activeRatings db.ratings row.contentItem fun rater => rater ∈ members with hcounted
  set shown := activeRatings db.ratings row.contentItem fun rater =>
    rater ∈ members || rater = list.owner with hshown
  constructor
  · intro hagrees hvisible
    by_contra hnot
    rw [not_or, Bool.not_eq_false] at hnot
    obtain ⟨howner, hrated⟩ := hnot
    obtain ⟨rating, hrating, hactive⟩ := Option.any_eq_true _ _ |>.mp hrated
    -- the owner's rating is shown, and not counted
    have hlt : counted.length < shown.length :=
      length_activeRatings_lt (fun rater hrater => by simp [of_decide_eq_true hrater])
        hrating hactive (decide_eq_false howner)
        (Bool.or_eq_true_iff.mpr (.inr (decide_eq_true rfl)))
    exact hlt.ne (hagrees.length_eq hvisible rfl rfl)
  · intro hcondition
    cases hvisible : ratingsAreVisible (db.loadItem user id row list) with
    | false => exact ratingsAgree_of_hidden hvisible
    | true =>
      have hsame : counted = shown := by
        refine activeRatings_congr fun rater rating hrating hactive => ?_
        by_cases howner : rater = list.owner
        · subst howner
          rcases hcondition hvisible with hmember | hnone
          · simp [show list.owner ∈ members from hmember]
          · have hrated : ownerHasRated db (db.loadItem user id row list) = true :=
              Option.any_eq_true _ _ |>.mpr ⟨rating, hrating, hactive⟩
            rw [hnone] at hrated
            cases hrated
        · simp [howner]
      have hprefetched : (db.loadItem user id row list).memberRatingsPrefetched = some counted :=
        congrArg some hsame.symm
      exact ratingsAgree_of_same hprefetched rfl rfl

def completedItem : ListItem :=
  { userList := 1, contentItem := 7, contextStatus := some .completed, listOrder := 1 }

/-- The owner and the viewer of the shared list have rated a completed item of it. -/
def ratedMovie : ListDatabase where
  lists := after sharedListRequests
  items := Table.empty.set 1 completedItem
  tracking := .empty
  ratings := (Table.empty.set (1, 7)
    { score := 8, comment := none, spoiler := false, isActive := true }).set (2, 7)
    { score := 7, comment := none, spoiler := false, isActive := true }

theorem ratings_agree_iff_shared :
    RatingsAgree (ratedMovie.serialize (ratedMovie.loadItem 2 1 completedItem familyMovies)) := by
  have hserved : ratedMovie.loadItem 2 1 completedItem familyMovies ∈ ratedMovie.getQueryset 2 1 :=
    mem_getQueryset.mpr ⟨1, completedItem, familyMovies, rfl, rfl, by decide +kernel, rfl⟩
  exact (ratings_agree_iff hserved).mpr fun _ => .inl (by decide +kernel)

/-- The owner of a dynamic list has completed and rated the one item of it. -/
def completedCollection : ListDatabase where
  lists := after [.syncCollections (some 1)]
  items := Table.empty.set 1 { userList := 5, contentItem := 7, listOrder := 1 }
  tracking := Table.empty.set (1, 7) { status := .completed, lastCompletedAt := some 0 }
  ratings := Table.empty.set (1, 7)
    { score := 8, comment := none, spoiler := false, isActive := true }

theorem ratings_disagree_on_dynamic_list :
    (completedCollection.listItems (some 1) 5).toOption = some
      [{ id := 1, memberRatings := [{ user := 1, score := 8, comment := none, isOwner := true }],
         listRating := none, memberRatingCount := 0 }] ∧
    ¬ ∀ (db : ListDatabase) user listPk payloads, db.listItems user listPk = .ok payloads →
      ∀ payload ∈ payloads, RatingsAgree payload := by
  have hserved : (completedCollection.listItems (some 1) 5).toOption = some
      [{ id := 1, memberRatings := [{ user := 1, score := 8, comment := none, isOwner := true }],
         listRating := none, memberRatingCount := 0 }] := by
    decide +kernel
  refine ⟨hserved, fun hall => ?_⟩
  cases hresponse : completedCollection.listItems (some 1) 5 with
  | error e =>
    rw [hresponse] at hserved
    cases hserved
  | ok payloads =>
    rw [hresponse, Except.toOption, Option.some.injEq] at hserved
    subst hserved
    have hagrees := hall completedCollection (some 1) 5 _ hresponse _ (List.mem_singleton_self _)
    exact absurd hagrees.count (by decide)

/-! ### Reachable lists -/

/-- On the personal and shared lists that requests make, the rating fields agree. -/
theorem ratings_agree_of_reachable (hlists : listSystem.Reachable db.lists) {user : UserId}
    {listPk : ListId} {item : LoadedItem} (h : item ∈ db.getQueryset user listPk)
    (hdynamic : item.list.row.listType ≠ .dynamic) : RatingsAgree (db.serialize item) := by
  refine (ratings_agree_iff h).mpr fun _ => .inl ?_
  obtain ⟨id, row, list, -, rfl, hlist, rfl⟩ := mem_getQueryset.mp h
  have hinv := invariant_of_reachable hlists
  have howner : db.lists.role row.userList list.owner = some .owner :=
    (hinv.owner _ _ _ (kind_of_row hlist) hdynamic list.owner).mpr rfl
  refine (mem_memberIdsSubquery hinv hlist list.owner).mpr ?_
  cases htype : list.listType with
  | personal => exact .inr ⟨htype, rfl, howner⟩
  | shared => exact .inl ⟨htype, by rw [howner, Option.isSome_some]⟩
  | dynamic => exact absurd htype hdynamic

/-! ### Rounding -/

/-- Scores have two digits before the point and one behind it. -/
def IsScore (score : ℚ) : Prop := 0 < score ∧ score < 100 ∧ ∃ tenths : ℤ, score = tenths / 10

lemma exists_tenths_sum {scores : List ℚ} (h : ∀ score ∈ scores, IsScore score) :
    ∃ tenths : ℤ, scores.sum = tenths / 10 := by
  induction scores with
  | nil => exact ⟨0, by simp⟩
  | cons score scores ih =>
    obtain ⟨-, -, tenths, rfl⟩ := h score List.mem_cons_self
    obtain ⟨rest, hrest⟩ := ih fun score hscore => h score (List.mem_cons_of_mem _ hscore)
    refine ⟨tenths + rest, ?_⟩
    rw [List.sum_cons, hrest]
    push_cast
    ring

/-- The mean of scores is again between zero and a hundred. -/
lemma mean_bounds {scores : List ℚ} (hne : scores ≠ []) (h : ∀ score ∈ scores, IsScore score) :
    0 < scores.sum / scores.length ∧ scores.sum / scores.length ≤ 100 := by
  have hlength : (0 : ℚ) < scores.length := Nat.cast_pos.mpr (List.length_pos_iff.mpr hne)
  have hpos : 0 < scores.sum := List.sum_pos scores (fun score hscore => (h score hscore).1) hne
  have hle : scores.sum ≤ scores.length • (100 : ℚ) :=
    List.sum_le_card_nsmul scores 100 fun score hscore => (h score hscore).2.1.le
  rw [nsmul_eq_mul] at hle
  exact ⟨div_pos hpos hlength, (div_le_iff₀ hlength).mpr (by linarith)⟩

/-- The list rating is a nearest tenth to the mean of the scores, unless there are more ratings
    than double precision can tell apart. -/
theorem listRating_near_mean {payload : ItemPayload} (h : RatingsAgree payload)
    (hne : payload.memberRatings ≠ []) (hlength : payload.memberRatings.length ≤ 2 ^ 40)
    (hscores : ∀ rating ∈ payload.memberRatings, IsScore rating.score) :
    ∃ listRating, payload.listRating = some listRating ∧
      |listRating - (payload.memberRatings.map (·.score)).sum / payload.memberRatings.length|
        ≤ 1 / 20 := by
  refine ⟨_, h.mean hne, ?_⟩
  set scores := payload.memberRatings.map (·.score) with hmap
  set n := payload.memberRatings.length with hn
  have hscores' : ∀ score ∈ scores, IsScore score := by
    intro score hscore
    obtain ⟨rating, hrating, rfl⟩ := List.mem_map.mp hscore
    exact hscores rating hrating
  have hcount : scores.length = n := List.length_map ..
  have hbounds := mean_bounds (by simpa [hmap] using hne) hscores'
  rw [hcount] at hbounds
  obtain ⟨tenths, hsum⟩ := exists_tenths_sum hscores'
  have hmean : scores.sum / n = tenths / (10 * n) := by rw [hsum, div_div]
  have hulp : ulp (scores.sum / n) ≤ 2 ^ ((7 : ℤ) - 53) := by
    refine ulp_le (by norm_num) ?_ hbounds.1.ne'
    rw [abs_of_pos hbounds.1]
    exact hbounds.2.trans_lt (by norm_num)
  have hn' : (n : ℚ) ≤ 2 ^ 40 := by exact_mod_cast hlength
  refine abs_roundOneDecimal_sub_le (List.length_pos_iff.mpr hne) hmean ?_
  calc 10 * (n : ℚ) * ulp (scores.sum / n)
      ≤ 10 * 2 ^ 40 * 2 ^ ((7 : ℤ) - 53) :=
        mul_le_mul (by linarith) hulp (ulp_pos _).le (by positivity)
    _ < 1 := by norm_num

end Denn.Lists
