import Denn.Progress.Tracking
import Denn.Core.Except

/-!
# The personal-progress invariant

Active ratings and favorites live on completed tracking rows only, a completed row carries its
completion date, and a user has at most five favorites per content type. The clauses about one
item are an invariant of the pair of its tracking row and its rating, so that every call is
checked on the one item that it touches.
-/

namespace Denn

open Core

/-- The clauses about one item: its tracking row, if any, and its rating, if any. -/
structure ItemInvariant (tracking : Option Tracking) (rating : Option Rating) : Prop where
  active : ∀ r, rating = some r → r.isActive = true →
    ∃ row, tracking = some row ∧ row.status = .completed
  favorite : ∀ row, tracking = some row → row.isFavorite = true → row.status = .completed
  favoritedAt : ∀ row, tracking = some row → row.favoritedAt.isSome = row.isFavorite
  completedAt : ∀ row, tracking = some row → row.status = .completed →
    row.lastCompletedAt.isSome = true

variable (catalog : Catalog) (now : Time)

/-- The personal-progress invariant of a user. -/
structure ProgressInvariant (s : UserProgress) : Prop where
  item : ∀ item, ItemInvariant (s.tracking.get? item) (s.ratings.get? item)
  favorites : ∀ contentType, favoriteCount catalog contentType s.tracking ≤ 5

/-! ### One item -/

lemma ItemInvariant.of_no_row (rating : Option Rating)
    (h : ∀ r, rating = some r → r.isActive = false) : ItemInvariant none rating where
  active r hr hactive := by simp [h r hr] at hactive
  favorite row hrow := by simp at hrow
  favoritedAt row hrow := by simp at hrow
  completedAt row hrow := by simp at hrow

/-- A row with consistent favorite columns and, when completed, a completion date. -/
lemma ItemInvariant.of_row {row : Tracking} {rating : Option Rating}
    (hactive : ∀ r, rating = some r → r.isActive = true → row.status = .completed)
    (hfavorite : row.isFavorite = true → row.status = .completed)
    (hdate : row.favoritedAt.isSome = row.isFavorite)
    (hcompleted : row.status = .completed → row.lastCompletedAt.isSome = true) :
    ItemInvariant (some row) rating where
  active r hr ha := ⟨row, rfl, hactive r hr ha⟩
  favorite _ h := by cases h; exact hfavorite
  favoritedAt _ h := by cases h; exact hdate
  completedAt _ h := by cases h; exact hcompleted

/-- Without a completed row there is no active rating. -/
lemma ItemInvariant.inactive {tracking : Option Tracking} {rating : Option Rating}
    (h : ItemInvariant tracking rating) (hne : ∀ row, tracking = some row → row.status ≠ .completed)
    (r : Rating) (hr : rating = some r) : r.isActive = false := by
  by_contra hactive
  obtain ⟨row, hrow, hcompleted⟩ := h.active r hr (by simpa using hactive)
  exact hne row hrow hcompleted

@[simp] lemma Rating.archive_isActive (r : Rating) : r.archive.isActive = false := rfl

/-- After archiving, no rating is active. -/
lemma archived_inactive {rating : Option Rating} (r : Rating)
    (h : rating.map Rating.archive = some r) : r.isActive = false := by
  obtain ⟨old, _, rfl⟩ := Option.map_eq_some_iff.mp h
  rfl

/-- No rating is active when the rating read by a call is not. -/
lemma inactive_of_any {rating : Option Rating} (h : rating.any (·.isActive) = false) (r : Rating)
    (hr : rating = some r) : r.isActive = false := by
  simpa [hr] using h

/-! ### Transitions -/

section Transition

variable (item : ItemId) {existing : Option Tracking} (status : TrackingStatus)
  {rating : Option Rating} (profile : Option BannerSelection)

@[simp] lemma transitionStatus_status : (transitionStatus now existing status).status = status := by
  simp only [transitionStatus]
  split_ifs <;> rfl

@[simp] lemma transitionStatus_none :
    transitionStatus now none status = newTracking now status := by
  simp [transitionStatus, newTracking]

@[simp] lemma transitionStatus_isFavorite (row : Tracking) :
    (transitionStatus now (some row) status).isFavorite = row.isFavorite := by
  simp only [transitionStatus, Option.getD_some]
  split_ifs <;> rfl

@[simp] lemma transitionStatus_favoritedAt (row : Tracking) :
    (transitionStatus now (some row) status).favoritedAt = row.favoritedAt := by
  simp only [transitionStatus, Option.getD_some]
  split_ifs <;> rfl

lemma transitionStatus_completedAt (h : ItemInvariant existing rating) :
    (transitionStatus now existing .completed).lastCompletedAt.isSome = true := by
  cases hrow : existing with
  | none => simp [newTracking]
  | some row =>
    simp only [transitionStatus, Option.getD_some]
    split_ifs with hstamp
    · rfl
    · have hcompleted : row.status = .completed := by simpa using hstamp
      exact h.completedAt row hrow hcompleted

lemma transitionStatus_favoritedAt_isSome (h : ItemInvariant existing rating) :
    (transitionStatus now existing status).favoritedAt.isSome
      = (transitionStatus now existing status).isFavorite := by
  cases hrow : existing with
  | none => simp [newTracking]
  | some row => simpa using h.favoritedAt row hrow

lemma transitionRows_completed_tracking :
    (transitionRows now item existing .completed rating profile).1
      = transitionStatus now existing .completed := by
  simp only [transitionRows, if_true]
  split
  · rfl
  · split_ifs <;> rfl

/-- The rating that a transition out of `completed` leaves is not active. -/
lemma transitionRows_rating_inactive (hstatus : status ≠ .completed) :
    (transitionRows now item existing status rating profile).2.1.any (·.isActive) = false := by
  simp only [transitionRows, if_neg hstatus]
  cases hactive : rating.any (·.isActive) with
  | true =>
    simp only [if_true]
    split_ifs
    all_goals cases rating <;> rfl
  | false =>
    simp only [Bool.false_eq_true, if_false]
    split_ifs <;> exact hactive

/-- A transition out of `completed` leaves no favorite. -/
lemma transitionRows_not_isFavorite (hstatus : status ≠ .completed) :
    (transitionRows now item existing status rating profile).1.isFavorite = false := by
  simp only [transitionRows, if_neg hstatus]
  split_ifs with hactive hfavorite hfavorite
  · rfl
  · simpa using hfavorite
  · rfl
  · simpa using hfavorite

@[simp] lemma transitionRows_status :
    (transitionRows now item existing status rating profile).1.status = status := by
  by_cases hstatus : status = .completed
  · subst hstatus
    simp [transitionRows_completed_tracking]
  · simp only [transitionRows, if_neg hstatus]
    split_ifs <;> simp [Tracking.clearFavorite]

lemma transitionRows_favoritedAt_isSome (h : ItemInvariant existing rating) :
    (transitionRows now item existing status rating profile).1.favoritedAt.isSome
      = (transitionRows now item existing status rating profile).1.isFavorite := by
  have hdate := transitionStatus_favoritedAt_isSome now status h
  by_cases hstatus : status = .completed
  · subst hstatus
    rwa [transitionRows_completed_tracking]
  · simp only [transitionRows, if_neg hstatus]
    split_ifs
    · rfl
    · exact hdate
    · rfl
    · exact hdate

/-- A transition restores the clauses about its item. -/
lemma transitionRows_invariant (h : ItemInvariant existing rating) :
    ItemInvariant (some (transitionRows now item existing status rating profile).1)
      (transitionRows now item existing status rating profile).2.1 := by
  have hdate := transitionRows_favoritedAt_isSome now item status profile h
  by_cases hstatus : status = .completed
  · subst hstatus
    refine .of_row (fun _ _ _ => by simp) (fun _ => by simp) hdate (fun _ => ?_)
    rw [transitionRows_completed_tracking]
    exact transitionStatus_completedAt now h
  · refine .of_row (fun r hr ha => ?_) (fun hf => ?_) hdate (fun hc => ?_)
    · rw [inactive_of_any (transitionRows_rating_inactive now item status profile hstatus) r hr]
        at ha
      cases ha
    · simp [transitionRows_not_isFavorite now item status profile hstatus] at hf
    · exact absurd (by simpa using hc) hstatus

/-- A transition makes no favorite. -/
lemma transitionRows_isFavorite
    (h : (transitionRows now item existing status rating profile).1.isFavorite = true) :
    existing.any (·.isFavorite) = true := by
  have hkept : (transitionStatus now existing status).isFavorite = true →
      existing.any (·.isFavorite) = true := by
    intro hf
    cases hrow : existing with
    | none => simp [hrow, newTracking] at hf
    | some row => simpa [hrow] using hf
  apply hkept
  simp only [transitionRows] at h
  split_ifs at h with hstatus hactive hfavorite hfavorite
  · split at h
    · exact h
    · split_ifs at h <;> exact h
  · exact hfavorite
  · exact h
  · exact hfavorite
  · exact h

/-- A transition that finds no rating leaves none behind. -/
lemma transitionRows_rating_none
    (h : (transitionRows now item existing status rating profile).2.1 = none) : rating = none := by
  simp only [transitionRows] at h
  cases hr : rating with
  | none => rfl
  | some r =>
    simp only [hr] at h
    split_ifs at h <;> simp at h

end Transition

/-! ### From one item to the whole state -/

section Rows

variable {item : ItemId} {tracking : Table ItemId Tracking} {ratings : Table ItemId Rating}

lemma get?_storeRating_ne (rating : Option Rating) {j : ItemId} (h : j ≠ item) :
    (storeRating item rating ratings).get? j = ratings.get? j := by
  cases rating with
  | none => rfl
  | some r => exact Table.get?_set_ne ratings r h

lemma get?_storeRating_self {rating : Option Rating}
    (h : rating = none → ratings.get? item = none) :
    (storeRating item rating ratings).get? item = rating := by
  cases rating with
  | none => exact h rfl
  | some r => exact Table.get?_set_self ratings item r

variable {catalog}

/-- A call that touches one item keeps the invariant if it restores the clauses about that item
    and does not push a favorite count over the limit. -/
lemma ProgressInvariant.of_item {s s' : UserProgress} (h : ProgressInvariant catalog s)
    (item : ItemId)
    (hother : ∀ j, j ≠ item →
      s'.tracking.get? j = s.tracking.get? j ∧ s'.ratings.get? j = s.ratings.get? j)
    (hitem : ItemInvariant (s'.tracking.get? item) (s'.ratings.get? item))
    (hcount : ∀ contentType, favoriteCount catalog contentType s'.tracking ≤ 5) :
    ProgressInvariant catalog s' where
  item j := by
    by_cases hj : j = item
    · subst hj; exact hitem
    · rw [(hother j hj).1, (hother j hj).2]
      exact h.item j
  favorites := hcount

lemma favoriteCount_set_le (contentType : ContentType) (row : Tracking)
    (h : row.isFavorite = true → (tracking.get? item).any (·.isFavorite) = true) :
    favoriteCount catalog contentType (tracking.set item row)
      ≤ favoriteCount catalog contentType tracking := by
  apply Table.count_set_le
  intro hrow
  simp only [Bool.and_eq_true] at hrow ⊢
  cases hold : tracking.get? item with
  | none => simp [hold] at h; simp [h] at hrow
  | some old =>
    simp only [hold, Option.any_some] at h ⊢
    simp [h hrow.1, hrow.2]

end Rows

/-! ### Calls -/

section Calls

variable {catalog} {now} {item : ItemId} {s s' : UserProgress}

lemma ProgressInvariant.sync (h : ProgressInvariant catalog s) :
    ProgressInvariant catalog (syncDynamicCollections catalog s) :=
  ⟨h.item, h.favorites⟩

lemma ProgressInvariant.empty : ProgressInvariant catalog .empty where
  item item := by
    simp only [UserProgress.empty, Table.get?_empty]
    exact .of_no_row none (fun r hr => by simp at hr)
  favorites contentType := by simp [UserProgress.empty, favoriteCount]

lemma ensureTracking_invariant (h : ProgressInvariant catalog s) {status : TrackingStatus}
    (hstatus : status ≠ .completed) {row : Tracking}
    (hcall : ensureTracking catalog item status s = .ok (row, s')) :
    ProgressInvariant catalog s' := by
  unfold ensureTracking at hcall
  split_ifs at hcall
  cases hrow : s.tracking.get? item with
  | some existing =>
    simp only [hrow, Except.ok.injEq, Prod.mk.injEq] at hcall
    obtain ⟨-, rfl⟩ := hcall
    exact h.sync
  | none =>
    simp only [hrow, Except.ok.injEq, Prod.mk.injEq] at hcall
    obtain ⟨-, rfl⟩ := hcall
    have hinactive := (h.item item).inactive (fun row hsome => by simp [hrow] at hsome)
    apply ProgressInvariant.sync
    refine h.of_item item (fun j hj => ⟨Table.get?_set_ne _ _ hj, rfl⟩) ?_ ?_
    · rw [Table.get?_set_self]
      refine .of_row (fun r hr ha => ?_) (fun hf => by simp at hf) rfl (fun hc => absurd hc hstatus)
      simp [hinactive r hr] at ha
    · intro contentType
      exact (favoriteCount_set_le contentType _ (by simp)).trans (h.favorites contentType)

lemma transitionTracking_invariant (h : ProgressInvariant catalog s) {status : TrackingStatus}
    {acknowledge : Bool} {transition : TrackingTransition}
    (hcall : transitionTracking catalog now item status acknowledge s = .ok (transition, s')) :
    ProgressInvariant catalog s' := by
  obtain ⟨-, rfl⟩ := transitionTracking_ok hcall
  apply ProgressInvariant.sync
  refine h.of_item item (fun j hj => ⟨Table.get?_set_ne _ _ hj, get?_storeRating_ne _ hj⟩) ?_ ?_
  · rw [Table.get?_set_self, get?_storeRating_self
      (fun hnone => transitionRows_rating_none now item status _ hnone)]
    exact transitionRows_invariant now item status s.profile (h.item item)
  · intro contentType
    refine (favoriteCount_set_le contentType _ fun hf => ?_).trans (h.favorites contentType)
    exact transitionRows_isFavorite now item status _ hf

/-- The tracking row that a saved rating leaves is completed and keeps its favorite columns. -/
lemma saveRating_invariant (h : ProgressInvariant catalog s) (score : ℚ)
    (comment : Option String) (spoiler : Bool) :
    ProgressInvariant catalog (saveRating catalog now item score comment spoiler s).2 := by
  apply ProgressInvariant.sync
  refine h.of_item item (fun j hj => ⟨Table.get?_set_ne _ _ hj, Table.get?_set_ne _ _ hj⟩) ?_ ?_
  · rw [Table.get?_set_self, Table.get?_set_self]
    cases hrow : s.tracking.get? item with
    | none => exact .of_row (fun _ _ _ => rfl) (fun _ => rfl) rfl (fun _ => rfl)
    | some row =>
      have hdate := (h.item item).favoritedAt row hrow
      by_cases hcompleted : row.status = .completed
      · simp only [if_pos hcompleted]
        exact .of_row (fun _ _ _ => hcompleted) (fun _ => hcompleted) hdate
          ((h.item item).completedAt row hrow)
      · simp only [if_neg hcompleted]
        exact .of_row (fun _ _ _ => rfl) (fun _ => rfl) hdate (fun _ => rfl)
  · intro contentType
    refine (favoriteCount_set_le contentType _ fun hf => ?_).trans (h.favorites contentType)
    cases hrow : s.tracking.get? item with
    | none => simp [hrow] at hf
    | some row =>
      simp only [hrow] at hf
      split_ifs at hf <;> simpa using hf

/-- A new favorite is counted against the other favorites of its type. -/
lemma favoriteCount_set_of_lt {contentType : ContentType} {tracking : Table ItemId Tracking}
    (row : Tracking) (h : favoriteCount catalog contentType (tracking.delete item) < 5) :
    favoriteCount catalog contentType (tracking.set item row) ≤ 5 := by
  have hone := Bool.toNat_le (row.isFavorite && decide (catalog.contentType item = contentType))
  unfold favoriteCount at h ⊢
  rw [Table.count_set]
  omega

lemma setFavorite_invariant (h : ProgressInvariant catalog s) {isFavorite : Bool} {row : Tracking}
    (hcall : setFavorite catalog now item isFavorite s = .ok (row, s')) :
    ProgressInvariant catalog s' := by
  obtain ⟨old, hrow, hcompleted, hlimit, hnew, rfl⟩ := setFavorite_ok hcall
  have hinv := h.item item
  rw [hrow] at hinv
  refine h.of_item item (fun j hj => ⟨Table.get?_set_ne _ _ hj, rfl⟩) ?_ ?_
  · rw [Table.get?_set_self, hnew]
    refine .of_row (fun r hr ha => ?_) hcompleted ?_ (hinv.completedAt old rfl)
    · obtain ⟨_, hsome, hstatus⟩ := hinv.active r hr ha
      cases hsome
      exact hstatus
    · cases isFavorite <;> rfl
  · intro contentType
    by_cases hcounted : isFavorite = true ∧ old.isFavorite = false
        ∧ catalog.contentType item = contentType
    · obtain ⟨hset, hold, rfl⟩ := hcounted
      exact favoriteCount_set_of_lt row (hlimit hset hold)
    · refine (Table.count_set_le _ _ _ _ fun hf => ?_).trans (h.favorites contentType)
      simp only [hnew, Bool.and_eq_true, decide_eq_true_eq] at hf
      have hold : old.isFavorite = true := by
        by_contra hne
        exact hcounted ⟨hf.1, by simpa using hne, hf.2⟩
      simp [hrow, hold, hf.2]

/-- Once its active rating is archived, an item has no active rating. -/
lemma storeRating_archived_inactive (ratings : Table ItemId Rating) (r : Rating)
    (hr : (storeRating item (((ratings.get? item).filter (·.isActive)).map Rating.archive)
      ratings).get? item = some r) : r.isActive = false := by
  cases hrating : ratings.get? item with
  | none => simp [hrating, storeRating] at hr
  | some old =>
    cases hactive : old.isActive with
    | true =>
      simp only [hrating, Option.filter_some, hactive, if_true, Option.map_some, storeRating,
        Table.get?_set_self, Option.some.injEq] at hr
      subst hr
      rfl
    | false =>
      simp only [hrating, Option.filter_some, hactive, Bool.false_eq_true, if_false,
        Option.map_none, storeRating, Option.some.injEq] at hr
      subst hr
      exact hactive

lemma deleteTracking_invariant (h : ProgressInvariant catalog s) {acknowledge deleted : Bool}
    (hcall : deleteTracking catalog item acknowledge s = .ok (deleted, s')) :
    ProgressInvariant catalog s' := by
  rcases deleteTracking_ok hcall with ⟨-, rfl⟩ | ⟨row, -, -, rfl⟩
  · exact h
  · apply ProgressInvariant.sync
    refine h.of_item item
      (fun j hj => ⟨Table.get?_delete_ne _ hj, get?_storeRating_ne _ hj⟩) ?_ ?_
    · rw [Table.get?_delete_self]
      exact .of_no_row _ (storeRating_archived_inactive s.ratings)
    · intro contentType
      exact (Table.count_delete_le _ _ _).trans (h.favorites contentType)

lemma deleteRating_invariant (h : ProgressInvariant catalog s) :
    ProgressInvariant catalog (deleteRating item s) := by
  refine h.of_item item (fun j hj => ⟨rfl, Table.get?_delete_ne _ hj⟩) ?_ h.favorites
  have hinv := h.item item
  simp only [deleteRating, Table.get?_delete_self]
  exact ⟨fun r hr => by simp at hr, hinv.favorite, hinv.favoritedAt, hinv.completedAt⟩

lemma updateBanner_invariant (h : ProgressInvariant catalog s) {content : Option (Option ItemId)}
    {image : Option (Option ImageId)} (hcall : updateBanner catalog content image s = .ok s') :
    ProgressInvariant catalog s' := by
  have hsame : s'.tracking = s.tracking ∧ s'.ratings = s.ratings := by
    unfold updateBanner at hcall
    simp only at hcall
    repeat' split at hcall
    all_goals first | contradiction | (cases hcall; exact ⟨rfl, rfl⟩)
  exact ⟨by rw [hsame.1, hsame.2]; exact h.item, by rw [hsame.1]; exact h.favorites⟩

/-- Every call keeps the invariant, whether it succeeds or is rolled back. -/
theorem ProgressCall.run_invariant (h : ProgressInvariant catalog s) (call : ProgressCall) :
    ProgressInvariant catalog (call.run catalog now s) := by
  unfold ProgressCall.run
  cases hresult : call.result catalog now s with
  | error e => exact h
  | ok s' =>
    cases call with
    | ensureTracking item =>
      obtain ⟨⟨row, s''⟩, hcall, rfl⟩ := map_eq_ok hresult
      exact ensureTracking_invariant h (by decide) hcall
    | transitionTracking item status acknowledge =>
      obtain ⟨⟨transition, s''⟩, hcall, rfl⟩ := map_eq_ok hresult
      exact transitionTracking_invariant h hcall
    | saveRating item score comment spoiler =>
      cases hresult
      exact saveRating_invariant h score comment spoiler
    | setFavorite item isFavorite =>
      obtain ⟨⟨row, s''⟩, hcall, rfl⟩ := map_eq_ok hresult
      exact setFavorite_invariant h hcall
    | deleteTracking item acknowledge =>
      obtain ⟨⟨deleted, s''⟩, hcall, rfl⟩ := map_eq_ok hresult
      exact deleteTracking_invariant h hcall
    | deleteRating item =>
      cases hresult
      exact deleteRating_invariant h
    | updateBanner content image => exact updateBanner_invariant h hresult

end Calls

/-- Every sequence of calls keeps the invariant. -/
theorem runCalls_invariant (calls : List (Time × ProgressCall)) {s : UserProgress}
    (h : ProgressInvariant catalog s) : ProgressInvariant catalog (runCalls catalog calls s) := by
  induction calls generalizing s with
  | nil => exact h
  | cons call calls ih => exact ih (call.2.run_invariant h)

/-- A user's rows satisfy the invariant after every sequence of calls. -/
theorem reachable_progressInvariant (calls : List (Time × ProgressCall)) :
    ProgressInvariant catalog (runCalls catalog calls .empty) :=
  runCalls_invariant catalog calls .empty

end Denn
