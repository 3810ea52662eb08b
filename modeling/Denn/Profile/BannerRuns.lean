import Denn.Core.Except
import Denn.Profile.Banner
import Denn.Progress.Invariant

/-!
# Runs over profile banners

In every state that is reached, the banner of a profile shows a completed favorite of its user, with an
image of it or without one. A refresh keeps this by giving up the image.
-/

namespace Denn.Profile

open Core

/-! ### The banner of one user -/

/-- The banner shows nothing, or a completed favorite with one of its images or none. -/
structure BannerInvariant (imageItem : ImageId → Option ItemId) (tracking : Table ItemId Tracking)
    (profile : Option BannerSelection) : Prop where
  favorite : ∀ banner item, profile = some banner → banner.bannerContentItem = some item →
    ∃ row, tracking.get? item = some row ∧ row.status = .completed ∧ row.isFavorite = true
  image : ∀ banner image, profile = some banner → banner.bannerImage = some image →
    ∃ item, banner.bannerContentItem = some item ∧ imageItem image = some item

variable {imageItem : ImageId → Option ItemId} {tracking tracking' : Table ItemId Tracking}
  {profile : Option BannerSelection} {item : ItemId} {catalog : Catalog} {now : Time}
  {s s' : UserProgress}

lemma BannerInvariant.empty : BannerInvariant imageItem tracking (some {}) where
  favorite banner item hbanner hitem := by cases hbanner; exact nomatch hitem
  image banner image hbanner himage := by cases hbanner; exact nomatch himage

lemma BannerInvariant.shown
    (h : ∃ row, tracking.get? item = some row ∧ row.status = .completed ∧ row.isFavorite = true) :
    BannerInvariant imageItem tracking (some ⟨some item, none⟩) where
  favorite banner j hbanner hj := by cases hbanner; cases hj; exact h
  image banner image hbanner himage := by cases hbanner; exact nomatch himage

lemma BannerInvariant.shownImage {image : ImageId}
    (h : ∃ row, tracking.get? item = some row ∧ row.status = .completed ∧ row.isFavorite = true)
    (himage : imageItem image = some item) :
    BannerInvariant imageItem tracking (some ⟨some item, some image⟩) where
  favorite banner j hbanner hj := by cases hbanner; cases hj; exact h
  image banner j hbanner hj := by cases hbanner; cases hj; exact ⟨item, rfl, himage⟩

/-- A completed favorite stays one. -/
def KeepsFavorite (row row' : Option Tracking) : Prop :=
  ∀ old, row = some old → old.status = .completed → old.isFavorite = true →
    ∃ new, row' = some new ∧ new.status = .completed ∧ new.isFavorite = true

lemma KeepsFavorite.refl (row : Option Tracking) : KeepsFavorite row row :=
  fun old hold hcompleted hfavorite => ⟨old, hold, hcompleted, hfavorite⟩

/-- The row of one item is written: it is still a favorite if it has been one. -/
lemma BannerInvariant.keep (h : BannerInvariant imageItem tracking profile)
    (hother : ∀ j, j ≠ item → tracking'.get? j = tracking.get? j)
    (hrow : KeepsFavorite (tracking.get? item) (tracking'.get? item)) :
    BannerInvariant imageItem tracking' profile where
  favorite banner j hbanner hj := by
    obtain ⟨row, hget, hcompleted, hfavorite⟩ := h.favorite banner j hbanner hj
    by_cases hitem : j = item
    · subst hitem
      exact hrow row hget hcompleted hfavorite
    · exact ⟨row, (hother j hitem).trans hget, hcompleted, hfavorite⟩
  image := h.image

/-- The row of one item is written, and the banner no longer shows it. -/
lemma BannerInvariant.clear (h : BannerInvariant imageItem tracking profile)
    (hother : ∀ j, j ≠ item → tracking'.get? j = tracking.get? j) :
    BannerInvariant imageItem tracking' (clearBannerSelection item profile) where
  favorite banner j hbanner hj := by
    obtain ⟨old, hold, rfl⟩ := Option.map_eq_some_iff.mp hbanner
    split_ifs at hj with hshown
    obtain ⟨row, hget, hcompleted, hfavorite⟩ := h.favorite old j hold hj
    have hne : j ≠ item := fun heq => hshown (heq ▸ hj)
    exact ⟨row, (hother j hne).trans hget, hcompleted, hfavorite⟩
  image banner image hbanner himage := by
    obtain ⟨old, hold, rfl⟩ := Option.map_eq_some_iff.mp hbanner
    split_ifs at himage ⊢ with hshown
    exact h.image old image hold himage

lemma get?_set_of_ne (t : Table ItemId Tracking) (row : Tracking) :
    ∀ j, j ≠ item → (t.set item row).get? j = t.get? j :=
  fun _ hne => t.get?_set_ne row hne

/-! ### Calls of the tracking service -/

/-- A transition leaves a favorite as it is, or clears the banner of the item. -/
lemma transitionRows_banner (now : Time) (item : ItemId) (existing : Option Tracking)
    (status : TrackingStatus) (rating : Option Rating) (profile : Option BannerSelection) :
    (transitionRows now item existing status rating profile).2.2.1 = profile ∧
        KeepsFavorite existing (some (transitionRows now item existing status rating profile).1) ∨
      (transitionRows now item existing status rating profile).2.2.1
        = clearBannerSelection item profile := by
  by_cases hstatus : status = .completed
  · subst hstatus
    refine .inl ⟨?_, fun old hold hcompleted hfavorite => ?_⟩
    · simp only [transitionRows, if_true]
      split
      · rfl
      · split_ifs <;> rfl
    · refine ⟨_, rfl, ?_⟩
      rw [transitionRows_completed_tracking, hold]
      exact ⟨transitionStatus_status now .completed, by rw [transitionStatus_isFavorite, hfavorite]⟩
  · by_cases hfavorite : (transitionStatus now existing status).isFavorite = true
    · refine .inr ?_
      simp only [transitionRows, hstatus, if_false, hfavorite, if_true]
      split_ifs <;> rfl
    · refine .inl ⟨?_, fun old hold hcompleted hold' => ?_⟩
      · simp only [transitionRows, hstatus, if_false, Bool.eq_false_of_not_eq_true hfavorite,
          Bool.false_eq_true]
        split_ifs <;> rfl
      · rw [hold, transitionStatus_isFavorite] at hfavorite
        exact absurd hold' hfavorite

lemma ensureTracking_banner (h : BannerInvariant imageItem s.tracking s.profile)
    {status : TrackingStatus} {row : Tracking}
    (hcall : ensureTracking catalog item status s = .ok (row, s')) :
    BannerInvariant imageItem s'.tracking s'.profile := by
  unfold ensureTracking at hcall
  split_ifs at hcall with hsupported
  cases hrow : s.tracking.get? item with
  | some old =>
    simp only [hrow] at hcall
    cases hcall
    exact h
  | none =>
    simp only [hrow] at hcall
    cases hcall
    refine h.keep (get?_set_of_ne s.tracking _) fun old hold => ?_
    rw [hrow] at hold
    exact nomatch hold

lemma transitionTracking_banner (h : BannerInvariant imageItem s.tracking s.profile)
    {status : TrackingStatus} {acknowledge : Bool} {transition : TrackingTransition}
    (hcall : transitionTracking catalog now item status acknowledge s = .ok (transition, s')) :
    BannerInvariant imageItem s'.tracking s'.profile := by
  obtain ⟨-, rfl⟩ := transitionTracking_ok hcall
  simp only [syncDynamicCollections_tracking, syncDynamicCollections_profile]
  rcases transitionRows_banner now item (s.tracking.get? item) status (s.ratings.get? item) s.profile
    with ⟨hprofile, hkeeps⟩ | hprofile
  · rw [hprofile]
    refine h.keep (get?_set_of_ne s.tracking _) ?_
    rwa [Table.get?_set_self]
  · rw [hprofile]
    exact h.clear (get?_set_of_ne s.tracking _)

lemma saveRating_banner (h : BannerInvariant imageItem s.tracking s.profile) (score : ℚ)
    (comment : Option String) (spoiler : Bool) :
    BannerInvariant imageItem (saveRating catalog now item score comment spoiler s).2.tracking
      (saveRating catalog now item score comment spoiler s).2.profile := by
  simp only [saveRating, syncDynamicCollections_tracking, syncDynamicCollections_profile]
  refine h.keep (get?_set_of_ne s.tracking _) fun old hold hcompleted hfavorite => ?_
  rw [Table.get?_set_self, hold]
  exact ⟨old, by simp only [hcompleted, if_true], hcompleted, hfavorite⟩

lemma setFavorite_banner (h : BannerInvariant imageItem s.tracking s.profile) {isFavorite : Bool}
    {row : Tracking} (hcall : setFavorite catalog now item isFavorite s = .ok (row, s')) :
    BannerInvariant imageItem s'.tracking s'.profile := by
  obtain ⟨old, hold, -, -, rfl, rfl⟩ := setFavorite_ok hcall
  cases isFavorite with
  | false => exact h.clear (get?_set_of_ne s.tracking _)
  | true =>
    refine h.keep (get?_set_of_ne s.tracking _) fun old' hold' hcompleted hfavorite => ?_
    obtain rfl := Option.some.inj (hold.symm.trans hold')
    exact ⟨_, Table.get?_set_self _ _ _, hcompleted, rfl⟩

lemma deleteTracking_banner (h : BannerInvariant imageItem s.tracking s.profile)
    {acknowledge deleted : Bool}
    (hcall : deleteTracking catalog item acknowledge s = .ok (deleted, s')) :
    BannerInvariant imageItem s'.tracking s'.profile := by
  obtain ⟨-, rfl⟩ | ⟨row, hrow, -, rfl⟩ := deleteTracking_ok hcall
  · exact h
  · simp only [syncDynamicCollections_tracking, syncDynamicCollections_profile]
    have hother : ∀ j, j ≠ item → (s.tracking.delete item).get? j = s.tracking.get? j :=
      fun j hne => s.tracking.get?_delete_ne hne
    split_ifs with hfavorite
    · exact h.clear hother
    · refine h.keep hother fun old hold _ hold' => ?_
      obtain rfl := Option.some.inj (hrow.symm.trans hold)
      exact absurd hold' hfavorite

lemma deleteRating_banner (h : BannerInvariant imageItem s.tracking s.profile) :
    BannerInvariant imageItem (deleteRating item s).tracking (deleteRating item s).profile :=
  h

lemma updateBanner_banner {content : Option (Option ItemId)} {image : Option (Option ImageId)}
    (hcall : updateBanner catalog content image s = .ok s') :
    BannerInvariant catalog.imageItem s'.tracking s'.profile := by
  unfold updateBanner at hcall
  simp only at hcall
  generalize content.getD (s.profile.getD {}).bannerContentItem = contentId at hcall
  generalize image.getD _ = imageId at hcall
  cases contentId with
  | none =>
    by_cases hchosen : imageId.isSome = true ∧ ¬content = some none
    · rw [if_pos hchosen] at hcall
      exact nomatch hcall
    · rw [if_neg hchosen] at hcall
      cases hcall
      exact .empty
  | some item =>
    by_cases hfavorite : (s.tracking.get? item).any fun row => row.status = .completed && row.isFavorite
    · have hshown : ∃ row, s.tracking.get? item = some row ∧ row.status = .completed ∧
          row.isFavorite = true := by
        simpa [Option.any_eq_true] using hfavorite
      simp only [hfavorite, Bool.not_true, Bool.false_eq_true, if_false] at hcall
      cases imageId with
      | none =>
        cases hcall
        exact .shown hshown
      | some image =>
        by_cases himage : catalog.imageItem image = some item
        · simp only [himage, if_true] at hcall
          cases hcall
          exact .shownImage hshown himage
        · simp only [himage, if_false] at hcall
          exact nomatch hcall
    · simp only [hfavorite, Bool.not_false, if_true] at hcall
      exact nomatch hcall

/-- Every call of a user keeps the invariant, whether it succeeds or is rolled back. -/
lemma call_banner (h : BannerInvariant catalog.imageItem s.tracking s.profile)
    (call : ProgressCall) :
    BannerInvariant catalog.imageItem (call.run catalog now s).tracking
      (call.run catalog now s).profile := by
  unfold ProgressCall.run
  cases hresult : call.result catalog now s with
  | error e => exact h
  | ok s' =>
    cases call with
    | ensureTracking item =>
      obtain ⟨⟨row, s''⟩, hcall, rfl⟩ := map_eq_ok hresult
      exact ensureTracking_banner h hcall
    | transitionTracking item status acknowledge =>
      obtain ⟨⟨transition, s''⟩, hcall, rfl⟩ := map_eq_ok hresult
      exact transitionTracking_banner h hcall
    | saveRating item score comment spoiler =>
      cases hresult
      exact saveRating_banner h score comment spoiler
    | setFavorite item isFavorite =>
      obtain ⟨⟨row, s''⟩, hcall, rfl⟩ := map_eq_ok hresult
      exact setFavorite_banner h hcall
    | deleteTracking item acknowledge =>
      obtain ⟨⟨deleted, s''⟩, hcall, rfl⟩ := map_eq_ok hresult
      exact deleteTracking_banner h hcall
    | deleteRating item =>
      cases hresult
      exact deleteRating_banner h
    | updateBanner content image => exact updateBanner_banner hresult

/-! ### Edits -/

variable {banner : BannerSelection} {attrs attrs' : Attrs} {account : Account}

lemma isActiveFavorite_iff {contentId : ℤ} :
    isActiveFavorite tracking contentId = true ↔
      ∃ item row, rowKey contentId = some item ∧ tracking.get? item = some row ∧
        row.status = .completed ∧ row.isFavorite = true := by
  simp only [isActiveFavorite, Option.any_eq_true, Option.bind_eq_some_iff, Bool.and_eq_true,
    decide_eq_true_eq]
  constructor
  · rintro ⟨row, ⟨item, hitem, hrow⟩, hcompleted, hfavorite⟩
    exact ⟨item, row, hitem, hrow, hcompleted, hfavorite⟩
  · rintro ⟨item, row, hitem, hrow, hcompleted, hfavorite⟩
    exact ⟨row, ⟨item, hitem, hrow⟩, hcompleted, hfavorite⟩

lemma imageExists_iff {imageId contentId : ℤ} :
    imageExists imageItem imageId contentId = true ↔
      ∃ image item, rowKey imageId = some image ∧ rowKey contentId = some item ∧
        imageItem image = some item := by
  simp only [imageExists, Bool.and_eq_true, decide_eq_true_eq, Option.isSome_iff_exists]
  constructor
  · rintro ⟨heq, item, hitem⟩
    rw [hitem, Option.bind_eq_some_iff] at heq
    obtain ⟨image, himage, hrow⟩ := heq
    exact ⟨image, item, himage, hitem, hrow⟩
  · rintro ⟨image, item, himage, hitem, hrow⟩
    exact ⟨by rw [himage, hitem, Option.bind_some, hrow], item, hitem⟩

lemma map_ofNat_eq_some {key : Option ℕ} {number : ℤ} (h : key.map Int.ofNat = some number) :
    key = rowKey number := by
  obtain ⟨k, rfl, rfl⟩ := Option.map_eq_some_iff.mp h
  rfl

/-- The attribute that is written, or the column that stays, is the value that has been checked. -/
lemma written_eq {attr : Option (Option ℤ)} {column : Option ℕ} {number : ℤ}
    (h : attr.getD (column.map Int.ofNat) = some number) :
    (attr.map (·.bind rowKey)).getD column = rowKey number := by
  cases attr with
  | none => exact map_ofNat_eq_some h
  | some value =>
    obtain rfl : value = some number := h
    rfl

lemma written_eq_none {attr : Option (Option ℤ)} {column : Option ℕ}
    (h : attr.getD (column.map Int.ofNat) = none) :
    (attr.map (·.bind rowKey)).getD column = none := by
  cases attr with
  | none => exact Option.map_eq_none_iff.mp h
  | some value =>
    obtain rfl : value = none := h
    rfl

/-- What `validate` has checked, and the attributes that it returns. -/
lemma validate_ok (h : validate tracking imageItem banner attrs = .ok attrs') :
    attrs.bannerContentItemId.getD (banner.bannerContentItem.map Int.ofNat) = none ∧
        attrs' = { attrs with bannerImageId := some none } ∨
      ∃ contentId,
        attrs.bannerContentItemId.getD (banner.bannerContentItem.map Int.ofNat) = some contentId ∧
        isActiveFavorite tracking contentId = true ∧
        ((∃ imageId,
            attrs.bannerImageId.getD (banner.bannerImage.map Int.ofNat) = some imageId ∧
            imageExists imageItem imageId contentId = true ∧ attrs' = attrs) ∨
          attrs.bannerImageId.getD (banner.bannerImage.map Int.ofNat) = none ∧
            attrs' = if attrs.bannerContentItemId.isSome then { attrs with bannerImageId := some none }
              else attrs) := by
  unfold validate at h
  simp only at h
  cases hcontent : attrs.bannerContentItemId.getD (banner.bannerContentItem.map Int.ofNat) with
  | none =>
    simp only [hcontent] at h
    split_ifs at h <;> exact .inl ⟨rfl, (Except.ok.inj h).symm⟩
  | some contentId =>
    have hcleared : attrs.bannerContentItemId ≠ some none := by
      intro hnull
      rw [hnull] at hcontent
      exact nomatch hcontent
    refine .inr ⟨contentId, rfl, ?_⟩
    simp only [hcontent, hcleared, if_false] at h
    by_cases hfavorite : isActiveFavorite tracking contentId = true
    · refine ⟨hfavorite, ?_⟩
      simp only [hfavorite, Bool.not_true, Bool.false_eq_true, if_false] at h
      cases himage : attrs.bannerImageId.getD (banner.bannerImage.map Int.ofNat) with
      | none =>
        simp only [himage] at h
        refine .inr ⟨rfl, ?_⟩
        split_ifs at h ⊢ <;> exact (Except.ok.inj h).symm
      | some imageId =>
        simp only [himage] at h
        split_ifs at h with hexists
        exact .inl ⟨imageId, rfl, hexists, (Except.ok.inj h).symm⟩
    · simp only [hfavorite, Bool.not_false, if_true] at h
      exact nomatch h

/-- What is checked is what the profile shows afterwards. -/
lemma validate_banner (h : validate tracking imageItem banner attrs = .ok attrs') (account : Account) :
    BannerInvariant imageItem tracking (attrs'.apply account banner).progress.profile := by
  rcases validate_ok h with ⟨hcontent, rfl⟩ | ⟨contentId, hcontent, hfavorite, himage⟩
  · simp only [Attrs.apply, written_eq_none hcontent, Option.map_some, Option.getD_some]
    exact .empty
  · obtain ⟨item, row, hitem, hrow⟩ := isActiveFavorite_iff.mp hfavorite
    have hshown := (written_eq hcontent).trans hitem
    rcases himage with ⟨imageId, himage, hexists, rfl⟩ | ⟨himage, rfl⟩
    · obtain ⟨image, item', himageKey, hitem', hbelongs⟩ := imageExists_iff.mp hexists
      obtain rfl := Option.some.inj (hitem.symm.trans hitem')
      simp only [Attrs.apply, hshown, (written_eq himage).trans himageKey]
      exact .shownImage ⟨row, hrow⟩ hbelongs
    · split_ifs with hset
      · simp only [Attrs.apply, hshown, Option.map_some, Option.getD_some]
        exact .shown ⟨row, hrow⟩
      · simp only [Attrs.apply, hshown, written_eq_none himage]
        exact .shown ⟨row, hrow⟩

lemma getD_map_ofNat (attr : Option (Option ℕ)) (column : Option ℕ) :
    (attr.map (·.map Int.ofNat)).getD (column.map Int.ofNat) = (attr.getD column).map Int.ofNat := by
  cases attr <;> rfl

/-- A row key is written as it has come. -/
lemma written_ofNat (attr : Option (Option ℕ)) (column : Option ℕ) :
    ((attr.map (·.map Int.ofNat)).map (·.bind rowKey)).getD column = attr.getD column := by
  rcases attr with _ | _ | key <;> rfl

/-- A body of row keys does what the call of the progress model does. -/
theorem updateBanner_eq_validate (catalog : Catalog) (content : Option (Option ItemId))
    (image : Option (Option ImageId)) (s : UserProgress) :
    (updateBanner catalog content image s).toOption =
      (validate s.tracking catalog.imageItem (s.profile.getD {})
        { bannerContentItemId := content.map (·.map Int.ofNat)
          bannerImageId := image.map (·.map Int.ofNat) }).toOption.map fun attrs =>
        (attrs.apply { progress := s } (s.profile.getD {})).progress := by
  generalize hbanner : s.profile.getD {} = banner
  have hcleared : content.map (·.map Int.ofNat) = some none ↔ content = some none := by
    rcases content with _ | _ | item <;> simp
  have hkept : (if content = some none then none else banner.bannerImage.map Int.ofNat)
      = (if content = some none then none else banner.bannerImage).map Int.ofNat := by
    split_ifs <;> rfl
  unfold updateBanner validate
  simp only [hbanner, hcleared, hkept, getD_map_ofNat]
  generalize himage : image.getD (if content = some none then none else banner.bannerImage) = imageId
  cases hcontent : content.getD banner.bannerContentItem with
  | none =>
    simp only [Option.map_none, Option.isSome_map]
    split_ifs
    · rfl
    · simp only [Except.toOption, Option.map_some, Attrs.apply, written_ofNat, hcontent,
        Option.getD_some, Option.bind_none]
  | some item =>
    have hne : content ≠ some none := by
      rintro rfl
      simp at hcontent
    have hfavorite : isActiveFavorite s.tracking (Int.ofNat item)
        = (s.tracking.get? item).any fun row => row.status = .completed && row.isFavorite := rfl
    simp only [hne, if_false] at himage
    simp only [Option.map_some, hfavorite]
    by_cases hactive : (s.tracking.get? item).any fun row => row.status = .completed && row.isFavorite
    · simp only [hactive, Bool.not_true, Bool.false_eq_true, if_false]
      cases imageId with
      | none =>
        simp only [Option.map_none, Option.isSome_map]
        split_ifs
        · simp only [Except.toOption, Option.map_some, Attrs.apply, written_ofNat, hcontent,
            Option.getD_some, Option.bind_none]
        · simp only [Except.toOption, Option.map_some, Attrs.apply, written_ofNat, hcontent, himage]
      | some image =>
        have hexists : imageExists catalog.imageItem (Int.ofNat image) (Int.ofNat item) = true ↔
            catalog.imageItem image = some item := by
          refine imageExists_iff.trans ⟨?_, fun hrow => ⟨image, item, rfl, rfl, hrow⟩⟩
          rintro ⟨_, _, hkey, hkey', hrow⟩
          cases hkey
          cases hkey'
          exact hrow
        simp only [Option.map_some, hexists]
        split_ifs
        · simp only [Except.toOption, Option.map_some, Attrs.apply, written_ofNat, hcontent, himage]
        · rfl
    · simp only [hactive, Bool.not_false, if_true]
      rfl

/-! ### All users -/

/-- The keys of images are below the next one, and the banner of every user is right. -/
structure Invariant (s : State) : Prop where
  fresh : ∀ image stored, s.images.get? image = some stored → image < s.nextImage
  banner : ∀ user account, s.users.get? user = some account →
    BannerInvariant s.catalog.imageItem account.progress.tracking account.progress.profile

lemma Invariant.initial (contentType : ItemId → ContentType) : Invariant (initial contentType) where
  fresh _ _ h := nomatch h
  banner _ _ h := nomatch h

variable {state : State} {user : UserId} {ρ : Type}

/-- The rows of one user are written. -/
lemma Invariant.setAccount (h : Invariant state) {account : Account}
    (haccount : BannerInvariant state.catalog.imageItem account.progress.tracking
      account.progress.profile) : Invariant (state.setAccount user account) where
  fresh := h.fresh
  banner user' account' hget := by
    rcases Table.get?_set_cases hget with ⟨-, rfl⟩ | hget
    · exact haccount
    · exact h.banner user' account' hget

/-- The row that is created for an edit shows nothing. -/
lemma BannerInvariant.created (h : BannerInvariant imageItem tracking profile) :
    BannerInvariant imageItem tracking (some (profile.getD {})) := by
  cases profile with
  | none => exact .empty
  | some banner => exact h

lemma Invariant.patchProfile (h : Invariant state) (fields : Fields ρ) {account : Account}
    (hget : state.users.get? user = some account) (body : EditBody ρ) :
    Invariant (patchProfile fields user account body state).2 := by
  have hcreated : Invariant
      (state.setAccount user (account.setProfile (account.progress.profile.getD {}))) :=
    h.setAccount (h.banner user account hget).created
  unfold Profile.patchProfile
  cases readAttrs fields body with
  | error errors => exact hcreated
  | ok attrs =>
    simp only
    cases hvalid : validate account.progress.tracking state.catalog.imageItem
        (account.progress.profile.getD {}) attrs with
    | error e => exact hcreated
    | ok attrs' => exact hcreated.setAccount (validate_banner hvalid account)

lemma Invariant.patch (h : Invariant state) (fields : Fields ρ) {account : Account}
    (hget : state.users.get? user = some account) (body : EditBody ρ) :
    Invariant (patch fields user account body state).2 := by
  unfold Profile.patch atomic
  split
  · exact h.patchProfile fields hget body
  · exact h

/-- An image that is deleted is no longer shown, and the others still belong to their items. -/
lemma Invariant.deleteImages (h : Invariant state) (item : ItemId) :
    Invariant (state.deleteImages item) where
  fresh image stored hget := by
    rw [State.deleteImages, Table.get?_deleteWhere, Option.filter_eq_some_iff] at hget
    exact h.fresh image stored hget.1
  banner user account hget := by
    rw [State.deleteImages, Table.get?_updateWhere] at hget
    obtain ⟨old, hold, rfl⟩ := Option.map_eq_some_iff.mp hget
    have hbanner := h.banner user old hold
    refine ⟨fun banner j hprofile hj => ?_, fun banner image hprofile himage => ?_⟩
    · obtain ⟨banner', hbanner', rfl⟩ := Option.map_eq_some_iff.mp hprofile
      exact hbanner.favorite banner' j hbanner' hj
    · obtain ⟨banner', hbanner', rfl⟩ := Option.map_eq_some_iff.mp hprofile
      obtain ⟨himage, hkept⟩ := Option.filter_eq_some_iff.mp himage
      obtain ⟨j, hj, hbelongs⟩ := hbanner.image banner' image hbanner' himage
      refine ⟨j, hj, ?_⟩
      obtain ⟨stored, hstored, rfl⟩ := Option.map_eq_some_iff.mp hbelongs
      have hother : stored.item ≠ item := by simpa [hstored] using hkept
      simp [State.catalog, State.deleteImages, Table.get?_deleteWhere, hstored, hother]

/-- A new image has a key that no banner refers to. -/
lemma Invariant.createImage (h : Invariant state) (item : ItemId) (row : Ingest.ImageRow) :
    Invariant (state.createImage item row) where
  fresh image stored hget := by
    rcases Table.get?_set_cases hget with ⟨rfl, -⟩ | hget
    · exact Nat.lt_succ_self _
    · exact Nat.lt_succ_of_lt (h.fresh image stored hget)
  banner user account hget := by
    have hbanner := h.banner user account hget
    refine ⟨hbanner.favorite, fun banner image hprofile himage => ?_⟩
    obtain ⟨j, hj, hbelongs⟩ := hbanner.image banner image hprofile himage
    obtain ⟨stored, hstored, rfl⟩ := Option.map_eq_some_iff.mp hbelongs
    have hne : image ≠ state.nextImage := (h.fresh image stored hstored).ne
    refine ⟨stored.item, hj, ?_⟩
    simp [State.catalog, State.createImage, Table.get?_set_ne _ _ hne, hstored]

lemma Invariant.replaceImages (h : Invariant state) (item : ItemId)
    (entries : List Ingest.ImageEntry) : Invariant (state.replaceImages item entries) := by
  have hcreate : ∀ (rows : List Ingest.ImageRow) {state : State}, Invariant state →
      Invariant (rows.foldl (State.createImage item) state) := by
    intro rows
    induction rows with
    | nil => exact fun h => h
    | cons row rows ih => exact fun h => ih (h.createImage item row)
  exact hcreate _ (h.deleteImages item)

/-- Every step keeps the invariant. -/
lemma Invariant.step (h : Invariant state) (fields : Fields ρ) (event : Step ρ) :
    Invariant (Profile.step fields state event) := by
  cases event with
  | register user =>
    simp only [Profile.step]
    split
    · exact h
    · exact h.setAccount .empty
  | edit user body =>
    simp only [Profile.step]
    split
    · rename_i account hget
      exact h.patch fields hget body
    · exact h
  | call now user call =>
    simp only [Profile.step]
    split
    · rename_i account hget
      exact h.setAccount (call_banner (h.banner user account hget) call)
    · exact h
  | refresh item images =>
    cases images with
    | none => exact h
    | some entries => exact h.replaceImages item entries

lemma Invariant.run (h : Invariant state) (fields : Fields ρ) (steps : List (Step ρ)) :
    Invariant (Profile.run fields state steps) := by
  induction steps generalizing state with
  | nil => exact h
  | cons event steps ih => exact ih (h.step fields event)

/-- A transaction that ends with an error changes nothing. -/
lemma atomic_error {ε σ : Type} {transaction : σ → Except ε Unit × σ} {s : σ} {e : ε}
    (h : (atomic transaction s).1 = .error e) : (atomic transaction s).2 = s := by
  unfold atomic at h ⊢
  split at h
  · rename_i hok
    rw [hok] at h
    exact nomatch h
  · rfl

/-- In every state that is reached, each banner shows nothing or a completed favorite of its user, with
one of its images or none; and an edit that is rejected changes nothing. -/
theorem banner_invariant (fields : Fields ρ) (contentType : ItemId → ContentType)
    (steps : List (Step ρ)) :
    (∀ user account,
      (run fields (initial contentType) steps).users.get? user = some account →
      BannerInvariant (run fields (initial contentType) steps).catalog.imageItem
        account.progress.tracking account.progress.profile) ∧
    ∀ user account body errors,
      (patch fields user account body (run fields (initial contentType) steps)).1 = .error errors →
      (patch fields user account body (run fields (initial contentType) steps)).2
        = run fields (initial contentType) steps :=
  ⟨((Invariant.initial contentType).run fields steps).banner, fun _ _ _ _ h => atomic_error h⟩

/-! ### A chosen image -/

/-- The profile of a user shows an image of the item with the address. -/
def ShowsImage (s : State) (user : UserId) (item : ItemId) (url : String) : Prop :=
  ∃ account banner image stored, s.users.get? user = some account ∧
    account.progress.profile = some banner ∧ banner.bannerContentItem = some item ∧
    banner.bannerImage = some image ∧ s.images.get? image = some stored ∧ stored.item = item ∧
    stored.row.imageUrl = url

/-- The payload lists the image. -/
def Lists (entries : List Ingest.ImageEntry) (row : Ingest.ImageRow) : Prop :=
  ∃ entry ∈ Ingest.imageRows entries,
    entry.imageUrl = row.imageUrl ∧ entry.type = row.type ∧ entry.size = row.size

/-- The item is refreshed from one payload after the other. -/
def refreshes (s : State) (item : ItemId) (payloads : List (List Ingest.ImageEntry)) : State :=
  payloads.foldl (fun s entries => s.replaceImages item entries) s

lemma users_createImages (item : ItemId) (rows : List Ingest.ImageRow) (s : State) :
    (rows.foldl (State.createImage item) s).users = s.users := by
  induction rows generalizing s with
  | nil => rfl
  | cons row rows ih => exact ih (s.createImage item row)

/-- After a refresh no profile refers to an image that the item has had. -/
lemma users_replaceImages (s : State) (item : ItemId) (entries : List Ingest.ImageEntry)
    (user : UserId) :
    (s.replaceImages item entries).users.get? user
      = (s.users.get? user).map (clearDeletedImage s.images item) := by
  rw [State.replaceImages, users_createImages, State.deleteImages, Table.get?_updateWhere]
  rfl

/-- The user has chosen an image of the item, or none. -/
def ChoseWithin (s : State) (user : UserId) (item : ItemId) : Prop :=
  ∀ account banner image, s.users.get? user = some account →
    account.progress.profile = some banner → banner.bannerImage = some image →
    ∃ stored, s.images.get? image = some stored ∧ stored.item = item

/-- The user has chosen no image. -/
def ChoseNone (s : State) (user : UserId) : Prop :=
  ∀ account banner, s.users.get? user = some account → account.progress.profile = some banner →
    banner.bannerImage = none

lemma choseNone_replaceImages {s : State} {user : UserId} {item : ItemId}
    (h : ChoseWithin s user item) (entries : List Ingest.ImageEntry) :
    ChoseNone (s.replaceImages item entries) user := by
  intro account banner hget hprofile
  rw [users_replaceImages] at hget
  obtain ⟨old, hold, rfl⟩ := Option.map_eq_some_iff.mp hget
  obtain ⟨chosen, hchosen, rfl⟩ := Option.map_eq_some_iff.mp hprofile
  refine Option.eq_none_iff_forall_ne_some.mpr fun image himage => ?_
  obtain ⟨himage, hkept⟩ := Option.filter_eq_some_iff.mp himage
  obtain ⟨stored, hstored, hitem⟩ := h old chosen image hold hchosen himage
  simp [hstored, hitem] at hkept

lemma ChoseNone.within {s : State} {user : UserId} (h : ChoseNone s user) (item : ItemId) :
    ChoseWithin s user item := by
  intro account banner image hget hprofile himage
  rw [h account banner hget hprofile] at himage
  exact nomatch himage

lemma choseNone_refreshes {s : State} {user : UserId} {item : ItemId}
    (h : ChoseWithin s user item) (entries : List Ingest.ImageEntry)
    (payloads : List (List Ingest.ImageEntry)) :
    ChoseNone (refreshes s item (entries :: payloads)) user := by
  induction payloads generalizing s entries with
  | nil => exact choseNone_replaceImages h entries
  | cons next payloads ih =>
    exact ih ((choseNone_replaceImages h entries).within item) next

lemma ChoseNone.not_showsImage {s : State} {user : UserId} {item : ItemId} {url : String}
    (h : ChoseNone s user) : ¬ShowsImage s user item url := by
  rintro ⟨account, banner, image, stored, hget, hprofile, -, himage, -⟩
  rw [h account banner hget hprofile] at himage
  exact nomatch himage

/-- A chosen image survives the refreshes of its item exactly if there are none: the first one loses it,
whatever the payload lists. -/
theorem chosen_image_survives_iff (s : State) (user : UserId) (item : ItemId) (account : Account)
    (banner : BannerSelection) (image : ImageId) (stored : StoredImage)
    (hget : s.users.get? user = some account) (hprofile : account.progress.profile = some banner)
    (hcontent : banner.bannerContentItem = some item) (himage : banner.bannerImage = some image)
    (hstored : s.images.get? image = some stored) (hitem : stored.item = item)
    (payloads : List (List Ingest.ImageEntry)) :
    (∀ count ≤ payloads.length,
      ShowsImage (refreshes s item (payloads.take count)) user item stored.row.imageUrl) ↔
    payloads = [] := by
  constructor
  · intro h
    cases payloads with
    | nil => rfl
    | cons entries payloads =>
      have hchose : ChoseWithin s user item := by
        intro account' banner' image' hget' hprofile' himage'
        obtain rfl := Option.some.inj (hget.symm.trans hget')
        obtain rfl := Option.some.inj (hprofile.symm.trans hprofile')
        obtain rfl := Option.some.inj (himage.symm.trans himage')
        exact ⟨stored, hstored, hitem⟩
      have hshown := h 1 (by simp)
      exact absurd hshown (choseNone_refreshes hchose entries []).not_showsImage
  · rintro rfl count -
    rw [List.take_nil]
    exact ⟨account, banner, image, stored, hget, hprofile, hcontent, himage, hstored, hitem, rfl⟩

/-- The payload that lists one image. -/
def posterPayload : List Ingest.ImageEntry := [{ imageUrl := some "https://image.tmdb.org/t/p/p.jpg" }]

/-- A request as the framework reads it: texts are texts, and numbers are numbers. -/
def plainFields : Fields (String ⊕ ℤ) where
  charField raw := raw.elim .ok fun _ => .error "Not a valid string."
  urlField raw := raw.elim .ok fun _ => .error "Not a valid string."
  integerField raw := raw.elim (fun _ => .error "A valid integer is required.") fun n => .ok (some n)

/-- A user completes a movie, marks it a favorite and chooses its only image. -/
def choiceSteps : List (Step (String ⊕ ℤ)) :=
  [.refresh 7 (some posterPayload), .register 3, .call 10 3 (.transitionTracking 7 .completed false),
    .call 11 3 (.setFavorite 7 true),
    .edit 3 { bannerContentId := some (.inr 7), bannerImageId := some (.inr 1) }]

def chosenState : State := run plainFields (initial fun _ => .movie) choiceSteps

/-- A profile that shows the only image of its only favorite. -/
def savedState : State where
  contentType _ := .movie
  users := Table.empty.set 3
    { progress :=
        { UserProgress.empty with
          tracking := Table.empty.set 7 ⟨.completed, some 10, true, some 11⟩
          profile := some ⟨some 7, some 1⟩ } }
  images := Table.empty.set 1 ⟨7, "poster", "standard", "https://image.tmdb.org/t/p/p.jpg", 0⟩
  nextImage := 2

/-- One refresh from the same payload is one too many. -/
theorem chosen_image_survives_saved :
    (∀ count ≤ [posterPayload].length,
      ShowsImage (refreshes savedState 7 ([posterPayload].take count)) 3 7
        "https://image.tmdb.org/t/p/p.jpg") ↔
    [posterPayload] = [] :=
  chosen_image_survives_iff savedState 3 7 _ ⟨some 7, some 1⟩ 1
    ⟨7, "poster", "standard", "https://image.tmdb.org/t/p/p.jpg", 0⟩ rfl rfl rfl rfl rfl rfl
    [posterPayload]

/-- The choice is there until the item is refreshed from the payload that it has been read from. -/
theorem chosen_image_lost :
    ((chosenState.users.get? 3).bind (·.progress.profile) = some ⟨some 7, some 1⟩) ∧
    (chosenState.images.get? 1
      = some ⟨7, "poster", "standard", "https://image.tmdb.org/t/p/p.jpg", 0⟩) ∧
    Lists posterPayload ⟨"poster", "standard", "https://image.tmdb.org/t/p/p.jpg", 0⟩ ∧
    ((chosenState.replaceImages 7 posterPayload).users.get? 3).bind (·.progress.profile)
      = some ⟨some 7, none⟩ :=
  ⟨by decide +kernel, by decide +kernel, ⟨_, List.mem_singleton_self _, rfl, rfl, rfl⟩,
    by decide +kernel⟩

end Denn.Profile
