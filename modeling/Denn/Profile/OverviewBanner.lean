import Denn.Profile.Overview

/-!
# What the page shows as a banner

In every state that is reached, the page shows the banner that the user has chosen, and otherwise media
of a completed favorite, which it does not exchange as long as the favorite is listed. The overview
gives an automatic choice the id of the image that it falls on, so that the page finds it only among
the options.
-/

namespace Denn.Profile

open Core

/-! ### The selected rows -/

section Selection

variable {type : ItemId → ContentType} {selected done rows : List ItemId} {row : ItemId}

lemma length_firstOfTypes (h : selected.length < 5) :
    (firstOfTypes type selected rows).length ≤ 5 := by
  induction rows generalizing selected with
  | nil => exact h.le
  | cons first rows ih =>
    rw [firstOfTypes]
    split_ifs with htype hfull
    · exact ih h
    · exact hfull.le
    · refine ih (lt_of_le_of_ne ?_ hfull)
      rw [List.length_append, List.length_singleton]
      omega

/-- The first pass takes the first row of each type that has none yet. -/
lemma mem_firstOfTypes (h : row ∈ firstOfTypes type selected rows) :
    row ∈ selected ∨ (rows.filter fun other => type other = type row).head? = some row := by
  have hstrong : row ∈ selected ∨ type row ∉ selected.map type ∧
      (rows.filter fun other => type other = type row).head? = some row := by
    induction rows generalizing selected with
    | nil => exact .inl h
    | cons first rows ih =>
      rw [firstOfTypes] at h
      split_ifs at h with htype hfull
      · rw [List.contains_iff_mem] at htype
        rcases ih h with hselected | ⟨hnew, hhead⟩
        · exact .inl hselected
        · refine .inr ⟨hnew, ?_⟩
          rw [List.filter_cons_of_neg, hhead]
          exact fun heq => hnew (of_decide_eq_true heq ▸ htype)
      · rw [List.contains_iff_mem] at htype
        rcases List.mem_append.mp h with hselected | hfirst
        · exact .inl hselected
        · obtain rfl := List.mem_singleton.mp hfirst
          exact .inr ⟨htype, by simp⟩
      · rw [List.contains_iff_mem] at htype
        rcases ih h with hselected | ⟨hnew, hhead⟩
        · rcases List.mem_append.mp hselected with hselected | hfirst
          · exact .inl hselected
          · obtain rfl := List.mem_singleton.mp hfirst
            exact .inr ⟨htype, by simp⟩
        · rw [List.map_append, List.mem_append, not_or] at hnew
          refine .inr ⟨hnew.1, ?_⟩
          rw [List.filter_cons_of_neg, hhead]
          exact fun heq => hnew.2 (by simp [of_decide_eq_true heq])
  exact hstrong.imp_right (·.2)

/-- While there are fewer than five, the second pass has taken every row before. -/
lemma mem_fillUp (hnodup : (done ++ rows).Nodup) (hlength : selected.length ≤ 5)
    (hdone : selected.length < 5 → ∀ other ∈ done, other ∈ selected)
    (h : row ∈ fillUp selected rows) : row ∈ selected ∨ row ∈ (done ++ rows).take 5 := by
  induction rows generalizing selected done with
  | nil => exact .inl h
  | cons first rows ih =>
    rw [fillUp] at h
    have happend : done ++ first :: rows = done ++ [first] ++ rows := by simp
    split_ifs at h with hfull hcontains
    · exact .inl h
    · rw [List.contains_iff_mem] at hcontains
      rw [happend] at hnodup ⊢
      refine ih hnodup hlength (fun hlt other hother => ?_) h
      rcases List.mem_append.mp hother with hother | hother
      · exact hdone hlt other hother
      · exact List.mem_singleton.mp hother ▸ hcontains
    · have hlt : selected.length < 5 := lt_of_le_of_ne hlength hfull
      have hmem : row ∈ selected ++ [first] ∨ row ∈ (done ++ first :: rows).take 5 := by
        rw [happend] at hnodup ⊢
        refine ih hnodup (by simpa [Nat.succ_le_iff] using hlt) (fun _ other hother => ?_) h
        rcases List.mem_append.mp hother with hother | hother
        · exact List.mem_append_left _ (hdone hlt other hother)
        · exact List.mem_append_right _ hother
      rcases hmem with hselected | htake
      · rcases List.mem_append.mp hselected with hselected | hfirst
        · exact .inl hselected
        · obtain rfl := List.mem_singleton.mp hfirst
          have hle : done.length ≤ selected.length :=
            (List.subperm_of_subset (List.nodup_append'.mp hnodup).1 (hdone hlt)).length_le
          have htake : done ++ [row] <+: (done ++ row :: rows).take 5 := by
            refine List.prefix_take_iff.mpr ⟨⟨rows, by simp⟩, ?_⟩
            rw [List.length_append, List.length_singleton]
            omega
          exact .inr (htake.subset (by simp))
      · exact .inr htake

lemma mem_take_filter {α : Type*} {p : α → Bool} {l : List α} {n : ℕ} {a : α}
    (h : a ∈ l.take n) (hp : p a = true) : a ∈ (l.filter p).take n := by
  have hprefix : (l.take n).filter p <+: (l.filter p).take n :=
    List.prefix_take_iff.mpr ⟨(List.take_prefix n l).filter p,
      (List.length_filter_le _ _).trans (List.length_take_le n l)⟩
  exact hprefix.subset (List.mem_filter.mpr ⟨h, hp⟩)

/-- The rows that media are selected from are among the favorites that are listed. -/
theorem mem_selectedRows (hnodup : rows.Nodup) (h : row ∈ selectedRows type rows) :
    row ∈ (rows.filter fun other => type other = type row).take 5 := by
  have hfill : row ∈ firstOfTypes type [] rows ∨ row ∈ ([] ++ rows).take 5 :=
    mem_fillUp hnodup (length_firstOfTypes (by simp)) (by simp) h
  rcases hfill with hfirst | htake
  · rcases mem_firstOfTypes hfirst with hnil | hhead
    · cases hnil
    · cases hrows : rows.filter fun other => type other = type row with
      | nil => simp [hrows] at hhead
      | cons other rest =>
        rw [hrows] at hhead
        obtain rfl := Option.some.inj hhead
        simp
  · exact mem_take_filter htake (by simp)

lemma mem_listedFavorites : row ∈ (listedFavorites type rows).flatMap (·.2) ↔
    row ∈ (rows.filter fun other => type other = type row).take 5 := by
  simp only [listedFavorites, List.mem_flatMap, List.mem_map, exists_exists_and_eq_and]
  constructor
  · rintro ⟨contentType, -, hrow⟩
    have htype : type row = contentType :=
      of_decide_eq_true (List.mem_filter.mp (List.mem_of_mem_take hrow)).2
    rwa [htype]
  · intro hrow
    refine ⟨type row, ?_, hrow⟩
    have hmem : row ∈ rows := (List.mem_filter.mp (List.mem_of_mem_take hrow)).1
    obtain ⟨contentType, hkept, heq⟩ :=
      exists_mem_keepFirst (List.mem_map_of_mem (f := type) hmem) (List.not_mem_nil : id _ ∉ [])
    obtain rfl : contentType = type row := heq
    exact hkept

end Selection

/-! ### The banners of the server -/

section Server

variable {s : State} {texts : ItemId → ContentText} {order : Scan ItemId} {account : Account}
  {item : ItemId} {image : BannerImage} {imageId : ImageId} {media : BannerMedia}
  {rows : List ItemId} {option : BannerOption}

lemma mem_contentImages : image ∈ s.contentImages item ↔
    ∃ stored, s.images.get? image.id = some stored ∧ stored.item = item ∧ stored.row = image.row := by
  simp only [State.contentImages, mem_sortBy, List.mem_map, List.mem_filter, Prod.exists,
    Table.mem_rows_iff, decide_eq_true_eq]
  constructor
  · rintro ⟨id, stored, ⟨hstored, hitem⟩, rfl⟩
    exact ⟨stored, hstored, hitem, rfl⟩
  · rintro ⟨stored, hstored, hitem, hrow⟩
    exact ⟨image.id, stored, ⟨hstored, hitem⟩, by rw [hrow]⟩

lemma mem_orderedBannerImages : image ∈ s.orderedBannerImages item ↔
    image ∈ s.contentImages item ∧ image.row.imageUrl ≠ "" := by
  simp [State.orderedBannerImages]

/-- An automatic banner shows the item. -/
lemma contentId_of_preferred (h : s.preferredBannerOption texts item = some media) :
    media.contentId = item := by
  unfold State.preferredBannerOption at h
  split at h
  · cases h
    rfl
  · obtain ⟨imageUrl, -, rfl⟩ := Option.map_eq_some_iff.mp h
    rfl

lemma mem_favoriteRows : item ∈ State.favoriteRows order account ↔
    ∃ row, account.progress.tracking.get? item = some row ∧ row.status = .completed ∧
      row.isFavorite = true := by
  rw [State.favoriteRows, (order.perm _).mem_iff, Table.mem_keysWhere]
  simp

lemma nodup_favoriteRows : (State.favoriteRows order account).Nodup :=
  (order.perm _).nodup_iff.mpr
    (account.progress.tracking.nodup_keys.sublist (List.filter_sublist.map _))

lemma contentId_of_options (h : option ∈ s.bannerOptionsForContent texts item) :
    option.contentId = item := by
  simp only [State.bannerOptionsForContent, List.mem_map] at h
  obtain ⟨media, hmedia, rfl⟩ := h
  rcases List.mem_append.mp (List.mem_of_mem_take hmedia) with hmedia | hmedia
  · obtain ⟨preferred, hpreferred, rfl⟩ := Option.map_eq_some_iff.mp (Option.mem_toList.mp hmedia)
    have hitem := contentId_of_preferred hpreferred
    exact hitem
  · obtain ⟨image, -, rfl⟩ := List.mem_map.mp hmedia
    rfl

/-- The option without an image is the automatic banner. -/
lemma option_of_imageId_none (h : option ∈ s.bannerOptionsForContent texts item)
    (hnone : option.imageId = none) :
    (s.preferredBannerOption texts item).map (fun media => { media with imageId := none }) =
      some option.toBannerMedia := by
  simp only [State.bannerOptionsForContent, List.mem_map] at h
  obtain ⟨media, hmedia, rfl⟩ := h
  rcases List.mem_append.mp (List.mem_of_mem_take hmedia) with hmedia | hmedia
  · exact Option.mem_toList.mp hmedia
  · obtain ⟨image, -, rfl⟩ := List.mem_map.mp hmedia
    cases hnone

lemma exists_option_of_preferred (h : s.preferredBannerOption texts item = some media) :
    ∃ option ∈ s.bannerOptionsForContent texts item,
      option.toBannerMedia = { media with imageId := none } := by
  let summary := s.serializeContent texts item
  refine ⟨{ contentId := media.contentId, type := media.type, imageId := none
            imageUrl := media.imageUrl, treatment := media.treatment
            title := summary.title, authors := bannerOptionAuthors summary }, ?_, rfl⟩
  simp [State.bannerOptionsForContent, h, summary]

lemma mem_selectBannerOptions : option ∈ s.selectBannerOptions texts rows ↔
    option.contentId ∈ rows ∧ option ∈ s.bannerOptionsForContent texts option.contentId := by
  rw [State.selectBannerOptions, List.mem_flatMap]
  constructor
  · rintro ⟨item, hitem, hoption⟩
    rw [contentId_of_options hoption]
    exact ⟨mem_of_mem_keepFirst hitem, hoption⟩
  · rintro ⟨hitem, hoption⟩
    obtain ⟨item, hkept, heq⟩ := exists_mem_keepFirst hitem (List.not_mem_nil : id _ ∉ [])
    obtain rfl : item = option.contentId := heq
    exact ⟨_, hkept, hoption⟩

/-- The media to draw from are media of favorites that are listed. -/
lemma isFavorite_overview : (s.overview texts order account).isFavoriteBannerMedia media = true ↔
    media.contentId ∈ (listedFavorites s.contentType (State.favoriteRows order account)).flatMap
      (·.2) := by
  simp only [Overview.isFavoriteBannerMedia, State.overview, List.any_eq_true, List.mem_flatMap,
    List.mem_map, exists_exists_and_eq_and, decide_eq_true_eq]
  constructor
  · rintro ⟨_, ⟨entry, hentry, item, hitem, rfl⟩, rfl⟩
    exact ⟨entry, hentry, hitem⟩
  · rintro ⟨entry, hentry, hitem⟩
    exact ⟨_, ⟨entry, hentry, _, hitem, rfl⟩, rfl⟩

lemma isFavorite_of_mem_bannerMedia (h : media ∈ (s.overview texts order account).bannerMedia) :
    (s.overview texts order account).isFavoriteBannerMedia media = true := by
  obtain ⟨item, hitem, hpreferred⟩ := List.mem_filterMap.mp (List.mem_of_mem_take h)
  rw [isFavorite_overview, contentId_of_preferred hpreferred, mem_listedFavorites]
  exact mem_selectedRows nodup_favoriteRows hitem

/-- A listed favorite is a completed favorite of the user. -/
lemma isActiveFavorite_of_isFavorite
    (h : (s.overview texts order account).isFavoriteBannerMedia media = true) :
    ∃ row, account.progress.tracking.get? media.contentId = some row ∧ row.status = .completed ∧
      row.isFavorite = true := by
  rw [isFavorite_overview, mem_listedFavorites] at h
  exact mem_favoriteRows.mp (List.mem_filter.mp (List.mem_of_mem_take h)).1

end Server

/-! ### Drawing a banner -/

section Page

variable {o : Overview} {draw draw' : ℕ → ℕ} {media : BannerMedia} {page : BannerPage}

lemma isFavorite_of_mem_favoriteMedia (h : media ∈ o.favoriteMedia) :
    o.isFavoriteBannerMedia media = true := by
  obtain ⟨content, hcontent, hmedia⟩ := List.mem_filterMap.mp h
  obtain ⟨imageUrl, -, rfl⟩ := Option.map_eq_some_iff.mp hmedia
  exact List.any_eq_true.mpr ⟨content, hcontent, by simp⟩

lemma mem_candidates (h : media ∈ o.candidates) : media ∈ o.bannerMedia ∨ media ∈ o.favoriteMedia := by
  unfold Overview.candidates at h
  split_ifs at h
  · obtain ⟨key, hkey⟩ := OrderedMap.mem_values.mp h
    obtain ⟨other, hother, heq⟩ := List.mem_map.mp (OrderedMap.get?_ofList.mp hkey).mem
    cases heq
    exact .inr hother
  · exact .inl h

lemma candidates_eq_nil_iff : o.candidates = [] ↔ o.bannerMedia = [] ∧ o.favoriteMedia = [] := by
  unfold Overview.candidates
  split_ifs with hmedia
  · rw [← List.length_eq_zero_iff, OrderedMap.length_values_ofList, List.length_eq_zero_iff,
      List.dedup_eq_nil]
    simp [hmedia]
  · simp [hmedia]

/-- A banner is drawn exactly if there is one to draw from. -/
lemma pick_spec (hselected : o.getSelectedBannerMedia = none) :
    (o.pickRandomFavoriteBanner draw = none ↔ o.candidates = []) ∧
      ∀ media, o.pickRandomFavoriteBanner draw = some media → media ∈ o.candidates := by
  rw [Overview.pickRandomFavoriteBanner, hselected]
  refine ⟨?_, fun media hmedia => List.mem_of_getElem? hmedia⟩
  rw [List.getElem?_eq_none_iff, ← List.length_eq_zero_iff]
  omega

/-- What a page with an overview shows: the chosen banner, or else media of a listed favorite if there
are any. -/
structure Shows (o : Overview) (shown : Option BannerMedia) : Prop where
  selected : ∀ media, o.getSelectedBannerMedia = some media → shown = some media
  favorite : o.getSelectedBannerMedia = none → ∀ media, shown = some media →
    o.isFavoriteBannerMedia media = true
  absent : o.getSelectedBannerMedia = none → shown = none → o.bannerMedia = [] ∧ o.favoriteMedia = []

lemma shows_pick (hfavorites : ∀ media ∈ o.bannerMedia, o.isFavoriteBannerMedia media = true)
    (hselected : o.getSelectedBannerMedia = none) : Shows o (o.pickRandomFavoriteBanner draw) where
  selected media hmedia := by rw [hselected] at hmedia; cases hmedia
  favorite _ media hmedia := by
    rcases mem_candidates ((pick_spec hselected).2 media hmedia) with hmem | hmem
    · exact hfavorites media hmem
    · exact isFavorite_of_mem_favoriteMedia hmem
  absent _ hnone := candidates_eq_nil_iff.mp ((pick_spec hselected).1.mp hnone)

/-- Whatever the page has shown, it shows a banner of its overview afterwards. -/
theorem shows_update (hfavorites : ∀ media ∈ o.bannerMedia, o.isFavoriteBannerMedia media = true)
    (page : BannerPage) (draw : ℕ → ℕ) : Shows o (page.update draw o).bannerMedia := by
  unfold BannerPage.update
  cases hselected : o.getSelectedBannerMedia with
  | some selected =>
    refine ⟨fun media hmedia => ?_, fun hnone => ?_, fun _ hnone => ?_⟩
    · exact hselected.symm.trans hmedia
    · cases hselected.symm.trans hnone
    · cases hnone
  | none =>
    dsimp only
    split_ifs with hcleared hkept
    · exact shows_pick hfavorites hselected
    · obtain ⟨current, hcurrent, hfavorite⟩ := (Option.any_eq_true _ _).mp hkept
      rw [hcurrent]
      exact ⟨by simp [hselected], fun _ media hmedia => Option.some.inj hmedia ▸ hfavorite, by simp⟩
    · exact shows_pick hfavorites hselected

/-- An overview that comes again changes nothing, whatever is drawn. -/
theorem update_update (hfavorites : ∀ media ∈ o.bannerMedia, o.isFavoriteBannerMedia media = true)
    (page : BannerPage) (draw draw' : ℕ → ℕ) :
    ((page.update draw o).update draw' o).bannerMedia = (page.update draw o).bannerMedia := by
  have hshows := shows_update hfavorites page draw
  cases hselected : o.getSelectedBannerMedia with
  | some selected =>
    have hagain := shows_update hfavorites (page.update draw o) draw'
    rw [hshows.selected selected hselected, hagain.selected selected hselected]
  | none =>
    generalize hpage : page.update draw o = page' at hshows ⊢
    have hkey : page'.previousSelectionKey = o.bannerSelectionKey := by
      rw [← hpage]
      rfl
    have hcleared : (page'.previousSelectionKey.isSome && o.bannerSelectionKey.isNone) = false := by
      rw [hkey]
      cases o.bannerSelectionKey <;> rfl
    simp only [BannerPage.update, hselected, hcleared, Bool.false_eq_true, if_false]
    cases hshown : page'.bannerMedia with
    | some media =>
      rw [if_pos (by simpa using hshows.favorite hselected media hshown)]
    | none =>
      rw [if_neg (by simp), (pick_spec hselected).1, candidates_eq_nil_iff]
      exact hshows.absent hselected hshown

end Page

/-! ### The chosen banner -/

section Chosen

variable {s : State} {texts : ItemId → ContentText} {order : Scan ItemId} {account : Account}
  {item : ItemId} {imageId : ImageId} {ρ : Type}

/-- Stored images have addresses. -/
def HaveUrls (s : State) : Prop :=
  ∀ image stored, s.images.get? image = some stored → stored.row.imageUrl ≠ ""

lemma HaveUrls.createImages {rows : List Ingest.ImageRow} (h : HaveUrls s)
    (hrows : ∀ row ∈ rows, row.imageUrl ≠ "") :
    HaveUrls (rows.foldl (State.createImage item) s) := by
  induction rows generalizing s with
  | nil => exact h
  | cons row rows ih =>
    obtain ⟨hrow, hrest⟩ := List.forall_mem_cons.mp hrows
    refine ih (fun image stored hstored => ?_) hrest
    rcases Table.get?_set_cases hstored with ⟨-, rfl⟩ | hstored
    · exact hrow
    · exact h image stored hstored

lemma imageUrl_of_imageRows {entries : List Ingest.ImageEntry} {row : Ingest.ImageRow}
    (h : row ∈ Ingest.imageRows entries) : row.imageUrl ≠ "" := by
  obtain ⟨entry, -, hentry⟩ := List.mem_filterMap.mp h
  obtain ⟨url, hurl, rfl⟩ := Option.map_eq_some_iff.mp hentry
  exact of_decide_eq_true (Option.filter_eq_some_iff.mp hurl).2

lemma images_patch (fields : Fields ρ) (user : UserId) (body : EditBody ρ) :
    (patch fields user account body s).2.images = s.images := by
  unfold patch atomic
  split
  · unfold patchProfile
    dsimp only
    split
    · rfl
    · split <;> rfl
  · rfl

lemma HaveUrls.step (h : HaveUrls s) (fields : Fields ρ) (event : Step ρ) :
    HaveUrls (step fields s event) := by
  cases event with
  | register user =>
    simp only [Profile.step]
    split <;> exact h
  | edit user body =>
    simp only [Profile.step]
    split
    · rw [HaveUrls, images_patch]
      exact h
    · exact h
  | call now user call =>
    simp only [Profile.step]
    split <;> exact h
  | refresh item images =>
    simp only [Profile.step]
    split
    · rename_i entries
      refine .createImages (fun image stored hstored => h image stored ?_) fun row hrow =>
        imageUrl_of_imageRows hrow
      rw [State.deleteImages, Table.get?_deleteWhere] at hstored
      exact (Option.filter_eq_some_iff.mp hstored).1
    · exact h

lemma haveUrls_run (fields : Fields ρ) (contentType : ItemId → ContentType) (steps : List (Step ρ)) :
    HaveUrls (run fields (initial contentType) steps) := by
  have hrun : ∀ s, HaveUrls s → HaveUrls (run fields s steps) := by
    induction steps with
    | nil => exact fun _ h => h
    | cons event steps ih => exact fun s h => ih _ (h.step fields event)
  exact hrun _ fun _ _ h => nomatch h

/-- A chosen image is the one that is served and found. -/
lemma getSelected_of_image (hprofile : account.progress.profile = some ⟨some item, some imageId⟩)
    (hfavorite : item ∈ State.favoriteRows order account) {stored : StoredImage}
    (hstored : s.images.get? imageId = some stored) (hitem : stored.item = item)
    (hurl : stored.row.imageUrl ≠ "") :
    (s.overview texts order account).getSelectedBannerMedia =
      some (s.imageMedia item ⟨imageId, stored.row⟩) := by
  have hserved : (s.overview texts order account).selectedBanner =
      some (s.imageMedia item ⟨imageId, stored.row⟩) := by
    have hfind : (s.contentImages item).find?
        (fun image => image.id = imageId && image.row.imageUrl ≠ "") = some ⟨imageId, stored.row⟩ := by
      have hmem : (⟨imageId, stored.row⟩ : BannerImage) ∈ s.contentImages item :=
        mem_contentImages.mpr ⟨stored, hstored, hitem, rfl⟩
      cases hfound : (s.contentImages item).find?
          (fun image => image.id = imageId && image.row.imageUrl ≠ "") with
      | none => simpa [hurl] using List.find?_eq_none.mp hfound _ hmem
      | some image =>
        have hid : image.id = imageId := by
          have hsome := List.find?_some hfound
          simp only [Bool.and_eq_true, decide_eq_true_eq] at hsome
          exact hsome.1
        obtain ⟨stored', hstored', -, hrow⟩ := mem_contentImages.mp (List.mem_of_find?_eq_some hfound)
        rw [hid, hstored] at hstored'
        cases hstored'
        obtain ⟨id, row⟩ := image
        simp only at hid hrow
        rw [hid, hrow]
    have hcontains : (State.favoriteRows order account).contains item = true :=
      List.contains_iff_mem.mpr hfavorite
    simp only [State.overview, State.selectedBannerMedia, hprofile, Option.getD_some, hcontains,
      Bool.not_true, Bool.false_eq_true, if_false, hfind, Option.map_some]
  have hchosen : (s.overview texts order account).profile = ⟨some item, some imageId⟩ := by
    simp [State.overview, hprofile]
  simp [Overview.getSelectedBannerMedia, hserved, hchosen, State.imageMedia]

/-- An automatic banner is found among the options. -/
lemma getSelected_of_content (hprofile : account.progress.profile = some ⟨some item, none⟩)
    (hfavorite : item ∈ State.favoriteRows order account) :
    (s.overview texts order account).getSelectedBannerMedia =
      (s.preferredBannerOption texts item).map fun media => { media with imageId := none } := by
  have hchosen : (s.overview texts order account).profile = ⟨some item, none⟩ := by
    simp [State.overview, hprofile]
  have hserved : (s.overview texts order account).selectedBanner =
      s.preferredBannerOption texts item := by
    simp [State.overview, State.selectedBannerMedia, hprofile, hfavorite]
  simp only [Overview.getSelectedBannerMedia, hchosen, hserved]
  split_ifs with hany
  · obtain ⟨media, hmedia, hsome⟩ := (Option.any_eq_true _ _).mp hany
    simp only [Bool.and_eq_true, decide_eq_true_eq] at hsome
    obtain ⟨contentId, type, image, imageUrl, treatment⟩ := media
    obtain rfl : image = none := hsome.2
    rw [hmedia]
    rfl
  · -- the served banner has the id of an image, or there is none
    cases hfound : (s.overview texts order account).bannerOptions.find? (fun option =>
        option.contentId = item && option.imageId = none) with
    | none =>
      cases hpreferred : s.preferredBannerOption texts item with
      | none => rfl
      | some media =>
        obtain ⟨option, hoption, heq⟩ := exists_option_of_preferred hpreferred
        have hmem : option ∈ (s.overview texts order account).bannerOptions :=
          mem_selectBannerOptions.mpr ⟨contentId_of_options hoption ▸ hfavorite,
            contentId_of_options hoption ▸ hoption⟩
        have hnone : option.imageId = none := congrArg BannerMedia.imageId heq
        simpa [contentId_of_options hoption, hnone] using List.find?_eq_none.mp hfound option hmem
    | some option =>
      have hsome := List.find?_some hfound
      simp only [Bool.and_eq_true, decide_eq_true_eq] at hsome
      have hmem := (mem_selectBannerOptions.mp (List.mem_of_find?_eq_some hfound)).2
      rw [hsome.1] at hmem
      rw [option_of_imageId_none hmem hsome.2]
      rfl

lemma getSelected_of_none (hprofile : (account.progress.profile.getD {}).bannerContentItem = none) :
    (s.overview texts order account).getSelectedBannerMedia = none := by
  simp [Overview.getSelectedBannerMedia, State.overview, hprofile]

end Chosen

/-- The banner that a user has chosen, as the page is to show it. -/
def chosenBanner (s : State) (texts : ItemId → ContentText) (banner : BannerSelection) :
    Option BannerMedia :=
  banner.bannerContentItem.bind fun item =>
    match banner.bannerImage with
    | some imageId => (s.images.get? imageId).map fun stored =>
        s.imageMedia item ⟨imageId, stored.row⟩
    | none => (s.preferredBannerOption texts item).map fun media => { media with imageId := none }

lemma contentId_of_chosen {s : State} {texts : ItemId → ContentText} {banner : BannerSelection}
    {media : BannerMedia} (h : chosenBanner s texts banner = some media) :
    banner.bannerContentItem = some media.contentId := by
  obtain ⟨item, hitem, hmedia⟩ := Option.bind_eq_some_iff.mp h
  rw [hitem]
  split at hmedia
  · obtain ⟨stored, -, rfl⟩ := Option.map_eq_some_iff.mp hmedia
    rfl
  · obtain ⟨preferred, hpreferred, rfl⟩ := Option.map_eq_some_iff.mp hmedia
    exact congrArg some (contentId_of_preferred hpreferred).symm

/-- In every state that is reached, and whatever the page has shown before: the page shows the banner
that the user has chosen, with its image if one is chosen; without a choice, or if the chosen favorite
has no image, it shows media of a completed favorite of the user, and none only if the overview has
none; and the same overview again changes nothing, whatever is drawn. -/
theorem page_shows_banner {ρ : Type} (fields : Fields ρ) (contentType : ItemId → ContentType)
    (steps : List (Step ρ)) (texts : ItemId → ContentText) (order : Scan ItemId) {user : UserId}
    {account : Account}
    (haccount : (run fields (initial contentType) steps).users.get? user = some account)
    (page : BannerPage) (draw draw' : ℕ → ℕ) :
    let s := run fields (initial contentType) steps
    let o := s.overview texts order account
    let banner := account.progress.profile.getD {}
    let shown := (page.update draw o).bannerMedia
    o.getSelectedBannerMedia = chosenBanner s texts banner ∧
    (banner.bannerImage.isSome → (chosenBanner s texts banner).isSome) ∧
    (∀ media, chosenBanner s texts banner = some media → shown = some media) ∧
    (∀ media, shown = some media → ∃ row,
      account.progress.tracking.get? media.contentId = some row ∧ row.status = .completed ∧
        row.isFavorite = true) ∧
    (shown = none → o.bannerMedia = [] ∧ o.favoriteMedia = []) ∧
    ((page.update draw o).update draw' o).bannerMedia = shown := by
  intro s o banner shown
  have hinvariant : BannerInvariant s.catalog.imageItem account.progress.tracking
      account.progress.profile := (banner_invariant fields contentType steps).1 user account haccount
  have hfavorites : ∀ media ∈ o.bannerMedia, o.isFavoriteBannerMedia media = true :=
    fun media hmedia => isFavorite_of_mem_bannerMedia hmedia
  have hshows : Shows o shown := shows_update hfavorites page draw
  have hprofile : ∀ item, banner.bannerContentItem = some item →
      account.progress.profile = some banner := by
    intro item hitem
    cases hprofile : account.progress.profile with
    | none => simp [banner, hprofile] at hitem
    | some selection => simp [banner, hprofile]
  have hfavorite : ∀ item, banner.bannerContentItem = some item →
      item ∈ State.favoriteRows order account := fun item hitem =>
    mem_favoriteRows.mpr (hinvariant.favorite banner item (hprofile item hitem) hitem)
  have hstored : ∀ imageId, banner.bannerImage = some imageId →
      ∃ item stored, banner = ⟨some item, some imageId⟩ ∧
        s.images.get? imageId = some stored ∧ stored.item = item := by
    intro imageId himage
    cases hsome : account.progress.profile with
    | none => simp [banner, hsome] at himage
    | some selection =>
      obtain rfl : selection = banner := by simp [banner, hsome]
      obtain ⟨item, hitem, hcatalog⟩ := hinvariant.image _ imageId hsome himage
      obtain ⟨stored, hget, hstored⟩ := Option.map_eq_some_iff.mp hcatalog
      exact ⟨item, stored, by rw [← hitem, ← himage], hget, hstored⟩
  have hselected : o.getSelectedBannerMedia = chosenBanner s texts banner := by
    cases himage : banner.bannerImage with
    | some imageId =>
      obtain ⟨item, stored, hbanner, hget, hitem⟩ := hstored imageId himage
      have hcontent : banner.bannerContentItem = some item := by rw [hbanner]
      have hurl := haveUrls_run fields contentType steps imageId stored hget
      have hchosen : o.getSelectedBannerMedia = some (s.imageMedia item ⟨imageId, stored.row⟩) :=
        getSelected_of_image (hbanner ▸ hprofile item hcontent) (hfavorite item hcontent) hget hitem
          hurl
      rw [hchosen, chosenBanner, hcontent, himage]
      simp [hget]
    | none =>
      cases hcontent : banner.bannerContentItem with
      | none =>
        rw [chosenBanner, hcontent]
        exact getSelected_of_none hcontent
      | some item =>
        have hbanner : banner = ⟨some item, none⟩ := by rw [← hcontent, ← himage]
        have hchosen : o.getSelectedBannerMedia =
            (s.preferredBannerOption texts item).map fun media => { media with imageId := none } :=
          getSelected_of_content (hbanner ▸ hprofile item hcontent) (hfavorite item hcontent)
        rw [hchosen, chosenBanner, hcontent, himage]
        rfl
  refine ⟨hselected, fun himage => ?_, fun media hmedia => hshows.selected media
    (hselected.trans hmedia), fun media hmedia => ?_, fun hnone => ?_,
    update_update hfavorites page draw draw'⟩
  · obtain ⟨imageId, himage⟩ := Option.isSome_iff_exists.mp himage
    obtain ⟨item, stored, hbanner, hget, -⟩ := hstored imageId himage
    simp [chosenBanner, hbanner, hget]
  · cases hchosen : o.getSelectedBannerMedia with
    | none => exact isActiveFavorite_of_isFavorite (hshows.favorite hchosen media hmedia)
    | some chosen =>
      obtain rfl : chosen = media :=
        Option.some.inj ((hshows.selected chosen hchosen).symm.trans hmedia)
      exact mem_favoriteRows.mp (hfavorite _ (contentId_of_chosen (hselected ▸ hchosen)))
  · cases hchosen : o.getSelectedBannerMedia with
    | none => exact hshows.absent hchosen hnone
    | some chosen =>
      rw [hshows.selected chosen hchosen] at hnone
      cases hnone

/-- The chosen poster is shown. -/
theorem page_shows_chosen_poster : ∃ account, chosenState.users.get? 3 = some account ∧
    ∀ page draw, (BannerPage.update page draw
        (chosenState.overview (fun _ => {}) .forward account)).bannerMedia =
      some ⟨7, .movie, some 1, "https://image.tmdb.org/t/p/p.jpg", .containedPoster⟩ := by
  have hchosen : (chosenState.users.get? 3).map (fun account =>
      chosenBanner chosenState (fun _ => {}) (account.progress.profile.getD {})) =
        some (some ⟨7, .movie, some 1, "https://image.tmdb.org/t/p/p.jpg", .containedPoster⟩) := by
    decide +kernel
  obtain ⟨account, haccount, hmedia⟩ := Option.map_eq_some_iff.mp hchosen
  exact ⟨account, haccount, fun page draw =>
    (page_shows_banner plainFields (fun _ => .movie) choiceSteps (fun _ => {}) .forward haccount page
      draw draw).2.2.1 _ hmedia⟩

end Denn.Profile
