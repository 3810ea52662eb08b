import Denn.Progress.DynamicCollections

/-!
# The tracking service

The service calls on one user's progress. Every call is one transaction behind the user's lock:
it returns the new rows, or an error, and then the transaction is rolled back. One clock reading
`now` is taken per call.
-/

namespace Denn

open Core

def favoriteLimitPerType : ℕ := 5

/-- What a transition or deletion destroys besides the tracking row itself. -/
inductive Effect where
  | ratingArchived
  | reviewArchived
  | favoriteRemoved
  deriving DecidableEq, Repr

inductive APIError where
  | trackingStatusUnsupported (contentType : ContentType) (status : TrackingStatus)
  | trackingEffectsRequireConfirmation (effects : List Effect) (currentStatus : TrackingStatus)
      (requestedStatus : Option TrackingStatus)
  | trackingNotCompleted
  | favoriteLimitReached (contentType : ContentType) (limit : ℕ)
  | bannerImageWithoutFavorite
  | bannerNotAFavorite
  | bannerImageOfAnotherItem
  deriving DecidableEq, Repr

structure TrackingTransition where
  tracking : Tracking
  shouldPromptRating : Bool
  effects : List Effect := []
  deriving DecidableEq, Repr

/-- The effect that archiving an active rating has. -/
def archiveEffect (rating : Rating) : Effect :=
  if rating.isReview then .reviewArchived else .ratingArchived

/-- Clear the banner if it shows the item. -/
def clearBannerSelection (item : ItemId) (profile : Option BannerSelection) :
    Option BannerSelection :=
  profile.map fun banner =>
    if banner.bannerContentItem = some item then ⟨none, none⟩ else banner

def Rating.archive (rating : Rating) : Rating := { rating with isActive := false }

/-- Back to active; a spoiler mark survives only on a review. -/
def Rating.reactivate (rating : Rating) : Rating :=
  { rating with isActive := true, spoiler := rating.isReview && rating.spoiler }

def Tracking.clearFavorite (tracking : Tracking) : Tracking :=
  { tracking with isFavorite := false, favoritedAt := none }

variable (catalog : Catalog) (now : Time)

def ensureTracking (item : ItemId) (status : TrackingStatus) (s : UserProgress) :
    Except APIError (Tracking × UserProgress) :=
  if isStatusSupported (catalog.contentType item) status then
    match s.tracking.get? item with
    | some tracking => .ok (tracking, syncDynamicCollections catalog s)
    | none =>
      let tracking : Tracking := { status }
      .ok (tracking, syncDynamicCollections catalog
        { s with tracking := s.tracking.set item tracking })
  else .error (.trackingStatusUnsupported (catalog.contentType item) status)

/-- The row that `get_or_create` makes when a transition finds none. -/
def newTracking (status : TrackingStatus) : Tracking where
  status
  lastCompletedAt := if status = .completed then some now else none

/-- The effects of leaving `completed`, in the order in which they are reported. -/
def transitionEffects (existing : Option Tracking) (status : TrackingStatus)
    (rating : Option Rating) : List Effect :=
  match existing with
  | none => []
  | some tracking =>
    if tracking.status = .completed ∧ status ≠ .completed then
      ((rating.filter (·.isActive)).map archiveEffect).toList
        ++ (if tracking.isFavorite then [.favoriteRemoved] else [])
    else []

/-- The tracking row with its new status, stamped when it becomes completed again. -/
def transitionStatus (existing : Option Tracking) (status : TrackingStatus) : Tracking :=
  let previous := existing.getD (newTracking now status)
  if status = .completed ∧ existing.isSome ∧ previous.status ≠ .completed then
    { previous with status, lastCompletedAt := some now }
  else { previous with status }

/-- The rows after the branches of a transition: tracking, rating, banner, and whether the user
    should be prompted for a rating. -/
def transitionRows (item : ItemId) (existing : Option Tracking) (status : TrackingStatus)
    (rating : Option Rating) (profile : Option BannerSelection) :
    Tracking × Option Rating × Option BannerSelection × Bool :=
  let tracking := transitionStatus now existing status
  if status = .completed then
    match rating with
    | none => (tracking, none, profile, true)
    | some rating =>
      if rating.isActive then (tracking, some rating, profile, false)
      else (tracking, some rating.reactivate, profile, false)
  else if rating.any (·.isActive) then
    if tracking.isFavorite then
      (tracking.clearFavorite, rating.map Rating.archive, clearBannerSelection item profile, false)
    else (tracking, rating.map Rating.archive, profile, false)
  else if tracking.isFavorite then
    (tracking.clearFavorite, rating, clearBannerSelection item profile, false)
  else (tracking, rating, profile, false)

/-- Store the rating row a call ends with; a call never deletes the rating it read. -/
def storeRating (item : ItemId) (rating : Option Rating) (ratings : Table ItemId Rating) :
    Table ItemId Rating :=
  match rating with
  | some rating => ratings.set item rating
  | none => ratings

def transitionTracking (item : ItemId) (status : TrackingStatus) (acknowledgeEffects : Bool)
    (s : UserProgress) : Except APIError (TrackingTransition × UserProgress) :=
  if isStatusSupported (catalog.contentType item) status then
    let existing := s.tracking.get? item
    let effects := transitionEffects existing status (s.ratings.get? item)
    if effects ≠ [] ∧ !acknowledgeEffects then
      .error (.trackingEffectsRequireConfirmation effects
        (existing.getD (newTracking now status)).status (some status))
    else
      let (tracking, rating, profile, prompt) :=
        transitionRows now item existing status (s.ratings.get? item) s.profile
      .ok ({ tracking, shouldPromptRating := prompt, effects },
        syncDynamicCollections catalog
          { s with
            tracking := s.tracking.set item tracking
            ratings := storeRating item rating s.ratings
            profile })
  else .error (.trackingStatusUnsupported (catalog.contentType item) status)

/-- What a successful transition acknowledged and wrote. -/
lemma transitionTracking_ok {catalog : Catalog} {now : Time} {item : ItemId}
    {status : TrackingStatus} {acknowledgeEffects : Bool} {s s' : UserProgress}
    {transition : TrackingTransition}
    (h : transitionTracking catalog now item status acknowledgeEffects s = .ok (transition, s')) :
    (transitionEffects (s.tracking.get? item) status (s.ratings.get? item) = []
      ∨ acknowledgeEffects = true) ∧
    s' = syncDynamicCollections catalog
      (let rows := transitionRows now item (s.tracking.get? item) status (s.ratings.get? item)
        s.profile
      { s with
        tracking := s.tracking.set item rows.1
        ratings := storeRating item rows.2.1 s.ratings
        profile := rows.2.2.1 }) := by
  simp only [transitionTracking] at h
  split_ifs at h with hsupported hconfirm
  simp only [Except.ok.injEq, Prod.mk.injEq] at h
  refine ⟨?_, h.2.symm⟩
  by_contra hnot
  rw [not_or] at hnot
  exact hconfirm ⟨hnot.1, by simpa using hnot.2⟩

/-- The rating row that a save leaves; a spoiler mark needs a comment. -/
def savedRating (score : ℚ) (comment : Option String) (spoiler : Bool) : Rating :=
  let normalizedComment := strip (comment.getD "")
  { score, comment := some normalizedComment,
    spoiler := normalizedComment ≠ "" && spoiler, isActive := true }

def saveRating (item : ItemId) (score : ℚ) (comment : Option String) (spoiler : Bool)
    (s : UserProgress) : Rating × UserProgress :=
  let tracking : Tracking :=
    match s.tracking.get? item with
    | none => { status := .completed, lastCompletedAt := some now }
    | some tracking =>
      if tracking.status = .completed then tracking
      else { tracking with status := .completed, lastCompletedAt := some now }
  let rating := savedRating score comment spoiler
  (rating, syncDynamicCollections catalog
    { s with
      tracking := s.tracking.set item tracking
      ratings := s.ratings.set item rating })

/-- The favorites of one content type. -/
def favoriteCount (contentType : ContentType) (tracking : Table ItemId Tracking) : ℕ :=
  tracking.count fun item row => row.isFavorite && catalog.contentType item = contentType

def setFavorite (item : ItemId) (isFavorite : Bool) (s : UserProgress) :
    Except APIError (Tracking × UserProgress) :=
  match s.tracking.get? item with
  | none => .error .trackingNotCompleted
  | some tracking =>
    if isFavorite ∧ tracking.status ≠ .completed then .error .trackingNotCompleted
    else if isFavorite ∧ !tracking.isFavorite
        ∧ favoriteLimitPerType
          ≤ favoriteCount catalog (catalog.contentType item) (s.tracking.delete item) then
      .error (.favoriteLimitReached (catalog.contentType item) favoriteLimitPerType)
    else
      let tracking :=
        { tracking with isFavorite, favoritedAt := if isFavorite then some now else none }
      .ok (tracking,
        { s with
          tracking := s.tracking.set item tracking
          profile := if isFavorite then s.profile else clearBannerSelection item s.profile })

/-- What a successful call found and wrote. -/
lemma setFavorite_ok {catalog : Catalog} {now : Time} {item : ItemId} {isFavorite : Bool}
    {s s' : UserProgress} {row : Tracking}
    (h : setFavorite catalog now item isFavorite s = .ok (row, s')) :
    ∃ old, s.tracking.get? item = some old ∧
      (isFavorite = true → old.status = .completed) ∧
      (isFavorite = true → old.isFavorite = false →
        favoriteCount catalog (catalog.contentType item) (s.tracking.delete item)
          < favoriteLimitPerType) ∧
      row = { old with isFavorite, favoritedAt := if isFavorite then some now else none } ∧
      s' = { s with
        tracking := s.tracking.set item row
        profile := if isFavorite then s.profile else clearBannerSelection item s.profile } := by
  unfold setFavorite at h
  cases hrow : s.tracking.get? item with
  | none => simp [hrow] at h
  | some old =>
    simp only [hrow] at h
    by_cases hstatus : isFavorite = true ∧ old.status ≠ .completed
    · simp [hstatus] at h
    · rw [if_neg hstatus] at h
      split_ifs at h with hlimit
      all_goals
        simp only [Except.ok.injEq, Prod.mk.injEq] at h
        obtain ⟨rfl, rfl⟩ := h
        refine ⟨old, rfl, fun hset => ?_, fun hset hold => ?_, by simp_all, by simp_all⟩
        · by_contra hne
          exact hstatus ⟨hset, hne⟩
        · by_contra hge
          exact hlimit ⟨hset, by simp [hold], not_lt.mp hge⟩

/-- The effects of deleting a tracking row; only an active rating is looked up. -/
def deleteEffects (tracking : Tracking) (rating : Option Rating) : List Effect :=
  (rating.map archiveEffect).toList ++ (if tracking.isFavorite then [.favoriteRemoved] else [])

def deleteTracking (item : ItemId) (acknowledgeEffects : Bool) (s : UserProgress) :
    Except APIError (Bool × UserProgress) :=
  match s.tracking.get? item with
  | none => .ok (false, s)
  | some tracking =>
    let rating := (s.ratings.get? item).filter (·.isActive)
    let effects := deleteEffects tracking rating
    if effects ≠ [] ∧ !acknowledgeEffects then
      .error (.trackingEffectsRequireConfirmation effects tracking.status none)
    else
      .ok (true, syncDynamicCollections catalog
        { s with
          tracking := s.tracking.delete item
          ratings := storeRating item (rating.map Rating.archive) s.ratings
          profile :=
            if tracking.isFavorite then clearBannerSelection item s.profile else s.profile })

/-- A successful call found no row, or it deleted the row and archived the active rating. -/
lemma deleteTracking_ok {catalog : Catalog} {item : ItemId} {acknowledgeEffects deleted : Bool}
    {s s' : UserProgress}
    (h : deleteTracking catalog item acknowledgeEffects s = .ok (deleted, s')) :
    (s.tracking.get? item = none ∧ s' = s) ∨
    ∃ row, s.tracking.get? item = some row ∧
      (deleteEffects row ((s.ratings.get? item).filter (·.isActive)) = []
        ∨ acknowledgeEffects = true) ∧
      s' = syncDynamicCollections catalog
        { s with
          tracking := s.tracking.delete item
          ratings := storeRating item
            (((s.ratings.get? item).filter (·.isActive)).map Rating.archive) s.ratings
          profile :=
            if row.isFavorite then clearBannerSelection item s.profile else s.profile } := by
  unfold deleteTracking at h
  cases hrow : s.tracking.get? item with
  | none =>
    simp only [hrow, Except.ok.injEq, Prod.mk.injEq] at h
    exact .inl ⟨rfl, h.2.symm⟩
  | some row =>
    simp only [hrow] at h
    by_cases hconfirm : deleteEffects row ((s.ratings.get? item).filter (·.isActive)) ≠ []
        ∧ (!acknowledgeEffects) = true
    · simp [hconfirm] at h
    · rw [if_neg hconfirm, Except.ok.injEq, Prod.mk.injEq] at h
      refine .inr ⟨row, rfl, ?_, h.2.symm⟩
      by_contra hnot
      rw [not_or] at hnot
      exact hconfirm ⟨hnot.1, by simpa using hnot.2⟩

/-- Deleting a rating row, as the ratings endpoint does for its owner. -/
def deleteRating (item : ItemId) (s : UserProgress) : UserProgress :=
  { s with ratings := s.ratings.delete item }

/-- The banner part of a profile edit. The outer option of an argument says whether the request
    carries the attribute. -/
def updateBanner (content : Option (Option ItemId)) (image : Option (Option ImageId))
    (s : UserProgress) : Except APIError UserProgress :=
  let banner := s.profile.getD {}
  let contentWasCleared := content = some none
  let imageId := image.getD (if contentWasCleared then none else banner.bannerImage)
  match content.getD banner.bannerContentItem with
  | none =>
    if imageId.isSome ∧ ¬contentWasCleared then .error .bannerImageWithoutFavorite
    else .ok { s with profile := some ⟨none, none⟩ }
  | some item =>
    if !(s.tracking.get? item).any fun row => row.status = .completed && row.isFavorite then
      .error .bannerNotAFavorite
    else match imageId with
    | some imageId =>
      if catalog.imageItem imageId = some item then
        .ok { s with profile := some ⟨some item, some imageId⟩ }
      else .error .bannerImageOfAnotherItem
    | none => .ok { s with profile := some ⟨some item, none⟩ }

/-! ### Sequences of calls -/

inductive ProgressCall where
  | ensureTracking (item : ItemId)
  | transitionTracking (item : ItemId) (status : TrackingStatus) (acknowledgeEffects : Bool)
  | saveRating (item : ItemId) (score : ℚ) (comment : Option String) (spoiler : Bool)
  | setFavorite (item : ItemId) (isFavorite : Bool)
  | deleteTracking (item : ItemId) (acknowledgeEffects : Bool)
  | deleteRating (item : ItemId)
  | updateBanner (content : Option (Option ItemId)) (image : Option (Option ImageId))

/-- The rows a successful call leaves, or its error. -/
def ProgressCall.result (s : UserProgress) : ProgressCall → Except APIError UserProgress
  | .ensureTracking item => (Denn.ensureTracking catalog item .backlog s).map Prod.snd
  | .transitionTracking item status acknowledge =>
    (Denn.transitionTracking catalog now item status acknowledge s).map Prod.snd
  | .saveRating item score comment spoiler =>
    .ok (Denn.saveRating catalog now item score comment spoiler s).2
  | .setFavorite item isFavorite => (Denn.setFavorite catalog now item isFavorite s).map Prod.snd
  | .deleteTracking item acknowledge =>
    (Denn.deleteTracking catalog item acknowledge s).map Prod.snd
  | .deleteRating item => .ok (Denn.deleteRating item s)
  | .updateBanner content image => Denn.updateBanner catalog content image s

/-- One atomic call: an error rolls its transaction back. -/
def ProgressCall.run (s : UserProgress) (call : ProgressCall) : UserProgress :=
  match call.result catalog now s with
  | .ok s' => s'
  | .error _ => s

/-- The rows after a sequence of calls, each at its own time. -/
def runCalls (calls : List (Time × ProgressCall)) (s : UserProgress) : UserProgress :=
  calls.foldl (fun s call => call.2.run catalog call.1 s) s

end Denn
