import Denn.Ingest.Mappers
import Denn.Progress.Tracking

/-!
# Profile banners

A user may choose a favorite, and one of its images, as the banner of the public profile. The choice is
checked when the profile is edited, cleared by the calls that end a favorite, and set to null by the
database when a refresh of the content replaces the images.
-/

namespace Denn.Profile

open Core

/-! ### Rows -/

/-- A `content_image` row. -/
structure StoredImage where
  item : ItemId
  row : Ingest.ImageRow
  deriving DecidableEq

/-- The rows of one user; the other columns of the profile row, if there is one. -/
structure Account where
  progress : UserProgress
  bio : String := ""
  avatarUrl : String := ""

/-- `nextImage` is the primary key the next image will get. -/
structure State where
  contentType : ItemId → ContentType
  users : Table UserId Account
  images : Table ImageId StoredImage
  nextImage : ImageId

def State.catalog (s : State) : Catalog where
  contentType := s.contentType
  imageItem image := (s.images.get? image).map (·.item)

/-! ### The edit serializer -/

/-- An error of a field. -/
structure FieldError where
  field : String
  message : String
  deriving DecidableEq

/-- The fields that a request carries, as they come. -/
structure EditBody (ρ : Type) where
  bio : Option ρ := none
  avatarUrl : Option ρ := none
  bannerContentId : Option ρ := none
  bannerImageId : Option ρ := none

/-- The fields of the framework: what they read, or their message. -/
structure Fields (ρ : Type) where
  charField : ρ → Except String String
  urlField : ρ → Except String String
  integerField : ρ → Except String (Option ℤ)

/-- The attributes that are validated, under the names of the columns. -/
structure Attrs where
  bio : Option String := none
  avatarUrl : Option String := none
  bannerContentItemId : Option (Option ℤ) := none
  bannerImageId : Option (Option ℤ) := none

/-- `max_length`. -/
def checkLength (limit : ℕ) (text : String) : Except String String :=
  if text.length ≤ limit then .ok text
  else .error ("Ensure this field has no more than " ++ toString limit ++ " characters.")

section Fields

variable {ρ α : Type}

/-- A field that is not required. -/
def readField (name : String) (read : ρ → Except String α) (raw : Option ρ) :
    Except FieldError (Option α) :=
  match raw with
  | none => .ok none
  | some value =>
    match read value with
    | .ok attr => .ok (some attr)
    | .error message => .error ⟨name, message⟩

/-- The error of a field, if it has one. -/
def fieldErrors (field : Except FieldError (Option α)) : List FieldError :=
  match field with
  | .ok _ => []
  | .error e => [e]

/-- All fields are read before the errors are reported. -/
def readAttrs (fields : Fields ρ) (body : EditBody ρ) : Except (List FieldError) Attrs :=
  let bio := readField "bio" (fun raw => (fields.charField raw).bind (checkLength 280)) body.bio
  let avatarUrl :=
    readField "avatar_url" (fun raw => (fields.urlField raw).bind (checkLength 2048)) body.avatarUrl
  let content := readField "banner_content_id" fields.integerField body.bannerContentId
  let image := readField "banner_image_id" fields.integerField body.bannerImageId
  match bio, avatarUrl, content, image with
  | .ok bio, .ok avatarUrl, .ok content, .ok image => .ok ⟨bio, avatarUrl, content, image⟩
  | _, _, _, _ =>
    .error (fieldErrors bio ++ fieldErrors avatarUrl ++ fieldErrors content ++ fieldErrors image)

end Fields

/-- The primary key that a number of a request is. -/
def rowKey : ℤ → Option ℕ
  | .ofNat key => some key
  | .negSucc _ => none

/-- The item is a completed favorite. -/
def isActiveFavorite (tracking : Table ItemId Tracking) (contentId : ℤ) : Bool :=
  ((rowKey contentId).bind tracking.get?).any fun row => row.status = .completed && row.isFavorite

def imageExists (imageItem : ImageId → Option ItemId) (imageId contentId : ℤ) : Bool :=
  (rowKey imageId).bind imageItem = rowKey contentId && (rowKey contentId).isSome

/-- `UserPublicProfileEditSerializer.validate`. -/
def validate (tracking : Table ItemId Tracking) (imageItem : ImageId → Option ItemId)
    (banner : BannerSelection) (attrs : Attrs) : Except FieldError Attrs :=
  let contentWasCleared := attrs.bannerContentItemId = some none
  let contentId := attrs.bannerContentItemId.getD (banner.bannerContentItem.map Int.ofNat)
  let imageId := attrs.bannerImageId.getD
    (if contentWasCleared then none else banner.bannerImage.map Int.ofNat)
  match contentId with
  | none =>
    if imageId.isSome ∧ ¬contentWasCleared then
      .error ⟨"banner_image_id", "Choose a favorite before choosing a banner image."⟩
    else .ok { attrs with bannerImageId := some none }
  | some contentId =>
    if !isActiveFavorite tracking contentId then
      .error ⟨"banner_content_id", "Choose one of your active favorites."⟩
    else
      match imageId with
      | some imageId =>
        if imageExists imageItem imageId contentId then .ok attrs
        else .error ⟨"banner_image_id", "Choose an image from that favorite."⟩
      | none =>
        if attrs.bannerContentItemId.isSome then .ok { attrs with bannerImageId := some none }
        else .ok attrs

/-- The columns that `save` writes. -/
def Attrs.apply (attrs : Attrs) (account : Account) (banner : BannerSelection) : Account where
  bio := attrs.bio.getD account.bio
  avatarUrl := attrs.avatarUrl.getD account.avatarUrl
  progress :=
    { account.progress with
      profile := some
        { bannerContentItem :=
            (attrs.bannerContentItemId.map (·.bind rowKey)).getD banner.bannerContentItem
          bannerImage := (attrs.bannerImageId.map (·.bind rowKey)).getD banner.bannerImage } }

/-! ### The view -/

/-- A transaction is rolled back when it ends with an error. -/
def atomic {ε σ : Type} (transaction : σ → Except ε Unit × σ) (s : σ) : Except ε Unit × σ :=
  match (transaction s).1 with
  | .ok _ => transaction s
  | .error e => (.error e, s)

def Account.setProfile (account : Account) (banner : BannerSelection) : Account :=
  { account with progress := { account.progress with profile := some banner } }

def State.setAccount (s : State) (user : UserId) (account : Account) : State :=
  { s with users := s.users.set user account }

/-- The body of `patch`: the row is created before the request is read. -/
def patchProfile {ρ : Type} (fields : Fields ρ) (user : UserId) (account : Account)
    (body : EditBody ρ) (s : State) : Except (List FieldError) Unit × State :=
  let banner := account.progress.profile.getD {}
  let created := s.setAccount user (account.setProfile banner)
  match readAttrs fields body with
  | .error errors => (.error errors, created)
  | .ok attrs =>
    match validate account.progress.tracking s.catalog.imageItem banner attrs with
    | .error e => (.error [e], created)
    | .ok attrs => (.ok (), created.setAccount user (attrs.apply account banner))

/-- `patch`. -/
def patch {ρ : Type} (fields : Fields ρ) (user : UserId) (account : Account) (body : EditBody ρ) :
    State → Except (List FieldError) Unit × State :=
  atomic (patchProfile fields user account body)

/-! ### Images -/

/-- `on_delete=SET_NULL` of the image that a profile refers to. -/
def clearDeletedImage (images : Table ImageId StoredImage) (item : ItemId) (account : Account) :
    Account :=
  let deleted (image : ImageId) : Bool := (images.get? image).any (·.item = item)
  { account with progress :=
    { account.progress with
      profile := account.progress.profile.map fun banner =>
        { banner with bannerImage := banner.bannerImage.filter fun image => !deleted image } } }

/-- Delete the images of an item. -/
def State.deleteImages (item : ItemId) (s : State) : State :=
  { s with
    users := s.users.updateWhere (fun _ _ => true) fun _ => clearDeletedImage s.images item
    images := s.images.deleteWhere fun _ image => image.item = item }

def State.createImage (item : ItemId) (s : State) (row : Ingest.ImageRow) : State :=
  { s with
    images := s.images.set s.nextImage ⟨item, row⟩
    nextImage := s.nextImage + 1 }

/-- `replace_images`. -/
def State.replaceImages (item : ItemId) (entries : List Ingest.ImageEntry) (s : State) : State :=
  (Ingest.imageRows entries).foldl (createImage item) (s.deleteImages item)

/-! ### Steps -/

/-- What happens to the profiles: a user registers or edits the profile, calls the tracking service, or
the content is refreshed from a payload that may leave its images alone. -/
inductive Step (ρ : Type) where
  | register (user : UserId)
  | edit (user : UserId) (body : EditBody ρ)
  | call (now : Time) (user : UserId) (call : ProgressCall)
  | refresh (item : ItemId) (images : Option (List Ingest.ImageEntry))

section

variable {ρ : Type} (fields : Fields ρ)

def step (s : State) : Step ρ → State
  | .register user =>
    match s.users.get? user with
    | some _ => s
    | none => s.setAccount user { progress := { UserProgress.empty with profile := some {} } }
  | .edit user body =>
    match s.users.get? user with
    | some account => (patch fields user account body s).2
    | none => s
  | .call now user call =>
    match s.users.get? user with
    | some account =>
      s.setAccount user { account with progress := call.run s.catalog now account.progress }
    | none => s
  | .refresh item images =>
    match images with
    | some entries => s.replaceImages item entries
    | none => s

def run (s : State) (steps : List (Step ρ)) : State := steps.foldl (step fields) s

/-- Nobody has registered yet. -/
def initial (contentType : ItemId → ContentType) : State where
  contentType := contentType
  users := .empty
  images := .empty
  nextImage := 1

end

end Denn.Profile
