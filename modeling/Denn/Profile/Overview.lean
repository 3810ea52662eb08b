import Mathlib.Data.Prod.Lex
import Denn.Core.Constraint
import Denn.Core.OrderedMap
import Denn.Core.Ranks
import Denn.Core.RowUpdate
import Denn.Core.Text
import Denn.Profile.BannerRuns

/-!
# The banner on a public profile

The overview of a public profile, as far as its banner goes: the server picks the banner that is chosen,
media of favorites to draw from, and the options of the editor, and the page of the web client decides
from these what it shows.
-/

namespace Denn.Profile

open Core

/-! ### What is served -/

inductive Treatment where
  | cover
  | containedPoster
  deriving DecidableEq, Repr

/-- `_banner_media`. An id that is null or left out is `none`. -/
structure BannerMedia where
  contentId : ItemId
  type : ContentType
  imageId : Option ImageId
  imageUrl : String
  treatment : Treatment
  deriving DecidableEq, Repr

/-- An entry of `banner_options`. -/
structure BannerOption extends BannerMedia where
  title : String
  authors : List String
  deriving DecidableEq, Repr

/-- What the summary of an item takes from its detail and browse rows. -/
structure ContentText where
  title : String := ""
  subtitle : Option String := none
  authors : List String := []
  imageUrl : String := ""

/-- `LocalContentSummarySerializer`, as far as banners read it. -/
structure ContentSummary where
  id : ItemId
  type : ContentType
  title : String
  subtitle : Option String
  poster : Option String
  backdrop : Option String
  authors : List String
  deriving DecidableEq, Repr

/-- The fields of the overview that the banner depends on. -/
structure Overview where
  profile : BannerSelection
  favorites : List (ContentType × List ContentSummary)
  bannerMedia : List BannerMedia
  selectedBanner : Option BannerMedia
  bannerOptions : List BannerOption
  deriving DecidableEq, Repr

/-- A `content_image` row with its key. -/
structure BannerImage where
  id : ImageId
  row : Ingest.ImageRow

/-- `_banner_treatment`. -/
def bannerTreatment (image : BannerImage) : Treatment :=
  if image.row.type = "gallery" then .cover else .containedPoster

/-- A text that is not empty. -/
def truthy (text : Option String) : Option String := text.filter (· ≠ "")

/-- `_first_two_names`. -/
def firstTwoNames (value : Option String) : List String :=
  (((((value.getD "").toList.splitOn ',').map fun name => strip (String.ofList name)).filter
    (· ≠ "")).take 2)

/-- `_banner_option_authors`. -/
def bannerOptionAuthors (summary : ContentSummary) : List String :=
  if summary.type = .album then firstTwoNames summary.subtitle
  else (summary.authors.take 2).filter (· ≠ "")

/-! ### The rows that media are selected from -/

section Selection

variable (type : ItemId → ContentType)

/-- The first pass of `_select_banner_media`: the first row of each type. -/
def firstOfTypes (selected : List ItemId) : List ItemId → List ItemId
  | [] => selected
  | row :: rows =>
    if (selected.map type).contains (type row) then firstOfTypes selected rows
    else if (selected ++ [row]).length = 5 then selected ++ [row]
    else firstOfTypes (selected ++ [row]) rows

/-- The second pass: other rows, until there are five. -/
def fillUp (selected : List ItemId) : List ItemId → List ItemId
  | [] => selected
  | row :: rows =>
    if selected.length = 5 then selected
    else if selected.contains row then fillUp selected rows
    else fillUp (selected ++ [row]) rows

def selectedRows (rows : List ItemId) : List ItemId := fillUp (firstOfTypes type [] rows) rows

/-- The favorites that the overview lists: at most five of each type. -/
def listedFavorites (rows : List ItemId) : List (ContentType × List ItemId) :=
  (keepFirst id [] (rows.map type)).map fun contentType =>
    (contentType, (rows.filter fun row => type row = contentType).take 5)

end Selection

/-! ### The server -/

namespace State

variable (s : State) (texts : ItemId → ContentText)

/-- The images of an item, as they are prefetched. -/
def contentImages (item : ItemId) : List BannerImage :=
  sortBy (fun image => toLex (image.row.position, image.id))
    ((s.images.rows.filter fun entry => entry.2.item = item).map fun entry =>
      ⟨entry.1, entry.2.row⟩)

/-- `LocalContentSummarySerializer.get_poster`. -/
def getPoster (item : ItemId) : Option String :=
  let poster := ((s.contentImages item).find? fun image => image.row.type = "poster").map
    (·.row.imageUrl)
  (truthy poster).or (truthy (some (texts item).imageUrl))

/-- `LocalContentSummarySerializer.get_backdrop`. -/
def getBackdrop (item : ItemId) : Option String :=
  ["original", "standard"].findSome? fun size =>
    truthy (((s.contentImages item).find? fun image =>
      image.row.type = "gallery" && image.row.size = size).map (·.row.imageUrl))

/-- `_serialize_content`. -/
def serializeContent (item : ItemId) : ContentSummary where
  id := item
  type := s.contentType item
  title := (texts item).title
  subtitle := (texts item).subtitle
  poster := s.getPoster texts item
  backdrop := s.getBackdrop item
  authors := (texts item).authors

def typePriority (image : BannerImage) : ℕ :=
  if image.row.type = "gallery" then 0 else if image.row.type = "poster" then 1 else 2

def sizePriority (image : BannerImage) : ℕ :=
  if image.row.size = "original" then 0 else if image.row.size = "standard" then 1 else 2

/-- `_ordered_banner_images`. -/
def orderedBannerImages (item : ItemId) : List BannerImage :=
  sortBy (fun image => toLex (typePriority image,
      toLex (sizePriority image, toLex (image.row.position, image.id))))
    ((s.contentImages item).filter fun image => image.row.imageUrl ≠ "")

def imageMedia (item : ItemId) (image : BannerImage) : BannerMedia where
  contentId := item
  type := s.contentType item
  imageId := some image.id
  imageUrl := image.row.imageUrl
  treatment := bannerTreatment image

/-- `_preferred_banner_option`. -/
def preferredBannerOption (item : ItemId) : Option BannerMedia :=
  match s.orderedBannerImages item with
  | image :: _ => some (s.imageMedia item image)
  | [] =>
    ((s.getPoster texts item).or (s.getBackdrop item)).map fun imageUrl =>
      { contentId := item
        type := s.contentType item
        imageId := none
        imageUrl
        treatment := .containedPoster }

/-- `_banner_options_for_content`. -/
def bannerOptionsForContent (item : ItemId) : List BannerOption :=
  let preferred := (s.preferredBannerOption texts item).map fun media => { media with imageId := none }
  let images := keepFirst (fun image => image.row.imageUrl) [] (s.orderedBannerImages item)
  let summary := s.serializeContent texts item
  ((preferred.toList ++ images.map (s.imageMedia item)).take 12).map fun media =>
    { media with title := summary.title, authors := bannerOptionAuthors summary }

/-- `_select_banner_options`. -/
def selectBannerOptions (rows : List ItemId) : List BannerOption :=
  (keepFirst id [] rows).flatMap (s.bannerOptionsForContent texts)

/-- `_select_banner_media`. -/
def selectBannerMedia (rows : List ItemId) : List BannerMedia :=
  ((selectedRows s.contentType rows).filterMap (s.preferredBannerOption texts)).take 5

/-- `_selected_banner_media`. -/
def selectedBannerMedia (rows : List ItemId) (profile : BannerSelection) : Option BannerMedia :=
  match profile.bannerContentItem with
  | none => none
  | some item =>
    if !rows.contains item then none
    else
      match profile.bannerImage with
      | some imageId =>
        ((s.contentImages item).find? fun image => image.id = imageId && image.row.imageUrl ≠ "").map
          (s.imageMedia item)
      | none => s.preferredBannerOption texts item

/-- The completed favorites of a user, in the order of the database. -/
def favoriteRows (order : Scan ItemId) (account : Account) : List ItemId :=
  order.order (account.progress.tracking.keysWhere fun _ row =>
    row.status = .completed && row.isFavorite)

/-- `PublicProfileOverviewView.get`. -/
def overview (order : Scan ItemId) (account : Account) : Overview :=
  let rows := favoriteRows order account
  let profile := account.progress.profile.getD {}
  { profile
    favorites := (listedFavorites s.contentType rows).map fun entry =>
      (entry.1, entry.2.map (s.serializeContent texts))
    bannerMedia := s.selectBannerMedia texts rows
    selectedBanner := s.selectedBannerMedia texts rows profile
    bannerOptions := s.selectBannerOptions texts rows }

end State

/-! ### The page -/

namespace Overview

variable (o : Overview)

/-- `getSelectedBannerMedia`. -/
def getSelectedBannerMedia : Option BannerMedia :=
  match o.profile.bannerContentItem with
  | none => none
  | some contentId =>
    let isChosen (media : BannerMedia) : Bool :=
      media.contentId = contentId && media.imageId = o.profile.bannerImage
    if o.selectedBanner.any isChosen then o.selectedBanner
    else (o.bannerOptions.find? fun option => isChosen option.toBannerMedia).map (·.toBannerMedia)

/-- The media of the listed favorites. -/
def favoriteMedia : List BannerMedia :=
  (o.favorites.flatMap (·.2)).filterMap fun content =>
    ((truthy content.backdrop).or (truthy content.poster)).map fun imageUrl =>
      { contentId := content.id
        type := content.type
        imageId := none
        imageUrl
        treatment := if (truthy content.backdrop).isSome then .cover else .containedPoster }

/-- What a banner is drawn from. -/
def candidates : List BannerMedia :=
  if o.bannerMedia = [] then
    (OrderedMap.ofList (o.favoriteMedia.map fun media =>
      (toString media.contentId ++ ":" ++ media.imageUrl, media))).values
  else o.bannerMedia

/-- `pickRandomFavoriteBanner`; `draw` multiplies a random number by another, and rounds it down. -/
def pickRandomFavoriteBanner (draw : ℕ → ℕ) : Option BannerMedia :=
  match o.getSelectedBannerMedia with
  | some media => some media
  | none => o.candidates[min (draw o.candidates.length) (o.candidates.length - 1)]?

/-- `isFavoriteBannerMedia`. -/
def isFavoriteBannerMedia (media : BannerMedia) : Bool :=
  (o.favorites.flatMap (·.2)).any fun content => content.id = media.contentId

/-- `getBannerSelectionKey`. -/
def bannerSelectionKey : Option String :=
  o.profile.bannerContentItem.map fun contentId =>
    toString contentId ++ ":" ++ (o.profile.bannerImage.map toString).getD "auto"

end Overview

/-- The state of `PublicProfilePage` that the banner is in. -/
structure BannerPage where
  bannerMedia : Option BannerMedia
  previousSelectionKey : Option String

/-- The effect of the page, which runs when it has an overview. -/
def BannerPage.update (page : BannerPage) (draw : ℕ → ℕ) (o : Overview) : BannerPage where
  bannerMedia :=
    match o.getSelectedBannerMedia with
    | some selectedBanner => some selectedBanner
    | none =>
      if page.previousSelectionKey.isSome && o.bannerSelectionKey.isNone then
        o.pickRandomFavoriteBanner draw
      else if page.bannerMedia.any o.isFavoriteBannerMedia then page.bannerMedia
      else o.pickRandomFavoriteBanner draw
  previousSelectionKey := o.bannerSelectionKey

end Denn.Profile
