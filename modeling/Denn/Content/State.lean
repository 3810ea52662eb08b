import Denn.Content.Item
import Denn.Core.Json
import Denn.Core.Sha256
import Denn.Core.Text
import Mathlib.Data.List.Lex
import Mathlib.Data.Prod.Lex
import Mathlib.Order.Lex

/-!
# The moderation state

The normalized text of an item that is sent to the classifier, and its hash. Only the fields that
are listed here for the content type enter it: whitespace is collapsed, names are sorted without
duplicates, and people, credits, episodes and tracks are sorted.
-/

namespace Denn

open Core

structure ModerationStateError where
  message : String
  deriving DecidableEq, Repr

def maxKeywords : ℕ := 40

def maxSubjects : ℕ := 30

/-- `" ".join(value.split())`. -/
def collapse (s : String) : String := " ".intercalate (splitWords s)

lemma collapse_of_isBlank {s : String} (h : isBlank s = true) : collapse s = "" := by
  rw [collapse, splitWords_of_isBlank h]
  rfl

def normalizeText (value : Json) (field : String) : Except ModerationStateError String :=
  match value with
  | .null => .ok ""
  | .str s => .ok (collapse s)
  | value => .error ⟨field ++ " must be text, got " ++ value.typeName⟩

/-- `_sequence`: a list, or nothing. -/
def sequence (values : Json) (field : String) : Except ModerationStateError (List Json) :=
  match values with
  | .null => .ok []
  | .arr values => .ok values
  | _ => .error ⟨field ++ " must be a sequence"⟩

/-- Sorted unique names; `limit` keeps the first ones in provider order. -/
def normalizeNames (values : Json) (field : String) (limit : Option ℕ) :
    Except ModerationStateError (List String) := do
  let values ← sequence values field
  let names ← values.mapM fun
    | .str s => .ok (collapse s)
    | raw => .error ⟨field ++ " entries must be text, got " ++ raw.typeName⟩
  let names := (names.filter (· ≠ "")).eraseDups
  return (names.take (limit.getD names.length)).insertionSort (· ≤ ·)

def normalizePeopleNames (values : Json) (field : String) :
    Except ModerationStateError (List String) := do
  let values ← sequence values field
  let names ← values.mapM fun
    | .str s => normalizeText (.str s) field
    | .obj fields => normalizeText ((Json.obj fields).get "name") field
    | _ => .error ⟨field ++ " entries must contain a text name"⟩
  return (names.filter (· ≠ "")).eraseDups.insertionSort (· ≤ ·)

structure Credit where
  name : String
  role : String
  deriving DecidableEq, Repr

def Credit.sortKey (credit : Credit) : String ×ₗ String := toLex (credit.name, credit.role)

def normalizeCredit (field : String) (raw : Json) : Except ModerationStateError Credit := do
  let (rawName, rawRole) ←
    match raw with
    | .str s => Except.ok (Json.str s, Json.null)
    | .obj fields =>
      let credit := Json.obj fields
      Except.ok (credit.get "name", (credit.get "role").or (credit.get "type"))
    | _ => .error ⟨field ++ " entries must contain text credit fields"⟩
  let name ← normalizeText rawName (field ++ ".name")
  let role ← normalizeText rawRole (field ++ ".role")
  return ⟨name, role⟩

def normalizeCredits (values : Json) (field : String) :
    Except ModerationStateError (List Credit) := do
  let values ← sequence values field
  let credits ← values.mapM (normalizeCredit field)
  return (credits.filter fun credit => credit.name ≠ "" || credit.role ≠ "").insertionSort
    fun a b => a.sortKey ≤ b.sortKey

structure EpisodeText where
  title : String
  description : String
  deriving DecidableEq, Repr

def normalizeEpisode (raw : Json) : Except ModerationStateError EpisodeText :=
  match raw with
  | .obj fields => do
    let episode := Json.obj fields
    let title ← normalizeText (episode.get "title") "season.episodes.title"
    let description ← normalizeText (episode.get "description") "season.episodes.description"
    return ⟨title, description⟩
  | _ => .error ⟨"season.episodes entries must be named text objects"⟩

def normalizeEpisodes (values : Json) : Except ModerationStateError (List EpisodeText) := do
  let values ← sequence values "season.episodes"
  let episodes ← values.mapM normalizeEpisode
  return (episodes.filter fun e => e.title ≠ "" || e.description ≠ "").insertionSort
    fun a b => toLex (a.title, a.description) ≤ toLex (b.title, b.description)

structure TrackText where
  title : String
  credits : List Credit
  parentalAdvisory : String
  deriving DecidableEq, Repr

def TrackText.sortKey (track : TrackText) : String ×ₗ List (String ×ₗ String) ×ₗ String :=
  toLex (track.title, toLex (track.credits.map Credit.sortKey, track.parentalAdvisory))

def normalizeTrack (raw : Json) : Except ModerationStateError TrackText :=
  match raw with
  | .obj fields => do
    let track := Json.obj fields
    let title ← normalizeText (track.get "title") "album.tracks.title"
    let credits ← normalizeCredits (track.get "authors") "album.tracks.credits"
    let advisory :=
      match track.get "explicit" with
      | .bool true => "explicit"
      | _ => ""
    return ⟨title, credits, advisory⟩
  | _ => .error ⟨"album.tracks entries must be named text objects"⟩

def normalizeTracks (values : Json) : Except ModerationStateError (List TrackText) := do
  let values ← sequence values "album.tracks"
  let tracks ← values.mapM normalizeTrack
  return (tracks.filter fun track => track.title ≠ "" || !track.credits.isEmpty).insertionSort
    fun a b => a.sortKey ≤ b.sortKey

/-! ### States as texts -/

def Credit.toTree (credit : Credit) : TextTree :=
  .object [("name", .text credit.name), ("role", .text credit.role)]

def EpisodeText.toTree (episode : EpisodeText) : TextTree :=
  .object [("title", .text episode.title), ("description", .text episode.description)]

def TrackText.toTree (track : TrackText) : TextTree :=
  .object [("title", .text track.title), ("credits", .list (track.credits.map Credit.toTree)),
    ("parental_advisory", .text track.parentalAdvisory)]

/-- The allowlist of movies and TV shows. -/
def normalizeScreen (kind : String) (payload : Json) : Except ModerationStateError TextTree := do
  let originalTitle ← normalizeText (payload.get "original_title") (kind ++ ".original_title")
  let tagline ← normalizeText (payload.get "tagline") (kind ++ ".tagline")
  let genres ← normalizeNames (payload.get "genres") (kind ++ ".genres") none
  let keywords ← normalizeNames (payload.get "keywords") (kind ++ ".keywords") maxKeywords
  return .object [(kind, .object [("original_title", .text originalTitle),
    ("tagline", .text tagline), ("genres", .texts genres), ("keywords", .texts keywords)])]

def normalizeGame (payload : Json) : Except ModerationStateError TextTree := do
  let genres ← normalizeNames (payload.get "genres") "game.genres" none
  let themes ← normalizeNames (payload.get "themes") "game.themes" none
  let gameModes ← normalizeNames (payload.get "game_modes") "game.game_modes" none
  let gameType ← normalizeText (payload.get "game_type") "game.game_type"
  let series ← normalizeText (payload.get "series") "game.series"
  let keywords ← normalizeNames (payload.get "keywords") "game.keywords" maxKeywords
  return .object [("game", .object [("genres", .texts genres), ("themes", .texts themes),
    ("game_modes", .texts gameModes), ("game_type", .text gameType), ("series", .text series),
    ("keywords", .texts keywords)])]

def normalizeSeason (payload : Json) : Except ModerationStateError TextTree := do
  let parentShowName ← normalizeText (payload.get "tv_show_name") "season.parent_show_name"
  let episodes ← normalizeEpisodes (payload.get "episodes")
  return .object [("season", .object [("parent_show_name", .text parentShowName),
    ("episodes", .list (episodes.map EpisodeText.toTree))])]

def normalizeAlbum (payload : Json) : Except ModerationStateError TextTree := do
  let artists ← normalizePeopleNames (payload.get "authors") "album.artists"
  let tracks ← normalizeTracks (payload.get "tracks")
  return .object [("album", .object [("artists", .texts artists),
    ("tracks", .list (tracks.map TrackText.toTree))])]

def normalizeBook (payload : Json) : Except ModerationStateError TextTree := do
  let authors ← normalizePeopleNames (payload.get "authors") "book.authors"
  let subjects ← normalizeNames (payload.get "subjects") "book.subjects" maxSubjects
  return .object [("book", .object [("authors", .texts authors), ("subjects", .texts subjects)])]

def normalizeTypeSpecific (contentType : ContentType) (payload : Json) :
    Except ModerationStateError TextTree :=
  match contentType with
  | .movie => normalizeScreen "movie" payload
  | .tvShow => normalizeScreen "tv_show" payload
  | .game => normalizeGame payload
  | .season => normalizeSeason payload
  | .album => normalizeAlbum payload
  | .book => normalizeBook payload

/-- `build_moderation_state` for a reconstructed payload. -/
def buildModerationState (provider : SourceAPI) (contentType : ContentType) (payload : Json) :
    Except ModerationStateError TextTree :=
  match payload with
  | .obj fields => do
    let payload := Json.obj fields
    let title ← normalizeText (payload.get "title") "title"
    let description ← normalizeText (payload.get "description") "description"
    let typeSpecific ← normalizeTypeSpecific contentType payload
    return .object [("provider", .text provider.value), ("content_type", .text contentType.value),
      ("title", .text title), ("description", .text description),
      ("type_specific", typeSpecific)]
  | _ => .error ⟨"reconstructed payload must be a named object"⟩

def hashModerationState (state : TextTree) : String :=
  Sha256.hexdigest state.dumps

lemma hashModerationState_ne_empty (state : TextTree) : hashModerationState state ≠ "" :=
  Sha256.hexdigest_ne_empty _

end Denn
