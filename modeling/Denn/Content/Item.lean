import Mathlib.Data.Nat.Notation
import Mathlib.Tactic.Lemma

/-!
# Content items

The identities that the rest of the development is about: a content item is known by its row id
and has, for good, one source API and one content type.
-/

namespace Denn

abbrev ItemId := ℕ
abbrev ImageId := ℕ
abbrev UserId := ℕ

/-- Seconds on the database clock, as `timezone.now()` reads it. -/
abbrev Time := ℕ

inductive SourceAPI where
  | tmdb
  | igdb
  | spotify
  | openlibrary
  deriving DecidableEq, Repr

def SourceAPI.value : SourceAPI → String
  | tmdb => "tmdb"
  | igdb => "igdb"
  | spotify => "spotify"
  | openlibrary => "openlibrary"

inductive ContentType where
  | movie
  | tvShow
  | season
  | game
  | album
  | book
  deriving DecidableEq, Repr

def ContentType.value : ContentType → String
  | movie => "MOVIE"
  | tvShow => "TV_SHOW"
  | season => "SEASON"
  | game => "GAME"
  | album => "ALBUM"
  | book => "BOOK"

lemma ContentType.value_inj {type type' : ContentType} (h : type.value = type'.value) :
    type = type' := by
  cases type <;> cases type' <;> first | rfl | exact absurd h (by decide)

end Denn
