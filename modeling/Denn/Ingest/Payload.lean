import Denn.Ingest.Catalog
import Denn.Store.Mappers

/-!
# Detail payloads

The payloads of the proxy, with all the fields that the mappers read, and the sanitizers of the safety
fields. A field is `none` if it is absent or null. Entries of a list that are no objects are entries
without a name, an id or a URL; an author that is a text is an entry without a type. Of the season
fields `episodes`, `images` and `platforms` the mapper distinguishes absence and null: absence is
`none`, and null is the empty list or map.
-/

namespace Denn.Ingest

open Denn.Core

structure AuthorEntry where
  name : Option String
  type : Option String := none
  deriving DecidableEq

structure ImageEntry where
  type : Option String := none
  size : Option String := none
  imageUrl : Option String
  deriving DecidableEq

structure TrackEntry where
  id : Option String
  trackNumber : Option ℤ := none
  title : Option String := none
  durationSeconds : Option ℤ := none
  externalUrl : Option String := none
  explicit : Json := .null
  authors : List AuthorEntry := []

structure EpisodeEntry where
  id : Option String
  episodeNumber : Option ℤ := none
  seasonNumber : Option ℤ := none
  title : Option String := none
  description : Option String := none
  releaseDate : Option String := none
  durationMinutes : Option ℤ := none
  imageUrl : Option String := none
  episodeType : Option String := none

/-- The fields that movies and TV shows share. -/
structure ScreenPayload where
  id : Option String := none
  type : Option String := none
  imdbId : Option String := none
  title : Option String := none
  originalTitle : Option String := none
  tagline : Option String := none
  description : Option String := none
  imageUrl : Option String := none
  releaseDate : Option String := none
  status : Option String := none
  adult : Json := .null
  genres : Json := .null
  keywords : Json := .null
  certifications : Json := .null
  authors : List AuthorEntry := []
  images : List ImageEntry := []
  platforms : PlatformMap := {}

structure MoviePayload extends ScreenPayload where
  durationMinutes : Option ℤ := none

/-- A season, on its own or nested in its show. Nested entries that are no objects or have no integer
    number are those without `seasonNumber`. -/
structure SeasonPayload where
  id : Option String := none
  type : Option String := none
  seasonNumber : Option ℤ := none
  tvShowName : Option String := none
  title : Option String := none
  description : Option String := none
  imageUrl : Option String := none
  releaseDate : Option String := none
  numberOfEpisodes : Option ℤ := none
  episodes : Option (List EpisodeEntry) := none
  images : Option (List ImageEntry) := none
  platforms : Option PlatformMap := none

structure TvShowPayload extends ScreenPayload where
  numberOfSeasons : Option ℤ := none
  numberOfEpisodes : Option ℤ := none
  seasons : Option (List SeasonPayload) := none

structure AlbumPayload where
  id : Option String := none
  type : Option String := none
  title : Option String := none
  imageUrl : Option String := none
  releaseDate : Option String := none
  totalTracks : Option ℤ := none
  durationMinutes : Option ℤ := none
  albumType : Option String := none
  externalUrl : Option String := none
  authors : List AuthorEntry := []
  images : List ImageEntry := []
  tracks : List TrackEntry := []

structure PlayTime where
  min : Option ℤ := none
  max : Option ℤ := none
  deriving DecidableEq

/-- A `duration` object that is not empty, without its time stamp. -/
structure DurationPayload where
  source : Option String := none
  status : Option String := none
  hastilySeconds : Option ℤ := none
  normallySeconds : Option ℤ := none
  completelySeconds : Option ℤ := none
  sampleCount : Option ℤ := none
  deriving DecidableEq

structure GamePayload where
  id : Option String := none
  type : Option String := none
  title : Option String := none
  gameType : Option String := none
  description : Option String := none
  imageUrl : Option String := none
  releaseDate : Option String := none
  series : Option String := none
  authors : List AuthorEntry := []
  platforms : List PlatformPayload := []
  genres : List String := []
  themes : List String := []
  gameModes : List String := []
  playTime : Option PlayTime := none
  duration : Option DurationPayload := none
  keywords : Json := .null
  ageRatings : Json := .null
  images : List ImageEntry := []

structure BookPayload where
  id : Option String := none
  type : Option String := none
  title : Option String := none
  description : Option String := none
  imageUrl : Option String := none
  releaseDate : Option String := none
  pages : Option ℤ := none
  subjects : Json := .null
  authors : List AuthorEntry := []
  images : List ImageEntry := []

/-! ### Sanitizers -/

structure Certification where
  country : String
  rating : String
  deriving DecidableEq

structure AgeRating where
  organization : String
  rating : String
  descriptors : List String
  deriving DecidableEq

def maxSubjects : ℕ := 50

def maxCertifications : ℕ := 100

def maxAgeRatings : ℕ := 20

def maxDescriptors : ℕ := 20

/-- A text that is not blank, stripped. -/
def cleanText : Json → Option String
  | .str text => if strip text = "" then none else some (strip text)
  | _ => none

/-- The entries of a list that can be read, without duplicates, up to a limit. -/
def cleanEntries {α : Type} [DecidableEq α] (limit : ℕ) (read : Json → Option α) : Json → List α
  | .arr values => ((values.filterMap read).eraseDups).take limit
  | _ => []

def readCertification (entry : Json) : Option Certification := do
  let country ← cleanText (entry.get "country")
  let rating ← cleanText (entry.get "rating")
  return { country, rating }

/-- `clean_certifications`. -/
def cleanCertifications (limit : ℕ) (value : Json) : List Certification :=
  cleanEntries limit readCertification value

def readAgeRating (entry : Json) : Option AgeRating := do
  let organization ← cleanText (entry.get "organization")
  let rating ← cleanText (entry.get "rating")
  return { organization, rating, descriptors := cleanTextList maxDescriptors (entry.get "descriptors") }

/-- `clean_age_ratings`. -/
def cleanAgeRatings (limit : ℕ) (value : Json) : List AgeRating :=
  cleanEntries limit readAgeRating value

lemma cleanText_str {value : Json} {text : String} (h : cleanText value = some text) :
    cleanText (.str text) = some text := by
  cases value with
  | str original =>
    rw [cleanText] at h
    split_ifs at h with hblank
    obtain rfl := Option.some.inj h
    rw [cleanText, strip_strip, if_neg hblank]
  | _ => exact nomatch h

lemma cleanTextList_eq_cleanEntries (limit : ℕ) (value : Json) :
    cleanTextList limit value = cleanEntries limit cleanText value := by
  cases value with
  | arr values =>
    rw [cleanTextList, cleanEntries, List.filter_filterMap]
    congr 2
    refine List.filterMap_congr fun entry _ => ?_
    cases entry with
    | str text => by_cases h : strip text = "" <;> simp [cleanText, h]
    | _ => rfl
  | _ => rfl

section

variable {α : Type} [DecidableEq α] {limit : ℕ} {read : Json → Option α} {write : α → Json}

lemma nodup_cleanEntries (limit : ℕ) (read : Json → Option α) (value : Json) :
    (cleanEntries limit read value).Nodup := by
  cases value with
  | arr values => exact (nodup_eraseDups _).sublist (List.take_sublist _ _)
  | _ => exact List.nodup_nil

lemma length_cleanEntries_le (limit : ℕ) (read : Json → Option α) (value : Json) :
    (cleanEntries limit read value).length ≤ limit := by
  cases value with
  | arr values => exact List.length_take_le _ _
  | _ => exact Nat.zero_le limit

lemma exists_of_mem_cleanEntries {value : Json} {a : α} (h : a ∈ cleanEntries limit read value) :
    ∃ entry, read entry = some a := by
  cases value with
  | arr values =>
    have hmem := List.mem_eraseDups.mp (List.mem_of_mem_take h)
    obtain ⟨entry, -, hentry⟩ := List.mem_filterMap.mp hmem
    exact ⟨entry, hentry⟩
  | _ => exact nomatch h

/-- What has been cleaned stays as it is. -/
theorem cleanEntries_map_write (hwrite : ∀ entry a, read entry = some a → read (write a) = some a)
    (value : Json) :
    cleanEntries limit read (.arr ((cleanEntries limit read value).map write))
      = cleanEntries limit read value := by
  have hread : ((cleanEntries limit read value).map write).filterMap read
      = cleanEntries limit read value := by
    rw [List.filterMap_map, List.filterMap_congr (g := some), List.filterMap_some]
    intro a ha
    obtain ⟨entry, hentry⟩ := exists_of_mem_cleanEntries ha
    exact hwrite entry a hentry
  rw [cleanEntries, hread, eraseDups_eq_self (nodup_cleanEntries ..),
    List.take_of_length_le (length_cleanEntries_le ..)]

end

end Denn.Ingest
