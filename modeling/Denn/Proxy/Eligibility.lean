import Denn.Core.GoInt
import Denn.Core.IsoDate

/-!
# Release eligibility

The dates that the proxy reads with `time.Parse`, and the filters that keep what has been released or
is going to be within a day. An instant is a number of nanoseconds since 1970, in UTC.
-/

namespace Denn.Proxy

open Denn.Core

abbrev Instant := ℤ

/-- `24 * time.Hour`. -/
def day : Instant := 86400 * 10 ^ 9

/-! ### Dates -/

/-- The value of a run of digits. -/
def digitsValue (digits : List Char) : Option ℕ :=
  digits.foldlM (fun value c => (asciiDigit c).map (10 * value + ·)) 0

/-- The days of the years before, counted from the year 0. -/
def daysBeforeYear (year : ℕ) : ℕ :=
  365 * year + (year + 3) / 4 - (year + 99) / 100 + (year + 399) / 400

/-- The days of the months before in the year. -/
def daysBeforeMonth (year month : ℕ) : ℕ :=
  ((List.range' 1 (month - 1)).map (daysInMonth year)).sum

/-- Midnight of a date, if there is such a date. -/
def goDate (year month day' : ℕ) : Option Instant :=
  if 1 ≤ month ∧ month ≤ 12 ∧ 1 ≤ day' ∧ day' ≤ daysInMonth year month then
    let days := daysBeforeYear year + daysBeforeMonth year month + (day' - 1)
    some (((days : ℤ) - daysBeforeYear 1970) * day)
  else none

/-- `time.Parse("2006-01-02", text)`. -/
def parseFullDate (text : String) : Option Instant :=
  match text.toList with
  | [y₁, y₂, y₃, y₄, '-', m₁, m₂, '-', d₁, d₂] => do
    goDate (← digitsValue [y₁, y₂, y₃, y₄]) (← digitsValue [m₁, m₂]) (← digitsValue [d₁, d₂])
  | _ => none

/-- `time.Parse("2006-01", text)`. -/
def parseYearMonth (text : String) : Option Instant :=
  match text.toList with
  | [y₁, y₂, y₃, y₄, '-', m₁, m₂] => do
    goDate (← digitsValue [y₁, y₂, y₃, y₄]) (← digitsValue [m₁, m₂]) 1
  | _ => none

/-- `time.Parse("2006", text)`. -/
def parseYear (text : String) : Option Instant :=
  match text.toList with
  | [y₁, y₂, y₃, y₄] => do goDate (← digitsValue [y₁, y₂, y₃, y₄]) 1 1
  | _ => none

def parseReleaseDate (raw : Option String) : Option Instant :=
  match raw with
  | some text =>
    if text = "" then none
    else (parseFullDate text <|> parseYearMonth text <|> parseYear text)
  | none => none

/-! ### Eligibility -/

def releaseDateGraceDays : ℤ := 1

/-- `IsGeneralReleaseEligible`. -/
def isGeneralReleaseEligible (now : Instant) (releaseDate : Option String) : Bool :=
  match parseReleaseDate releaseDate with
  | some releaseAt => releaseAt ≤ now + releaseDateGraceDays * day
  | none => false

structure Author where
  name : String
  type : String
  deriving DecidableEq

/-- A card of a title. -/
structure SearchItem where
  id : String
  type : String
  title : String
  originalTitle : Option String := none
  description : Option String := none
  imageUrl : Option String := none
  releaseDate : Option String := none
  authors : List Author := []
  deriving DecidableEq

def filterEligibleSearchItems (now : Instant) (items : List SearchItem) : List SearchItem :=
  items.filter fun item => isGeneralReleaseEligible now item.releaseDate

structure Episode where
  releaseDate : Option String := none

structure Season where
  id : String
  seasonNumber : ℤ
  title : String
  numberOfEpisodes : ℤ
  description : Option String := none
  imageUrl : Option String := none
  releaseDate : Option String := none
  episodes : List Episode := []

/-- `IsValidSeasonContent`. -/
def isValidSeasonContent (now : Instant) (season : Season) : Bool :=
  if season.seasonNumber ≤ 0 || season.numberOfEpisodes ≤ 0 then false
  else if !isGeneralReleaseEligible now season.releaseDate then false
  else if season.episodes.isEmpty then true
  else season.episodes.any fun episode => isGeneralReleaseEligible now episode.releaseDate

/-- `FilterValidSeasonSummaries`. -/
def filterValidSeasonSummaries (now : Instant) (seasons : List Season) : List Season :=
  seasons.filter (isValidSeasonContent now)

example : parseFullDate "1970-01-02" = some day := by decide

example : parseFullDate "2023-02-29" = none := by decide

end Denn.Proxy
