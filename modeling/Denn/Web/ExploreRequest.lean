import Denn.Core.Except
import Denn.Lists.Explore
import Denn.Web.ExploreRoundtrip

/-!
# The query of a list page in the request

How the client writes a query into the request for the items of a list, and what the endpoint reads
there: the fields that both sides have a name for, and the texts as they arrive.
-/

namespace Denn.Web

open Core

/-! ### Text on the way -/

/-- The character of a unit that is no half of a pair. -/
def unitChar (u : ℕ) : Char := if isHigh u || isLow u then '\uFFFD' else Char.ofNat u

/-- The characters of a string. -/
def chars : Units → List Char
  | [] => []
  | [u] => [unitChar u]
  | u :: v :: text =>
    if isHigh u && isLow v then
      Char.ofNat (0x10000 + 0x400 * (u - 0xD800) + (v - 0xDC00)) :: chars text
    else unitChar u :: chars (v :: text)

/-- The text that arrives: a request has no lone surrogates. -/
def received (text : Units) : String := String.ofList (chars text)

/-- A parameter as it arrives. -/
def receive (param : Units × Units) : String × String := (received param.1, received param.2)

/-! ### The request -/

/-- The values that `appendQueryModel` skips besides `undefined`. -/
def FilterValue.isSkipped : FilterValue → Bool
  | text value => value = []
  | _ => false

namespace ListItemQuery

end ListItemQuery

namespace FilterField

end FilterField

namespace RangeFilterField

end RangeFilterField

namespace SortField

end SortField

namespace GroupByField

end GroupByField

/-- The texts that are asked for by a filter, without the blanks around them. -/
def FilterValue.asked (value : Option FilterValue) : List String :=
  (value.elim [] FilterValue.written).flatMap fun text => Lists.csv (received text)

namespace ListItemQuery

/-- The bounds of a query that are written. -/
def bounds (q : ListItemQuery) : List (RangeFilterField × Units) :=
  q.rangeFilters.entries.filterMap fun entry =>
    (entry.2.bind fun value => nonEmpty value.written).map fun text => (entry.1, text)

end ListItemQuery

/-! ### Characters -/

section

variable {readers : Lists.Readers} {query query' : Lists.ListItemQuery}
  {parameter : String × String} {parameters : List (String × String)}

end

/-! ### The whole request -/

section

variable {q : ListItemQuery} {listing : Listing} {options : ListItemQueryOptions}

namespace ListItemQuery

end ListItemQuery

end

end Denn.Web
