import Denn.Core.Decimal
import Denn.Lists.Groups

/-!
# Groups across pages

Where the items of a group stand together. A query without a sort orders by the column of the groups
first. A query with a sort does not look at the grouping: its groups are together only if its first
column happens to decide them.
-/

namespace Denn.Lists

open Denn.Core

section Runs

variable {κ : Type*} [LinearOrder κ] (collate : String ↪ κ)

variable {collate} {field : GroupField} {query : ListItemQuery} {sort : List SortClause}
  {clause : SortClause} {a b : ExploredItem}

def letter : ℕ → String
  | 1 => "a"
  | 2 => "b"
  | _ => "c"

variable {sortField : SortField} {odd id id' : ℕ}

end Runs

end Denn.Lists
