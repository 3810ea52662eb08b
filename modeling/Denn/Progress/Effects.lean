import Denn.Progress.Invariant

/-!
# No silent destructive effect

Leaving `completed` and deleting a tracking row can archive an active rating and clear a favorite.
Without acknowledgement such a call is refused and names the effects; here the named effects are
compared with what the acknowledged call does to the rows.
-/

namespace Denn

open Core

section Item

variable (now : Time) {existing : Option Tracking} {rating : Option Rating}

end Item

/-! ### One call -/

section Call

variable {catalog : Catalog} {now : Time} {item : ItemId} {s s' : UserProgress}

end Call

/-! ### Reachable states -/

section Reachable

variable (catalog : Catalog)

end Reachable

end Denn
