import RoutingPlan.Journal
import RoutingPlan.Proofs.Json.Compact
import RoutingPlan.Proofs.Keyed

-- What a journal writes can be taken apart again: the file into the lines of its events, and a line
-- into the members of its event.

namespace RoutingPlan

open Json (Tree Value)

namespace Event

-- 64 bits hold every whole number in the event, and the others are read back as they were.
def Exact (e : Event) : Prop :=
  e.toJson.Exact

end Event

namespace Journal

section Line

variable {e e' : Event} {time time' : Instant}

end Line

end Journal
end RoutingPlan
