import RoutingPlan.Plan.Builder
import RoutingPlan.Definition.Json
import RoutingPlan.Text.Blank

-- Making a plan of a definition. A node comes before the nodes below it; a router needs children
-- that all have a route key, and of several children with one key the last counts, at the place of
-- the first; an action has at most one child. `Definition.compile` is the whole way.

namespace RoutingPlan

-- Finds the step for a key.
abbrev Resolver := String → Except Error Step

namespace Definition

-- Adds the nodes of one subtree and gives back the first of them.
abbrev Assembly := Plan.Builder → Except Error (NodeId × Plan.Builder)

-- A child that has not been assembled.
structure Child where
  step : String
  routeKey : Option String
  assembly : Assembly

-- The branches below a router: every child has a route key that is not blank, and a later child
-- takes the place of an earlier one with its key.
def arms (router : String) : List Child → List (String × Assembly) →
    Except Error (List (String × Assembly))
  | [], table => .ok table
  | c :: cs, table =>
    match c.routeKey with
    | some key =>
      if Text.isBlank key then .error (.childMissingRouteKey router c.step)
      else arms router cs (Keyed.put key c.assembly table)
    | none => .error (.childMissingRouteKey router c.step)

-- Assembles the branches of a router one after the other.
def connect (router : NodeId) : List (String × Assembly) → Plan.Builder → Except Error Plan.Builder
  | [], b => .ok b
  | (key, assembly) :: table, b => do
    let (child, b) ← assembly b
    connect router table (b.branch router key child).2

-- Assembles a node and then what is below it.
def assembleNode (resolve : Resolver) (key : String) (children : List Child) :
    Assembly := fun b => do
  let step ← resolve key
  let (id, b) := b.add key step
  match step.kind, children with
  | .router, [] => .error (.routerMissingChildren key)
  | .router, children =>
    let table ← arms key children []
    let b ← connect id table b
    return (id, b)
  | .action, [] => return (id, b)
  | .action, [child] =>
    let (next, b) ← child.assembly b
    return (id, b.chainTo id next)
  | .action, children => .error (.actionInvalidChildCardinality key children.length)

mutual

def assemble (resolve : Resolver) : Definition → Assembly
  | mk key _ none => assembleNode resolve key []
  | mk key _ (some cs) => assembleNode resolve key (childrenToAssemble resolve cs)

def childrenToAssemble (resolve : Resolver) : List Definition → List Child
  | [] => []
  | c :: cs => ⟨c.step, c.routeKey, assemble resolve c⟩ :: childrenToAssemble resolve cs

end

-- The plan of a definition; the route key of its first step does not matter.
def compile (resolve : Resolver) (d : Definition) : Except Error Plan := do
  let (root, b) ← d.assemble resolve .empty
  b.build root

end Definition

namespace Plan

-- The plan that a JSON text defines.
def fromJson (resolve : Resolver) (text : String) : Except Error Plan := do
  (← Definition.fromJson text).compile resolve

-- The text of a plan in its own normal form.
def jsonText? (p : Plan) : Option String :=
  p.toDefinition?.map Definition.jsonText

end Plan
end RoutingPlan
