import RoutingPlan.Step
import RoutingPlan.Definition.Json

-- Plans: numbered nodes, a branch table for a router and at most one successor for an action. Nodes
-- are known by number and not by step, since one step can stand at several places.

namespace RoutingPlan

structure NodeId where
  index : Nat
deriving DecidableEq

def NodeId.text (id : NodeId) : String :=
  s!"#{id.index}"

-- The branches of a router, in the order in which their keys were first given.
abbrev Branches := List (String × NodeId)

structure Plan.Node where
  id : NodeId
  key : String
  step : Step

structure Plan where
  nodes : List Plan.Node
  root : NodeId
  branches : List (NodeId × Branches)
  chain : List (NodeId × NodeId)

namespace Plan

def node? (p : Plan) (id : NodeId) : Option Node :=
  p.nodes[id.index]?

def rootNode? (p : Plan) : Option Node :=
  p.node? p.root

def branches? (p : Plan) (id : NodeId) : Option Branches :=
  Keyed.get? id p.branches

-- Where a router goes on for a route key.
def branch? (p : Plan) (id : NodeId) (key : String) : Option NodeId :=
  (p.branches? id).bind (Keyed.get? key)

-- Where an action goes on.
def next? (p : Plan) (id : NodeId) : Option NodeId :=
  Keyed.get? id p.chain

-- The first node of a key, in the order in which the nodes were added.
def find? (p : Plan) (key : String) : Option Node :=
  p.nodes.find? (·.key == key)

def nodeCount (p : Plan) : Nat :=
  p.nodes.length

-- The definition of the part below a node, if it is at most `n` nodes deep. A branch table takes
-- precedence over a successor.
def definitionOf (p : Plan) : Nat → NodeId → Option String → Option Definition
  | 0, _, _ => none
  | n + 1, id, routeKey => do
    let node ← p.node? id
    let children ← match p.branches? id, p.next? id with
      | some table, _ => table.mapM fun (key, child) => p.definitionOf n child (some key)
      | none, some next => (p.definitionOf n next none).map ([·])
      | none, none => some []
    some (.mk node.key routeKey (if children.isEmpty then none else some children))

-- The plan as a definition. A plan without cycles is nowhere deeper than it has nodes; one with a
-- cycle below its root has no definition.
def toDefinition? (p : Plan) : Option Definition :=
  p.definitionOf p.nodeCount p.root none

end Plan
end RoutingPlan
