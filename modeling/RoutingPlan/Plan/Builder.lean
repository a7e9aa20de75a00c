import RoutingPlan.Plan

-- Assembling a plan node by node. A builder takes any node numbers in its tables; only `build`
-- looks whether they are its own.

namespace RoutingPlan.Plan

structure Builder where
  nodes : List Node
  branches : List (NodeId × Branches)
  chain : List (NodeId × NodeId)

namespace Builder

def empty : Builder := ⟨[], [], []⟩

-- Adds a step under a key.
def add (b : Builder) (key : String) (step : Step) : NodeId × Builder :=
  let id : NodeId := ⟨b.nodes.length⟩
  (id, { b with nodes := b.nodes ++ [⟨id, key, step⟩] })

-- Adds a step under its own name.
def addStep (b : Builder) (step : Step) : NodeId × Builder :=
  b.add step.name step

def table (b : Builder) (router : NodeId) : Branches :=
  (Keyed.get? router b.branches).getD []

-- Gives a router a child for a route key, and says which child the key led to before.
def branch (b : Builder) (router : NodeId) (key : String) (child : NodeId) :
    Option NodeId × Builder :=
  (Keyed.get? key (b.table router),
    { b with branches := Keyed.put router (Keyed.put key child (b.table router)) b.branches })

-- Lets one node follow another, in place of any that followed it before.
def chainTo (b : Builder) (source next : NodeId) : Builder :=
  { b with chain := Keyed.put source next b.chain }

def owns (b : Builder) (id : NodeId) : Bool :=
  id.index < b.nodes.length

-- The node numbers in the tables.
def mentioned (b : Builder) : List NodeId :=
  b.branches.flatMap (fun (router, table) => router :: table.map (·.2)) ++
    b.chain.flatMap fun (source, next) => [source, next]

-- The plan that begins at `root`, unless there is a node number that the builder never gave out.
def build (b : Builder) (root : NodeId) : Except Error Plan :=
  match (root :: b.mentioned).find? (!b.owns ·) with
  | some id => .error (.danglingNode id.text)
  | none => .ok ⟨b.nodes, root, b.branches, b.chain⟩

end Builder
end RoutingPlan.Plan
