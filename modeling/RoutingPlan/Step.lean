import RoutingPlan.Context

-- Steps: routers decide where a run goes on, actions produce output. What a step answers depends on
-- its input and on the context of the run.

namespace RoutingPlan

open Json (Value)

-- The answer of a step. A step that waits for something has none yet.
inductive Reply (α : Type) where
  | pending
  | failed (e : Error)
  | done (a : α)

inductive StepKind where
  | router
  | action
deriving DecidableEq

def StepKind.name : StepKind → String
  | router => "router"
  | action => "action"

inductive Step where
  -- Decides a route key, or none when it knows no way.
  | router (name : String) (decide : Value → Context → Reply (Option String))
  -- Produces an output, or none.
  | action (name : String) (act : Value → Context → Reply (Option Value))

namespace Step

def name : Step → String
  | router n _ => n
  | action n _ => n

def kind : Step → StepKind
  | router _ _ => .router
  | action _ _ => .action

def isRouter (s : Step) : Bool :=
  s.kind = .router

end Step
end RoutingPlan
