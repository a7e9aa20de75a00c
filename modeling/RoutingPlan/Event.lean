import RoutingPlan.Step

-- Events: what a run makes known while it goes through a plan.

namespace RoutingPlan

open Json (Value)

inductive Event.Detail where
  | runStarted (input : Value)
  | stepStarted (step : String) (kind : StepKind)
  | routeDecided (step routeKey : String)
  | actionCompleted (step : String) (hasOutput : Bool)
  | runCompleted (steps : Nat)
  | runFailed (error : String)
deriving DecidableEq

structure Event where
  runId : RunId
  detail : Event.Detail
deriving DecidableEq

namespace Event

namespace Detail

def name : Detail → String
  | runStarted _ => "run_started"
  | stepStarted _ _ => "step_started"
  | routeDecided _ _ => "route_decided"
  | actionCompleted _ _ => "action_completed"
  | runCompleted _ => "run_completed"
  | runFailed _ => "run_failed"

-- The members that say more than the name of the event.
def members : Detail → List (String × Value)
  | runStarted input => [("input", input)]
  | stepStarted step kind => [("step", .string step), ("kind", .string kind.name)]
  | routeDecided step routeKey => [("step", .string step), ("route_key", .string routeKey)]
  | actionCompleted step hasOutput => [("step", .string step), ("has_output", .bool hasOutput)]
  | runCompleted steps => [("steps", .whole steps)]
  | runFailed error => [("error", .string error)]

-- Whether a run has no event after this one.
def isTerminal : Detail → Bool
  | runCompleted _ | runFailed _ => true
  | _ => false

end Detail

def members (e : Event) : List (String × Value) :=
  ("event", .string e.detail.name) :: ("run_id", .string e.runId.text) :: e.detail.members

def toJson (e : Event) : Value :=
  .object e.members

def isTerminal (e : Event) : Bool :=
  e.detail.isTerminal

end Event
end RoutingPlan
