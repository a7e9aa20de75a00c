import RoutingPlan.Plan
import RoutingPlan.Event

-- Running a plan. A run moves in steps so small that several runs can take turns: one move makes
-- one event known or invokes one step. `Run.move` is the move, `Run.drive` lets a run move on alone
-- and `Plan.execute` takes it from its start.

namespace RoutingPlan

open Json (Value)

-- The times at which the invocation that makes the `n`-th record of a context begins and ends.
abbrev Clock := Nat → Instant × Instant

-- A clock that stands still.
def Clock.still (t : Instant) : Clock :=
  fun _ => (t, t)

inductive Run.Phase where
  | ready
  -- The run goes on at a node.
  | entering (id : NodeId)
  -- The step of the node has been made known.
  | invoking (id : NodeId) (step : Step)
  -- The step has been recorded, which is still to be made known.
  | recorded (detail : Event.Detail) (next : Except Error (Option NodeId))
  | closing (result : Except Error Unit)
  | finished (result : Except Error Unit)

structure Run where
  plan : Plan
  clock : Clock
  context : Context
  phase : Run.Phase

namespace Run

def start (plan : Plan) (clock : Clock) (context : Context) : Run :=
  ⟨plan, clock, context, .ready⟩

def event (r : Run) (detail : Event.Detail) : Event :=
  ⟨r.context.runId, detail⟩

-- Where a router goes on for the key that it decided.
def follow (plan : Plan) (id : NodeId) (router key : String) : Except Error (Option NodeId) :=
  match plan.branches? id with
  | none | some [] => .error (.routerHasNoBranches router)
  | some table =>
    match Keyed.get? key table with
    | some next => .ok (some next)
    | none => .error (.unmatchedRouteKey router key)

-- What becomes of a decision: a route key that is not blank is recorded, all else ends the run.
def decided (r : Run) (id : NodeId) (name : String) : Option String → Run
  | some key =>
    if Text.isBlank key then { r with phase := .closing (.error (.undeterminedRoute name)) }
    else
      let (began, ended) := r.clock r.context.records.length
      let record := Record.routed name began ended r.context.workingInput key
      { r with
        context := (r.context.setRouteKey key).pushRecord record
        phase := .recorded (.routeDecided name key) (follow r.plan id name key) }
  | none => { r with phase := .closing (.error (.undeterminedRoute name)) }

-- What becomes of an output: null is as good as none.
def acted (r : Run) (id : NodeId) (name : String) (output : Option Value) : Run :=
  let output := output.filter (!·.isNull)
  let (began, ended) := r.clock r.context.records.length
  let record := Record.acted name began ended r.context.workingInput output
  { r with
    context := (r.context.setOutput output).pushRecord record
    phase := .recorded (.actionCompleted name output.isSome) (.ok (r.plan.next? id)) }

-- Invokes a step. There is no move while the step waits.
def invoke (r : Run) (id : NodeId) : Step → Option Run
  | .router name decide =>
    match decide r.context.workingInput r.context with
    | .pending => none
    | .failed e => some { r with phase := .closing (.error e) }
    | .done key => some (r.decided id name key)
  | .action name act =>
    match act r.context.workingInput r.context with
    | .pending => none
    | .failed e => some { r with phase := .closing (.error e) }
    | .done output => some (r.acted id name output)

-- One move, and the event that it makes known. A finished run has none.
def move (r : Run) : Option (Run × Option Event) :=
  match r.phase with
  | .ready =>
    some ({ r with phase := .entering r.plan.root }, some (r.event (.runStarted r.context.input)))
  | .entering id =>
    match r.plan.node? id with
    | some node =>
      some ({ r with phase := .invoking id node.step },
        some (r.event (.stepStarted node.step.name node.step.kind)))
    | none =>
      some ({ r with phase := .closing (.error (.step id.text "node not found in plan")) }, none)
  | .invoking id step => (r.invoke id step).map (·, none)
  | .recorded detail next =>
    let phase := match next with
      | .ok (some id) => .entering id
      | .ok none => .closing (.ok ())
      | .error e => .closing (.error e)
    some ({ r with phase := phase }, some (r.event detail))
  | .closing result =>
    let detail := match result with
      | .ok () => .runCompleted r.context.records.length
      | .error e => .runFailed e.message
    some ({ r with phase := .finished result }, some (r.event detail))
  | .finished _ => none

def result? (r : Run) : Option (Except Error Unit) :=
  match r.phase with
  | .finished result => some result
  | _ => none

-- At most `n` moves, and the events that they make known.
def drive : Nat → Run → Run × List Event
  | 0, r => (r, [])
  | n + 1, r =>
    match r.move with
    | none => (r, [])
    | some (r, e) =>
      let (r, es) := drive n r
      (r, e.toList ++ es)

-- The token of the run's context fires.
def cancel (r : Run) : Run :=
  { r with context := r.context.fire r.context.token.id }

-- Lets a run move on until it can no more. If it has not finished then, one of its steps waits: the
-- token fires, and the run moves on again. A run that never waits does not see its token fire.
def driveCancelling (n : Nat) (r : Run) : Run × List Event :=
  let (r, es) := drive n r
  if r.result?.isSome then (r, es)
  else
    let (r, es') := drive n r.cancel
    (r, es ++ es')

end Run

-- Runs a plan for at most `n` moves.
def Plan.execute (p : Plan) (clock : Clock) (context : Context) (n : Nat) : Run × List Event :=
  (Run.start p clock context).drive n

-- Moves enough for a plan in which no node is visited twice: one to begin, three at every node and
-- one to end.
def Plan.moves (p : Plan) : Nat :=
  3 * p.nodeCount + 2

end RoutingPlan
