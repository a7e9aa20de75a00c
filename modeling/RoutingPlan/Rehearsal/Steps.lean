import RoutingPlan.Step
import RoutingPlan.Text.Case
import RoutingPlan.Text.Search

-- Steps with which a plan can be tried out before its real steps exist: routers that go by keywords
-- or always one way, actions with canned answers, steps that follow a script, that fail or that
-- wait.

namespace RoutingPlan.Step

open Json (Value)

-- The lower case of a string; other values have no text.
def lowerText (v : Value) : String :=
  Text.toLower (v.string?.getD "")

-- The route key of the first rule whose keyword, in lower case, occurs in the input.
def routeByKeyword (rules : List (String × String)) (input : Value) : Option String :=
  (rules.find? fun rule => Text.contains (lowerText input) (Text.toLower rule.1)).map (·.2)

def keyword (name : String) (rules : List (String × String)) : Step :=
  .router name fun input _ => .done (routeByKeyword rules input)

-- Goes the same way always.
def fixed (name route : String) : Step :=
  .router name fun _ _ => .done (some route)

-- Knows no way.
def undetermined (name : String) : Step :=
  .router name fun _ _ => .done none

-- Goes the way that its input names.
def echoRouter (name : String) : Step :=
  .router name fun input _ => .done (some input.text)

def canned (name : String) (output : Value) : Step :=
  .action name fun _ _ => .done (some output)

def silent (name : String) : Step :=
  .action name fun _ _ => .done none

-- A string comes back in upper case, any other value as it is.
def shout : Step :=
  .action "ShoutAction" fun input _ =>
    .done (some (match input with
      | .string s => .string (Text.toUpper s)
      | v => v))

def failing : Step :=
  .action "FailingAction" fun _ _ => .failed (.step "FailingAction" "backend unavailable")

-- Answers once the token of the run has fired.
def waitForCancel : Step :=
  .action "WaitForCancelAction" fun _ c =>
    if c.isCancelled then .done (some (.string "cancelled")) else .pending

-- Reports its input and what the context holds before it is recorded.
def probe (name : String) : Step :=
  .action name fun input c =>
    .done (some (.ofMembers [
      ("input", input),
      ("original", c.input),
      ("has_output", .bool c.output.isSome),
      ("route_key", (c.routeKey.map .string).getD .null),
      ("records", .whole c.records.length),
      ("history", .whole c.history.length),
      ("cancelled", .bool c.isCancelled)]))

-- The entry of a script that is due: one for each record of the step, the last one ever after.
def due {α : Type} (name : String) (script : List (Option α)) (c : Context) : Option α :=
  let n := (c.records.filter (·.step == name)).length
  (script[min n (script.length - 1)]?).join

def scriptedRouter (name : String) (routes : List (Option String)) : Step :=
  .router name fun _ c => .done (due name routes c)

def scriptedAction (name : String) (outputs : List (Option Value)) : Step :=
  .action name fun _ c => .done (due name outputs c)

def failingRouter (name : String) (e : Error) : Step :=
  .router name fun _ _ => .failed e

def failingAction (name : String) (e : Error) : Step :=
  .action name fun _ _ => .failed e

end RoutingPlan.Step
