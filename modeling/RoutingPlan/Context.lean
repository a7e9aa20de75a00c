import RoutingPlan.Record
import RoutingPlan.Text.Blank

-- The context of a run: its input, what its steps have produced so far, and the conversation before
-- it. Main operations: `Context.new` accepts an input that is not empty, `Context.workingInput` is
-- what the next step consumes, and `Context.nextTurn` turns a finished exchange into history.

namespace RoutingPlan

open Json (Value)

structure RunId where
  text : String
deriving DecidableEq

-- A cancellation token. Contexts that share one have tokens of the same number.
structure Token where
  id : Nat
  fired : Bool
deriving DecidableEq

inductive Role where
  | user
  | assistant
deriving DecidableEq

def Role.name : Role → String
  | user => "user"
  | assistant => "assistant"

def Role.ofName? (name : String) : Option Role :=
  [user, assistant].find? (·.name == name)

structure Message where
  role : Role
  content : String
deriving DecidableEq

structure Context where
  runId : RunId
  input : Value
  output : Option Value
  routeKey : Option String
  records : List Record
  history : List Message
  startedAt : Instant
  token : Token
deriving DecidableEq

namespace Context

-- What is fresh for every run: its name, the time at which it begins and a token that has not
-- fired.
structure Seed where
  runId : RunId
  startedAt : Instant
  tokenId : Nat

-- Null and blank strings are no input.
def isEmptyInput : Value → Bool
  | .null => true
  | .string s => Text.isBlank s
  | _ => false

def new (seed : Seed) (input : Value) : Except Error Context :=
  if isEmptyInput input then .error .emptyInput
  else .ok
    { runId := seed.runId
      input := input
      output := none
      routeKey := none
      records := []
      history := []
      startedAt := seed.startedAt
      token := ⟨seed.tokenId, false⟩ }

def withHistory (c : Context) (history : List Message) : Context :=
  { c with history := history }

def withToken (c : Context) (token : Token) : Context :=
  { c with token := token }

-- The messages of a run: what was asked, and the answer where there is one.
def exchange (c : Context) : List Message :=
  ⟨.user, c.input.text⟩ :: (c.output.map fun v => ⟨.assistant, v.text⟩).toList

-- The last `n` of a list.
def lastOf {α : Type} (n : Nat) (xs : List α) : List α :=
  xs.drop (xs.length - n)

-- The context of the next turn: the exchange of this one joins the history, of which the last
-- `limit` messages are kept, and the token goes along.
def nextTurn (c : Context) (seed : Seed) (input : Value) (limit : Nat) : Except Error Context := do
  let next ← new seed input
  return (next.withHistory (lastOf limit (c.history ++ c.exchange))).withToken c.token

-- The context of a turn: the one after the previous turn, or the first of a conversation.
def follow (previous : Option Context) (seed : Seed) (input : Value) (limit : Nat) :
    Except Error Context :=
  match previous with
  | none => new seed input
  | some c => c.nextTurn seed input limit

-- The newest output among the records, else the input of the run.
def workingInput (c : Context) : Value :=
  (c.records.reverse.findSome? (·.output)).getD c.input

def finishedAt (c : Context) : Option Instant :=
  c.records.getLast?.map (·.finishedAt)

def setOutput (c : Context) (output : Option Value) : Context :=
  { c with output := output }

def setRouteKey (c : Context) (key : String) : Context :=
  { c with routeKey := some key }

-- Records are only ever added at the end.
def pushRecord (c : Context) (r : Record) : Context :=
  { c with records := c.records ++ [r] }

-- The context once the token of the given number has fired.
def fire (c : Context) (id : Nat) : Context :=
  if c.token.id = id then { c with token := { c.token with fired := true } } else c

def isCancelled (c : Context) : Bool :=
  c.token.fired

-- The history as lines of text, oldest first.
def prompt (c : Context) : String :=
  "\n".intercalate (c.history.map fun m => s!"{m.role.name}: {m.content}")

theorem workingInput_of_records_nil {c : Context} (h : c.records = []) :
    c.workingInput = c.input := by
  simp [workingInput, h]

end Context
end RoutingPlan
