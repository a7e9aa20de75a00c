import RoutingPlan.Error
import RoutingPlan.Instant
import RoutingPlan.Json.Reader
import RoutingPlan.Json.Printer

-- Execution records: what one step consumed, when, and what came of it. A router leaves a route
-- key, an action its output, if it has one.

namespace RoutingPlan

open Json (Tree Value)

structure Record where
  step : String
  startedAt : Instant
  finishedAt : Instant
  input : Value
  output : Option Value
  routeKey : Option String
deriving DecidableEq

namespace Record

def routed (step : String) (startedAt finishedAt : Instant) (input : Value) (routeKey : String) :
    Record :=
  ⟨step, startedAt, finishedAt, input, none, some routeKey⟩

def acted (step : String) (startedAt finishedAt : Instant) (input : Value)
    (output : Option Value) : Record :=
  ⟨step, startedAt, finishedAt, input, output, none⟩

def elapsedMilliseconds (r : Record) : Int :=
  r.startedAt.millisecondsTo r.finishedAt

inductive Field where
  | step
  | startedAt
  | finishedAt
  | input
  | output
  | routeKey
deriving DecidableEq

namespace Field

def name : Field → String
  | step => "step_name"
  | startedAt => "started_at"
  | finishedAt => "finished_at"
  | input => "input"
  | output => "output"
  | routeKey => "route_key"

-- The fields in the order in which they are written.
def all : List Field :=
  [step, startedAt, finishedAt, input, output, routeKey]

def ofName? (s : String) : Option Field :=
  all.find? (·.name == s)

end Field

def optional (name : String) : Option Value → List (String × Value)
  | none => []
  | some v => [(name, v)]

-- A record as JSON. An absent output or route key has no member.
def toJson (r : Record) : Value :=
  .object ([
    (Field.step.name, .string r.step),
    (Field.startedAt.name, .string r.startedAt.text),
    (Field.finishedAt.name, .string r.finishedAt.text),
    (Field.input.name, r.input)] ++
    optional Field.output.name r.output ++
    optional Field.routeKey.name (r.routeKey.map .string))

-- The same with its members in the order of their names, as a value that has been read.
def toValue (r : Record) : Value :=
  match r.toJson with
  | .object ms => .ofMembers ms
  | v => v

def instant? (v : Value) : Option Instant :=
  v.string?.bind Instant.ofText?

-- Null stands for no output.
def output? : Option Value → Option Value
  | some .null => none
  | v => v

-- Null stands for no route key.
def routeKey? : Option Value → Option (Option String)
  | none | some .null => some none
  | some v => v.string?.map some

-- A record from its fields: no field comes twice, and only output and route key can be missing.
def ofFields? (fields : List (Field × Value)) : Option Record := do
  if (fields.map (·.1)).Nodup then
    let step ← (← Keyed.get? .step fields).string?
    let startedAt ← instant? (← Keyed.get? .startedAt fields)
    let finishedAt ← instant? (← Keyed.get? .finishedAt fields)
    let input ← Keyed.get? .input fields
    let output := output? (Keyed.get? .output fields)
    let routeKey ← routeKey? (Keyed.get? .routeKey fields)
    some ⟨step, startedAt, finishedAt, input, output, routeKey⟩
  else none

-- An array holds the fields in order, and the last ones can be missing.
def ofElements? (vs : List Value) : Option Record :=
  if vs.length ≤ Field.all.length then ofFields? (Field.all.zip vs) else none

-- A record from a value: an object of its fields, where other members do not matter, or an array.
def ofValue? : Value → Option Record
  | .object ms => ofFields? (ms.filterMap fun (k, v) => (Field.ofName? k).map (·, v))
  | .array vs => ofElements? vs
  | _ => none

-- Texts in which arrays and objects are nested deeper than this are refused.
def maxJsonNesting : Nat := 127

-- The value of a field. Of the levels of nesting, the record itself takes one.
def fieldValue? (t : Tree) : Option Value :=
  if t.height < maxJsonNesting then t.value? else none

-- The known members of an object, none where the name or the value of one makes no sense. Other
-- members are passed over, however deep they are nested.
def knownMembers? : List (Option String × Tree) → Option (List (Field × Value))
  | [] => some []
  | (none, _) :: _ => none
  | (some k, t) :: ms =>
    match Field.ofName? k with
    | none => knownMembers? ms
    | some f =>
      match fieldValue? t, knownMembers? ms with
      | some v, some fs => some ((f, v) :: fs)
      | _, _ => none

def ofTree? : Tree → Option Record
  | .object ms => (knownMembers? ms).bind ofFields?
  | .array ts => (ts.mapM fieldValue?).bind ofElements?
  | _ => none

def ofJson? (text : String) : Option Record :=
  (Tree.ofText? text).bind ofTree?

def fromJson (text : String) : Except Error Record :=
  match ofJson? text with
  | some r => .ok r
  | none => .error (.json "not an execution record")

end Record
end RoutingPlan
