import RoutingPlan.Definition
import RoutingPlan.Error
import RoutingPlan.Json.Reader
import RoutingPlan.Json.Printer

-- Plan definitions as JSON. Each field goes by several names; members of other names are passed
-- over.

namespace RoutingPlan.Definition

inductive Field where
  | step
  | routeKey
  | children
deriving DecidableEq

namespace Field

-- The first name of each field is the one that is written.
def names : Field → List String
  | step => ["step", "ServiceKey", "serviceKey", "service_key"]
  | routeKey => ["route_key", "RouteKey", "routeKey"]
  | children => ["children", "Children"]

def ofName? (name : String) : Option Field :=
  [step, routeKey, children].find? (·.names.contains name)

end Field

-- The fields met so far, each at most once.
structure Draft where
  step : Option String := none
  routeKey : Option (Option String) := none
  children : Option (Option (List Definition)) := none

namespace Draft

def setStep (d : Draft) (s : String) : Option Draft :=
  if d.step.isNone then some { d with step := some s } else none

def setRouteKey (d : Draft) (r : Option String) : Option Draft :=
  if d.routeKey.isNone then some { d with routeKey := some r } else none

def setChildren (d : Draft) (cs : Option (List Definition)) : Option Draft :=
  if d.children.isNone then some { d with children := some cs } else none

-- Only the step must be there.
def finish (d : Draft) : Option Definition :=
  d.step.map fun s => Definition.mk s (d.routeKey.getD none) (d.children.getD none)

end Draft

open Json (Tree Value)

-- A string, or null where there is none.
def optionalText? : Tree → Option (Option String)
  | .null => some none
  | t => t.string?.map some

mutual

-- A definition is an object of its fields or an array of them in order.
def ofTree? : Tree → Option Definition
  | .object ms => (ofMembers? {} ms).bind Draft.finish
  | .array ts => ofElements? ts
  | _ => none

def ofMembers? (d : Draft) : List (Option String × Tree) → Option Draft
  | [] => some d
  | (none, _) :: _ => none
  | (some name, t) :: ms =>
    match Field.ofName? name with
    | none => ofMembers? d ms
    | some .step =>
      match t.string?.bind d.setStep with
      | some d => ofMembers? d ms
      | none => none
    | some .routeKey =>
      match (optionalText? t).bind d.setRouteKey with
      | some d => ofMembers? d ms
      | none => none
    | some .children =>
      match (childrenOf? t).bind d.setChildren with
      | some d => ofMembers? d ms
      | none => none

def ofElements? : List Tree → Option Definition
  | [s] => s.string?.map leaf
  | [s, r] =>
    match s.string?, optionalText? r with
    | some s, some r => some (mk s r none)
    | _, _ => none
  | [s, r, c] =>
    match s.string?, optionalText? r, childrenOf? c with
    | some s, some r, some cs => some (mk s r cs)
    | _, _, _ => none
  | _ => none

def childrenOf? : Tree → Option (Option (List Definition))
  | .null => some none
  | .array ts => (ofTrees? ts).map some
  | _ => none

def ofTrees? : List Tree → Option (List Definition)
  | [] => some []
  | t :: ts =>
    match ofTree? t, ofTrees? ts with
    | some d, some ds => some (d :: ds)
    | _, _ => none

end

-- Texts nested deeper than this are refused.
def maxJsonNesting : Nat := 127

def ofJson? (text : String) : Option Definition := do
  let d ← ofTree? (← Tree.ofText? text)
  if d.nesting ≤ maxJsonNesting then some d else none

-- Reads a definition, or says that the text holds none.
def fromJson (text : String) : Except Error Definition :=
  match ofJson? text with
  | some d => .ok d
  | none => .error (.planParse "not a plan definition in JSON")

def routeMember : Option String → List (String × Value)
  | none => []
  | some r => [("route_key", .string r)]

mutual

-- Absent fields are left out; an empty list of children is written.
def toJson : Definition → Value
  | mk s r none => .object (("step", .string s) :: routeMember r)
  | mk s r (some cs) =>
    .object (("step", .string s) :: routeMember r ++ [("children", .array (toJsons cs))])

def toJsons : List Definition → List Value
  | [] => []
  | c :: cs => toJson c :: toJsons cs

end

-- The indented text of a definition.
def jsonText (d : Definition) : String :=
  d.toJson.pretty

end RoutingPlan.Definition
