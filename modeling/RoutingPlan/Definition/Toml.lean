import RoutingPlan.Plan.Compile
import RoutingPlan.Toml.Reader

-- Plan definitions as TOML, with the same fields under the same names as in JSON.

namespace RoutingPlan.Definition

mutual

-- A definition is a table of its fields or an array of them in order. A date counts as a table of
-- another kind, in which no field is.
def ofToml? : Toml.Value → Option Definition
  | .table es => (ofTomlEntries? {} es).bind Draft.finish
  | .array vs => ofTomlElements? vs
  | _ => none

def ofTomlEntries? (d : Draft) : List (String × Toml.Value) → Option Draft
  | [] => some d
  | (name, v) :: es =>
    match Field.ofName? name with
    | none => ofTomlEntries? d es
    | some .step =>
      match v.string?.bind d.setStep with
      | some d => ofTomlEntries? d es
      | none => none
    | some .routeKey =>
      match v.string?.bind fun r => d.setRouteKey (some r) with
      | some d => ofTomlEntries? d es
      | none => none
    | some .children =>
      match (ofTomlChildren? v).bind fun cs => d.setChildren (some cs) with
      | some d => ofTomlEntries? d es
      | none => none

-- What comes after the children does not matter.
def ofTomlElements? : List Toml.Value → Option Definition
  | [] => none
  | [s] => s.string?.map leaf
  | [s, r] =>
    match s.string?, r.string? with
    | some s, some r => some (mk s (some r) none)
    | _, _ => none
  | s :: r :: c :: _ =>
    match s.string?, r.string?, ofTomlChildren? c with
    | some s, some r, some cs => some (mk s (some r) (some cs))
    | _, _, _ => none

def ofTomlChildren? : Toml.Value → Option (List Definition)
  | .array vs => ofTomls? vs
  | _ => none

def ofTomls? : List Toml.Value → Option (List Definition)
  | [] => some []
  | v :: vs =>
    match ofToml? v, ofTomls? vs with
    | some d, some ds => some (d :: ds)
    | _, _ => none

end

-- Reads a definition, or says that the text holds none.
def fromToml (text : String) : Except Error Definition :=
  match (Toml.Value.ofText? text).bind ofToml? with
  | some d => .ok d
  | none => .error (.planParse "not a plan definition in TOML")

def tomlLine (key : String) (value : List Char) : List Char :=
  key.toList ++ [' ', '=', ' '] ++ value ++ ['\n']

def tomlRoute : Option String → List Char
  | none => []
  | some r => tomlLine "route_key" (Toml.renderString r)

-- The header of a table that lies under `depth` lists of children.
def tomlHeader (depth : Nat) : List Char :=
  '\n' :: '[' :: '[' ::
    (".".intercalate (List.replicate depth "children")).toList ++ [']', ']', '\n']

mutual

-- The lines of a definition that lies under `depth` lists of children: its fields and then each
-- child, with its own header.
def renderToml (depth : Nat) : Definition → List Char
  | mk s r none => tomlLine "step" (Toml.renderString s) ++ tomlRoute r
  | mk s r (some []) =>
    tomlLine "step" (Toml.renderString s) ++ tomlRoute r ++ tomlLine "children" ['[', ']']
  | mk s r (some (c :: cs)) =>
    tomlLine "step" (Toml.renderString s) ++ tomlRoute r ++ renderTomls (depth + 1) (c :: cs)

def renderTomls (depth : Nat) : List Definition → List Char
  | [] => []
  | c :: cs => tomlHeader depth ++ renderToml depth c ++ renderTomls depth cs

end

def tomlText (d : Definition) : String :=
  String.ofList (d.renderToml 0)

end RoutingPlan.Definition

namespace RoutingPlan.Plan

-- The plan that a TOML text defines.
def fromToml (resolve : Resolver) (text : String) : Except Error Plan := do
  (← Definition.fromToml text).compile resolve

end RoutingPlan.Plan
