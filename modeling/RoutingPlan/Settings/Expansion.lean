import RoutingPlan.Settings.Environment

-- References to the environment in a text: a dollar sign and a name in braces. Each stands for the
-- value of the variable, or for itself where there is none. Values are not looked at again.

namespace RoutingPlan.Settings

-- What stands for a reference to a name.
def substitute (env : Environment) (name : List Char) : List Char :=
  match env (String.ofList name) with
  | some value => value.toList
  | none => '$' :: '{' :: name ++ ['}']

-- A text in its parts. A reference reaches to the first closing brace, or to the end of the text if
-- there is none.
inductive Part where
  | char (c : Char)
  | reference (name : List Char)

mutual

def parts : List Char → List Part
  | [] => []
  | '$' :: '{' :: cs => nameParts [] cs
  | c :: cs => .char c :: parts cs

-- The parts after an opening brace; the name is collected from its end.
def nameParts (name : List Char) : List Char → List Part
  | [] => [.reference name.reverse]
  | c :: cs => if c = '}' then .reference name.reverse :: parts cs else nameParts (c :: name) cs

end

def Part.expand (env : Environment) : Part → List Char
  | char c => [c]
  | reference name => substitute env name

def expand (env : Environment) (text : String) : String :=
  String.ofList ((parts text.toList).flatMap (Part.expand env))

-- The names that a text refers to.
def referencedNames (text : String) : List String :=
  (parts text.toList).filterMap fun
    | .char _ => none
    | .reference name => some (String.ofList name)

end RoutingPlan.Settings
