import RoutingPlan.Json.Value

-- A JSON text that has the right form but has not been given a meaning yet. Strings can still hold
-- half a surrogate pair and numbers can be out of range: neither matters in a part that nobody
-- reads.

namespace RoutingPlan.Json

inductive Tree where
  | null
  | bool (b : Bool)
  | number (value? : Option Number)
  | string (text? : Option String)
  | array (elements : List Tree)
  | object (members : List (Option String × Tree))

namespace Tree

mutual

-- The value that a tree spells, none where a string or a number in it has no meaning.
def value? : Tree → Option Value
  | null => some .null
  | bool b => some (.bool b)
  | number n => n.map .number
  | string s => s.map .string
  | array ts => (values? ts).map .array
  | object ms => (members? ms).map Value.ofMembers

def values? : List Tree → Option (List Value)
  | [] => some []
  | t :: ts =>
    match value? t, values? ts with
    | some v, some vs => some (v :: vs)
    | _, _ => none

def members? : List (Option String × Tree) → Option (List (String × Value))
  | [] => some []
  | (k, t) :: ms =>
    match k, value? t, members? ms with
    | some k, some v, some vs => some ((k, v) :: vs)
    | _, _, _ => none

end

def string? : Tree → Option String
  | string s => s
  | _ => none

mutual

-- How deep arrays and objects are nested in a tree. Every member of an object counts, also one that
-- gives way to a later one of its name.
def height : Tree → Nat
  | null | bool _ | number _ | string _ => 0
  | array ts => 1 + elementsHeight ts
  | object ms => 1 + membersHeight ms

def elementsHeight : List Tree → Nat
  | [] => 0
  | t :: ts => max (height t) (elementsHeight ts)

def membersHeight : List (Option String × Tree) → Nat
  | [] => 0
  | (_, t) :: ms => max (height t) (membersHeight ms)

end

mutual

-- The tree that spells a value.
def ofValue : Value → Tree
  | .null => null
  | .bool b => bool b
  | .number n => number (some n)
  | .string s => string (some s)
  | .array vs => array (ofValues vs)
  | .object ms => object (ofMembers ms)

def ofValues : List Value → List Tree
  | [] => []
  | v :: vs => ofValue v :: ofValues vs

def ofMembers : List (String × Value) → List (Option String × Tree)
  | [] => []
  | (k, v) :: ms => (some k, ofValue v) :: ofMembers ms

end

end Tree
end RoutingPlan.Json
