import RoutingPlan.Definition.Json
import RoutingPlan.Context

-- Readings: what a JSON value can be taken for. A reading has the name by which an error message
-- speaks of it. `Context.inputAs` and `Context.outputAs` read the two ends of a run.

namespace RoutingPlan

open Json (Tree Value)

structure Reading (α : Type) where
  name : String
  read? : Value → Option α

namespace Reading

variable {α β : Type}

-- Reads a value, or says what was expected and what was there.
def read (r : Reading α) (v : Value) : Except Error α :=
  match r.read? v with
  | some a => .ok a
  | none => .error (.valueType r.name v.kind)

-- Every value, as it is.
def any : Reading Value :=
  ⟨"Value", some⟩

def string : Reading String :=
  ⟨"String", Value.string?⟩

def bool : Reading Bool where
  name := "bool"
  read?
    | .bool b => some b
    | _ => none

-- A string of one character.
def char : Reading Char where
  name := "char"
  read? v :=
    match v.string?.map String.toList with
    | some [c] => some c
    | _ => none

-- Whole numbers between two bounds.
def integer (name : String) (low high : Int) : Reading Int where
  name := name
  read?
    | .number (.whole n) => if low ≤ n ∧ n ≤ high then some n else none
    | _ => none

def signed (bits : Nat) : Reading Int :=
  integer s!"i{bits}" (-twoTo (bits - 1)) (twoTo (bits - 1) - 1)

def unsigned (bits : Nat) : Reading Int :=
  integer s!"u{bits}" 0 (twoTo bits - 1)

-- Any number, rounded where it has to be.
def real : Reading Binary64 where
  name := "f64"
  read?
    | .number n => n.toReal?
    | _ => none

-- Null alone.
def unit : Reading Unit where
  name := "()"
  read?
    | .null => some ()
    | _ => none

-- Null, or what another reading accepts.
def optional (r : Reading α) : Reading (Option α) where
  name := "Option"
  read?
    | .null => some none
    | v => (r.read? v).map some

def elements? (r : Reading α) : Value → Option (List α)
  | .array vs => vs.mapM r.read?
  | _ => none

def list (r : Reading α) : Reading (List α) :=
  ⟨"Vec", r.elements?⟩

-- Arrays of one length.
def vector (name : String) (length : Nat) (r : Reading α) : Reading (List α) :=
  ⟨name, fun v => (r.elements? v).filter (·.length = length)⟩

-- Arrays of two elements.
def pair (name : String) (r : Reading α) (r' : Reading β) : Reading (α × β) where
  name := name
  read?
    | .array [v, v'] => do some (← r.read? v, ← r'.read? v')
    | _ => none

-- Objects whose members another reading accepts.
def table (r : Reading α) : Reading (List (String × α)) where
  name := "BTreeMap"
  read?
    | .object ms => ms.mapM fun (k, v) => (r.read? v).map (k, ·)
    | _ => none

-- The name of a role, alone or with null as the only member of an object.
def role : Reading Role where
  name := "Role"
  read?
    | .string s => Role.ofName? s
    | .object [(s, .null)] => Role.ofName? s
    | _ => none

def runId : Reading RunId :=
  ⟨"RunId", fun v => v.string?.map RunId.mk⟩

-- A message and its time, as an array of the three or as an object, in which other members do not
-- matter.
def message : Reading (Message × Instant) where
  name := "ChatMessage"
  read?
    | .array [r, c, t] => message? r c t
    | .object ms => do
      message? (← Keyed.get? "role" ms) (← Keyed.get? "content" ms) (← Keyed.get? "timestamp" ms)
    | _ => none
where
  message? (r c t : Value) : Option (Message × Instant) := do
    some (⟨← role.read? r, ← c.string?⟩, ← t.string?.bind Instant.ofText?)

def definition : Reading Definition :=
  ⟨"PlanDefinition", fun v => Definition.ofTree? (Tree.ofValue v)⟩

end Reading

namespace Context

variable {α : Type}

def inputAs (c : Context) (r : Reading α) : Except Error α :=
  r.read c.input

-- The output, if there is one.
def outputAs (c : Context) (r : Reading α) : Except Error (Option α) :=
  match c.output with
  | none => .ok none
  | some v => (r.read v).map some

end Context
end RoutingPlan
