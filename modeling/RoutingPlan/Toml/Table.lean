import RoutingPlan.Toml.Value
import RoutingPlan.Keyed

-- Tables as they grow while a document is read. A table can be there before anyone defines it,
-- because a header or a dotted key goes through it; the rules on what may be defined later depend
-- on which.

namespace RoutingPlan.Toml

structure TableOf (α : Type) where
  -- Something goes through the table, and no header of its own has come yet.
  implicit : Bool
  -- What goes through the table is a dotted key.
  dotted : Bool
  entries : List (String × α)

inductive Item where
  | value (v : Value)
  | table (t : TableOf Item)
  | tables (ts : List (TableOf Item))

abbrev Table := TableOf Item

namespace Table

def new : Table := ⟨false, false, []⟩

def get? (t : Table) (key : String) : Option Item :=
  Keyed.get? key t.entries

def put (t : Table) (key : String) (item : Item) : Table :=
  { t with entries := Keyed.put key item t.entries }

def erase (t : Table) (key : String) : Table :=
  { t with entries := Keyed.erase key t.entries }

-- Changes the table at the end of a path. Tables on the way are made where there are none, and of
-- several tables under one key the last is entered. Dotted keys do not enter a defined table.
def change {α : Type} (dotted : Bool) :
    List String → (Table → Option (α × Table)) → Table → Option (α × Table)
  | [], f, t => f t
  | key :: path, f, t =>
    match t.get? key with
    | none =>
      (change dotted path f ⟨true, dotted, []⟩).map fun (a, s) => (a, t.put key (.table s))
    | some (.value _) => none
    | some (.tables ts) =>
      match ts.getLast? with
      | none => none
      | some s =>
        (change dotted path f s).map fun (a, s) => (a, t.put key (.tables (ts.dropLast ++ [s])))
    | some (.table s) =>
      if dotted && !s.implicit then none
      else (change dotted path f s).map fun (a, s) => (a, t.put key (.table s))

-- Defines a key, at the end of a path of dotted keys. No key is defined twice, and dotted keys do
-- not add to a table that a header goes through.
def define (t : Table) (path : List String) (key : String) (v : Value) : Option Table :=
  (t.change true path fun s =>
    if s.dotted == path.isEmpty || (s.get? key).isSome then none
    else some ((), s.put key (.value v))).map (·.2)

-- Takes out the table that a header names, to be filled. It may be there only because longer
-- headers went through it.
def takeTable (t : Table) (path : List String) (key : String) : Option (Table × Table) :=
  t.change false path fun s =>
    match s.get? key with
    | none => some (new, s)
    | some (.table u) =>
      if u.implicit && !u.dotted then some ({ u with implicit := false }, s.erase key) else none
    | some _ => none

def putTable (t : Table) (path : List String) (key : String) (u : Table) : Option Table :=
  (t.change false path fun s => some ((), s.put key (.table u))).map (·.2)

-- Makes sure that a key can hold several tables.
def reserveTables (t : Table) (path : List String) (key : String) : Option Table :=
  (t.change false path fun s =>
    match s.get? key with
    | none => some ((), s.put key (.tables []))
    | some (.tables _) => some ((), s)
    | some _ => none).map (·.2)

def addTable (t : Table) (path : List String) (key : String) (u : Table) : Option Table :=
  (t.change false path fun s =>
    match s.get? key with
    | some (.tables ts) => some ((), s.put key (.tables (ts ++ [u])))
    | none => some ((), s.put key (.tables [u]))
    | some _ => none).map (·.2)

end Table

mutual

def Item.toValue : Item → Value
  | .value v => v
  | .table ⟨_, _, es⟩ => .table (entriesToValues es)
  | .tables ts => .array (tablesToValues ts)

def entriesToValues : List (String × Item) → List (String × Value)
  | [] => []
  | (k, i) :: es => (k, i.toValue) :: entriesToValues es

def tablesToValues : List (TableOf Item) → List Value
  | [] => []
  | ⟨_, _, es⟩ :: ts => .table (entriesToValues es) :: tablesToValues ts

end

def Table.toValue (t : Table) : Value :=
  .table (entriesToValues t.entries)

end RoutingPlan.Toml
