import RoutingPlan.Plan.Compile

-- The registry: steps by key, in ascending order of keys.

namespace RoutingPlan

structure Registry where
  entries : List (String × Step)

namespace Registry

def empty : Registry := ⟨[]⟩

instance : Inhabited Registry := ⟨empty⟩

-- Registers a step under a key, in place of any that was there.
def registerAs (r : Registry) (key : String) (step : Step) : Registry :=
  ⟨Keyed.putSorted key step r.entries⟩

-- Registers a step under its own name.
def register (r : Registry) (step : Step) : Registry :=
  r.registerAs step.name step

def registerAll (r : Registry) (steps : List Step) : Registry :=
  steps.foldl register r

def get? (r : Registry) (key : String) : Option Step :=
  Keyed.get? key r.entries

def contains (r : Registry) (key : String) : Bool :=
  (r.get? key).isSome

-- Removes a key, and says whether it was there.
def unregister (r : Registry) (key : String) : Bool × Registry :=
  (r.contains key, ⟨Keyed.erase key r.entries⟩)

-- The keys in ascending order.
def keys (r : Registry) : List String :=
  r.entries.map (·.1)

def size (r : Registry) : Nat :=
  r.entries.length

def isEmpty (r : Registry) : Bool :=
  r.entries.isEmpty

def resolve (r : Registry) : Resolver := fun key =>
  match r.get? key with
  | some step => .ok step
  | none => .error (.unknownStepKey key)

end Registry
end RoutingPlan
