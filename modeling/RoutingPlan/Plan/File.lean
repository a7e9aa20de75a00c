import RoutingPlan.Definition.Toml
import RoutingPlan.Path

-- Plan files. What a file is called decides how it is read: a name that ends in `.toml` stands for
-- TOML, every other name for JSON.

namespace RoutingPlan

-- How a definition is written down.
inductive Definition.Format where
  | json
  | toml
deriving DecidableEq

namespace Definition

def Format.ofPath (path : String) : Format :=
  if Path.extension? path = some "toml" then .toml else .json

def ofText : Format → String → Except Error Definition
  | .json => fromJson
  | .toml => fromToml

end Definition

namespace Plan

def ofText (resolve : Resolver) (format : Definition.Format) (text : String) :
    Except Error Plan := do
  (← Definition.ofText format text).compile resolve

-- The plan in a file, given what the file system answered when asked for its content.
def ofFile (resolve : Resolver) (path : String) : Except Fault String → Except Error Plan
  | .ok text => ofText resolve (.ofPath path) text
  | .error fault => .error (.io fault)

end Plan
end RoutingPlan
