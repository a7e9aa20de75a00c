-- TOML values. Of floats and dates only their form is checked, since nothing reads them.

namespace RoutingPlan.Toml

inductive Value where
  | string (s : String)
  | integer (n : Int)
  | float
  | boolean (b : Bool)
  | datetime
  | array (elements : List Value)
  | table (entries : List (String × Value))

namespace Value

instance : Inhabited Value := ⟨table []⟩

def string? : Value → Option String
  | string s => some s
  | _ => none

def integer? : Value → Option Int
  | integer n => some n
  | _ => none

def boolean? : Value → Option Bool
  | boolean b => some b
  | _ => none

end Value
end RoutingPlan.Toml
