import RoutingPlan.Keyed

-- The environment: what it says of a name. It is made of entries, each a variable, an equality sign
-- and its value. A name is found where it begins an entry and an equality sign comes next, so a
-- name with an equality sign in it can reach into a value. For names without one,
-- `ofVariables_eq_get?` says that the environment is the table of its variables.

namespace RoutingPlan.Settings

-- The value of a variable, if it is set.
abbrev Environment := String → Option String

namespace Environment

-- What an entry has after a name and an equality sign, if it begins with them.
def valueIn? : (name entry : List Char) → Option (List Char)
  | [], c :: value => if c = '=' then some value else none
  | c :: name, c' :: entry => if c = c' then valueIn? name entry else none
  | _, _ => none

-- The environment of some variables. Nothing is found under the empty name.
def ofVariables (vars : List (String × String)) : Environment := fun name =>
  if name = "" then none
  else vars.findSome? fun (key, value) =>
    (valueIn? name.toList (key.toList ++ '=' :: value.toList)).map String.ofList

-- Where there is no equality sign in the names, an entry is found by its variable alone.
theorem valueIn?_entry {name key : List Char} (hn : '=' ∉ name) (hv : '=' ∉ key)
    (value : List Char) :
    valueIn? name (key ++ '=' :: value) = if key = name then some value else none := by
  induction name generalizing key with
  | nil => cases key <;> grind [valueIn?]
  | cons c name ih => cases key <;> grind [valueIn?]

theorem ofVariables_eq_get? {name : String} {vars : List (String × String)}
    (hn : '=' ∉ name.toList) (hne : name ≠ "") (hv : ∀ v ∈ vars, '=' ∉ v.1.toList) :
    ofVariables vars name = Keyed.get? name vars := by
  induction vars with
  | nil => simp [ofVariables, Keyed.get?]
  | cons v vars ih =>
    have h := valueIn?_entry hn (hv v (by simp)) v.2.toList
    by_cases hx : v.1 = name <;>
      simp_all [ofVariables, Keyed.get?, String.toList_inj]

end Environment
end RoutingPlan.Settings
