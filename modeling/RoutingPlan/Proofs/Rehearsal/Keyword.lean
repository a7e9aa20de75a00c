import RoutingPlan.Proofs.Text.Lower
import RoutingPlan.Rehearsal.Steps

-- Keyword rules, and the inputs in which a keyword is found as it was given.

namespace RoutingPlan.Step

open Json (Value)

variable {keyword route s : String} {earlier later : List (String × String)} {input : Value}

theorem lowerText_string : lowerText (.string s) = Text.toLower s :=
  rfl

-- A rule whose keyword is found in lower case decides, unless a rule before it does.
theorem exists_rule_of_contains
    (found : Text.contains (lowerText input) (Text.toLower keyword)) :
    ∃ rule ∈ earlier ++ [(keyword, route)],
      routeByKeyword (earlier ++ (keyword, route) :: later) input = some rule.2 := by
  let fires := fun rule : String × String =>
    Text.contains (lowerText input) (Text.toLower rule.1)
  have some : ((earlier ++ [(keyword, route)]).find? fires).isSome :=
    List.find?_isSome.mpr ⟨(keyword, route), by simp, found⟩
  have ⟨rule, first⟩ := Option.isSome_iff_exists.mp some
  refine ⟨rule, List.mem_of_find?_eq_some first, ?_⟩
  rw [routeByKeyword, List.append_cons, List.find?_append, first]
  rfl

-- The inputs that contain a keyword as it was given are routed by its rule, or by one before it, if
-- and only if no sigma of the keyword is loose.
theorem routeByKeyword_of_contains_iff :
    (∀ earlier later route s, Text.contains s keyword →
      ∃ rule ∈ earlier ++ [(keyword, route)],
        routeByKeyword (earlier ++ (keyword, route) :: later) (.string s) = some rule.2) ↔
      ¬ Text.HasLooseSigma keyword.toList := by
  rw [← Text.contains_toLower_of_contains_iff]
  constructor
  case mp =>
    intro routed s literal
    have ⟨rule, _, decided⟩ := routed [] [] "" s literal
    have ⟨first, found, _⟩ := Option.map_eq_some_iff.mp decided
    have same : first = (keyword, "") := by simpa using List.mem_of_find?_eq_some found
    simpa [same, lowerText_string] using List.find?_some found
  case mpr =>
    intro lowered earlier later route s literal
    exact exists_rule_of_contains <| lowered s literal

-- The sigma at the end of the keyword is not at the end of the word that the input has it in.
theorem routeByKeyword_street :
    Text.contains "ΟΔΟΣΤΡΩΜΑ" "ΟΔΟΣ" = true ∧
      routeByKeyword [("ΟΔΟΣ", "street")] (.string "ΟΔΟΣΤΡΩΜΑ") = none := by
  decide +kernel

end RoutingPlan.Step
