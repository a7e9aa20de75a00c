import RoutingPlan.Definition.Json
import RoutingPlan.Proofs.Json.Printing

-- Definitions through their JSON texts and back.

namespace RoutingPlan.Definition

open Json (Value)

mutual

theorem legible_toJson : (d : Definition) → d.toJson.Legible
  | mk _ none none | mk _ (some _) none => by
    simp [toJson, routeMember, Value.Legible, Value.AreLegibleMembers]
  | mk _ none (some cs) | mk _ (some _) (some cs) => by
    simp [toJson, routeMember, Value.Legible, Value.AreLegibleMembers, areLegible_toJsons cs]

theorem areLegible_toJsons : (ds : List Definition) → Value.AreLegible (toJsons ds)
  | []      => trivial
  | d :: ds => ⟨legible_toJson d, areLegible_toJsons ds⟩

end

mutual

-- An object for the definition, and an array where it lists children, even if it lists none.
theorem height_toJson : (d : Definition) → (Json.Tree.ofValue d.toJson).height = d.nesting
  | mk _ none none | mk _ (some _) none => rfl
  | mk _ none (some cs) | mk _ (some _) (some cs) => by
    have := elementsHeight_toJsons cs
    simp [toJson, routeMember, Json.Tree.ofValue, Json.Tree.ofMembers, Json.Tree.height,
      Json.Tree.membersHeight, nesting, this]
    omega

theorem elementsHeight_toJsons : (ds : List Definition) →
    Json.Tree.elementsHeight (Json.Tree.ofValues (toJsons ds)) = maxNesting ds
  | []      => rfl
  | d :: ds => by
    rw [toJsons, Json.Tree.ofValues, Json.Tree.elementsHeight, height_toJson d,
      elementsHeight_toJsons ds, maxNesting]

end

theorem ofName?_step : Field.ofName? "step" = some .step := by
  decide

theorem ofName?_route_key : Field.ofName? "route_key" = some .routeKey := by
  decide

theorem ofName?_children : Field.ofName? "children" = some .children := by
  decide

-- The members that come first.
theorem ofMembers?_step_route (s : String) (r : Option String) (ms : List (String × Value)) :
    ofMembers? {} (Json.Tree.ofMembers (("step", .string s) :: routeMember r ++ ms)) =
      ofMembers? { step := some s, routeKey := r.map some } (Json.Tree.ofMembers ms) := by
  cases r <;> simp [routeMember, Json.Tree.ofMembers, Json.Tree.ofValue, ofMembers?, ofName?_step,
    ofName?_route_key, Json.Tree.string?, optionalText?, Draft.setStep, Draft.setRouteKey]

mutual

theorem ofTree?_toJson (d : Definition) : ofTree? (Json.Tree.ofValue d.toJson) = some d := by
  cases d with
  | mk s r cs =>
    cases cs with
    | none =>
      have members := ofMembers?_step_route s r []
      rw [List.append_nil] at members
      rw [toJson, Json.Tree.ofValue, ofTree?, members]
      cases r <;> rfl
    | some cs =>
      rw [toJson, Json.Tree.ofValue, ofTree?, ofMembers?_step_route]
      simp only [Json.Tree.ofMembers, Json.Tree.ofValue, ofMembers?, ofName?_children, childrenOf?,
        ofTrees?_toJsons cs]
      cases r <;> rfl

theorem ofTrees?_toJsons : (ds : List Definition) →
    ofTrees? (Json.Tree.ofValues (toJsons ds)) = some ds
  | []      => rfl
  | d :: ds => by
    rw [toJsons, Json.Tree.ofValues, ofTrees?, ofTree?_toJson d, ofTrees?_toJsons ds]

end

theorem ofText?_jsonText (d : Definition) :
    Json.Tree.ofText? d.jsonText = some (Json.Tree.ofValue d.toJson) :=
  Json.Tree.ofText?_pretty d.legible_toJson

theorem ofJson?_jsonText (d : Definition) :
    ofJson? d.jsonText = if d.nesting ≤ maxJsonNesting then some d else none := by
  simp [ofJson?, ofText?_jsonText, ofTree?_toJson]

-- The text of a definition has the nesting of the definition, and that alone decides whether it can
-- be read again.
theorem fromJson_jsonText (d : Definition) :
    (Json.Tree.ofText? d.jsonText).map Json.Tree.height = some d.nesting ∧
      (fromJson d.jsonText = .ok d ↔ d.nesting ≤ 127) ∧
      ((∃ message, fromJson d.jsonText = .error (.planParse message)) ↔ 127 < d.nesting) := by
  have height : (Json.Tree.ofText? d.jsonText).map Json.Tree.height = some d.nesting := by
    rw [ofText?_jsonText, Option.map_some, height_toJson]
  refine ⟨height, ?_⟩
  rw [fromJson, ofJson?_jsonText, maxJsonNesting]
  by_cases within : d.nesting ≤ 127
  case pos => simp [within]
  case neg => simp [within, Nat.not_le.mp within]

end RoutingPlan.Definition
