import RoutingPlan.Proofs.Definition.JsonText
import RoutingPlan.Proofs.Definition.Reload

-- Plans through their JSON texts and back. A plan prints its normal form, which is nested no deeper
-- than the definition that was read; so it can be read again, makes the same plan and has the same
-- text.

namespace RoutingPlan

namespace Definition

variable {d c : Definition} {cs : List Definition} {n : Nat}

theorem maxNesting_le_iff : maxNesting cs ≤ n ↔ ∀ c ∈ cs, c.nesting ≤ n := by
  induction cs with
  | nil          => simp [maxNesting]
  | cons c cs ih => rw [maxNesting, Nat.max_le, ih, List.forall_mem_cons]

theorem nesting_pos : 0 < d.nesting := by
  match d with
  | mk _ _ none     => exact Nat.one_pos
  | mk _ _ (some _) => exact Nat.le_add_right_of_le Nat.two_pos

theorem nesting_lt_of_mem_children (h : c ∈ d.children) : c.nesting + 1 < d.nesting := by
  match d with
  | mk _ _ none      => cases h
  | mk _ _ (some cs) =>
    have le : c.nesting ≤ maxNesting cs := maxNesting_le_iff.mp (Nat.le_refl _) c h
    rw [nesting]
    omega

-- A definition is nested no deeper than another one if each of its children is nested no deeper
-- than one of the other's.
theorem nesting_listed_le {step : String} {r : Option String}
    (below : ∀ c ∈ cs, ∃ c' ∈ d.children, c.nesting ≤ c'.nesting) :
    (mk step r (listed cs)).nesting ≤ d.nesting := by
  cases cs with
  | nil       => exact nesting_pos
  | cons c cs =>
    have ⟨c', hc', _⟩ := below c List.mem_cons_self
    have le : maxNesting (c :: cs) ≤ d.nesting - 2 := by
      apply maxNesting_le_iff.mpr
      intro a ha
      have ⟨a', ha', le⟩ := below a ha
      have lt := nesting_lt_of_mem_children ha'
      omega
    have lt := nesting_lt_of_mem_children hc'
    simp only [listed, List.isEmpty_cons, Bool.false_eq_true, if_false, nesting]
    omega

theorem nesting_normalForm_le {resolve : Resolver} {r : Option String} :
    (d.normalForm resolve r).nesting ≤ d.nesting := by
  induction d using childInduction generalizing r with
  | node d ih =>
    rw [normalForm]
    apply nesting_listed_le
    intro c hc
    split at hc
    case h_1 =>
      have ⟨⟨c', standing⟩, _, eq⟩ := List.mem_map.mp hc
      have child := mem_of_mem_standing standing
      exact ⟨c', child, eq ▸ ih c' child⟩
    case h_2 =>
      have ⟨⟨c', child⟩, _, eq⟩ := List.mem_map.mp hc
      exact ⟨c', child, eq ▸ ih c' child⟩

theorem nesting_le_of_fromJson {text : String} (read : fromJson text = .ok d) :
    d.nesting ≤ maxJsonNesting := by
  rw [fromJson] at read
  split at read
  case h_1 found =>
    cases read
    obtain ⟨tree, _, found⟩ := Option.bind_eq_some_iff.mp found
    obtain ⟨d', _, found⟩ := Option.bind_eq_some_iff.mp found
    split at found
    case isTrue within => exact Option.some.inj found ▸ within
    case isFalse       => cases found
  case h_2 => cases read

end Definition

open Definition

variable {resolve : Resolver} {p : Plan} {text : String}

theorem Plan.fromJson_eq_ok_iff : Plan.fromJson resolve text = .ok p ↔
    ∃ d, Definition.fromJson text = .ok d ∧ d.compile resolve = .ok p := by
  rw [Plan.fromJson]
  cases Definition.fromJson text with
  | error => exact ⟨nofun, nofun⟩
  | ok d  =>
    refine ⟨fun compiled => ⟨d, rfl, compiled⟩, fun ⟨d', same, compiled⟩ => ?_⟩
    cases same
    exact compiled

-- Whatever the text was like, it has been made into a plan that prints itself.
theorem Plan.exists_jsonText_of_fromJson (loaded : Plan.fromJson resolve text = .ok p) :
    ∃ printed, p.jsonText? = some printed ∧ Plan.fromJson resolve printed = .ok p := by
  have ⟨d, read, compiled⟩ := Plan.fromJson_eq_ok_iff.mp loaded
  have ⟨root, part⟩ := compile_part compiled
  have back : p.toDefinition? = some (d.normalForm resolve none) := by
    rw [toDefinition?, root]
    exact part.definitionOf_eq (Nat.le_refl _)
  have within : (d.normalForm resolve none).nesting ≤ maxJsonNesting :=
    nesting_normalForm_le.trans <| nesting_le_of_fromJson read
  refine ⟨(d.normalForm resolve none).jsonText, by rw [jsonText?, back, Option.map_some], ?_⟩
  apply Plan.fromJson_eq_ok_iff.mpr
  refine ⟨d.normalForm resolve none, ?_, compile_normalForm compiled⟩
  rw [Definition.fromJson, ofJson?_jsonText, if_pos within]

-- Arrays in the place of objects, a field under another name and one of no meaning, a route key
-- where none counts and a branch that gives way to the next one.
def muddled : String :=
  "[\"desk\", \"top\", " ++
    "[[\"help\", \"a\"], \x7b\"RouteKey\": \"a\", \"n\": 9, \"step\": \"sell\"\x7d]]"

theorem exists_jsonText_muddled :
    let printed := (mk "desk" none <| some [mk "sell" (some "a") none]).jsonText
    ∃ p, Plan.fromJson (stepsWithout ["help"]) muddled = .ok p ∧ p.jsonText? = some printed ∧
      Plan.fromJson (stepsWithout ["help"]) printed = .ok p := by
  intro printed
  have given : (Plan.fromJson (stepsWithout ["help"]) muddled).map Plan.jsonText? =
      .ok (some printed) := by
    decide +kernel
  have ⟨p, loaded, prints⟩ := map_eq_ok given
  have ⟨_, prints', again⟩ := Plan.exists_jsonText_of_fromJson loaded
  have same := Option.some.inj <| prints.symm.trans prints'
  exact ⟨p, loaded, prints, same ▸ again⟩

end RoutingPlan
