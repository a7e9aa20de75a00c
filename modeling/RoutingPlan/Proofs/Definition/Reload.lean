import RoutingPlan.Proofs.Definition.NormalForm

-- The definition that a plan gives back makes the same plan again: what a normal form leaves out is
-- what assembling passes over.

namespace RoutingPlan.Definition

variable {resolve : Resolver} {d c : Definition} {r : Option String}

theorem label_normalForm : (c.normalForm resolve c.routeKey).label = c.label := by
  rw [label, routeKey_normalForm, label]

theorem lacksRouteKey_normalForm :
    (c.normalForm resolve c.routeKey).lacksRouteKey = c.lacksRouteKey := by
  rw [lacksRouteKey, routeKey_normalForm, lacksRouteKey]

-- Among the children of a normal form there are none to be replaced.
theorem standing_map_normalForm {cs : List Definition} :
    standing ((standing cs).map fun c => c.normalForm resolve c.routeKey) =
      (standing cs).map fun c => c.normalForm resolve c.routeKey := by
  refine standing_eq_self ?_
  have same : ((standing cs).map fun c => c.normalForm resolve c.routeKey).map routeKey =
      (standing cs).map routeKey := by
    rw [List.map_map]
    exact List.map_congr_left fun _ _ => routeKey_normalForm
  exact same ▸ nodup_routeKey_standing

theorem assemble_normalForm_router {name : String}
    {decide : Json.Value → Context → Reply (Option String)}
    (resolved : resolve d.step = .ok (.router name decide)) (nonempty : d.children ≠ [])
    (keyed : ∀ c ∈ d.children, c.lacksRouteKey = false)
    (ih : ∀ c ∈ standing d.children,
      (c.normalForm resolve c.routeKey).assemble resolve = c.assemble resolve) :
    (d.normalForm resolve r).assemble resolve = d.assemble resolve := by
  have kind : d.kind? resolve = some .router := kind?_eq_some resolved
  have children : (d.normalForm resolve r).children =
      (standing d.children).map fun c => c.normalForm resolve c.routeKey := by
    rw [normalForm_router kind, children_listed]
  have keyed' : ∀ c ∈ (d.normalForm resolve r).children, c.lacksRouteKey = false := by
    simp only [children, List.forall_mem_map, lacksRouteKey_normalForm]
    exact fun c hc => keyed c (mem_of_mem_standing hc)
  have arms : (standing (d.normalForm resolve r).children).map (toArm resolve) =
      (standing d.children).map (toArm resolve) := by
    rw [children, standing_map_normalForm, List.map_map]
    exact List.map_congr_left fun c hc => Prod.ext label_normalForm (ih c hc)
  have nonempty' : (d.normalForm resolve r).children ≠ [] := by
    simpa [children] using standing_ne_nil nonempty
  have unlacking {cs : List Definition} (h : ∀ c ∈ cs, c.lacksRouteKey = false) :
      cs.find? lacksRouteKey = none :=
    List.find?_eq_none.mpr fun c hc => by simp [h c hc]
  funext b
  rw [assemble_router resolved, assemble_router (step_normalForm ▸ resolved), if_neg nonempty,
    if_neg nonempty', unlacking keyed, unlacking keyed', arms, step_normalForm]

theorem assemble_normalForm_action {name : String}
    {act : Json.Value → Context → Reply (Option Json.Value)}
    (resolved : resolve d.step = .ok (.action name act))
    (ih : ∀ c ∈ d.children, (c.normalForm resolve none).assemble resolve = c.assemble resolve) :
    (d.normalForm resolve r).assemble resolve = d.assemble resolve := by
  have kind : d.kind? resolve = some .action := kind?_eq_some resolved
  have children : (d.normalForm resolve r).children = d.children.map (normalForm resolve none) := by
    rw [normalForm_action kind, children_listed]
  funext b
  rw [assemble_action resolved, assemble_action (step_normalForm ▸ resolved), children]
  rcases hd : d.children with _ | ⟨c, _ | ⟨_, _⟩⟩
  · simp [step_normalForm]
  · simp [step_normalForm, ih c (by simp [hd])]
  · simp [step_normalForm]

theorem assemble_normalForm (wellFormed : ∀ n ∈ d.live resolve, n.WellFormed resolve) :
    (d.normalForm resolve r).assemble resolve = d.assemble resolve := by
  induction d using childInduction generalizing r with
  | node d ih =>
    rw [live_eq, List.forall_mem_cons, List.forall_mem_flatMap] at wellFormed
    have ⟨⟨step, resolved, valid⟩, below⟩ := wellFormed
    have kind : d.kind? resolve = some step.kind := kind?_eq_some resolved
    cases step with
    | router =>
      rw [successors_router kind] at below
      have ⟨nonempty, keyed⟩ := valid
      simp only [← lacksRouteKey_eq_false_iff] at keyed
      refine assemble_normalForm_router resolved nonempty keyed fun c hc => ?_
      exact ih c (mem_of_mem_standing hc) (below c hc)
    | action =>
      rw [successors_action kind valid] at below
      exact assemble_normalForm_action resolved fun c hc => ih c hc (below c hc)

theorem compile_normalForm {p : Plan} (loaded : d.compile resolve = .ok p) :
    (d.normalForm resolve r).compile resolve = .ok p := by
  rw [← loaded, compile_eq, compile_eq, assemble_normalForm <| compile_eq_ok_iff.mp ⟨p, loaded⟩]

theorem recompile_eq_self {p : Plan} (loaded : d.compile resolve = .ok p) :
    ∃ d', p.toDefinition? = some d' ∧ d'.compile resolve = .ok p := by
  have ⟨root, part⟩ := compile_part loaded
  refine ⟨d.normalForm resolve none, ?_, compile_normalForm loaded⟩
  rw [Plan.toDefinition?, root]
  exact part.definitionOf_eq (Nat.le_refl _)

-- The branch that was replaced and the route key below an action are gone, and make no difference.
theorem recompile_overridden :
    ∃ p, overridden.compile (stepsWithout ["retired"]) = .ok p ∧
      (mk "desk" none <| some [mk "sell" (some "sales") none,
        mk "help" (some "help") <| some [leaf "close"]]).compile (stepsWithout ["retired"]) =
        .ok p := by
  have given : (overridden.compile (stepsWithout ["retired"])).map Plan.toDefinition? =
      .ok (some (mk "desk" none <| some [mk "sell" (some "sales") none,
        mk "help" (some "help") <| some [leaf "close"]])) := by
    decide +kernel
  have ⟨p, loaded, given⟩ := map_eq_ok given
  have ⟨_, back, again⟩ := recompile_eq_self loaded
  cases given.symm.trans back
  exact ⟨p, loaded, again⟩

end RoutingPlan.Definition
