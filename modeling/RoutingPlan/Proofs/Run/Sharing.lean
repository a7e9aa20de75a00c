import RoutingPlan.Proofs.Run.Resemblance

-- Runs of a plan with shared nodes, and runs of the tree that the plan unfolds into: whatever the
-- steps do and whenever the token fires, one comes to what the other comes to.

namespace RoutingPlan.Plan

open Definition

variable {p : Plan} {resolve : Resolver} {root : NodeId}

theorem runs_eq_of_unfolding {ops : List Builder.Operation}
    (built : (Builder.ofOperations ops).build root = .ok p) (acyclic : p.Acyclic)
    (orderly : p.Orderly)
    (resolved : ∀ x node, p.Reaches x → p.node? x = some node → resolve node.key = .ok node.step) :
    ∃ d p', p.toDefinition? = some d ∧ d.compile resolve = .ok p' ∧ ∀ clock c,
      (∀ n,
        (p'.execute clock c n).1.result? = (p.execute clock c n).1.result? ∧
          (p'.execute clock c n).1.context = (p.execute clock c n).1.context ∧
          (p'.execute clock c n).2 = (p.execute clock c n).2) ∧
      ∀ fires events result c',
        p.Yields clock c fires events result c' ↔ p'.Yields clock c fires events result c' := by
  have unfoldable := unfoldable_of_build built acyclic orderly
  have ⟨d, unfolded⟩ := unfoldable.exists_toDefinition?
  have ⟨p', loaded⟩ := compile_eq_ok_iff.mpr <|
    unfoldable.wellFormed_of_mem_live resolved .refl unfolded
  have represents := unfoldable.represents resolved
  have represents' : p'.Represents resolve _ := represents_part
  have root : p.Unfolds p.root d := ⟨.refl, _, _, unfolded⟩
  have root' := exists_part_root loaded
  refine ⟨d, p', unfolded, loaded, fun clock c => ⟨fun n => ?_, fun fires events result c' => ?_⟩⟩
  · exact Run.execute_of_represents represents represents' root root' n
  · exact ⟨Run.yields_of_represents represents represents' root root',
      Run.yields_of_represents represents' represents root' root⟩

-- The last node of the office comes to stand at two places.
theorem runs_eq_office :
    let d : Definition := .mk "desk" none <| some [
      .mk "sell" (some "sales") <| some [leaf "close"],
      .mk "help" (some "help") <| some [leaf "close"]]
    office.toDefinition? = some d ∧ ∃ p', d.compile (stepsWithout []) = .ok p' ∧ ∀ clock c n,
      (p'.execute clock c n).1.result? = (office.execute clock c n).1.result? ∧
        (p'.execute clock c n).1.context = (office.execute clock c n).1.context ∧
        (p'.execute clock c n).2 = (office.execute clock c n).2 := by
  intro d
  have resolved : ∀ x node, office.Reaches x → office.node? x = some node →
      stepsWithout [] node.key = .ok node.step := by
    intro x node reaches known
    obtain rfl | rfl | rfl | rfl := by simpa using mem_of_reaches_office reaches
    all_goals cases known; rfl
  have unfolded : office.toDefinition? = some d := by decide +kernel
  have ⟨_, p', unfolded', loaded, runs⟩ :=
    runs_eq_of_unfolding build_office acyclic_office orderly_office resolved
  cases unfolded.symm.trans unfolded'
  exact ⟨unfolded, p', loaded, fun clock c => (runs clock c).left⟩

end RoutingPlan.Plan
