import Mathlib.Logic.Relation
import RoutingPlan.Proofs.Plan.Order

-- Definitions that are as good as each other. They are those that are the same once the empty lists
-- of children are left out of them, and the laws of an equivalence come from there.

namespace RoutingPlan.Definition

variable {a b d : Definition} {as bs : List Definition}

mutual

-- The definition without the empty lists of children in it, at any depth.
def pruned : Definition → Definition
  | mk s r none => mk s r none
  | mk s r (some cs) => mk s r (listed (prunedAll cs))

def prunedAll : List Definition → List Definition
  | [] => []
  | c :: cs => pruned c :: prunedAll cs

end

theorem prunedAll_eq_map : prunedAll as = as.map pruned := by
  induction as with
  | nil => rfl
  | cons a as ih => rw [prunedAll, ih, List.map_cons]

theorem pruned_eq : d.pruned = mk d.step d.routeKey (listed (d.children.map pruned)) := by
  match d with
  | mk _ _ none => rfl
  | mk _ _ (some cs) =>
    rw [pruned, prunedAll_eq_map]
    rfl

theorem listed_inj : listed as = listed bs ↔ as = bs := by
  refine ⟨fun h => ?_, congrArg listed⟩
  have children : (mk "" none (listed as)).children = (mk "" none (listed bs)).children := by rw [h]
  rwa [children_listed, children_listed] at children

theorem pruned_eq_pruned_iff : a.pruned = b.pruned ↔
    a.step = b.step ∧ a.routeKey = b.routeKey ∧ a.children.map pruned = b.children.map pruned := by
  rw [pruned_eq, pruned_eq, mk.injEq, listed_inj]

-- As many children, and one after the other as good as each other.
theorem forall₂_isEquivalent_iff
    (ih : ∀ a ∈ as, ∀ b, a.isEquivalent b = true ↔ a.pruned = b.pruned) :
    List.Forall₂ (fun a b => a.isEquivalent b = true) as bs ↔ as.map pruned = bs.map pruned := by
  induction as generalizing bs with
  | nil => cases bs <;> simp
  | cons a as step =>
    rw [List.forall_mem_cons] at ih
    cases bs with
    | nil => simp
    | cons b bs =>
      rw [List.forall₂_cons, ih.left, step ih.right, List.map_cons, List.map_cons, List.cons.injEq]

theorem isEquivalent_iff_pruned : a.isEquivalent b = true ↔ a.pruned = b.pruned := by
  induction a using childInduction generalizing b with
  | node a ih =>
    rw [isEquivalent_iff, pruned_eq_pruned_iff]
    exact and_congr_right fun _ => and_congr_right fun _ =>
      forall₂_isEquivalent_iff fun c hc _ => ih c hc

theorem nodeCount_pruned : d.pruned.nodeCount = d.nodeCount := by
  induction d using childInduction with
  | node d ih =>
    rw [nodeCount_eq, nodeCount_eq, pruned_eq, children_listed, List.map_map]
    exact congrArg (1 + List.sum ·) <| List.map_congr_left ih

theorem equivalence_isEquivalent :
    (∀ a b : Definition, a.isEquivalent b = true ↔ a.pruned = b.pruned) ∧
      Equivalence (fun a b : Definition => a.isEquivalent b = true) ∧
      (∀ a b : Definition, a.isEquivalent b = true → a.nodeCount = b.nodeCount) ∧
      ∀ a b : Definition, a = b → a.isEquivalent b = true := by
  have equivalence : Equivalence fun a b : Definition => a.isEquivalent b = true := by
    simp only [isEquivalent_iff_pruned]
    exact eq_equivalence.comap pruned
  refine ⟨fun _ _ => isEquivalent_iff_pruned, equivalence, fun a b equivalent => ?_,
    fun a _ same => same ▸ equivalence.refl a⟩
  rw [← nodeCount_pruned, isEquivalent_iff_pruned.mp equivalent, nodeCount_pruned]

-- Empty lists at two depths, one of them on either side.
theorem equivalence_isEquivalent_hollow :
    let a := mk "desk" none <| some [mk "close" (some "late") (some []), leaf "sell"]
    let b := mk "desk" none <| some [mk "close" (some "late") none, mk "sell" none (some [])]
    a ≠ b ∧ a.isEquivalent b = true ∧ b.isEquivalent a = true ∧ a.nodeCount = b.nodeCount := by
  intro a b
  have ⟨same, equivalence, counts, _⟩ := equivalence_isEquivalent
  have equivalent : a.isEquivalent b = true := (same a b).mpr rfl
  exact ⟨by decide, equivalent, equivalence.symm equivalent, counts a b equivalent⟩

end RoutingPlan.Definition
