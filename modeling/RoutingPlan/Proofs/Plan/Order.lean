import Mathlib.Algebra.GroupWithZero.Nat
import Mathlib.Algebra.Order.BigOperators.Group.List
import Mathlib.Algebra.Order.Group.Nat
import Mathlib.Data.List.Perm.Subperm
import RoutingPlan.Proofs.Definition.NormalForm
import RoutingPlan.Proofs.Plan.Position

-- The nodes of a plan one after the other. They are the live nodes of its definition in the order
-- in which these are visited, so that the two can be counted and searched for each other.

namespace RoutingPlan

namespace Definition

variable {resolve : Resolver} {d : Definition} {cs : List Definition} {r : Option String}

section Count

theorem nodeCounts_eq (cs : List Definition) : nodeCounts cs = (cs.map nodeCount).sum := by
  induction cs with
  | nil          => rfl
  | cons c cs ih => rw [nodeCounts, ih, List.map_cons, List.sum_cons]

theorem nodeCount_eq : d.nodeCount = 1 + (d.children.map nodeCount).sum := by
  match d with
  | mk _ _ none      => rfl
  | mk _ _ (some cs) => rw [nodeCount, nodeCounts_eq]; rfl

theorem nodeCount_pos : 0 < d.nodeCount := by
  rw [nodeCount_eq]
  omega

theorem length_live_eq : (d.live resolve).length =
    1 + ((d.successors resolve).map fun c => (c.live resolve).length).sum := by
  rw [live_eq, List.length_cons, List.length_flatMap]
  omega

-- The children that do not count.
theorem exists_perm_standing (cs : List Definition) :
    ∃ fallen, cs.Perm (standing cs ++ fallen) ∧ (fallen = [] ↔ (cs.map routeKey).Nodup) := by
  have nodup : (standing cs).Nodup := nodup_routeKey_standing.of_map
  have ⟨l, same, sub⟩ : (standing cs).Subperm cs := nodup.subperm fun _ => mem_of_mem_standing
  have ⟨fallen, perm⟩ := sub.exists_perm_append
  have perm := perm.trans (same.append_right fallen)
  refine ⟨fallen, perm, fun empty => ?_, fun nodup => ?_⟩
  · refine nodup_of_length_standing ?_
    simpa [empty] using perm.length_eq.symm
  · have length := perm.length_eq
    rw [standing_eq_self nodup, List.length_append] at length
    exact List.eq_nil_of_length_eq_zero (by omega)

-- What is written below a node with nothing wrong and what is live there differ by the children of
-- a router that do not count.
theorem exists_perm_successors (wellFormed : d.WellFormed resolve) :
    ∃ fallen, d.children.Perm (d.successors resolve ++ fallen) ∧
      (fallen = [] ↔ (d.kind? resolve = some .router → (d.children.map routeKey).Nodup)) := by
  have ⟨step, resolved, valid⟩ := wellFormed
  have kind : d.kind? resolve = some step.kind := kind?_eq_some resolved
  cases step with
  | router =>
    rw [successors_router kind]
    have ⟨fallen, perm, distinct⟩ := exists_perm_standing d.children
    exact ⟨fallen, perm, distinct.trans ⟨fun h _ => h, fun h => h kind⟩⟩
  | action =>
    rw [successors_action kind valid]
    exact ⟨[], by simp, by simp [kind, Step.kind]⟩

theorem sum_eq_sum_iff {f g : Definition → Nat} (le : ∀ c ∈ cs, f c ≤ g c) :
    (cs.map f).sum = (cs.map g).sum ↔ ∀ c ∈ cs, f c = g c := by
  induction cs with
  | nil => simp
  | cons c cs ih =>
    rw [List.forall_mem_cons] at le ⊢
    have rest := List.sum_le_sum le.right
    rw [← ih le.right, List.map_cons, List.map_cons, List.sum_cons, List.sum_cons]
    omega

theorem sum_nodeCount_eq_zero_iff : (cs.map nodeCount).sum = 0 ↔ cs = [] := by
  cases cs with
  | nil => simp
  | cons c cs =>
    have := @nodeCount_pos c
    simp only [List.map_cons, List.sum_cons, reduceCtorEq, iff_false]
    omega

theorem length_live_le (wellFormed : ∀ n ∈ d.live resolve, n.WellFormed resolve) :
    (d.live resolve).length ≤ d.nodeCount ∧
      ((d.live resolve).length = d.nodeCount ↔ ∀ n ∈ d.live resolve,
        n.kind? resolve = some .router → (n.children.map routeKey).Nodup) := by
  induction d using childInduction with
  | node d ih =>
    rw [live_eq, List.forall_mem_cons, List.forall_mem_flatMap] at wellFormed
    have ⟨here, below⟩ := wellFormed
    have ⟨fallen, perm, distinct⟩ := exists_perm_successors here
    have ih c (hc : c ∈ d.successors resolve) :=
      ih c (mem_children_of_mem_successors hc) (below c hc)
    have le := List.sum_le_sum fun c hc => (ih c hc).left
    have same := sum_eq_sum_iff fun c hc => (ih c hc).left
    have total := (perm.map nodeCount).sum_nat
    rw [List.map_append, List.sum_append] at total
    refine ⟨by rw [length_live_eq, nodeCount_eq]; omega, ?_⟩
    calc (d.live resolve).length = d.nodeCount
      _ ↔ (fallen.map nodeCount).sum = 0 ∧
          ((d.successors resolve).map fun c => (c.live resolve).length).sum =
            ((d.successors resolve).map nodeCount).sum := by
        rw [length_live_eq, nodeCount_eq]
        omega
      _ ↔ _ := by
        rw [sum_nodeCount_eq_zero_iff, distinct, same, live_eq, List.forall_mem_cons,
          List.forall_mem_flatMap]
        exact and_congr_right fun _ => forall₂_congr fun c hc => (ih c hc).right

theorem nodeCount_normalForm (wellFormed : ∀ n ∈ d.live resolve, n.WellFormed resolve) :
    (d.normalForm resolve r).nodeCount = (d.live resolve).length := by
  induction d using childInduction generalizing r with
  | node d ih =>
    rw [live_eq, List.forall_mem_cons, List.forall_mem_flatMap] at wellFormed
    have ⟨⟨step, resolved, valid⟩, below⟩ := wellFormed
    have kind : d.kind? resolve = some step.kind := kind?_eq_some resolved
    have counts {keys : Definition → Option String} (c) (hc : c ∈ d.successors resolve) :
        (nodeCount ∘ fun c => c.normalForm resolve (keys c)) c = (c.live resolve).length :=
      ih c (mem_children_of_mem_successors hc) (below c hc)
    rw [length_live_eq, nodeCount_eq]
    cases step with
    | router =>
      rw [successors_router kind] at counts ⊢
      rw [normalForm_router kind, children_listed, List.map_map, List.map_congr_left counts]
    | action =>
      rw [successors_action kind valid] at counts ⊢
      rw [normalForm_action kind, children_listed, List.map_map, List.map_congr_left counts]

end Count

end Definition

namespace Plan

open Definition

variable {p : Plan} {resolve : Resolver} {d : Definition} {i j : Nat}

-- What a node has of the node of a definition that it stands for.
structure Node.StandsFor (resolve : Resolver) (node : Node) (n : Definition) : Prop where
  key  : node.key = n.step
  step : resolve n.step = .ok node.step

theorem Part.standsFor {node : Node} (part : Part p resolve d i j)
    (h : p.node? ⟨i⟩ = some node) : node.StandsFor resolve d := by
  refine ⟨?_, part.step_eq h⟩
  cases part with
  | router _ h' | final _ h' | chained _ h' => cases h.symm.trans h'; rfl

section Whole

variable (part : Part p resolve d 0 p.nodeCount)

include part

theorem Part.nodes_standFor : p.nodes.Forall₂ (Node.StandsFor resolve) (d.live resolve) := by
  have length := part.length_live
  refine List.forall₂_iff_get.mpr ⟨by rw [nodeCount] at length; omega, fun i hi hi' => ?_⟩
  have ⟨m, part'⟩ := part.part_of_live (List.getElem?_eq_getElem hi')
  rw [Nat.zero_add] at part'
  exact part'.standsFor (List.getElem?_eq_getElem hi)

theorem Part.map_id_nodes : p.nodes.map (·.id) = (List.range p.nodeCount).map NodeId.mk := by
  refine List.ext_getElem (by simp [nodeCount]) fun i hi hi' => ?_
  rw [List.length_map] at hi
  have ⟨_, _, part', _⟩ := part.exists_part (Nat.zero_le i) hi
  simpa using part'.id_eq (List.getElem?_eq_getElem hi)

theorem Part.map_key_nodes : p.nodes.map (·.key) = (d.live resolve).map step := by
  rw [← List.forall₂_eq_eq_eq, List.forall₂_map_left_iff, List.forall₂_map_right_iff]
  exact part.nodes_standFor.imp fun _ _ => Node.StandsFor.key

theorem Part.find?_eq (key : String) :
    p.find? key = ((d.live resolve).findIdx? (·.step == key)).bind fun i => p.node? ⟨i⟩ := by
  have place := congrArg (List.findIdx? (· == key)) part.map_key_nodes
  rw [List.findIdx?_map, List.findIdx?_map] at place
  exact List.find?_eq_bind_findIdx?_getElem?.trans <| congrArg (·.bind (p.nodes[·]?)) place

theorem Part.find?_eq_none_iff (key : String) :
    p.find? key = none ↔ ∀ n ∈ d.live resolve, n.step ≠ key := by
  have keys : p.find? key = none ↔ key ∉ p.nodes.map (·.key) := by
    simp [find?]
  rw [keys, part.map_key_nodes]
  simp

end Whole

-- What a plan lists, how much that is, and what is found in it, all told from the live nodes of its
-- definition.
theorem order_of_compile (loaded : d.compile resolve = .ok p) :
    p.nodes.map (·.id) = (List.range p.nodeCount).map NodeId.mk ∧
    p.nodes.Forall₂ (Node.StandsFor resolve) (d.live resolve) ∧
    p.toDefinition?.map Definition.nodeCount = some p.nodeCount ∧
    p.nodeCount ≤ d.nodeCount ∧
    (p.nodeCount = d.nodeCount ↔ ∀ n ∈ d.live resolve, n.kind? resolve = some .router →
      (n.children.map routeKey).Nodup) ∧
    ∀ key,
      p.find? key = ((d.live resolve).findIdx? (·.step == key)).bind (fun i => p.node? ⟨i⟩) ∧
      (p.find? key = none ↔ ∀ n ∈ d.live resolve, n.step ≠ key) := by
  have ⟨root, part⟩ := compile_part loaded
  have wellFormed := compile_eq_ok_iff.mp ⟨p, loaded⟩
  have ⟨le, same⟩ := length_live_le wellFormed
  have count : p.nodeCount = (d.live resolve).length := by
    rw [← part.length_live, Nat.zero_add]
  have back : p.toDefinition? = some (d.normalForm resolve none) := by
    rw [toDefinition?, root]
    exact part.definitionOf_eq (Nat.le_refl _)
  refine ⟨part.map_id_nodes, part.nodes_standFor, ?_, ?_⟩
  case refine_1 => rw [back, Option.map_some, nodeCount_normalForm wellFormed, count]
  case refine_2 =>
    rw [count]
    exact ⟨le, same, fun key => ⟨part.find?_eq key, part.find?_eq_none_iff key⟩⟩

-- Below the branch that was overwritten nothing is found; a step that also stands there is found
-- where it is live.
theorem order_overridden : ∃ p, overridden.compile (stepsWithout ["retired"]) = .ok p ∧
    p.nodes.Forall₂ (Node.StandsFor (stepsWithout ["retired"]))
      (overridden.live (stepsWithout ["retired"])) ∧
    p.nodeCount < overridden.nodeCount ∧ p.find? "sell" = p.node? ⟨1⟩ ∧
    p.find? "bill" = none := by
  have ⟨p, loaded⟩ : ∃ p, overridden.compile (stepsWithout ["retired"]) = .ok p := ⟨_, rfl⟩
  have ⟨_, nodes, _, le, same, found⟩ := order_of_compile loaded
  refine ⟨p, loaded, nodes, Nat.lt_of_le_of_ne le (mt same.mp ?_), ?_, ?_⟩
  · decide +kernel
  · have place : (overridden.live (stepsWithout ["retired"])).findIdx? (·.step == "sell") =
        some 1 := by decide +kernel
    rw [(found "sell").left, place, Option.bind_some]
  · exact (found "bill").right.mpr (by decide +kernel)

end Plan

end RoutingPlan
