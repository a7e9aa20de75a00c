import RoutingPlan.Proofs.Plan.Tree
import RoutingPlan.Proofs.Run.Outcome

-- Which node of a definition a node of its plan stands for: the live nodes have the numbers of
-- their places among them, and a router leads on exactly for the route keys of its children.

namespace RoutingPlan.Plan

open Definition

variable {p : Plan} {resolve : Resolver} {d : Definition} {i j : Nat} {name key : String}

mutual

-- A part has as many nodes as its definition has live nodes.
theorem Part.length_live {d : Definition} {i j : Nat} (part : Part p resolve d i j) :
    i + (d.live resolve).length = j := by
  match part with
  | .router resolved _ _ _ _ arms =>
    have below := arms.length_live
    rw [live_router (kind?_eq_some resolved), List.length_cons]
    omega
  | .final resolved _ _ _ children =>
    rw [live_action (kind?_eq_some resolved) (by simp [children]), children]
    rfl
  | .chained resolved _ _ _ children part =>
    have below := part.length_live
    rw [live_action (kind?_eq_some resolved) (by simp [children]), children,
      List.flatMap_singleton, List.length_cons]
    omega

theorem Arms.length_live {cs : List Definition} {t : Branches} {i j : Nat}
    (arms : Arms p resolve cs t i j) : i + (cs.flatMap (live resolve)).length = j := by
  match arms with
  | .nil => rfl
  | .cons _ _ part arms =>
    have first := part.length_live
    have rest := arms.length_live
    rw [List.flatMap_cons, List.length_append]
    omega

end

mutual

-- The live nodes of the definition of a part begin parts of their own, one after the other.
theorem Part.part_of_live {d e : Definition} {i j k : Nat} (part : Part p resolve d i j)
    (h : (d.live resolve)[k]? = some e) : ∃ m, Part p resolve e (i + k) m := by
  match k with
  | 0 =>
    rw [live_eq, List.getElem?_cons_zero, Option.some_inj] at h
    exact ⟨j, h ▸ part⟩
  | k + 1 =>
    rw [← Nat.add_assoc, Nat.add_right_comm]
    match part with
    | .router resolved _ _ _ _ arms =>
      rw [live_router (kind?_eq_some resolved), List.getElem?_cons_succ] at h
      exact arms.part_of_live h
    | .final resolved _ _ _ children =>
      rw [live_action (kind?_eq_some resolved) (by simp [children]), children] at h
      cases h
    | .chained resolved _ _ _ children part =>
      rw [live_action (kind?_eq_some resolved) (by simp [children]), children,
        List.flatMap_singleton, List.getElem?_cons_succ] at h
      exact part.part_of_live h

theorem Arms.part_of_live {cs : List Definition} {t : Branches} {e : Definition} {i j k : Nat}
    (arms : Arms p resolve cs t i j) (h : (cs.flatMap (live resolve))[k]? = some e) :
    ∃ m, Part p resolve e (i + k) m := by
  match arms with
  | .nil => cases h
  | @Arms.cons _ _ c _ _ _ _ m _ _ _ part arms =>
    have first := part.length_live
    rw [List.flatMap_cons] at h
    cases Nat.lt_or_ge k (c.live resolve).length with
    | inl hk =>
      rw [List.getElem?_append_left hk] at h
      exact part.part_of_live h
    | inr hk =>
      rw [List.getElem?_append_right hk] at h
      have ⟨m', part'⟩ := arms.part_of_live h
      have place : m + (k - (c.live resolve).length) = i + k := by omega
      exact ⟨m', place ▸ part'⟩

end

theorem Part.step_eq {node : Node} (part : Part p resolve d i j) (h : p.node? ⟨i⟩ = some node) :
    resolve d.step = .ok node.step := by
  cases part with
  | router resolved h' | final resolved h' | chained resolved h' =>
    cases h.symm.trans h'
    exact resolved

-- The live node that a node stands for.
theorem Part.exists_live {id : NodeId} {node : Node} (part : Part p resolve d 0 p.nodeCount)
    (h : p.node? id = some node) :
    ∃ n m, (d.live resolve)[id.index]? = some n ∧ resolve n.step = .ok node.step ∧
      Part p resolve n id.index m := by
  have length := part.length_live
  have lt := lt_nodeCount_of_node? h
  have ⟨n, hn⟩ : ∃ n, (d.live resolve)[id.index]? = some n :=
    ⟨_, List.getElem?_eq_getElem (by omega)⟩
  have ⟨m, part'⟩ := part.part_of_live hn
  rw [Nat.zero_add] at part'
  exact ⟨n, m, hn, part'.step_eq h, part'⟩

section Router

variable (part : Part p resolve d i j) (kind : d.kind? resolve = some .router)

include part kind

theorem Part.router_arms : ∃ t, p.branches? ⟨i⟩ = some t ∧ t ≠ [] ∧
    Arms p resolve (standing d.children) t (i + 1) j := by
  cases part with
  | router _ _ branches _ nonempty arms =>
    exact ⟨_, branches, arms.ne_nil <| standing_ne_nil nonempty, arms⟩
  | final resolved | chained resolved => cases (kind?_eq_some resolved).symm.trans kind

theorem Part.follow_eq_ok (h : some key ∈ d.children.map routeKey) :
    ∃ next, Run.follow p ⟨i⟩ name key = .ok (some next) := by
  have ⟨t, branches, nonempty, arms⟩ := part.router_arms kind
  have ⟨c, hc⟩ := Option.isSome_iff_exists.mp <| lastWith?_isSome h
  have ⟨next, _, get, _⟩ := arms.get?_eq_some (find?_standing.trans hc)
  exact ⟨⟨next⟩, by rw [Run.follow_eq branches nonempty, get]⟩

theorem Part.follow_eq_error (h : some key ∉ d.children.map routeKey) :
    Run.follow p ⟨i⟩ name key = .error (.unmatchedRouteKey name key) := by
  have ⟨t, branches, nonempty, arms⟩ := part.router_arms kind
  rw [Run.follow_eq branches nonempty,
    arms.get?_eq_none (find?_standing.trans <| lastWith?_eq_none h)]

end Router

end RoutingPlan.Plan
