import Mathlib.Data.Set.Card
import RoutingPlan.Proofs.Plan.Order
import RoutingPlan.Proofs.Plan.Unfolding

-- What is written when a plan becomes a definition. The writing comes to an end unless the entries
-- that it follows lead round, and then it has written one node for each trail of entries from the
-- root: a node with several ways to it stands at several places.

namespace RoutingPlan

namespace Definition

-- The definition at an address: the places among the children on the way down to it.
def at? : Definition → List Nat → Option Definition
  | d, []      => some d
  | d, i :: is => d.children[i]?.bind (at? · is)

end Definition

namespace Plan

open Definition
open Relation (ReflTransGen TransGen)

-- The entries that are followed one after the other, each with its label and the node it leads to.
abbrev Trail := List (Option String × NodeId)

namespace Trail

-- The node at the end of a trail that begins at `x`.
def goal (x : NodeId) (es : Trail) : NodeId :=
  (es.getLast?.map (·.2)).getD x

-- The label of its last entry.
def label (r : Option String) (es : Trail) : Option String :=
  (es.getLast?.map (·.1)).getD r

end Trail

def IsTrail (p : Plan) : NodeId → Trail → Prop
  | _, []      => True
  | x, e :: es => e ∈ p.below x ∧ p.IsTrail e.2 es

-- All trails of less than `n` entries.
def trails (p : Plan) : Nat → NodeId → List Trail
  | 0, _     => []
  | n + 1, x => [] :: (p.below x).flatMap fun e => (p.trails n e.2).map (e :: ·)

-- Where the end of a trail comes to stand.
def address (p : Plan) : NodeId → Trail → List Nat
  | _, []      => []
  | x, e :: es => (p.below x).idxOf e :: p.address e.2 es

variable {p : Plan} {x : NodeId} {n m : Nat} {r : Option String} {d : Definition}
  {e : Option String × NodeId} {es es' : Trail}

namespace Trail

theorem goal_cons : goal x (e :: es) = goal e.2 es := by
  cases es <;> simp [goal, List.getLast?_cons]

theorem label_cons : Trail.label r (e :: es) = Trail.label e.1 es := by
  cases es <;> simp [Trail.label, List.getLast?_cons]

end Trail

theorem Unambiguous.nodup_below (h : p.Unambiguous) : (p.below x).Nodup := by
  cases branches : p.branches? x with
  | none       => rw [below_of_no_branches branches]; cases p.next? x <;> simp
  | some table =>
    have keys := h.tables _ <| Keyed.mem_of_get?_eq_some branches
    have entries : table.Nodup := keys.of_map
    rw [below_of_branches? branches]
    exact entries.map fun _ _ same => by simpa [Prod.ext_iff] using same

theorem mem_trails_iff : es ∈ p.trails n x ↔ p.IsTrail x es ∧ es.length < n := by
  induction n generalizing x es with
  | zero => simp [trails]
  | succ n ih =>
    cases es with
    | nil       => simp [trails, IsTrail]
    | cons e es =>
      simp only [trails, IsTrail, List.mem_cons, List.cons_ne_nil, false_or, List.mem_flatMap,
        List.mem_map, List.cons.injEq, List.length_cons, Nat.add_lt_add_iff_right, and_assoc,
        ← ih]
      constructor
      · rintro ⟨_, he, _, hes, rfl, rfl⟩
        exact ⟨he, hes⟩
      · exact fun ⟨he, hes⟩ => ⟨e, he, es, hes, rfl, rfl⟩

theorem nodup_trails (unambiguous : p.Unambiguous) : (p.trails n x).Nodup := by
  induction n generalizing x with
  | zero => exact .nil
  | succ n ih =>
    rw [trails, List.nodup_cons]
    refine ⟨by simp, List.nodup_flatMap.mpr ⟨?_, ?_⟩⟩
    · exact fun e _ => ih.map fun _ _ same => (List.cons.inj same).right
    · refine unambiguous.nodup_below.imp fun ne => ?_
      intro es h h'
      have ⟨_, _, eq⟩ := List.mem_map.mp h
      have ⟨_, _, eq'⟩ := List.mem_map.mp h'
      exact ne (List.cons.inj <| eq.trans eq'.symm).left

theorem eq_of_address_eq (trail : p.IsTrail x es) (trail' : p.IsTrail x es')
    (same : p.address x es = p.address x es') : es = es' := by
  induction es generalizing x es' with
  | nil =>
    cases es' with
    | nil    => rfl
    | cons _ => cases same
  | cons e es ih =>
    cases es' with
    | nil        => cases same
    | cons e' es' =>
      have ⟨first, rest⟩ := List.cons.inj same
      have entry : e = e' := (List.idxOf_inj trail.left).mp first
      subst entry
      exact congrArg (e :: ·) (ih trail.right trail'.right rest)

section Unfolded

variable (unfolded : p.definitionOf n x r = some d)

include unfolded

theorem definitionOf_mono (le : n ≤ m) : p.definitionOf m x r = some d := by
  induction n generalizing m x r d with
  | zero => cases unfolded
  | succ n ih =>
    obtain ⟨m, rfl⟩ := Nat.exists_eq_add_of_le' (Nat.lt_of_lt_of_le n.succ_pos le)
    have ⟨node, cs, known, children, eq⟩ := definitionOf_eq_some_iff.mp unfolded
    refine definitionOf_eq_some_iff.mpr ⟨node, cs, known, children ▸ List.map_congr_left ?_, eq⟩
    intro e he
    have ⟨c, _, unfolded⟩ := exists_child children he
    rw [unfolded]
    exact ih unfolded (Nat.le_of_succ_le_succ le)

theorem length_trails : (p.trails n x).length = d.nodeCount := by
  induction n generalizing x r d with
  | zero => cases unfolded
  | succ n ih =>
    have ⟨node, cs, _, children, eq⟩ := definitionOf_eq_some_iff.mp unfolded
    have counts :
        (p.below x).map (fun e => (p.trails n e.2).length) = cs.map Definition.nodeCount := by
      have := congrArg (List.map (Option.elim · 0 Definition.nodeCount)) children
      simp only [List.map_map, Function.comp_def, Option.elim_some] at this
      refine this ▸ List.map_congr_left fun e he => ?_
      have ⟨c, _, unfolded⟩ := exists_child children he
      rw [unfolded, Option.elim_some]
      exact ih unfolded
    simp only [trails, List.length_cons, List.length_flatMap, List.length_map, counts, eq,
      nodeCount_eq, children_listed]
    omega

-- At the address of a trail stands what its end unfolds into.
theorem exists_at?_address (trail : p.IsTrail x es) : ∃ c, d.at? (p.address x es) = some c ∧
    p.definitionOf (n - es.length) (es.goal x) (es.label r) = some c := by
  induction es generalizing n x r d with
  | nil => exact ⟨d, rfl, unfolded⟩
  | cons e es ih =>
    cases n with
    | zero   => cases unfolded
    | succ n =>
      have ⟨node, cs, _, children, eq⟩ := definitionOf_eq_some_iff.mp unfolded
      have ⟨he, trail⟩ := trail
      have ⟨i, hi⟩ : ∃ i, (p.below x).idxOf e = i := ⟨_, rfl⟩
      have entry : (p.below x)[i]? = some e := hi ▸ List.getElem?_idxOf he
      have child := congrArg (·[i]?) children
      simp only [List.getElem?_map, entry, Option.map_some] at child
      obtain ⟨c, hc, unfolded⟩ := Option.map_eq_some_iff.mp child.symm
      have ⟨c', stands, unfolded⟩ := ih unfolded.symm trail
      refine ⟨c', ?_, ?_⟩
      · rw [address, at?, eq, children_listed, hi, hc, Option.bind_some, stands]
      · rwa [List.length_cons, Nat.add_sub_add_right, Trail.goal_cons, Trail.label_cons]

theorem length_lt_of_isTrail (trail : p.IsTrail x es) : es.length < n := by
  have ⟨_, _, unfolded⟩ := exists_at?_address unfolded trail
  by_contra short
  rw [Nat.sub_eq_zero_of_le (Nat.not_lt.mp short)] at unfolded
  cases unfolded

theorem ncard_trails (unambiguous : p.Unambiguous) :
    {es | p.IsTrail x es}.Finite ∧ {es | p.IsTrail x es}.ncard = d.nodeCount := by
  have all : {es | p.IsTrail x es} = (p.trails n x).toFinset := by
    ext es
    rw [List.coe_toFinset, Set.mem_ofPred_eq, Set.mem_ofPred_eq, mem_trails_iff]
    exact ⟨fun trail => ⟨trail, length_lt_of_isTrail unfolded trail⟩, And.left⟩
  rw [all, Set.ncard_coe_finset, List.toFinset_card_of_nodup (nodup_trails unambiguous),
    length_trails unfolded]
  exact ⟨Finset.finite_toSet _, rfl⟩

theorem exists_address_eq (unambiguous : p.Unambiguous) {is : List Nat}
    (stands : (d.at? is).isSome) : ∃ es, p.IsTrail x es ∧ p.address x es = is := by
  induction is generalizing n x r d with
  | nil => exact ⟨[], trivial, rfl⟩
  | cons i is ih =>
    cases n with
    | zero   => cases unfolded
    | succ n =>
      have ⟨node, cs, _, children, eq⟩ := definitionOf_eq_some_iff.mp unfolded
      rw [at?, eq, children_listed] at stands
      obtain ⟨c, hc, stands⟩ : ∃ c, cs[i]? = some c ∧ (c.at? is).isSome := by
        cases hc : cs[i]? with
        | none   => simp [hc] at stands
        | some c => exact ⟨c, rfl, by simpa [hc] using stands⟩
      have child := congrArg (·[i]?) children
      simp only [List.getElem?_map, hc, Option.map_some] at child
      have ⟨e, entry, unfolded⟩ := Option.map_eq_some_iff.mp child
      have ⟨es, trail, address⟩ := ih unfolded stands
      have ⟨lt, he⟩ := List.getElem?_eq_some_iff.mp entry
      refine ⟨e :: es, ⟨List.mem_of_getElem? entry, trail⟩, ?_⟩
      rw [Plan.address, address, ← he, unambiguous.nodup_below.idxOf_getElem i lt]

-- Trails and addresses belong to each other one to one.
theorem bijOn_address (unambiguous : p.Unambiguous) :
    Set.BijOn (p.address x) {es | p.IsTrail x es} {is | (d.at? is).isSome} := by
  refine ⟨fun es trail => ?_, fun es trail es' trail' => eq_of_address_eq trail trail', ?_⟩
  · have ⟨_, stands, _⟩ := exists_at?_address unfolded trail
    exact Option.isSome_of_eq_some stands
  · exact fun is stands => exists_address_eq unfolded unambiguous stands

theorem exists_node_of_isTrail (trail : p.IsTrail x es) :
    ∃ c node, d.at? (p.address x es) = some c ∧ p.node? (es.goal x) = some node ∧
      c.step = node.key ∧ c.routeKey = es.label r := by
  have ⟨c, stands, unfolded'⟩ := exists_at?_address unfolded trail
  have ⟨m, hm⟩ := Nat.exists_eq_add_of_lt (length_lt_of_isTrail unfolded trail)
  rw [hm, Nat.add_assoc, Nat.add_sub_cancel_left] at unfolded'
  have ⟨node, _, known, _, eq⟩ := definitionOf_eq_some_iff.mp unfolded'
  exact ⟨c, node, stands, known, eq ▸ rfl, eq ▸ rfl⟩

end Unfolded

namespace Sound

variable (sound : p.Sound)

include sound

theorem not_cyclic_of_definitionOf (unfolded : p.definitionOf n p.root r = some d)
    (reaches : ReflTransGen p.Descends p.root x) : ¬TransGen p.Descends x x := by
  intro cycle
  have endless := exists_isChain_of_cycle reaches cycle n
  have known := fun y => sound.exists_node_of_descends (x := y)
  cases ((definitionOf_eq_none_iff known).mpr endless).symm.trans unfolded

-- A definition without end would need a chain of more nodes than there are.
theorem exists_definitionOf_nodeCount
    (acyclic : ∀ x, ReflTransGen p.Descends p.root x → ¬TransGen p.Descends x x) :
    ∃ d, p.definitionOf p.nodeCount p.root r = some d := by
  apply Option.ne_none_iff_exists'.mp
  intro endless
  have known := fun y => sound.exists_node_of_descends (x := y)
  have ⟨ys, length, chain⟩ := (definitionOf_eq_none_iff known).mp endless
  have within : (p.root :: ys).length ≤ p.nodeCount := by
    refine length_le_of_nodup (nodup_of_isChain chain acyclic) fun y hy => ?_
    have ⟨_, known⟩ := known y (reaches_of_isChain chain hy)
    exact lt_nodeCount_of_node? known
  rw [List.length_cons] at within
  omega

end Sound

theorem trails_of_build {ops : List Builder.Operation} {root : NodeId}
    (built : (Builder.ofOperations ops).build root = .ok p) :
    ((∃ n d, p.definitionOf n p.root none = some d) ↔
      ∀ x, ReflTransGen p.Descends p.root x → ¬TransGen p.Descends x x) ∧
    ∀ n d, p.definitionOf n p.root none = some d →
      p.toDefinition? = some d ∧
      Set.BijOn (p.address p.root) {es | p.IsTrail p.root es} {is | (d.at? is).isSome} ∧
      (∀ es, p.IsTrail p.root es →
        ∃ c node, d.at? (p.address p.root es) = some c ∧ p.node? (es.goal p.root) = some node ∧
          c.step = node.key ∧ c.routeKey = es.label none) ∧
      {es | p.IsTrail p.root es}.Finite ∧ {es | p.IsTrail p.root es}.ncard = d.nodeCount := by
  have sound := sound_of_build built
  have unambiguous := unambiguous_of_build built
  refine ⟨⟨fun ⟨n, d, unfolded⟩ x => sound.not_cyclic_of_definitionOf unfolded, ?_⟩, ?_⟩
  · intro acyclic
    have ⟨d, unfolded⟩ := sound.exists_definitionOf_nodeCount acyclic (r := none)
    exact ⟨p.nodeCount, d, unfolded⟩
  · intro n d unfolded
    have acyclic := fun x => sound.not_cyclic_of_definitionOf unfolded (x := x)
    have ⟨d', whole⟩ := sound.exists_definitionOf_nodeCount acyclic (r := none)
    have same := (definitionOf_mono unfolded <| Nat.le_max_left n p.nodeCount).symm.trans
      (definitionOf_mono whole <| Nat.le_max_right n p.nodeCount)
    cases same
    exact ⟨whole, bijOn_address unfolded unambiguous, fun es => exists_node_of_isTrail unfolded,
      ncard_trails unfolded unambiguous⟩

-- The successor of the desk, which leads round, is not followed, since the desk has branches. The
-- node that both of them lead to stands at the ends of two trails.
theorem trails_office :
    (Builder.ofOperations officeOperations).build ⟨1⟩ = .ok office ∧
      (∀ x, ReflTransGen office.Descends ⟨1⟩ x → ¬TransGen office.Descends x x) ∧
      {es | office.IsTrail ⟨1⟩ es}.ncard = 5 := by
  have ⟨d, unfolded, count⟩ :
      ∃ d, office.definitionOf 3 ⟨1⟩ none = some d ∧ d.nodeCount = 5 :=
    ⟨_, rfl, rfl⟩
  have ⟨ends, written⟩ := trails_of_build build_office
  have ⟨_, _, _, _, counted⟩ := written 3 d unfolded
  exact ⟨build_office, ends.mp ⟨3, d, unfolded⟩, counted.trans count⟩

end Plan
end RoutingPlan
