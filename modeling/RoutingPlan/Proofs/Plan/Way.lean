import Mathlib.Data.List.Infix
import RoutingPlan.Proofs.Plan.Path

-- The ways through a plan, with the labels of the edges that they take. In a plan that was made of
-- a definition there is one way from the root to each node, and each way goes on to a leaf.

namespace RoutingPlan.Plan

-- A way from one node to another: the nodes before the last one, each with the label of the edge by
-- which it is left.
inductive Way (p : Plan) : NodeId → List (NodeId × Option String) → NodeId → Prop
  | nil {x} : Way p x [] x
  | cons {x y z label way} (edge : p.Edge x label y) (rest : Way p y way z) :
    Way p x ((x, label) :: way) z

-- An action after which nothing comes.
def IsLeaf (p : Plan) (x : NodeId) : Prop :=
  ∃ node, p.node? x = some node ∧ node.step.kind = .action ∧ p.next? x = none

-- The nodes of a way, with the last one.
def stops (way : List (NodeId × Option String)) (x : NodeId) : List NodeId :=
  way.map (·.1) ++ [x]

variable {p : Plan} {x y y' z : NodeId} {label : Option String} {key : String}
  {way way' : List (NodeId × Option String)}

theorem Unambiguous.branch?_eq_some_iff (edges : p.Unambiguous) :
    p.branch? x key = some y ↔ p.Edge x (some key) y := by
  simp only [branch?, branches?, Option.bind_eq_some_iff, Edge,
    Keyed.get?_eq_some_iff edges.branches]
  refine exists_congr fun table => and_congr_right fun mem => ?_
  exact Keyed.get?_eq_some_iff (edges.tables _ mem)

theorem Unambiguous.next?_eq_some_iff (edges : p.Unambiguous) :
    p.next? x = some y ↔ p.Edge x none y :=
  Keyed.get?_eq_some_iff edges.chain

-- A label leads to one node only.
theorem Unambiguous.deterministic (edges : p.Unambiguous) (h : p.Edge x label y)
    (h' : p.Edge x label y') : y = y' := by
  cases label with
  | none =>
    rw [← edges.next?_eq_some_iff] at h h'
    exact Option.some.inj <| h.symm.trans h'
  | some key =>
    rw [← edges.branch?_eq_some_iff] at h h'
    exact Option.some.inj <| h.symm.trans h'

namespace Way

theorem append (first : p.Way x way y) (second : p.Way y way' z) : p.Way x (way ++ way') z := by
  induction first with
  | nil            => exact second
  | cons edge _ ih => exact .cons edge (ih second)

theorem concat (first : p.Way x way y) (edge : p.Edge y label z) :
    p.Way x (way ++ [(y, label)]) z :=
  first.append <| .cons edge .nil

theorem eq_nil_or_exists_concat (h : p.Way x way z) :
    way = [] ∧ x = z ∨
      ∃ before y label, way = before ++ [(y, label)] ∧ p.Way x before y ∧ p.Edge y label z := by
  induction h with
  | nil => exact .inl ⟨rfl, rfl⟩
  | @cons x y z label way edge rest ih =>
    right
    rcases ih with ⟨rfl, rfl⟩ | ⟨before, u, label', rfl, first, last⟩
    case inl => exact ⟨[], x, label, rfl, .nil, edge⟩
    case inr => exact ⟨(x, label) :: before, u, label', rfl, .cons edge first, last⟩

theorem exists_stops_eq_cons (h : p.Way x way y) : ∃ later, stops way y = x :: later := by
  cases h with
  | nil  => exact ⟨[], rfl⟩
  | cons => exact ⟨_, rfl⟩

theorem stops_prefix_append (h : p.Way y way' z) : stops way y <+: stops (way ++ way') z := by
  have ⟨later, eq⟩ := h.exists_stops_eq_cons
  refine ⟨later, ?_⟩
  rw [stops] at eq
  simp [stops, eq]

theorem exists_edge (h : p.Way x way z) {e : NodeId × Option String} (mem : e ∈ way) :
    ∃ y, p.Edge e.1 e.2 y := by
  induction h with
  | nil => cases mem
  | cons edge _ ih =>
    cases mem with
    | head     => exact ⟨_, edge⟩
    | tail _ h => exact ih h

-- Of two ways that never part, one goes on where the other one ends.
theorem compare (edges : p.Unambiguous) (first : p.Way x way y) (second : p.Way x way' z)
    (agree : ∀ e ∈ way, ∀ e' ∈ way', e.1 = e'.1 → e.2 = e'.2) :
    stops way' z <+: stops way y ∨
      stops way y <+: stops way' z ∧ ∃ label, (y, label) ∈ way' := by
  induction first generalizing way' with
  | nil =>
    cases second with
    | nil  => exact .inl (List.prefix_refl _)
    | cons => exact .inr ⟨by simp [stops], _, List.mem_cons_self⟩
  | @cons x u y label way edge rest ih =>
    cases second with
    | nil => exact .inl (by simp [stops])
    | @cons _ u' _ label' way' edge' rest' =>
      have same : label = label' :=
        agree _ List.mem_cons_self _ List.mem_cons_self rfl
      subst same
      have next := edges.deterministic edge edge'
      subst next
      have agree' : ∀ e ∈ way, ∀ e' ∈ way', e.1 = e'.1 → e.2 = e'.2 := fun e he e' he' =>
        agree e (List.mem_cons_of_mem _ he) e' (List.mem_cons_of_mem _ he')
      refine (ih rest' agree').imp (fun h => ?_) fun ⟨h, label', mem⟩ => ?_
      · exact List.prefix_cons_inj _ |>.mpr h
      · exact ⟨List.prefix_cons_inj _ |>.mpr h, label', List.mem_cons_of_mem _ mem⟩

end Way

section Loaded

variable {resolve : Resolver} {d : Definition} (loaded : d.compile resolve = .ok p)

include loaded

theorem lt_of_edge (edge : p.Edge x label y) : x.index < y.index ∧ y.index < p.nodeCount := by
  have ⟨b, draft, closed, part⟩ := Definition.compile_eq_ok loaded
  subst draft
  exact part.lt_of_mem_exits (Nat.zero_le _) (closed.lt_of_edge edge)
    (closed.unambiguous.edge_iff.mp edge)

theorem isBlank_of_edge (edge : p.Edge x (some key) y) : Text.isBlank key = false := by
  have ⟨b, draft, closed, part⟩ := Definition.compile_eq_ok loaded
  have edges : p.Unambiguous := draft ▸ closed.unambiguous
  have lt := (lt_of_edge loaded edge).left.trans (lt_of_edge loaded edge).right
  have ⟨table, entry, mem⟩ := edge
  have branches : p.branches? x = some table :=
    (Keyed.get?_eq_some_iff edges.branches).mpr entry
  have ⟨node, known⟩ := exists_node_of_lt lt
  have ⟨_, _, part', _⟩ := part.exists_part (Nat.zero_le _) lt
  cases kind : node.step.kind with
  | router =>
    have ⟨_, table', branches', _, filled⟩ := part'.router_rule known kind
    cases branches.symm.trans branches'
    exact filled key <| List.mem_map_of_mem mem
  | action => cases branches.symm.trans (part'.action_rule known kind)

theorem lt_of_way (h : p.Way p.root way x) : x.index < p.nodeCount := by
  rcases h.eq_nil_or_exists_concat with ⟨rfl, rfl⟩ | ⟨_, _, _, _, _, edge⟩
  · exact (sound_of_compile loaded).root
  · exact (lt_of_edge loaded edge).right

-- The induction is on the number of the node: it is entered by one edge, from a smaller number.
theorem existsUnique_way (lt : x.index < p.nodeCount) : ∃! way, p.Way p.root way x := by
  have ⟨b, draft, closed, part⟩ := Definition.compile_eq_ok loaded
  induction hx : x.index using Nat.strongRecOn generalizing x with
  | ind n ih =>
    by_cases root : x = p.root
    case pos =>
      refine ⟨[], root ▸ .nil, fun way h => ?_⟩
      rcases h.eq_nil_or_exists_concat with ⟨eq, _⟩ | ⟨_, _, _, _, _, edge⟩
      · exact eq
      · have lt := (lt_of_edge loaded edge).left
        rw [root, draft] at lt
        exact absurd lt (Nat.not_lt_zero _)
    case neg =>
      have ⟨⟨y, label⟩, edge, only⟩ : ∃! e : NodeId × Option String, p.Edge e.1 e.2 x := by
        subst draft
        exact part.existsUnique_edge closed lt root
      have before := (lt_of_edge loaded edge).left
      have ⟨way, first, unique⟩ := ih y.index (hx ▸ before) (before.trans lt) rfl
      refine ⟨way ++ [(y, label)], first.concat edge, fun way' h => ?_⟩
      rcases h.eq_nil_or_exists_concat with ⟨_, eq⟩ | ⟨way'', y', label', rfl, first', edge'⟩
      · exact absurd eq.symm root
      · cases only (y', label') edge'
        rw [unique way'' first']

theorem isLeaf_or_exists_edge (lt : x.index < p.nodeCount) :
    p.IsLeaf x ∨ ∃ label y, p.Edge x label y := by
  have ⟨b, draft, closed, part⟩ := Definition.compile_eq_ok loaded
  have edges : p.Unambiguous := draft ▸ closed.unambiguous
  have ⟨node, known⟩ := exists_node_of_lt lt
  have ⟨_, _, part', _⟩ := part.exists_part (Nat.zero_le _) lt
  cases kind : node.step.kind with
  | router =>
    have ⟨_, table, branches, nonempty, _⟩ := part'.router_rule known kind
    have ⟨⟨key, y⟩, mem⟩ := List.exists_mem_of_ne_nil table nonempty
    exact .inr ⟨some key, y, table, Keyed.mem_of_get?_eq_some branches, mem⟩
  | action =>
    cases next : p.next? x with
    | none   => exact .inl ⟨node, known, kind, next⟩
    | some y => exact .inr ⟨none, y, edges.next?_eq_some_iff.mp next⟩

theorem exists_way_to_leaf (lt : x.index < p.nodeCount) :
    ∃ way leaf, p.Way x way leaf ∧ p.IsLeaf leaf := by
  induction hx : p.nodeCount - x.index using Nat.strongRecOn generalizing x with
  | ind n ih =>
    rcases isLeaf_or_exists_edge loaded lt with leaf | ⟨label, y, edge⟩
    case inl => exact ⟨[], x, .nil, leaf⟩
    case inr =>
      have ⟨rises, lt'⟩ := lt_of_edge loaded edge
      have ⟨way, leaf, later, last⟩ := ih _ (by omega) lt' rfl
      exact ⟨(x, label) :: way, leaf, .cons edge later, last⟩

end Loaded

end RoutingPlan.Plan
