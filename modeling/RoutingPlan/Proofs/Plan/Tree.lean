import Mathlib.Data.List.Intervals
import Mathlib.Logic.Relation
import RoutingPlan.Proofs.Plan.Loaded

-- Plans that were made of definitions are trees. All of it follows from two facts about a part: its
-- nodes lead to all of its nodes but the first, each time once (`Part.targets_perm`), and each of
-- them begins a part of its own (`Part.exists_part`).

namespace RoutingPlan.Plan

open scoped List

-- An entry of a branch table, labelled with its route key, or one of the chain, without a label.
def Edge (p : Plan) (source : NodeId) (label : Option String) (target : NodeId) : Prop :=
  match label with
  | some key => ∃ table, (source, table) ∈ p.branches ∧ (key, target) ∈ table
  | none => (source, target) ∈ p.chain

def Leads (p : Plan) (x y : NodeId) : Prop :=
  ∃ label, p.Edge x label y

-- A plan that is a tree, with the nodes below a node right after it, and that keeps the rules for
-- routers and actions.
structure IsTree (p : Plan) : Prop where
  root        : p.root = ⟨0⟩
  nonempty    : 0 < p.nodeCount
  numbered    : ∀ id node, p.node? id = some node → node.id = id
  unambiguous : p.Unambiguous
  unentered   : ∀ source label, ¬p.Edge source label p.root
  entered     : ∀ id, id.index < p.nodeCount → id ≠ p.root →
    ∃! e : NodeId × Option String, p.Edge e.1 e.2 id
  ascending   : ∀ source label target, p.Edge source label target →
    source.index < target.index ∧ target.index < p.nodeCount
  reachable   : ∀ id, id.index < p.nodeCount → Relation.ReflTransGen p.Leads p.root id
  contiguous  : ∀ id, id.index < p.nodeCount → ∃ stop, ∀ x,
    Relation.TransGen p.Leads id x ↔ id.index < x.index ∧ x.index < stop
  router      : ∀ id node, p.node? id = some node → node.step.kind = .router →
    p.next? id = none ∧ ∃ table, p.branches? id = some table ∧ table ≠ [] ∧
      ∀ key ∈ Keyed.keys table, Text.isBlank key = false
  action      : ∀ id node, p.node? id = some node → node.step.kind = .action →
    p.branches? id = none ∧ ∀ x y, (id, x) ∈ p.chain → (id, y) ∈ p.chain → x = y

section Ids

variable {i j m : Nat} {id : NodeId}

-- The node numbers from `i` up to, but without, `j`.
def ids (i j : Nat) : List NodeId :=
  (List.Ico i j).map NodeId.mk

theorem mem_ids : id ∈ ids i j ↔ i ≤ id.index ∧ id.index < j := by
  rw [← List.Ico.mem, ids, List.mem_map]
  exact ⟨fun ⟨_, hk, h⟩ => h ▸ hk, fun h => ⟨id.index, h, rfl⟩⟩

theorem nodup_ids : (ids i j).Nodup :=
  (List.Ico.nodup i j).map fun _ _ => NodeId.mk.inj

theorem ids_eq_cons (h : i < j) : ids i j = ⟨i⟩ :: ids (i + 1) j := by
  rw [ids, List.Ico.eq_cons h, List.map_cons, ids]

theorem ids_append (hi : i ≤ m) (hj : m ≤ j) : ids i m ++ ids m j = ids i j := by
  rw [ids, ids, ← List.map_append, List.Ico.append_consecutive hi hj, ids]

theorem ids_self : ids i i = [] := by
  rw [ids, List.Ico.self_empty, List.map_nil]

end Ids

variable {p : Plan} {x y id : NodeId} {label : Option String} {i j k : Nat}

-- Where the lookups lead from a node.
def exits (p : Plan) (id : NodeId) : List (Option String × NodeId) :=
  ((p.branches? id).getD []).map (fun (key, child) => (some key, child)) ++
    ((p.next? id).map fun next => (none, next)).toList

theorem Unambiguous.edge_iff (h : p.Unambiguous) : p.Edge x label y ↔ (label, y) ∈ p.exits x := by
  cases label with
  | none =>
    rw [Edge, ← Keyed.get?_eq_some_iff h.chain]
    simp [exits, next?]
  | some key =>
    simp only [Edge, ← Keyed.get?_eq_some_iff h.branches]
    cases ht : p.branches? x <;> simp [exits, branches?] at ht ⊢ <;> simp [ht]

theorem exits_router {t : Branches} (branches : p.branches? id = some t)
    (next : p.next? id = none) :
    (p.exits id).map (·.2) = t.map (·.2) := by
  simp [exits, branches, next]

theorem exits_action (branches : p.branches? id = none) :
    p.exits id = ((p.next? id).map fun next => (none, next)).toList := by
  simp [exits, branches]

-- Where the nodes from `i` up to, but without, `j` lead, each way on with its source and its label.
def exitsBetween (p : Plan) (i j : Nat) : List ((NodeId × Option String) × NodeId) :=
  (ids i j).flatMap fun id => (p.exits id).map fun (label, target) => ((id, label), target)

theorem mem_exitsBetween : ((x, label), y) ∈ p.exitsBetween i j ↔
    (i ≤ x.index ∧ x.index < j) ∧ (label, y) ∈ p.exits x := by
  simp [exitsBetween, mem_ids]

def targets (p : Plan) (i j : Nat) : List NodeId :=
  (p.exitsBetween i j).map (·.2)

theorem targets_eq_cons (h : i < j) :
    p.targets i j = (p.exits ⟨i⟩).map (·.2) ++ p.targets (i + 1) j := by
  simp [targets, exitsBetween, ids_eq_cons h]

theorem targets_append {m : Nat} (hi : i ≤ m) (hj : m ≤ j) :
    p.targets i m ++ p.targets m j = p.targets i j := by
  rw [targets, targets, ← List.map_append, exitsBetween, exitsBetween, ← List.flatMap_append,
    ids_append hi hj, targets, exitsBetween]

theorem targets_self : p.targets i i = [] := by
  rw [targets, exitsBetween, ids_self, List.flatMap_nil, List.map_nil]

section Part

variable {resolve : Resolver} {d : Definition} {cs : List Definition} {t : Branches}

mutual

-- The nodes of a part lead to all of them but the first, each time once.
theorem Part.targets_perm {d : Definition} {i j : Nat} (part : Part p resolve d i j) :
    (p.targets i j).Perm (ids (i + 1) j) := by
  rw [targets_eq_cons part.lt]
  match part with
  | .router _ _ branches next _ arms =>
    rw [exits_router branches next]
    exact arms.targets_perm
  | .final _ _ branches next _ =>
    rw [exits_action branches, next, targets_self, ids_self]
    exact .nil
  | .chained _ _ branches next _ part =>
    rw [exits_action branches, next, ids_eq_cons part.lt]
    exact part.targets_perm.cons _

-- With the entries of the branch table itself they lead to all nodes of its arms.
theorem Arms.targets_perm {cs : List Definition} {t : Branches} {i j : Nat}
    (arms : Arms p resolve cs t i j) : (t.map (·.2) ++ p.targets i j).Perm (ids i j) := by
  match arms with
  | .nil => rw [targets_self, ids_self]; exact .nil
  | @Arms.cons _ _ _ _ _ t _ m _ _ _ part arms =>
    have le := Nat.le_of_lt part.lt
    rw [← targets_append le arms.le, ← ids_append le arms.le]
    calc ⟨i⟩ :: t.map (·.2) ++ (p.targets i m ++ p.targets m j)
      _ ~ (⟨i⟩ :: p.targets i m) ++ (t.map (·.2) ++ p.targets m j) :=
        (List.perm_append_comm_assoc ..).cons _
      _ ~ ids i m ++ ids m j := by
        rw [ids_eq_cons part.lt]
        exact (part.targets_perm.cons _).append arms.targets_perm

end

mutual

-- Each node of a part begins a part of its own.
theorem Part.exists_part {d : Definition} {i j : Nat} (part : Part p resolve d i j) (hi : i ≤ k)
    (hj : k < j) : ∃ e m, Part p resolve e k m ∧ m ≤ j := by
  obtain rfl | hi := Nat.eq_or_lt_of_le hi
  · exact ⟨d, j, part, Nat.le_refl _⟩
  · match part with
    | .router _ _ _ _ _ arms  => exact arms.exists_part hi hj
    | .final ..               => exact absurd hj (Nat.not_lt_of_le hi)
    | .chained _ _ _ _ _ part => exact part.exists_part hi hj

theorem Arms.exists_part {cs : List Definition} {t : Branches} {i j : Nat}
    (arms : Arms p resolve cs t i j) (hi : i ≤ k) (hj : k < j) :
    ∃ e m, Part p resolve e k m ∧ m ≤ j := by
  match arms with
  | .nil => exact absurd hj (Nat.not_lt_of_le hi)
  | @Arms.cons _ _ _ _ _ _ _ m _ _ _ part arms =>
    cases Nat.lt_or_ge k m
    case inl hm =>
      have ⟨e, m', part', hm'⟩ := part.exists_part hi hm
      exact ⟨e, m', part', Nat.le_trans hm' arms.le⟩
    case inr hm => exact arms.exists_part hm hj

end

theorem Part.mem_targets_iff (part : Part p resolve d i j) :
    y ∈ p.targets i j ↔ i < y.index ∧ y.index < j :=
  part.targets_perm.mem_iff.trans mem_ids

theorem Part.lt_of_mem_exits (part : Part p resolve d i j) (hi : i ≤ x.index) (hj : x.index < j)
    (h : (label, y) ∈ p.exits x) : x.index < y.index ∧ y.index < j := by
  have ⟨_, _, part', hm⟩ := part.exists_part hi hj
  have mem : y ∈ p.targets x.index _ := List.mem_map_of_mem <| mem_exitsBetween.mpr
    ⟨⟨Nat.le_refl _, part'.lt⟩, h⟩
  have ⟨lt, lt'⟩ := part'.mem_targets_iff.mp mem
  exact ⟨lt, Nat.lt_of_lt_of_le lt' hm⟩

theorem Part.existsUnique_exit (part : Part p resolve d i j) (hi : i < y.index) (hj : y.index < j) :
    ∃! e : NodeId × Option String, (i ≤ e.1.index ∧ e.1.index < j) ∧ (e.2, y) ∈ p.exits e.1 := by
  have ⟨⟨e, y'⟩, he, eq⟩ := List.mem_map.mp <| part.mem_targets_iff.mpr ⟨hi, hj⟩
  cases eq
  refine ⟨e, mem_exitsBetween.mp he, fun e' he' => ?_⟩
  have nodup : (p.targets i j).Nodup := part.targets_perm.nodup_iff.mpr nodup_ids
  have same := List.inj_on_of_nodup_map nodup (mem_exitsBetween.mpr he') he rfl
  exact congrArg Prod.fst same

-- The nodes below the first node of a part are all the others.
theorem Part.transGen_iff (part : Part p resolve d i j) (edges : p.Unambiguous) :
    Relation.TransGen p.Leads ⟨i⟩ x ↔ i < x.index ∧ x.index < j := by
  constructor
  case mp =>
    intro below
    induction below with
    | single leads =>
      have ⟨_, edge⟩ := leads
      exact part.lt_of_mem_exits (Nat.le_refl _) part.lt <| edges.edge_iff.mp edge
    | tail _ leads ih =>
      have ⟨_, edge⟩ := leads
      have ⟨lt, lt'⟩ := part.lt_of_mem_exits (Nat.le_of_lt ih.1) ih.2 <| edges.edge_iff.mp edge
      exact ⟨Nat.lt_trans ih.1 lt, lt'⟩
  case mpr =>
    intro ⟨hi, hj⟩
    induction hx : x.index using Nat.strongRecOn generalizing x with
    | ind n ih =>
      have ⟨⟨source, _⟩, ⟨⟨hs, hs'⟩, exit⟩, _⟩ := part.existsUnique_exit hi hj
      have leads : p.Leads source x := ⟨_, edges.edge_iff.mpr exit⟩
      have lt := (part.lt_of_mem_exits hs hs' exit).1
      obtain eq | hs := Nat.eq_or_lt_of_le hs
      · exact .single (by rwa [eq])
      · exact .tail (ih source.index (hx ▸ lt) hs hs' rfl) leads

theorem Arms.isBlank_eq_false {cs : List Definition} {t : Branches} {i j : Nat} {key : String}
    (arms : Arms p resolve cs t i j) (h : key ∈ Keyed.keys t) : Text.isBlank key = false := by
  match arms with
  | .nil => exact absurd h List.not_mem_nil
  | .cons _ filled _ arms =>
    cases List.mem_cons.mp h
    case inl h => exact h ▸ filled
    case inr h => exact arms.isBlank_eq_false h

section Rules

variable {node : Node}

theorem Part.id_eq (part : Part p resolve d i j) (h : p.node? ⟨i⟩ = some node) : node.id = ⟨i⟩ := by
  cases part with
  | router _ h' | final _ h' | chained _ h' => cases h.symm.trans h'; rfl

theorem Part.router_rule (part : Part p resolve d i j) (h : p.node? ⟨i⟩ = some node)
    (kind : node.step.kind = .router) :
    p.next? ⟨i⟩ = none ∧ ∃ table, p.branches? ⟨i⟩ = some table ∧ table ≠ [] ∧
      ∀ key ∈ Keyed.keys table, Text.isBlank key = false := by
  cases part with
  | router _ _ branches next nonempty arms =>
    refine ⟨next, _, branches, arms.ne_nil <| Definition.standing_ne_nil nonempty, ?_⟩
    exact fun key => arms.isBlank_eq_false
  | final _ h' | chained _ h' => cases h.symm.trans h'; cases kind

theorem Part.table_ne_nil {table : Branches} (part : Part p resolve d i j)
    (h : p.branches? ⟨i⟩ = some table) : table ≠ [] := by
  cases part with
  | router _ _ branches _ nonempty arms =>
    cases h.symm.trans branches
    exact arms.ne_nil <| Definition.standing_ne_nil nonempty
  | final _ _ branches | chained _ _ branches => cases h.symm.trans branches

theorem Part.action_rule (part : Part p resolve d i j) (h : p.node? ⟨i⟩ = some node)
    (kind : node.step.kind = .action) : p.branches? ⟨i⟩ = none := by
  cases part with
  | router _ h' => cases h.symm.trans h'; cases kind
  | final _ _ branches | chained _ _ branches => exact branches

end Rules

end Part

theorem Builder.Closed.lt_of_edge {b : Builder} (closed : b.Closed) (h : b.draft.Edge x label y) :
    x.index < b.nodes.length := by
  refine closed.known x <| Builder.mem_mentioned.mpr ?_
  cases label with
  | none => exact .inr ⟨_, h, .inl rfl⟩
  | some =>
    have ⟨_, ht, _⟩ := h
    exact .inl ⟨_, ht, .inl rfl⟩

theorem lt_nodeCount_of_node? {node : Node} (h : p.node? id = some node) :
    id.index < p.nodeCount :=
  (List.getElem?_eq_some_iff.mp h).1

section Whole

variable {resolve : Resolver} {d : Definition} {b : Builder}

theorem Part.existsUnique_edge (part : Part b.draft resolve d 0 b.draft.nodeCount)
    (closed : b.Closed) (lt : id.index < b.draft.nodeCount) (ne : id ≠ ⟨0⟩) :
    ∃! e : NodeId × Option String, b.draft.Edge e.1 e.2 id := by
  have edges := closed.unambiguous
  have pos : 0 < id.index := Nat.pos_of_ne_zero fun h => ne (congrArg NodeId.mk h)
  have ⟨e, ⟨_, exit⟩, unique⟩ := part.existsUnique_exit pos lt
  refine ⟨e, edges.edge_iff.mpr exit, fun e' h => unique e' ⟨⟨Nat.zero_le _, ?_⟩, ?_⟩⟩
  · exact closed.lt_of_edge h
  · exact edges.edge_iff.mp h

theorem Part.reachable (part : Part p resolve d 0 p.nodeCount) (edges : p.Unambiguous)
    (lt : id.index < p.nodeCount) : Relation.ReflTransGen p.Leads ⟨0⟩ id := by
  obtain eq | pos := Nat.eq_zero_or_pos id.index
  · have root : ⟨0⟩ = id := congrArg NodeId.mk eq.symm
    exact root ▸ .refl
  · exact ((part.transGen_iff edges).mpr ⟨pos, lt⟩).to_reflTransGen

end Whole

theorem isTree_of_compile {resolve : Resolver} {d : Definition}
    (loaded : d.compile resolve = .ok p) : p.IsTree := by
  have ⟨b, hp, closed, part⟩ := Definition.compile_eq_ok loaded
  subst hp
  have edges := closed.unambiguous
  have own (id : NodeId) (h : id.index < b.draft.nodeCount) :=
    part.exists_part (Nat.zero_le _) h
  have ascending {x y : NodeId} {label : Option String} (h : b.draft.Edge x label y) :=
    part.lt_of_mem_exits (Nat.zero_le _) (closed.lt_of_edge h) (edges.edge_iff.mp h)
  constructor
  case root        => rfl
  case nonempty    => exact part.lt
  case unambiguous => exact edges
  case ascending   => exact fun _ _ _ => ascending
  case unentered   => exact fun _ _ h => Nat.not_lt_zero _ (ascending h).1
  case entered     => exact fun _ => part.existsUnique_edge closed
  case reachable   => exact fun _ => part.reachable edges
  case numbered    =>
    intro id node h
    have ⟨_, _, part', _⟩ := own id <| lt_nodeCount_of_node? h
    exact part'.id_eq h
  case contiguous  =>
    intro id lt
    have ⟨_, stop, part', _⟩ := own id lt
    exact ⟨stop, fun _ => part'.transGen_iff edges⟩
  case router      =>
    intro id node h kind
    have ⟨_, _, part', _⟩ := own id <| lt_nodeCount_of_node? h
    exact part'.router_rule h kind
  case action      =>
    intro id node h kind
    have ⟨_, _, part', _⟩ := own id <| lt_nodeCount_of_node? h
    refine ⟨part'.action_rule h kind, fun x y hx hy => ?_⟩
    rw [← Keyed.get?_eq_some_iff edges.chain] at hx hy
    exact Option.some.inj <| hx.symm.trans hy

theorem isTree_overridden :
    ∃ p, Definition.overridden.compile (Definition.stepsWithout ["retired"]) = .ok p ∧
      p.nodeCount = 4 ∧ p.IsTree := by
  have ⟨p, loaded, count⟩ :
      ∃ p, Definition.overridden.compile (Definition.stepsWithout ["retired"]) = .ok p ∧
        p.nodeCount = 4 :=
    ⟨_, rfl, rfl⟩
  exact ⟨p, loaded, count, isTree_of_compile loaded⟩

end RoutingPlan.Plan
