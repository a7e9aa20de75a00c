import Mathlib.Data.List.Chain
import Mathlib.Data.List.Perm.Subperm
import Mathlib.Data.Nat.Find
import RoutingPlan.Proofs.Plan.Tree

-- The paths that a run can take through a plan. In a plan that has been built they stay within its
-- nodes; if none of them comes back to a node (`Acyclic`), they are no longer than the plan has
-- nodes, and one of them is the longest.

namespace RoutingPlan.Plan

open Relation (ReflTransGen TransGen)

-- A plan whose root and whose ways out are nodes of it.
structure Sound (p : Plan) : Prop where
  root  : p.root.index < p.nodeCount
  exits : ∀ x label y, (label, y) ∈ p.exits x → y.index < p.nodeCount

-- A run can pass from `x` to `y`: there is a route key that is not blank and leads a router there,
-- or the action is followed by it.
def Passes (p : Plan) (x y : NodeId) : Prop :=
  ∃ node, p.node? x = some node ∧
    match node.step.kind with
    | .router => ∃ key, Text.isBlank key = false ∧ p.branch? x key = some y
    | .action => p.next? x = some y

def Reaches (p : Plan) (x : NodeId) : Prop :=
  ReflTransGen p.Passes p.root x

-- No cycle can be reached from the root.
def Acyclic (p : Plan) : Prop :=
  ∀ x, p.Reaches x → ¬TransGen p.Passes x x

-- The nodes to which a run can pass.
def ways (p : Plan) (x : NodeId) : List NodeId :=
  match p.node? x with
  | none => []
  | some node =>
    match node.step.kind with
    | .router => (((p.branches? x).getD []).filter fun e => !Text.isBlank e.1).map (·.2)
    | .action => (p.next? x).toList

-- The nodes of a path that begins at the root, be it without any.
structure IsPath (p : Plan) (ids : List NodeId) : Prop where
  head  : ∀ x ∈ ids.head?, x = p.root
  chain : ids.IsChain p.Passes

structure IsLongest (p : Plan) (ids : List NodeId) : Prop where
  path : p.IsPath ids
  most : ∀ ids', p.IsPath ids' → ids'.length ≤ ids.length

section Cycles

variable {α : Type} {R : α → α → Prop} {x z : α} {n : Nat} {ys : List α}

-- Where a cycle lies ahead, there is a step after which one still does.
theorem exists_step_of_cycle (way : ReflTransGen R x z) (cycle : TransGen R z z) :
    ∃ y, R x y ∧ ∃ z, ReflTransGen R y z ∧ TransGen R z z := by
  cases way.cases_head with
  | inl here =>
    subst here
    have ⟨y, step, back⟩ := TransGen.head'_iff.mp cycle
    exact ⟨y, step, x, back, cycle⟩
  | inr ahead =>
    have ⟨y, step, way⟩ := ahead
    exact ⟨y, step, z, way, cycle⟩

theorem exists_isChain_of_cycle (way : ReflTransGen R x z) (cycle : TransGen R z z) (n : Nat) :
    ∃ ys, ys.length = n ∧ (x :: ys).IsChain R := by
  induction n generalizing x z with
  | zero => exact ⟨[], rfl, .singleton x⟩
  | succ n ih =>
    have ⟨y, step, _, way, cycle⟩ := exists_step_of_cycle way cycle
    have ⟨ys, length, chain⟩ := ih way cycle
    exact ⟨y :: ys, congrArg (· + 1) length, .cons_cons step chain⟩

theorem pairwise_of_isChain (chain : ys.IsChain R) : ys.Pairwise (TransGen R) :=
  List.isChain_iff_pairwise.mp <| chain.imp fun _ _ => .single

theorem reaches_of_isChain (chain : (x :: ys).IsChain R) (h : z ∈ x :: ys) :
    ReflTransGen R x z := by
  cases List.mem_cons.mp h with
  | inl here  => exact here ▸ .refl
  | inr ahead =>
    have below := (List.pairwise_cons.mp <| pairwise_of_isChain chain).left
    exact (below z ahead).to_reflTransGen

theorem nodup_of_isChain (chain : (x :: ys).IsChain R)
    (acyclic : ∀ y, ReflTransGen R x y → ¬TransGen R y y) : (x :: ys).Nodup := by
  refine (pairwise_of_isChain chain).imp_of_mem fun hy _ steps same => ?_
  subst same
  exact acyclic _ (reaches_of_isChain chain hy) steps

end Cycles

variable {p : Plan} {x y : NodeId} {label : Option String} {ids : List NodeId}

theorem mem_exits_iff : (label, y) ∈ p.exits x ↔
    (∃ key table, label = some key ∧ p.branches? x = some table ∧ (key, y) ∈ table) ∨
      label = none ∧ p.next? x = some y := by
  cases hb : p.branches? x <;> cases hn : p.next? x <;> cases label <;>
    simp [exits, hb, hn, eq_comm]

theorem Builder.mem_mentioned_of_mem_exits {b : Builder} (h : (label, y) ∈ b.draft.exits x) :
    y ∈ b.mentioned := by
  cases mem_exits_iff.mp h with
  | inl h =>
    have ⟨_, _, _, branches, mem⟩ := h
    exact mem_mentioned.mpr <| .inl ⟨_, Keyed.mem_of_get?_eq_some branches, .inr ⟨_, mem, rfl⟩⟩
  | inr h => exact mem_mentioned.mpr <| .inr ⟨_, Keyed.mem_of_get?_eq_some h.right, .inr rfl⟩

theorem sound_of_build {b : Builder} {root : NodeId} (built : b.build root = .ok p) : p.Sound := by
  have ⟨known, eq⟩ := Builder.build_eq_ok_iff.mp built
  subst eq
  constructor
  case root  => exact known root List.mem_cons_self
  case exits =>
    intro x label y h
    exact known y <| List.mem_cons_of_mem _ <| Builder.mem_mentioned_of_mem_exits h

theorem sound_of_compile {resolve : Resolver} {d : Definition}
    (loaded : d.compile resolve = .ok p) : p.Sound := by
  rw [Definition.compile] at loaded
  cases h : d.assemble resolve .empty with
  | error e => rw [h] at loaded; cases loaded
  | ok r    => rw [h] at loaded; exact sound_of_build loaded

-- Every way out of a plan that was made of a definition goes to a greater number.
theorem lt_of_compile {resolve : Resolver} {d : Definition} (loaded : d.compile resolve = .ok p)
    (h : (label, y) ∈ p.exits x) : x.index < y.index := by
  have ⟨b, draft, closed, part⟩ := Definition.compile_eq_ok loaded
  subst draft
  have known := closed.lt_of_edge <| closed.unambiguous.edge_iff.mpr h
  exact (part.lt_of_mem_exits (Nat.zero_le _) known h).left

theorem exists_node_of_lt (h : x.index < p.nodeCount) : ∃ node, p.node? x = some node :=
  ⟨_, List.getElem?_eq_getElem h⟩

theorem mem_exits_of_branch? {key : String} (h : p.branch? x key = some y) :
    (some key, y) ∈ p.exits x := by
  have ⟨table, branches, get⟩ := Option.bind_eq_some_iff.mp h
  exact mem_exits_iff.mpr <| .inl ⟨key, table, rfl, branches, Keyed.mem_of_get?_eq_some get⟩

theorem Passes.exists_mem_exits (passes : p.Passes x y) : ∃ label, (label, y) ∈ p.exits x := by
  have ⟨node, _, way⟩ := passes
  cases kind : node.step.kind <;> rw [kind] at way
  case router =>
    have ⟨key, _, branch⟩ := way
    exact ⟨some key, mem_exits_of_branch? branch⟩
  case action => exact ⟨none, mem_exits_iff.mpr <| .inr ⟨rfl, way⟩⟩

theorem Sound.lt_of_reaches (sound : p.Sound) (reaches : p.Reaches x) : x.index < p.nodeCount := by
  cases reaches with
  | refl => exact sound.root
  | tail _ passes =>
    have ⟨label, exit⟩ := passes.exists_mem_exits
    exact sound.exits _ label x exit

theorem Passes.mem_ways (passes : p.Passes x y) : y ∈ p.ways x := by
  have ⟨node, known, way⟩ := passes
  simp only [ways, known]
  cases kind : node.step.kind <;> rw [kind] at way
  case action => simpa using way
  case router =>
    have ⟨key, filled, branch⟩ := way
    have ⟨table, branches, get⟩ := Option.bind_eq_some_iff.mp branch
    rw [branches]
    refine List.mem_map.mpr ⟨(key, y), List.mem_filter.mpr ⟨?_, by simp [filled]⟩, rfl⟩
    exact Keyed.mem_of_get?_eq_some get

theorem mem_of_reaches (root : p.root ∈ ids) (closed : ∀ x ∈ ids, ∀ y ∈ p.ways x, y ∈ ids)
    (reaches : p.Reaches x) : x ∈ ids := by
  induction reaches with
  | refl => exact root
  | tail _ passes ih => exact closed _ ih _ passes.mem_ways

-- There are no more nodes than there are numbers for them.
theorem length_le_of_nodup {n : Nat} (nodup : ids.Nodup) (known : ∀ x ∈ ids, x.index < n) :
    ids.length ≤ n := by
  have numbers : ids.map NodeId.index ⊆ List.range n := by
    intro i hi
    have ⟨x, hx, eq⟩ := List.mem_map.mp hi
    exact eq ▸ List.mem_range.mpr (known x hx)
  have distinct := nodup.map (f := NodeId.index) fun _ _ => congrArg NodeId.mk
  simpa using (distinct.subperm numbers).length_le

-- Ranks that rise on every way show that there is no cycle.
theorem acyclic_of_rank (rank : NodeId → Nat)
    (rises : ∀ x y, p.Reaches x → p.Passes x y → rank x < rank y) : p.Acyclic := by
  intro x reaches cycle
  have rises' {y : NodeId} (passes : TransGen p.Passes x y) :
      p.Reaches y ∧ rank x < rank y := by
    induction passes with
    | single passes    => exact ⟨reaches.tail passes, rises _ _ reaches passes⟩
    | tail _ passes ih => exact ⟨ih.1.tail passes, Nat.lt_trans ih.2 (rises _ _ ih.1 passes)⟩
  exact Nat.lt_irrefl _ (rises' cycle).2

-- It is enough that they rise between nodes from which no way leads to any others.
theorem acyclic_of_ways (ids : List NodeId) (rank : NodeId → Nat) (root : p.root ∈ ids)
    (closed : ∀ x ∈ ids, ∀ y ∈ p.ways x, y ∈ ids)
    (rises : ∀ x ∈ ids, ∀ y ∈ p.ways x, rank x < rank y) : p.Acyclic :=
  acyclic_of_rank rank fun x y reaches passes =>
    rises x (mem_of_reaches root closed reaches) y passes.mem_ways

theorem acyclic_of_compile {resolve : Resolver} {d : Definition}
    (loaded : d.compile resolve = .ok p) : p.Acyclic :=
  acyclic_of_rank NodeId.index fun _ _ _ passes =>
    have ⟨_, exit⟩ := passes.exists_mem_exits
    lt_of_compile loaded exit

namespace IsPath

theorem nil : p.IsPath [] :=
  ⟨by simp, .nil⟩

theorem left_of_append {ids' : List NodeId} (path : p.IsPath (ids ++ ids')) : p.IsPath ids where
  head x h := path.head x (by simp_all)
  chain    := path.chain.left_of_append

theorem singleton : p.IsPath [p.root] :=
  ⟨by simp, .singleton _⟩

theorem concat (path : p.IsPath (ids ++ [x])) (passes : p.Passes x y) :
    p.IsPath (ids ++ [x] ++ [y]) where
  head z h := path.head z (by simpa using h)
  chain    := path.chain.append (.singleton y) (by simpa using passes)

theorem reaches (path : p.IsPath ids) (h : x ∈ ids) : p.Reaches x := by
  cases ids with
  | nil => cases h
  | cons root ids =>
    have hroot : root = p.root := path.head root rfl
    subst hroot
    exact reaches_of_isChain path.chain h

theorem nodup (path : p.IsPath ids) (acyclic : p.Acyclic) : ids.Nodup := by
  cases ids with
  | nil => exact .nil
  | cons root ids =>
    have hroot : root = p.root := path.head root rfl
    subst hroot
    exact nodup_of_isChain path.chain acyclic

theorem length_le (path : p.IsPath ids) (acyclic : p.Acyclic) (sound : p.Sound) :
    ids.length ≤ p.nodeCount :=
  length_le_of_nodup (path.nodup acyclic) fun _ hx => sound.lt_of_reaches <| path.reaches hx

end IsPath

open Classical in
theorem Acyclic.exists_longest (acyclic : p.Acyclic) (sound : p.Sound) :
    ∃ longest, p.IsLongest longest := by
  let Attained (n : Nat) : Prop := ∃ ids, p.IsPath ids ∧ ids.length = n
  have attained {ids : List NodeId} (path : p.IsPath ids) : Attained ids.length := ⟨ids, path, rfl⟩
  have ⟨longest, path, length⟩ : Attained (Nat.findGreatest Attained p.nodeCount) :=
    Nat.findGreatest_spec (Nat.zero_le _) (attained IsPath.nil)
  refine ⟨longest, path, fun ids path' => ?_⟩
  rw [length]
  exact Nat.le_findGreatest (path'.length_le acyclic sound) (attained path')

end RoutingPlan.Plan
