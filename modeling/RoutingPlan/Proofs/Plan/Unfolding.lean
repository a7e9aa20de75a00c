import RoutingPlan.Proofs.Definition.NormalForm
import RoutingPlan.Proofs.Plan.Path

-- Plans that unfold into a definition. Nodes that can be reached on several paths come to stand at
-- several places of the definition; so its height is the number of nodes on the longest path, and
-- it compiles again, since all of its nodes keep the rules that the nodes of the plan keep.

namespace RoutingPlan

namespace Definition

mutual

-- How many nodes stand one below the other.
def height : Definition → Nat
  | mk _ _ none => 1
  | mk _ _ (some cs) => 1 + maxHeight cs

def maxHeight : List Definition → Nat
  | [] => 0
  | c :: cs => max (height c) (maxHeight cs)

end

variable {d c : Definition} {cs : List Definition}

theorem height_eq (d : Definition) : d.height = 1 + maxHeight d.children := by
  match d with
  | mk _ _ none | mk _ _ (some _) => rfl

theorem height_le_maxHeight (h : c ∈ cs) : c.height ≤ maxHeight cs := by
  induction cs with
  | nil => cases h
  | cons a cs ih =>
    rw [maxHeight]
    cases List.mem_cons.mp h with
    | inl h => exact h ▸ Nat.le_max_left ..
    | inr h => exact Nat.le_trans (ih h) (Nat.le_max_right ..)

theorem exists_height_eq_maxHeight (h : cs ≠ []) : ∃ c ∈ cs, c.height = maxHeight cs := by
  induction cs with
  | nil => exact absurd rfl h
  | cons a cs ih =>
    rw [maxHeight]
    by_cases first : maxHeight cs ≤ a.height
    case pos => exact ⟨a, List.mem_cons_self, (Nat.max_eq_left first).symm⟩
    case neg =>
      have nonempty : cs ≠ [] := fun nil => first (nil ▸ Nat.zero_le _)
      have ⟨c, hc, eq⟩ := ih nonempty
      exact ⟨c, List.mem_cons_of_mem _ hc, eq.trans (Nat.max_eq_right (by omega)).symm⟩

end Definition

namespace Plan

open Definition
open Relation (ReflTransGen)

-- The rules for steps, as far as a run can get: routers have branches for route keys that are not
-- blank, and actions have none.
structure Orderly (p : Plan) : Prop where
  router : ∀ x node, p.Reaches x → p.node? x = some node → node.step.kind = .router →
    ∃ table, p.branches? x = some table ∧ ∀ key ∈ Keyed.keys table, Text.isBlank key = false
  action : ∀ x node, p.Reaches x → p.node? x = some node → node.step.kind = .action →
    p.branches? x = none

-- A plan that can be unfolded into a definition that keeps the rules for steps.
structure Unfoldable (p : Plan) : Prop where
  sound       : p.Sound
  acyclic     : p.Acyclic
  orderly     : p.Orderly
  unambiguous : p.Unambiguous
  nonempty    : ∀ x table, p.branches? x = some table → table ≠ []

-- The nodes that stand right below a node in a definition, with their route keys.
def below (p : Plan) (x : NodeId) : List (Option String × NodeId) :=
  match p.branches? x with
  | some table => table.map fun (key, child) => (some key, child)
  | none => ((p.next? x).map fun next => (none, next)).toList

def Descends (p : Plan) (x y : NodeId) : Prop :=
  ∃ label, (label, y) ∈ p.below x

variable {p : Plan} {resolve : Resolver} {x y : NodeId} {n : Nat} {r label : Option String}
  {d c : Definition} {cs : List Definition} {node : Node} {ids : List NodeId}

theorem mapM_eq_some_iff {α β : Type} {f : α → Option β} {l : List α} {l' : List β} :
    l.mapM f = some l' ↔ l.map f = l'.map some := by
  induction l generalizing l' with
  | nil => cases l' <;> simp
  | cons a l ih =>
    rw [List.mapM_cons, List.map_cons]
    cases l' <;> simp [Option.bind_eq_some_iff, ih]

theorem mapM_eq_none_iff {α β : Type} {f : α → Option β} {l : List α} :
    l.mapM f = none ↔ ∃ a ∈ l, f a = none := by
  induction l with
  | nil => simp
  | cons a l ih =>
    rw [List.mapM_cons]
    cases h : f a with
    | none   => simp [h]
    | some b => cases hl : l.mapM f <;> simp_all

theorem definitionOf_succ : p.definitionOf (n + 1) x r = (p.node? x).bind fun node =>
    ((p.below x).mapM fun e => p.definitionOf n e.2 e.1).map (.mk node.key r <| listed ·) := by
  rw [definitionOf, below]
  cases p.node? x with
  | none => rfl
  | some node =>
    cases p.branches? x with
    | some table => simp [List.mapM_map, Function.comp_def, Option.map_eq_bind, listed]
    | none =>
      cases p.next? x with
      | none => rfl
      | some next => simp [Option.map_eq_bind, Option.bind_assoc]; rfl

theorem definitionOf_eq_some_iff : p.definitionOf (n + 1) x r = some d ↔
    ∃ node cs, p.node? x = some node ∧
      (p.below x).map (fun e => p.definitionOf n e.2 e.1) = cs.map some ∧
        d = .mk node.key r (listed cs) := by
  rw [definitionOf_succ]
  simp only [Option.bind_eq_some_iff, Option.map_eq_some_iff, mapM_eq_some_iff, eq_comm (b := d),
    exists_and_left]

theorem exists_below (children : (p.below x).map (fun e => p.definitionOf n e.2 e.1) = cs.map some)
    (h : c ∈ cs) : ∃ label y, (label, y) ∈ p.below x ∧ p.definitionOf n y label = some c := by
  have mem : some c ∈ (p.below x).map fun e => p.definitionOf n e.2 e.1 :=
    children ▸ List.mem_map_of_mem h
  have ⟨⟨label, y⟩, he, unfolded⟩ := List.mem_map.mp mem
  exact ⟨label, y, he, unfolded⟩

theorem exists_child (children : (p.below x).map (fun e => p.definitionOf n e.2 e.1) = cs.map some)
    (h : (label, y) ∈ p.below x) : ∃ c ∈ cs, p.definitionOf n y label = some c := by
  have mem : p.definitionOf n y label ∈ cs.map some :=
    children ▸ List.mem_map_of_mem (f := fun e => p.definitionOf n e.2 e.1) h
  have ⟨c, hc, unfolded⟩ := List.mem_map.mp mem
  exact ⟨c, hc, unfolded.symm⟩

theorem routeKey_of_definitionOf (unfolded : p.definitionOf n x r = some d) : d.routeKey = r := by
  cases n with
  | zero => cases unfolded
  | succ n =>
    have ⟨_, _, _, _, eq⟩ := definitionOf_eq_some_iff.mp unfolded
    rw [eq, routeKey]

theorem below_of_branches? {table : Branches} (h : p.branches? x = some table) :
    p.below x = table.map fun (key, child) => (some key, child) := by
  rw [below, h]

theorem below_of_no_branches (h : p.branches? x = none) :
    p.below x = ((p.next? x).map fun next => (none, next)).toList := by
  rw [below, h]

section Descends

theorem mem_exits_of_mem_below (h : (label, y) ∈ p.below x) : (label, y) ∈ p.exits x := by
  rw [mem_exits_iff]
  cases branches : p.branches? x with
  | some table =>
    rw [below_of_branches? branches] at h
    obtain ⟨⟨key, _⟩, mem, eq⟩ := List.mem_map.mp h
    cases eq
    exact .inl ⟨key, table, rfl, rfl, mem⟩
  | none =>
    rw [below_of_no_branches branches] at h
    obtain ⟨next, hn, eq⟩ : ∃ next, p.next? x = some next ∧ (none, next) = (label, y) := by
      simpa using h
    cases eq
    exact .inr ⟨rfl, hn⟩

theorem Sound.exists_node_of_descends (sound : p.Sound) (h : ReflTransGen p.Descends p.root x) :
    ∃ node, p.node? x = some node := by
  cases h with
  | refl => exact exists_node_of_lt sound.root
  | tail _ descends =>
    have ⟨label, mem⟩ := descends
    exact exists_node_of_lt <| sound.exits _ label x <| mem_exits_of_mem_below mem

-- Where all nodes are known, nothing but its depth keeps a node from being unfolded.
theorem definitionOf_eq_none_iff
    (known : ∀ y, ReflTransGen p.Descends x y → ∃ node, p.node? y = some node) :
    p.definitionOf n x r = none ↔ ∃ ys, ys.length = n ∧ (x :: ys).IsChain p.Descends := by
  induction n generalizing x r with
  | zero => simp [definitionOf]
  | succ n ih =>
    have ⟨node, hx⟩ := known x .refl
    have deeper {y : NodeId} (h : p.Descends x y) (r : Option String) :=
      ih (r := r) fun z hz => known z (.head h hz)
    rw [definitionOf_succ, hx, Option.bind_some, Option.map_eq_none_iff, mapM_eq_none_iff]
    constructor
    case mp =>
      rintro ⟨⟨label, y⟩, mem, fails⟩
      have ⟨ys, length, chain⟩ := (deeper ⟨label, mem⟩ label).mp fails
      exact ⟨y :: ys, congrArg (· + 1) length, List.isChain_cons_cons.mpr ⟨⟨label, mem⟩, chain⟩⟩
    case mpr =>
      rintro ⟨ys, length, chain⟩
      cases ys with
      | nil => cases length
      | cons y ys =>
        have ⟨⟨label, mem⟩, chain⟩ := List.isChain_cons_cons.mp chain
        exact ⟨_, mem, (deeper ⟨label, mem⟩ label).mpr ⟨ys, Nat.succ.inj length, chain⟩⟩

end Descends

namespace Unfoldable

variable (unfoldable : p.Unfoldable)

include unfoldable

theorem exists_node (reaches : p.Reaches x) : ∃ node, p.node? x = some node :=
  exists_node_of_lt (unfoldable.sound.lt_of_reaches reaches)

theorem passes_iff (reaches : p.Reaches x) :
    p.Passes x y ↔ ∃ label, (label, y) ∈ p.below x := by
  have ⟨node, known⟩ := unfoldable.exists_node reaches
  simp only [Passes, known, Option.some.injEq, exists_eq_left']
  cases kind : node.step.kind with
  | router =>
    have ⟨table, branches, filled⟩ := unfoldable.orderly.router x node reaches known kind
    have nodup : (Keyed.keys table).Nodup :=
      unfoldable.unambiguous.tables _ <| Keyed.mem_of_get?_eq_some branches
    have branch (key : String) : p.branch? x key = some y ↔ (key, y) ∈ table := by
      rw [branch?, branches, Option.bind_some, Keyed.get?_eq_some_iff nodup]
    simp only [below_of_branches? branches, branch, List.mem_map]
    constructor
    · exact fun ⟨key, _, mem⟩ => ⟨some key, (key, y), mem, rfl⟩
    · rintro ⟨_, ⟨key, _⟩, mem, eq⟩
      cases eq
      exact ⟨key, filled key (List.mem_map_of_mem mem), mem⟩
  | action =>
    rw [below_of_no_branches (unfoldable.orderly.action x node reaches known kind)]
    cases p.next? x <;> simp [eq_comm]

-- A run can reach all nodes that stand below a node that it can reach.
theorem reaches_of_mem_below (reaches : p.Reaches x) (h : (label, y) ∈ p.below x) :
    p.Reaches y :=
  reaches.tail <| (unfoldable.passes_iff reaches).mpr ⟨label, h⟩

-- A node can be unfolded to as many levels as the plan has nodes, less those on a path to it.
theorem exists_definitionOf (path : p.IsPath (ids ++ [x])) (enough : p.nodeCount ≤ n + ids.length) :
    ∃ d, p.definitionOf n x r = some d := by
  have ⟨acyclic, sound⟩ := And.intro unfoldable.acyclic unfoldable.sound
  induction n generalizing ids x r with
  | zero =>
    have := path.length_le acyclic sound
    simp only [List.length_append, List.length_singleton] at this
    omega
  | succ n ih =>
    have reaches : p.Reaches x := path.reaches (by simp)
    have ⟨node, known⟩ := unfoldable.exists_node reaches
    have unfold : ∀ e ∈ p.below x, ∃ c, p.definitionOf n e.2 e.1 = some c := fun ⟨label, y⟩ he =>
      ih (path.concat <| (unfoldable.passes_iff reaches).mpr ⟨label, he⟩) (by simp; omega)
    let cs := (p.below x).map fun e => (p.definitionOf n e.2 e.1).getD default
    refine ⟨.mk node.key r (listed cs), definitionOf_eq_some_iff.mpr ⟨node, cs, known, ?_, rfl⟩⟩
    rw [List.map_map]
    refine List.map_congr_left fun e he => ?_
    have ⟨c, hc⟩ := unfold e he
    simp [hc]

theorem exists_toDefinition? : ∃ d, p.toDefinition? = some d := by
  have path : p.IsPath ([] ++ [p.root]) := .singleton
  exact unfoldable.exists_definitionOf path (by simp)

section Height

-- Nodes that a run can pass through one after the other come to stand one below the other.
theorem length_le_height (reaches : p.Reaches x) (unfolded : p.definitionOf n x r = some d)
    {ys : List NodeId} (chain : (x :: ys).IsChain p.Passes) : (x :: ys).length ≤ d.height := by
  induction n generalizing x r d ys with
  | zero => cases unfolded
  | succ n ih =>
    have ⟨node, cs, _, children, eq⟩ := definitionOf_eq_some_iff.mp unfolded
    rw [eq, height_eq, children_listed]
    cases ys with
    | nil => simp
    | cons y ys =>
      have ⟨passes, chain⟩ := List.isChain_cons_cons.mp chain
      have ⟨label, he⟩ := (unfoldable.passes_iff reaches).mp passes
      have ⟨c, hc, unfolded⟩ := exists_child children he
      have le := ih (unfoldable.reaches_of_mem_below reaches he) unfolded chain
      have le' := height_le_maxHeight hc
      simp only [List.length_cons] at le ⊢
      omega

theorem exists_length_eq_height (reaches : p.Reaches x)
    (unfolded : p.definitionOf n x r = some d) :
    ∃ ys, (x :: ys).IsChain p.Passes ∧ (x :: ys).length = d.height := by
  induction n generalizing x r d with
  | zero => cases unfolded
  | succ n ih =>
    have ⟨node, cs, _, children, eq⟩ := definitionOf_eq_some_iff.mp unfolded
    rw [eq, height_eq, children_listed]
    by_cases nonempty : cs = []
    case pos => exact ⟨[], .singleton x, by simp [nonempty, maxHeight]⟩
    case neg =>
      have ⟨c, hc, highest⟩ := exists_height_eq_maxHeight nonempty
      have ⟨label, y, he, unfolded⟩ := exists_below children hc
      have ⟨ys, chain, length⟩ := ih (unfoldable.reaches_of_mem_below reaches he) unfolded
      have passes : p.Passes x y := (unfoldable.passes_iff reaches).mpr ⟨label, he⟩
      refine ⟨y :: ys, List.isChain_cons_cons.mpr ⟨passes, chain⟩, ?_⟩
      rw [List.length_cons, length, highest, Nat.add_comm]

-- The height of the definition is the number of nodes on a longest path.
theorem height_eq_length {longest : List NodeId} (h : p.IsLongest longest)
    (unfolded : p.toDefinition? = some d) : d.height = longest.length := by
  apply Nat.le_antisymm
  · have ⟨ys, chain, length⟩ := unfoldable.exists_length_eq_height .refl unfolded
    exact length ▸ h.most (p.root :: ys) ⟨by simp, chain⟩
  · cases longest with
    | nil => exact Nat.zero_le _
    | cons x ys =>
      have root : x = p.root := h.path.head x rfl
      subst root
      exact unfoldable.length_le_height .refl unfolded h.path.chain

end Height

-- Every node keeps the rules at each place at which it comes to stand.
theorem wellFormed_of_mem_live
    (resolved : ∀ x node, p.Reaches x → p.node? x = some node → resolve node.key = .ok node.step)
    (reaches : p.Reaches x) (unfolded : p.definitionOf n x r = some d) :
    ∀ m ∈ d.live resolve, m.WellFormed resolve := by
  induction n generalizing x r d with
  | zero => cases unfolded
  | succ n ih =>
    have ⟨node, cs, known, children, eq⟩ := definitionOf_eq_some_iff.mp unfolded
    rw [live_eq, List.forall_mem_cons, List.forall_mem_flatMap]
    constructor
    · refine ⟨node.step, eq ▸ resolved x node reaches known, ?_⟩
      rw [eq, children_listed]
      have length : (p.below x).length = cs.length := by simpa using congrArg List.length children
      cases kind : node.step.kind with
      | router =>
        have ⟨table, branches, filled⟩ := unfoldable.orderly.router x node reaches known kind
        have nonempty := unfoldable.nonempty x table branches
        have entries := below_of_branches? branches
        constructor
        · intro none
          simp [entries, none, nonempty] at length
        · intro c hc
          have ⟨label, y, he, unfolded⟩ := exists_below children hc
          rw [entries] at he
          have ⟨⟨key, _⟩, mem, eq⟩ := List.mem_map.mp he
          cases eq
          exact ⟨key, routeKey_of_definitionOf unfolded, filled key (List.mem_map_of_mem mem)⟩
      | action =>
        have none := unfoldable.orderly.action x node reaches known kind
        rw [← length, below_of_no_branches none]
        exact Option.length_toList_le
    · intro c hc
      have hc : c ∈ cs := by
        have := mem_children_of_mem_successors hc
        rwa [eq, children_listed] at this
      have ⟨_, _, he, unfolded⟩ := exists_below children hc
      exact ih (unfoldable.reaches_of_mem_below reaches he) unfolded

end Unfoldable

theorem unambiguous_of_build {ops : List Builder.Operation} {root : NodeId}
    (built : (Builder.ofOperations ops).build root = .ok p) : p.Unambiguous := by
  have ⟨⟨branches, tables, chain⟩, _⟩ := Builder.regular_ofOperations ops
  cases Builder.eq_of_build built
  exact ⟨branches, tables, chain⟩

theorem unfoldable_of_build {ops : List Builder.Operation} {root : NodeId}
    (built : (Builder.ofOperations ops).build root = .ok p) (acyclic : p.Acyclic)
    (orderly : p.Orderly) : p.Unfoldable := by
  have sound := sound_of_build built
  have unambiguous := unambiguous_of_build built
  have ⟨_, nonempty⟩ := Builder.regular_ofOperations ops
  cases Builder.eq_of_build built
  exact ⟨sound, acyclic, orderly, unambiguous,
    fun _ _ h => nonempty _ (Keyed.mem_of_get?_eq_some h)⟩

theorem unfoldable_of_compile (loaded : d.compile resolve = .ok p) : p.Unfoldable := by
  have ⟨b, draft, closed, part⟩ := compile_eq_ok loaded
  have own {x : NodeId} (h : x.index < p.nodeCount) := part.exists_part (Nat.zero_le _) h
  constructor
  case sound       => exact sound_of_compile loaded
  case acyclic     => exact acyclic_of_compile loaded
  case unambiguous => exact draft ▸ closed.unambiguous
  case orderly     =>
    constructor
    case router =>
      intro x node _ known kind
      have ⟨_, _, part', _⟩ := own (lt_nodeCount_of_node? known)
      have ⟨_, table, branches, _, filled⟩ := part'.router_rule known kind
      exact ⟨table, branches, filled⟩
    case action =>
      intro x node _ known kind
      have ⟨_, _, part', _⟩ := own (lt_nodeCount_of_node? known)
      exact part'.action_rule known kind
  case nonempty    =>
    intro x table branches
    subst draft
    have known := closed.known x <| Builder.mem_mentioned.mpr <|
      .inl ⟨_, Keyed.mem_of_get?_eq_some branches, .inl rfl⟩
    have ⟨_, _, part', _⟩ := own known
    exact part'.table_ne_nil branches

section Office

-- Two branches that go on to the same node, which comes first in number. The desk has a successor
-- that no run follows, and there is a cycle that no run reaches.
def officeOperations : List Builder.Operation :=
  let action (key : String) : Builder.Operation :=
    .add key <| .action key fun input _ => .done (some input)
  [action "close", .add "desk" <| .router "desk" fun input _ => .done (some input.text),
    action "sell", action "help", action "idle", .branch ⟨1⟩ "sales" ⟨2⟩, .branch ⟨1⟩ "help" ⟨3⟩,
    .chainTo ⟨2⟩ ⟨0⟩, .chainTo ⟨3⟩ ⟨0⟩, .chainTo ⟨1⟩ ⟨1⟩, .chainTo ⟨4⟩ ⟨4⟩]

def office : Plan :=
  { (Builder.ofOperations officeOperations).draft with root := ⟨1⟩ }

theorem build_office : (Builder.ofOperations officeOperations).build ⟨1⟩ = .ok office :=
  rfl

theorem mem_of_reaches_office (reaches : office.Reaches x) :
    x ∈ [(⟨0⟩ : NodeId), ⟨1⟩, ⟨2⟩, ⟨3⟩] :=
  mem_of_reaches (by decide) (by decide +kernel) reaches

theorem acyclic_office : office.Acyclic := by
  let rank (x : NodeId) : Nat := if x = ⟨1⟩ then 0 else if x = ⟨0⟩ then 2 else 1
  apply acyclic_of_ways [⟨0⟩, ⟨1⟩, ⟨2⟩, ⟨3⟩] rank <;> decide +kernel

theorem orderly_office : office.Orderly := by
  constructor <;> intro x node reaches known kind <;>
    obtain rfl | rfl | rfl | rfl := by simpa using mem_of_reaches_office reaches
  case router.inr.inl => exact ⟨_, rfl, by decide +kernel⟩
  all_goals first | rfl | (cases known; cases kind)

end Office

end Plan
end RoutingPlan
