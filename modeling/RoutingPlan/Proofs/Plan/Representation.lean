import RoutingPlan.Proofs.Plan.Position
import RoutingPlan.Proofs.Plan.Unfolding

-- Nodes of a plan that stand for definitions: what is below such a node stands for what is below
-- the definition. A plan that was made of a definition and one that unfolds into it both have nodes
-- that stand for its nodes, though each has numbers and sharing of its own.

namespace RoutingPlan.Plan

open Definition

variable {p : Plan} {resolve : Resolver} {x : NodeId} {d : Definition} {n : Nat}

-- `R x d` says that node `x` stands for `d`, of which only the children that count matter.
structure Represents (p : Plan) (resolve : Resolver) (R : NodeId → Definition → Prop) : Prop where
  node   : ∀ x d, R x d → ∃ node, p.node? x = some node ∧ resolve d.step = .ok node.step
  router : ∀ x d, R x d → d.kind? resolve = some .router →
    ∃ table, p.branches? x = some table ∧ table ≠ [] ∧
      ∀ key, Option.Rel R (Keyed.get? key table) (lastWith? (some key) d.children)
  action : ∀ x d, R x d → d.kind? resolve = some .action →
    Option.Rel R (p.next? x) d.children.head?

theorem Represents.kind?_eq {R : NodeId → Definition → Prop} (represents : p.Represents resolve R)
    {node : Node} (h : R x d) (known : p.node? x = some node) :
    d.kind? resolve = some node.step.kind := by
  have ⟨_, known', resolved⟩ := represents.node x d h
  cases known.symm.trans known'
  exact kind?_eq_some resolved

theorem Represents.children_ne_nil {R : NodeId → Definition → Prop}
    (represents : p.Represents resolve R) (h : R x d) (kind : d.kind? resolve = some .router) :
    d.children ≠ [] := by
  intro none
  have ⟨table, _, nonempty, rel⟩ := represents.router x d h kind
  cases table with
  | nil => exact nonempty rfl
  | cons e table =>
    have rel := rel e.1
    rw [none, Keyed.get?, if_pos rfl] at rel
    cases rel

-- A node stands for the definition whose part it begins.
theorem represents_part : p.Represents resolve fun x d => ∃ m, Part p resolve d x.index m where
  node x d := fun ⟨_, part⟩ => by
    cases part with
    | router resolved node | final resolved node | chained resolved node =>
      exact ⟨_, node, resolved⟩
  router x d := fun ⟨_, part⟩ kind => by
    have ⟨table, branches, nonempty, arms⟩ := part.router_arms kind
    refine ⟨table, branches, nonempty, fun key => ?_⟩
    rw [← find?_standing]
    cases child : (standing d.children).find? (·.routeKey = some key) with
    | none => rw [arms.get?_eq_none child]; exact .none
    | some c =>
      have ⟨_, m, get, part, _⟩ := arms.get?_eq_some child
      rw [get]
      exact .some ⟨m, part⟩
  action x d := fun ⟨_, part⟩ kind => by
    cases part with
    | router resolved => cases (kind?_eq_some resolved).symm.trans kind
    | final _ _ _ next children =>
      have none : p.next? x = none := next
      rw [none, children]
      exact .none
    | chained _ _ _ next children part =>
      have some : p.next? x = some ⟨x.index + 1⟩ := next
      rw [some, children]
      exact .some ⟨_, part⟩

theorem exists_part_root (loaded : d.compile resolve = .ok p) :
    ∃ m, Part p resolve d p.root.index m := by
  have ⟨root, part⟩ := compile_part loaded
  rw [root]
  exact ⟨_, part⟩

-- A node that can be reached and what it unfolds into.
def Unfolds (p : Plan) (x : NodeId) (d : Definition) : Prop :=
  p.Reaches x ∧ ∃ n r, p.definitionOf n x r = some d

section Table

variable {table : Branches} {cs : List Definition}
  (children : table.map (fun e => p.definitionOf n e.2 (some e.1)) = cs.map some)

include children

theorem map_routeKey_eq : cs.map routeKey = (Keyed.keys table).map some := by
  induction table generalizing cs with
  | nil =>
    cases cs with
    | nil    => rfl
    | cons _ => cases children
  | cons e table ih =>
    cases cs with
    | nil => cases children
    | cons c cs =>
      have ⟨first, rest⟩ := List.cons.inj children
      rw [List.map_cons, routeKey_of_definitionOf first, ih rest, Keyed.keys_cons, List.map_cons]

theorem rel_get? (key : String) : Option.Rel (fun y c => p.definitionOf n y (some key) = some c)
    (Keyed.get? key table) (cs.find? (·.routeKey = some key)) := by
  induction table generalizing cs with
  | nil =>
    cases cs with
    | nil    => exact .none
    | cons _ => cases children
  | cons e table ih =>
    cases cs with
    | nil => cases children
    | cons c cs =>
      have ⟨first, rest⟩ := List.cons.inj children
      rw [Keyed.get?, List.find?_cons, routeKey_of_definitionOf first]
      by_cases h : e.1 = key
      case pos => simpa [h] using Option.Rel.some (h ▸ first)
      case neg => simpa [h] using ih rest

end Table

namespace Unfoldable

variable (unfoldable : p.Unfoldable) {cs : List Definition}
  (reaches : p.Reaches x)
  (children : (p.below x).map (fun e => p.definitionOf n e.2 e.1) = cs.map some)

include unfoldable reaches children

theorem rel_branch {table : Branches} (branches : p.branches? x = some table) (key : String) :
    Option.Rel p.Unfolds (Keyed.get? key table) (lastWith? (some key) cs) := by
  have entries := below_of_branches? branches
  rw [entries, List.map_map] at children
  have nodup : (cs.map routeKey).Nodup := by
    have keys := unfoldable.unambiguous.tables _ <| Keyed.mem_of_get?_eq_some branches
    exact map_routeKey_eq children ▸ keys.map fun _ _ => Option.some.inj
  have rel := rel_get? children key
  rw [← find?_standing, standing_eq_self nodup]
  generalize cs.find? (·.routeKey = some key) = child at rel ⊢
  cases get : Keyed.get? key table with
  | none =>
    rw [get] at rel
    cases rel
    exact .none
  | some y =>
    rw [get] at rel
    cases rel with
    | some unfolded =>
      have entry : (some key, y) ∈ p.below x :=
        entries ▸ List.mem_map.mpr ⟨(key, y), Keyed.mem_of_get?_eq_some get, rfl⟩
      exact .some ⟨unfoldable.reaches_of_mem_below reaches entry, n, _, unfolded⟩

theorem rel_next (branches : p.branches? x = none) :
    Option.Rel p.Unfolds (p.next? x) cs.head? := by
  have entries := below_of_no_branches branches
  cases next : p.next? x with
  | none =>
    rw [entries, next] at children
    cases cs with
    | nil    => exact .none
    | cons _ => cases children
  | some y =>
    have entry : (none, y) ∈ p.below x := by simp [entries, next]
    rw [entries, next] at children
    cases cs with
    | nil => cases children
    | cons c cs =>
      have ⟨unfolded, _⟩ := List.cons.inj children
      exact .some ⟨unfoldable.reaches_of_mem_below reaches entry, n, _, unfolded⟩

end Unfoldable

theorem Unfoldable.represents (unfoldable : p.Unfoldable)
    (resolved : ∀ x node, p.Reaches x → p.node? x = some node → resolve node.key = .ok node.step) :
    p.Represents resolve p.Unfolds := by
  have unfold {x : NodeId} {d : Definition} (h : p.Unfolds x d) : p.Reaches x ∧
      ∃ n node, p.node? x = some node ∧ resolve d.step = .ok node.step ∧
        (p.below x).map (fun e => p.definitionOf n e.2 e.1) = d.children.map some := by
    obtain ⟨reaches, n, r, unfolded⟩ := h
    cases n with
    | zero => cases unfolded
    | succ n =>
      have ⟨node, cs, known, children, eq⟩ := definitionOf_eq_some_iff.mp unfolded
      rw [eq, children_listed]
      exact ⟨reaches, n, node, known, resolved x node reaches known, children⟩
  constructor
  case node =>
    intro x d h
    have ⟨_, _, node, known, resolved, _⟩ := unfold h
    exact ⟨node, known, resolved⟩
  case router =>
    intro x d h kind
    have ⟨reaches, _, node, known, resolved, children⟩ := unfold h
    rw [kind?_eq_some resolved, Option.some_inj] at kind
    have ⟨table, branches, _⟩ := unfoldable.orderly.router x node reaches known kind
    exact ⟨table, branches, unfoldable.nonempty x table branches,
      unfoldable.rel_branch reaches children branches⟩
  case action =>
    intro x d h kind
    have ⟨reaches, _, node, known, resolved, children⟩ := unfold h
    rw [kind?_eq_some resolved, Option.some_inj] at kind
    exact unfoldable.rel_next reaches children <|
      unfoldable.orderly.action x node reaches known kind

end RoutingPlan.Plan
