import Mathlib.Data.List.Forall2
import RoutingPlan.Proofs.Definition.Violation

-- A plan gives back the normal form of the definition that it was made of, and nothing is lost on
-- the way if and only if all nodes of the definition are tidy.

namespace RoutingPlan

namespace Definition

variable {resolve : Resolver} {d c : Definition} {cs : List Definition} {r : Option String}

-- An empty list of children is left out.
def listed (cs : List Definition) : Option (List Definition) :=
  if cs.isEmpty then none else some cs

theorem children_listed {step : String} : (mk step r (listed cs)).children = cs := by
  cases cs <;> rfl

-- A definition as a plan gives it back, under the route key `r`: only below a router a route key is
-- kept, and of the children with one route key the last one, at the place of the first one.
def normalForm (resolve : Resolver) (r : Option String) (d : Definition) : Definition :=
  mk d.step r <| listed <|
    match d.kind? resolve with
    | some .router =>
      (standing d.children).attach.map fun c => normalForm resolve c.val.routeKey c.val
    | _ => d.children.attach.map fun c => normalForm resolve none c.val
termination_by sizeOf d
decreasing_by
  · exact sizeOf_lt_of_mem_children <| mem_of_mem_standing c.property
  · exact sizeOf_lt_of_mem_children c.property

theorem normalForm_router (h : d.kind? resolve = some .router) :
    d.normalForm resolve r =
      mk d.step r
        (listed <| (standing d.children).map fun c => c.normalForm resolve c.routeKey) := by
  rw [normalForm, h]
  simp only [List.attach_map_val (f := fun c : Definition => c.normalForm resolve c.routeKey)]

theorem normalForm_action (h : d.kind? resolve = some .action) :
    d.normalForm resolve r = mk d.step r (listed <| d.children.map (normalForm resolve none)) := by
  rw [normalForm, h]
  simp only [List.attach_map_val (f := normalForm resolve none)]

theorem step_normalForm : (d.normalForm resolve r).step = d.step := by
  rw [normalForm, step]

theorem routeKey_normalForm : (d.normalForm resolve r).routeKey = r := by
  rw [normalForm, routeKey]

end Definition

open Plan Definition

variable {p : Plan} {resolve : Resolver}

mutual

-- Going back over the tables from the first node of a part gives the normal form of its definition;
-- the part has nodes enough for every level of it.
theorem Plan.Part.definitionOf_eq {d : Definition} {i j n : Nat} {r : Option String}
    (part : Part p resolve d i j) (enough : j - i ≤ n) :
    p.definitionOf n ⟨i⟩ r = some (d.normalForm resolve r) := by
  have lt := part.lt
  obtain ⟨n, rfl⟩ : ∃ m, n = m + 1 := ⟨n - 1, by omega⟩
  match part with
  | .router resolved node branches next _ arms =>
    have kind : d.kind? resolve = some .router := kind?_eq_some resolved
    have below := arms.mapM_definitionOf (by omega : j - (i + 1) ≤ n)
    rw [normalForm_router kind]
    simp [definitionOf, node, branches, below, listed]
  | .final resolved node branches next children =>
    have kind : d.kind? resolve = some .action := kind?_eq_some resolved
    rw [normalForm_action kind]
    simp [definitionOf, node, branches, next, children, listed]
  | .chained resolved node branches next children part =>
    have kind : d.kind? resolve = some .action := kind?_eq_some resolved
    have below := part.definitionOf_eq (r := none) (by omega : j - (i + 1) ≤ n)
    rw [normalForm_action kind]
    simp [definitionOf, node, branches, next, children, below, listed]

theorem Plan.Arms.mapM_definitionOf {cs : List Definition} {t : Branches} {i j n : Nat}
    (arms : Arms p resolve cs t i j) (enough : j - i ≤ n) :
    t.mapM (fun (key, child) => p.definitionOf n child (some key)) =
      some (cs.map fun c => c.normalForm resolve c.routeKey) := by
  match arms with
  | .nil => rfl
  | .cons routeKey _ part arms =>
    have lt := part.lt
    have le := arms.le
    have first (r : Option String) := part.definitionOf_eq (r := r) (by omega : _ ≤ n)
    have rest := arms.mapM_definitionOf (by omega : _ ≤ n)
    simp [List.mapM_cons, first, rest, routeKey]

end

namespace Definition

variable {d a b : Definition} {as bs cs : List Definition} {r : Option String}

theorem areEquivalent_iff :
    areEquivalent as bs = true ↔ List.Forall₂ (fun a b => a.isEquivalent b = true) as bs := by
  induction as generalizing bs with
  | nil => cases bs <;> simp [areEquivalent]
  | cons a as ih => cases bs <;> simp [areEquivalent, ih]

theorem isEquivalent_iff :
    a.isEquivalent b = true ↔ a.step = b.step ∧ a.routeKey = b.routeKey ∧
      List.Forall₂ (fun a b => a.isEquivalent b = true) a.children b.children := by
  match a, b with
  | mk _ _ none, mk _ _ none => simp [isEquivalent, step, routeKey, children, children?]
  | mk _ _ none, mk _ _ (some cs) =>
    simp [isEquivalent, step, routeKey, children, children?, and_assoc, List.isEmpty_iff]
  | mk _ _ (some cs), mk _ _ none =>
    simp [isEquivalent, step, routeKey, children, children?, and_assoc, List.isEmpty_iff]
  | mk _ _ (some cs), mk _ _ (some cs') =>
    simp [isEquivalent, step, routeKey, children, children?, and_assoc, areEquivalent_iff]

def nodes (d : Definition) : List Definition :=
  d :: d.children.attach.flatMap fun c => nodes c.val
termination_by sizeOf d
decreasing_by exact sizeOf_lt_of_mem_children c.property

theorem nodes_eq : d.nodes = d :: d.children.flatMap nodes := by
  rw [nodes, List.flatMap_subtype fun _ _ => rfl, List.unattach_attach]

-- A node right below which no route key gets lost.
structure Tidy (resolve : Resolver) (d : Definition) : Prop where
  router : d.kind? resolve = some .router → (d.children.map routeKey).Nodup
  action : d.kind? resolve = some .action → ∀ c ∈ d.children, c.routeKey = none

theorem forall_mem_nodes {P : Definition → Prop} :
    (∀ n ∈ d.nodes, P n) ↔ P d ∧ ∀ c ∈ d.children, ∀ n ∈ c.nodes, P n := by
  rw [nodes_eq, List.forall_mem_cons, List.forall_mem_flatMap]

theorem forall₂_map_self {f : Definition → Definition} :
    List.Forall₂ (fun a b => a.isEquivalent b = true) (cs.map f) cs ↔
      ∀ c ∈ cs, (f c).isEquivalent c = true := by
  rw [List.forall₂_map_left_iff, List.forall₂_same]

theorem forall₂_router (kind : d.kind? resolve = some .router)
    (ih : ∀ c ∈ standing d.children, (c.normalForm resolve c.routeKey).isEquivalent c = true ↔
      ∀ n ∈ c.nodes, n.Tidy resolve) :
    List.Forall₂ (fun a b => a.isEquivalent b = true) (d.normalForm resolve r).children d.children ↔
      d.Tidy resolve ∧ ∀ c ∈ d.children, ∀ n ∈ c.nodes, n.Tidy resolve := by
  rw [normalForm_router kind, children_listed]
  constructor
  case mp =>
    intro same
    have nodup := nodup_of_length_standing <| by simpa using same.length_eq
    rw [standing_eq_self nodup] at ih same
    rw [forall₂_map_self] at same
    exact ⟨⟨fun _ => nodup, by simp [kind]⟩, fun c hc => (ih c hc).mp (same c hc)⟩
  case mpr =>
    intro ⟨tidy, all⟩
    rw [standing_eq_self (tidy.router kind)] at ih ⊢
    rw [forall₂_map_self]
    exact fun c hc => (ih c hc).mpr (all c hc)

theorem forall₂_action (kind : d.kind? resolve = some .action)
    (ih : ∀ c ∈ d.children, (c.normalForm resolve none).isEquivalent c = true ↔
      c.routeKey = none ∧ ∀ n ∈ c.nodes, n.Tidy resolve) :
    List.Forall₂ (fun a b => a.isEquivalent b = true) (d.normalForm resolve r).children d.children ↔
      d.Tidy resolve ∧ ∀ c ∈ d.children, ∀ n ∈ c.nodes, n.Tidy resolve := by
  have tidy : d.Tidy resolve ↔ ∀ c ∈ d.children, c.routeKey = none :=
    ⟨fun h => h.action kind, fun h => ⟨by simp [kind], fun _ => h⟩⟩
  rw [normalForm_action kind, children_listed, forall₂_map_self, tidy, ← forall₂_and]
  exact forall₂_congr ih

theorem isEquivalent_normalForm (wellFormed : ∀ n ∈ d.live resolve, n.WellFormed resolve) :
    (d.normalForm resolve r).isEquivalent d = true ↔
      d.routeKey = r ∧ ∀ n ∈ d.nodes, n.Tidy resolve := by
  induction d using childInduction generalizing r with
  | node d ih =>
    rw [live_eq, List.forall_mem_cons, List.forall_mem_flatMap] at wellFormed
    have ⟨⟨step, resolved, valid⟩, below⟩ := wellFormed
    have kind : d.kind? resolve = some step.kind := kind?_eq_some resolved
    rw [isEquivalent_iff, step_normalForm, routeKey_normalForm, forall_mem_nodes, eq_comm (a := r)]
    simp only [true_and]
    refine and_congr_right fun _ => ?_
    cases step with
    | router =>
      rw [successors_router kind] at below
      refine forall₂_router kind fun c hc => ?_
      simpa using ih c (mem_of_mem_standing hc) (r := c.routeKey) (below c hc)
    | action =>
      rw [successors_action kind valid] at below
      exact forall₂_action kind fun c hc => ih c hc (below c hc)

theorem toDefinition?_compile {p : Plan} (loaded : d.compile resolve = .ok p) :
    p.toDefinition? = some (d.normalForm resolve none) ∧
      ((d.normalForm resolve none).isEquivalent d = true ↔
        d.routeKey = none ∧ ∀ n ∈ d.nodes, n.Tidy resolve) := by
  have ⟨root, part⟩ := compile_part loaded
  refine ⟨?_, isEquivalent_normalForm <| compile_eq_ok_iff.mp ⟨p, loaded⟩⟩
  rw [toDefinition?, root]
  exact part.definitionOf_eq (Nat.le_refl _)

-- A branch is gone and so is the route key below an action.
theorem toDefinition?_overridden :
    ∃ p, overridden.compile (stepsWithout ["retired"]) = .ok p ∧
      p.toDefinition? = some (mk "desk" none <| some [
        mk "sell" (some "sales") none, mk "help" (some "help") <| some [leaf "close"]]) ∧
      ¬∀ n ∈ overridden.nodes, n.Tidy (stepsWithout ["retired"]) := by
  have ⟨p, loaded⟩ : ∃ p, overridden.compile (stepsWithout ["retired"]) = .ok p := ⟨_, rfl⟩
  have ⟨back, lossless⟩ := toDefinition?_compile loaded
  refine ⟨p, loaded, back.trans (by decide +kernel), fun tidy => ?_⟩
  exact absurd (lossless.mpr ⟨rfl, tidy⟩) (by decide +kernel)

end Definition
end RoutingPlan
