import RoutingPlan.Proofs.Plan.Loaded

-- Which definitions make a plan: those whose live nodes are all well-formed. For any other one it
-- is the first live node with a fault that decides the error.

namespace RoutingPlan.Definition

variable {resolve : Resolver} {c d : Definition} {cs : List Definition} {b : Plan.Builder}

-- What is wrong at a node itself: the first of its faults in the order in which they are looked
-- for.
def violation (resolve : Resolver) (d : Definition) : Option Error :=
  match resolve d.step with
  | .error e => some e
  | .ok step =>
    match step.kind with
    | .router =>
      if d.children = [] then some (.routerMissingChildren d.step)
      else (d.children.find? lacksRouteKey).map fun c => .childMissingRouteKey d.step c.step
    | .action =>
      if 1 < d.children.length then some (.actionInvalidChildCardinality d.step d.children.length)
      else none

-- A node with nothing wrong. All children of a router need a route key, also those that do not
-- count.
def WellFormed (resolve : Resolver) (d : Definition) : Prop :=
  ∃ step, resolve d.step = .ok step ∧
    match step.kind with
    | .router =>
      d.children ≠ [] ∧ ∀ c ∈ d.children, ∃ key, c.routeKey = some key ∧ Text.isBlank key = false
    | .action => d.children.length ≤ 1

theorem lacksRouteKey_eq_false_iff :
    d.lacksRouteKey = false ↔ ∃ key, d.routeKey = some key ∧ Text.isBlank key = false := by
  cases h : d.routeKey <;> simp [lacksRouteKey, h]

theorem violation_eq_none_iff : d.violation resolve = none ↔ d.WellFormed resolve := by
  unfold violation WellFormed
  cases resolve d.step with
  | error e => simp
  | ok step =>
    cases step with
    | router =>
      by_cases h : d.children = []
      case pos => simp [Step.kind, h]
      case neg => simp [Step.kind, h, lacksRouteKey_eq_false_iff]
    | action => simp [Step.kind]

section Error

variable {ε α β : Type}

def error? : Except ε α → Option ε
  | .error e => some e
  | .ok _ => none

theorem error?_eq_some_iff {x : Except ε α} {e : ε} : error? x = some e ↔ x = .error e := by
  cases x <;> simp [error?]

theorem error?_eq_none_iff {x : Except ε α} : error? x = none ↔ ∃ a, x = .ok a := by
  cases x <;> simp [error?]

theorem error?_map {f : α → β} {x : Except ε α} : error? (x.map f) = error? x := by
  cases x <;> rfl

theorem findSome?_flatMap {f : α → List β} {g : β → Option ε} {l : List α} :
    (l.flatMap f).findSome? g = l.findSome? fun a => (f a).findSome? g := by
  induction l with
  | nil => rfl
  | cons a l ih =>
    rw [List.flatMap_cons, List.findSome?_append, List.findSome?_cons, ih]
    cases (f a).findSome? g <;> rfl

end Error

theorem error?_connect {router : NodeId}
    (ih : ∀ c ∈ cs, ∀ b, error? (c.assemble resolve b) =
      (c.live resolve).findSome? (violation resolve)) :
    error? (connect router (cs.map (toArm resolve)) b) =
      cs.findSome? fun c => (c.live resolve).findSome? (violation resolve) := by
  induction cs generalizing b with
  | nil => rfl
  | cons c cs ihcs =>
    rw [List.forall_mem_cons] at ih
    rw [List.findSome?_cons, ← ih.left b, List.map_cons, toArm, connect]
    cases c.assemble resolve b with
    | error e => rfl
    | ok r => exact ihcs ih.right

-- The induction is on the definition: what is assembled below a node are its successors, in their
-- order, and only if the node itself has no fault.
theorem error?_assemble :
    error? (d.assemble resolve b) = (d.live resolve).findSome? (violation resolve) := by
  induction d using childInduction generalizing b with
  | node d ih =>
    rw [live_eq, List.findSome?_cons, findSome?_flatMap]
    cases hd : resolve d.step with
    | error e =>
      rw [assemble_of_resolve_error hd]
      simp [error?, violation, hd]
    | ok step =>
      cases step with
      | router name decide =>
        rw [assemble_router hd]
        by_cases none : d.children = []
        case pos => simp [error?, violation, hd, Step.kind, none]
        case neg =>
          cases lacking : d.children.find? lacksRouteKey with
          | some c => simp [error?, violation, hd, Step.kind, none, lacking]
          | none =>
            have below : ∀ c ∈ standing d.children, ∀ b, error? (c.assemble resolve b) =
                (c.live resolve).findSome? (violation resolve) :=
              fun c hc b => ih c (mem_of_mem_standing hc)
            rw [if_neg none, error?_map, error?_connect below]
            simp only [violation, successors, kind?, hd, Step.kind, none, lacking, if_false,
              Option.map_none]
      | action name act =>
        rw [assemble_action hd]
        rcases children : d.children with _ | ⟨c, _ | ⟨_, _⟩⟩
        · simp [error?, violation, successors, kind?, hd, Step.kind, children]
        · simp only
          rw [error?_map, ih c (by simp [children])]
          simp [violation, successors, kind?, hd, Step.kind, children]
        · simp [error?, violation, hd, Step.kind, children]

theorem error?_compile :
    error? (d.compile resolve) = (d.live resolve).findSome? (violation resolve) := by
  rw [compile_eq, error?_map, error?_assemble]

theorem compile_eq_ok_iff :
    (∃ p, d.compile resolve = .ok p) ↔ ∀ n ∈ d.live resolve, n.WellFormed resolve := by
  simp only [← error?_eq_none_iff, error?_compile, List.findSome?_eq_none_iff,
    violation_eq_none_iff]

theorem compile_eq_error_iff {e : Error} :
    d.compile resolve = .error e ↔
      ∃ before n after, d.live resolve = before ++ n :: after ∧ n.violation resolve = some e ∧
        ∀ m ∈ before, m.WellFormed resolve := by
  simp only [← error?_eq_some_iff, error?_compile, List.findSome?_eq_some_iff,
    violation_eq_none_iff]

-- A fault is the resolver's own error, or one of those that a node can have with a known step.
theorem resolve_eq_error_or_isLoadError {e : Error} (h : d.violation resolve = some e) :
    resolve d.step = .error e ∨
      e.isLoadError ∧ ∀ s, e ≠ .unknownStepKey s ∧ e ≠ .planParse s ∧ e ≠ .danglingNode s := by
  unfold violation at h
  cases hd : resolve d.step with
  | error e' => simp_all
  | ok step =>
    rw [hd] at h
    cases step with
    | router =>
      simp only [Step.kind] at h
      split at h
      case isTrue => cases h; simp [Error.isLoadError]
      case isFalse =>
        obtain ⟨c, _, hc⟩ := Option.map_eq_some_iff.mp h
        simp [← hc, Error.isLoadError]
    | action =>
      simp only [Step.kind] at h
      split at h
      case isTrue  => cases h; simp [Error.isLoadError]
      case isFalse => cases h

theorem compile_eq_first_violation (resolve : Resolver) (d : Definition) :
    ((∃ p, d.compile resolve = .ok p) ↔ ∀ n ∈ d.live resolve, n.WellFormed resolve) ∧
    (∀ e, d.compile resolve = .error e ↔
      ∃ before n after, d.live resolve = before ++ n :: after ∧ n.violation resolve = some e ∧
        ∀ m ∈ before, m.WellFormed resolve) ∧
    (∀ e, d.compile resolve = .error e →
      (∃ n ∈ d.live resolve, resolve n.step = .error e) ∨
        e.isLoadError ∧ ∀ s, e ≠ .unknownStepKey s ∧ e ≠ .planParse s ∧ e ≠ .danglingNode s) := by
  refine ⟨compile_eq_ok_iff, fun _ => compile_eq_error_iff, fun e h => ?_⟩
  have ⟨before, n, after, live, fault, _⟩ := compile_eq_error_iff.mp h
  refine (resolve_eq_error_or_isLoadError fault).imp_left fun hn => ⟨n, ?_, hn⟩
  simp [live]

-- Of three nodes without a step the one that took the place of the first branch comes first.
theorem compile_overridden_eq_error :
    overridden.compile (stepsWithout ["retired", "sell", "close"]) =
      .error (.unknownStepKey "sell") := by
  refine ((compile_eq_first_violation _ _).2.1 _).mpr ⟨[overridden], ?_⟩
  refine ⟨mk "sell" (some "sales") none, [mk "help" (some "help") <| some [
    mk "close" (some "done") none], mk "close" (some "done") none], ?_, rfl, ?_⟩
  · decide +kernel
  · intro m hm
    rw [List.mem_singleton.mp hm, ← violation_eq_none_iff]
    decide +kernel

end RoutingPlan.Definition
