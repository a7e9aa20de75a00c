import RoutingPlan.Proofs.Definition.Violation

-- One definition put below another: every node without children gets it as its only child.

namespace RoutingPlan.Definition

mutual

def graft : Definition → Definition → Definition
  | mk step r none, e => mk step r (some [e])
  | mk step r (some []), e => mk step r (some [e])
  | mk step r (some (c :: cs)), e => mk step r (some (graft c e :: grafts cs e))

def grafts : List Definition → Definition → List Definition
  | [], _ => []
  | c :: cs, e => graft c e :: grafts cs e

end

variable {resolve : Resolver} {d e : Definition} {cs : List Definition} {r : Option String}

@[simp]
theorem step_graft : (d.graft e).step = d.step := by
  match d with
  | mk _ _ none | mk _ _ (some []) | mk _ _ (some (_ :: _)) => rfl

@[simp]
theorem routeKey_graft : (d.graft e).routeKey = d.routeKey := by
  match d with
  | mk _ _ none | mk _ _ (some []) | mk _ _ (some (_ :: _)) => rfl

@[simp]
theorem kind?_graft : (d.graft e).kind? resolve = d.kind? resolve := by
  rw [kind?, kind?, step_graft]

theorem grafts_eq : grafts cs e = cs.map (·.graft e) := by
  induction cs with
  | nil => rfl
  | cons c cs ih => rw [grafts, ih, List.map_cons]

theorem children_graft_of_nil (h : d.children = []) : (d.graft e).children = [e] := by
  match d with
  | mk _ _ none | mk _ _ (some []) => rfl
  | mk _ _ (some (_ :: _)) => cases h

theorem children_graft (h : d.children ≠ []) :
    (d.graft e).children = d.children.map (·.graft e) := by
  match d with
  | mk _ _ none | mk _ _ (some []) => exact absurd rfl h
  | mk _ _ (some (c :: cs)) => exact congrArg (c.graft e :: ·) grafts_eq

theorem map_routeKey_graft : (cs.map (·.graft e)).map routeKey = cs.map routeKey := by
  simp

-- Which child counts for a route key does not depend on what has been put below the children.
theorem lastWith?_graft : lastWith? r (cs.map (·.graft e)) = (lastWith? r cs).map (·.graft e) := by
  simp only [lastWith?, List.findRev?_eq_find?_reverse, ← List.map_reverse, List.find?_map,
    Function.comp_def, routeKey_graft]

theorem standing_graft : standing (cs.map (·.graft e)) = (standing cs).map (·.graft e) := by
  simp only [standing, map_routeKey_graft, lastWith?_graft, List.map_filterMap]

theorem WellFormed.graft (wellFormed : d.WellFormed resolve) : (d.graft e).WellFormed resolve := by
  have ⟨step, resolved, valid⟩ := wellFormed
  refine ⟨step, by rw [step_graft, resolved], ?_⟩
  cases kind : step.kind <;> rw [kind] at valid
  case router =>
    rw [children_graft valid.left]
    exact ⟨by simpa using valid.left, by simpa using valid.right⟩
  case action =>
    by_cases h : d.children = []
    case pos => simp [children_graft_of_nil h]
    case neg => simpa [children_graft h] using valid

theorem successors_graft (wellFormed : d.WellFormed resolve) :
    (d.graft e).successors resolve =
      if d.children = [] then [e] else (d.successors resolve).map (·.graft e) := by
  have ⟨step, resolved, valid⟩ := wellFormed
  have kind : d.kind? resolve = some step.kind := kind?_eq_some resolved
  cases hk : step.kind <;> rw [hk] at kind valid
  case router =>
    rw [successors_router (kind?_graft.trans kind), successors_router kind, if_neg valid.left,
      children_graft valid.left, standing_graft]
  case action =>
    by_cases h : d.children = []
    case pos =>
      have only := children_graft_of_nil (e := e) h
      rw [successors_action (kind?_graft.trans kind) (by simp [only]), only, if_pos h]
    case neg =>
      have below := children_graft (e := e) h
      rw [successors_action (kind?_graft.trans kind) (by simpa [below] using valid), below,
        successors_action kind valid, if_neg h]

theorem wellFormed_of_mem_live_graft (first : ∀ n ∈ d.live resolve, n.WellFormed resolve)
    (second : ∀ n ∈ e.live resolve, n.WellFormed resolve) :
    ∀ n ∈ (d.graft e).live resolve, n.WellFormed resolve := by
  induction d using childInduction with
  | node d ih =>
    rw [live_eq, List.forall_mem_cons, List.forall_mem_flatMap] at first ⊢
    have ⟨wellFormed, below⟩ := first
    rw [successors_graft wellFormed]
    refine ⟨wellFormed.graft, ?_⟩
    split
    case isTrue  => simpa using second
    case isFalse =>
      rw [List.forall_mem_map]
      exact fun c hc => ih c (mem_children_of_mem_successors hc) (below c hc)

theorem compile_graft {p₁ p₂ : Plan} (first : d.compile resolve = .ok p₁)
    (second : e.compile resolve = .ok p₂) : ∃ p, (d.graft e).compile resolve = .ok p :=
  compile_eq_ok_iff.mpr <| wellFormed_of_mem_live_graft (compile_eq_ok_iff.mp ⟨p₁, first⟩)
    (compile_eq_ok_iff.mp ⟨p₂, second⟩)

end RoutingPlan.Definition
