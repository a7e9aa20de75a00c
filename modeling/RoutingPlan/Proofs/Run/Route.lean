import RoutingPlan.Proofs.Plan.Path
import RoutingPlan.Proofs.Run.Course

-- The nodes that a run comes to are those of a path from the root (`Course.isPath`). So it stays
-- within a plan that has been built, and where no cycle can be reached it makes no more than a
-- certain number of moves.

namespace RoutingPlan.Run

open Plan

variable {p : Plan} {clock : Clock} {c : Context} {r r' : Run} {e : Option Event} {x y : NodeId}

-- The node at which a run stands, or to which it goes on next.
def upcoming? (r : Run) : Option NodeId :=
  match r.phase with
  | .ready => some r.plan.root
  | .entering id | .invoking id _ => some id
  | .recorded _ (.ok next) => next
  | _ => none

theorem upcoming?_recorded {detail : Event.Detail} {next : Except Error (Option NodeId)} :
    upcoming? ⟨p, clock, c, .recorded detail next⟩ = some y ↔ next = .ok (some y) := by
  cases next <;> simp [upcoming?]

theorem follow_eq_ok_iff {name key : String} :
    follow p x name key = .ok (some y) ↔ p.branch? x key = some y := by
  rw [branch?]
  cases branches : p.branches? x with
  | none => simp [follow, branches]
  | some t =>
    by_cases nonempty : t = []
    case pos => simp [follow, branches, nonempty, Keyed.get?]
    case neg =>
      rw [follow_eq branches nonempty, Option.bind_some]
      cases Keyed.get? key t <;> simp

-- A run knows the step that it is about to invoke from the node at which it stands.
def Informed (r : Run) : Prop :=
  ∀ x step, r.phase = .invoking x step → ∃ node, r.plan.node? x = some node ∧ node.step = step

-- A run passes from a node that it has visited to the one to which it goes on.
theorem Moves.isPath {ids : List NodeId} (moves : Moves r e r') (informed : r.Informed)
    (path : r.plan.IsPath (ids ++ r.upcoming?.toList)) :
    r.plan.IsPath (ids ++ (r.invocation?.map (·.id)).toList ++ r'.upcoming?.toList) := by
  cases moves with
  | begins | enters | refuses => simpa [invocation?, upcoming?] using path
  | misses | closes           => simpa [invocation?, upcoming?] using path.left_of_append
  | @decides p _ c id step key began ended h filled =>
    cases hy : upcoming? ⟨p, _, _, .recorded _ (follow p id step.name key)⟩ with
    | none => simpa [invocation?, upcoming?] using path
    | some y =>
      have ⟨node, known, eq⟩ := informed id step rfl
      have branch := follow_eq_ok_iff.mp <| upcoming?_recorded.mp hy
      have kind : node.step.kind = .router := eq ▸ h.kind
      exact path.concat ⟨node, known, by rw [kind]; exact ⟨key, filled, branch⟩⟩
  | @produces p _ c id step output began ended h =>
    cases hy : p.next? id with
    | none => simpa [invocation?, upcoming?, hy] using path
    | some y =>
      have ⟨node, known, eq⟩ := informed id step rfl
      have kind : node.step.kind = .action := eq ▸ h.kind
      simp only [upcoming?]
      exact path.concat ⟨node, known, by rw [kind]; exact hy⟩
  | @tells p _ c detail next =>
    match next with
    | .ok (some _)        => simpa [invocation?, upcoming?, onward] using path
    | .ok none | .error _ => simpa [invocation?, upcoming?, onward] using path.left_of_append

namespace Course

theorem informed (course : Course (.start p clock c) r) : r.Informed := by
  induction course with
  | rest => intro _ _ h; cases h
  | move course m ih =>
    intro x step h
    cases moves_of_move m with
    | enters known => cases h; exact ⟨_, known, rfl⟩
    | begins | misses | refuses | decides | produces | closes => cases h
    | @tells _ _ _ _ next =>
      match next with
      | .ok (some _) | .ok none | .error _ => cases h
  | fire _ ih => exact ih

theorem node?_of_invoking (course : Course (.start p clock c) r) {step : Step}
    (h : r.phase = .invoking x step) : ∃ node, p.node? x = some node ∧ node.step = step := by
  have plan : r.plan = p := course.plan_eq
  exact plan ▸ course.informed x step h

theorem node?_of_mem_invocations (course : Course (.start p clock c) r) {i : Invocation}
    (h : i ∈ course.invocations) : ∃ node, p.node? i.id = some node ∧ node.step = i.step := by
  induction course with
  | rest => cases h
  | move course _ ih =>
    cases List.mem_append.mp h with
    | inl h => exact ih h
    | inr h => exact course.node?_of_invoking <| phase_of_invocation? <| Option.mem_toList.mp h
  | fire _ ih => exact ih h

theorem isPath (course : Course (.start p clock c) r) :
    p.IsPath (course.invocations.map (·.id) ++ r.upcoming?.toList) := by
  induction course with
  | rest => exact .singleton
  | @move r₁ r₂ e course m ih =>
    have plan : r₁.plan = p := course.plan_eq
    subst plan
    simpa [invocations, Option.toList_map] using (moves_of_move m).isPath course.informed ih
  | fire _ ih => exact ih

theorem lt_nodeCount (sound : p.Sound) (course : Course (.start p clock c) r)
    (h : r.upcoming? = some x) : x.index < p.nodeCount :=
  sound.lt_of_reaches <| course.isPath.reaches (by simp [h])

end Course

section Length

-- The moves that a run has made since the last step that it has invoked was recorded.
def Phase.stage : Phase → Nat
  | .ready | .recorded .. => 0
  | .entering _           => 1
  | .invoking ..          => 2
  | .closing _            => 1
  | .finished _           => 2

theorem Phase.stage_le (phase : Phase) : phase.stage ≤ 2 := by
  cases phase <;> simp [stage]

theorem Moves.stage_le (moves : Moves r e r')
    (known : ∀ x, r.upcoming? = some x → ∃ node, r.plan.node? x = some node) :
    r.phase.stage + 1 ≤ 3 * r.invocation?.toList.length + r'.phase.stage := by
  cases moves with
  | begins | enters | refuses | decides | produces | closes => simp [Phase.stage, invocation?]
  | misses unknown =>
    have ⟨_, h⟩ := known _ rfl
    exact nomatch unknown.symm.trans h
  | @tells _ _ _ _ next =>
    match next with
    | .ok (some _) | .ok none | .error _ => simp [Phase.stage, invocation?, onward]

namespace Course

-- Three moves for every step that has been invoked, one to begin and one to end.
theorem length_le (sound : p.Sound) (course : Course (.start p clock c) r) :
    course.length ≤ 3 * course.invocations.length + r.phase.stage := by
  induction course with
  | rest => exact Nat.zero_le _
  | @move r₁ _ _ course m ih =>
    have plan : r₁.plan = p := course.plan_eq
    have known : ∀ x, r₁.upcoming? = some x → ∃ node, r₁.plan.node? x = some node := fun _ h =>
      plan ▸ exists_node_of_lt (course.lt_nodeCount sound h)
    have step := (moves_of_move m).stage_le known
    simp only [length, invocations, List.length_append]
    omega
  | fire _ ih => exact ih

theorem isPath_invocations (course : Course (.start p clock c) r) :
    p.IsPath (course.invocations.map (·.id)) :=
  course.isPath.left_of_append

-- No run of a plan without cycles goes on for ever.
theorem length_le_moves (sound : p.Sound) (acyclic : p.Acyclic)
    (course : Course (.start p clock c) r) : course.length ≤ p.moves := by
  have visits := course.isPath_invocations.length_le acyclic sound
  have length := course.length_le sound
  have stage := r.phase.stage_le
  rw [List.length_map] at visits
  unfold Plan.moves
  omega

-- After enough moves a run has come to its end, or a step waits.
theorem move_drive_eq_none {n : Nat} (sound : p.Sound) (acyclic : p.Acyclic)
    (course : Course (.start p clock c) r) (enough : p.moves ≤ n) : (r.drive n).1.move = none := by
  have ⟨course', _, _, _, length⟩ := course.exists_drive n
  cases length with
  | inr stuck => exact stuck
  | inl length =>
    by_contra goes
    have ⟨m, hm⟩ := Option.ne_none_iff_exists'.mp goes
    have le := (course'.move hm).length_le_moves sound acyclic
    rw [Course.length, length] at le
    omega

end Course

end Length

end RoutingPlan.Run
