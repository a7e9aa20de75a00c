import RoutingPlan.Proofs.Plan.Operations
import RoutingPlan.Proofs.Plan.Unfolding
import RoutingPlan.Proofs.Run.Protocol

-- Plans that builders come to, whatever their operations have been. There is a plan if all node
-- numbers that are left in the tables have been given out, and then no lookup goes astray, be it
-- one of a run or one on the way to a definition.

namespace RoutingPlan

open Relation (ReflTransGen)

namespace Run.Course

variable {p : Plan} {clock : Clock} {c : Context} {r : Run} {x : NodeId}

theorem exists_node_of_entering (sound : p.Sound) (course : Course (.start p clock c) r)
    (h : r.phase = .entering x) : ∃ node, p.node? x = some node :=
  Plan.exists_node_of_lt <| course.lt_nodeCount sound (by rw [upcoming?, h])

-- The only errors of this kind are those of the steps.
theorem fails_of_result? (sound : p.Sound) (course : Course (.start p clock c) r)
    {name message : String} (h : r.result? = some (.error (.step name message))) :
    ∃ i, course.invocations.getLast? = some i ∧ i.Fails (.step name message) := by
  have ⟨_, _, _, ends, _⟩ := course.ends sound h
  cases ends with
  | refused last refuses =>
    cases refuses with
    | failed fails => exact ⟨_, last, fails⟩
  | stranded _ _ _ _ _ _ routing => cases routing <;> contradiction

end Run.Course

namespace Plan

open Builder (lastChild? lastNext? routeKeys)

-- The tables of a plan hold what the last operations have put there.
structure Holds (p : Plan) (ops : List Builder.Operation) : Prop where
  branch : ∀ router key, p.branch? router key = lastChild? ops router key
  order  : ∀ router, Keyed.keys ((p.branches? router).getD []) = routeKeys ops router
  next   : ∀ source, p.next? source = lastNext? ops source

-- Every node that is looked up is there: the root, those that stand below it in a definition, where
-- only a plan that is too deep has none, and those that runs come to.
structure Complete (p : Plan) : Prop where
  root     : ∃ node, p.rootNode? = some node
  descends : ∀ x, ReflTransGen p.Descends p.root x → ∃ node, p.node? x = some node
  unfolds  : ∀ n, p.definitionOf n p.root none = none ↔
    ∃ ys, ys.length = n ∧ (p.root :: ys).IsChain p.Descends
  enters   : ∀ clock c r, Run.Course (.start p clock c) r → ∀ x, r.phase = .entering x →
    ∃ node, p.node? x = some node
  fails    : ∀ clock c r (course : Run.Course (.start p clock c) r) (x : NodeId),
    r.result? = some (.error (.step x.text "node not found in plan")) →
      ∃ i, course.invocations.getLast? = some i ∧
        i.Fails (.step x.text "node not found in plan")

theorem Sound.complete {p : Plan} (sound : p.Sound) : p.Complete where
  root                    := exists_node_of_lt sound.root
  descends _ h            := sound.exists_node_of_descends h
  unfolds _               := definitionOf_eq_none_iff fun _ h => sound.exists_node_of_descends h
  enters _ _ _ course _ h := course.exists_node_of_entering sound h
  fails _ _ _ course _ h  := course.fails_of_result? sound h

namespace Builder

variable {ops : List Operation} {root : NodeId} {p : Plan}

theorem holds_of_build (built : (ofOperations ops).build root = .ok p) : p.Holds ops := by
  cases eq_of_build built
  exact ⟨fun _ _ => branch?_eq_get?_table.trans get?_table, fun _ => keys_table,
    fun _ => next?_ofOperations⟩

-- A branch answers with the child of the one before it for the same router and route key.
theorem build_ofOperations (ops : List Operation) (root : NodeId) :
    ((∃ p, (ofOperations ops).build root = .ok p) ↔
      root ∈ issued ops ∧ ∀ id, Remains ops id → id ∈ issued ops) ∧
    (∀ e, (ofOperations ops).build root = .error e →
      ∃ id, e = .danglingNode id.text ∧ id ∉ issued ops ∧
        if root ∈ issued ops then Remains ops id else id = root) ∧
    (∀ before router key child after, ops = before ++ .branch router key child :: after →
      (empty.answers ops)[before.length]? =
        some (.replaced (lastChild? before router key))) ∧
    ∀ p, (ofOperations ops).build root = .ok p → p.root = root ∧ p.Holds ops ∧ p.Complete := by
  refine ⟨exists_build_eq_ok_iff, fun e => exists_dangling, ?_, fun p built => ⟨?_, ?_, ?_⟩⟩
  · rintro before router key child after rfl
    exact getElem?_answers.trans <| congrArg some answer_branch
  · rw [eq_of_build built]
  · exact holds_of_build built
  · exact (sound_of_build built).complete

-- The first child of the desk and the first successor of the clerk have never been given out, but
-- they do not stay; and the desk has a branch before there is a desk.
def revised : List Operation :=
  [.branch ⟨0⟩ "on" ⟨7⟩, .addStep <| .router "desk" fun input _ => .done (some input.text),
    .addStep <| .action "clerk" fun input _ => .done (some input), .branch ⟨0⟩ "on" ⟨1⟩,
    .chainTo ⟨1⟩ ⟨9⟩, .chainTo ⟨1⟩ ⟨0⟩]

theorem build_revised :
    (∃ p, (ofOperations revised).build ⟨0⟩ = .ok p ∧ p.branch? ⟨0⟩ "on" = some ⟨1⟩ ∧
      p.next? ⟨1⟩ = some ⟨0⟩ ∧ p.Complete) ∧
    (empty.answers revised)[3]? = some (.replaced (some ⟨7⟩)) ∧
    ∃ id : NodeId, (ofOperations revised.dropLast).build ⟨0⟩ = .error (.danglingNode id.text) ∧
      id ∉ issued revised.dropLast ∧ Remains revised.dropLast id := by
  have ⟨_, _, answers, good⟩ := build_ofOperations revised ⟨0⟩
  have ⟨_, bad, _⟩ := build_ofOperations revised.dropLast ⟨0⟩
  refine ⟨?_, answers (revised.take 3) _ _ _ _ rfl, ?_⟩
  · have ⟨p, built⟩ : ∃ p, (ofOperations revised).build ⟨0⟩ = .ok p := ⟨_, rfl⟩
    have ⟨_, holds, complete⟩ := good p built
    exact ⟨p, built, holds.branch _ _, holds.next _, complete⟩
  · have ⟨e, failed⟩ : ∃ e, (ofOperations revised.dropLast).build ⟨0⟩ = .error e := ⟨_, rfl⟩
    have ⟨id, eq, foreign, remains⟩ := bad e failed
    exact ⟨id, eq ▸ failed, foreign, remains⟩

end Builder
end Plan
end RoutingPlan
