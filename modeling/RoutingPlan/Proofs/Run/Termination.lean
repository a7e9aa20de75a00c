import RoutingPlan.Proofs.Plan.Unfolding
import RoutingPlan.Proofs.Run.Route

-- Runs of a plan end, whatever its steps answer, if and only if no cycle can be reached from its
-- root: along a cycle there are answers that keep a run going round.

namespace RoutingPlan

namespace Plan

open Relation (ReflTransGen TransGen)

-- The same plan with other steps.
def restaged (p : Plan) (stage : NodeId → Step → Step) : Plan :=
  { p with nodes := p.nodes.mapIdx fun i node => { node with step := stage ⟨i⟩ node.step } }

-- There is a cycle at the node or somewhere after it.
def Endless (p : Plan) (x : NodeId) : Prop :=
  ∃ z, ReflTransGen p.Passes x z ∧ TransGen p.Passes z z

variable {p : Plan} {x y : NodeId} {stage : NodeId → Step → Step}

theorem node?_restaged :
    (p.restaged stage).node? x =
      (p.node? x).map fun node => { node with step := stage x node.step } := by
  simp [node?, restaged, List.getElem?_mapIdx]

theorem endless_root_of_not_acyclic (cyclic : ¬p.Acyclic) : p.Endless p.root := by
  simp only [Acyclic, not_forall, not_not] at cyclic
  have ⟨x, reaches, cycle⟩ := cyclic
  exact ⟨x, reaches, cycle⟩

-- From such a node it is possible to go on for ever.
theorem Endless.exists_passes (endless : p.Endless x) : ∃ y, p.Passes x y ∧ p.Endless y :=
  have ⟨_, way, cycle⟩ := endless
  exists_step_of_cycle way cycle

-- A route key that leads round, if there is one.
open Classical in
noncomputable def roundKey (p : Plan) (x : NodeId) : String :=
  if h : ∃ key y, Text.isBlank key = false ∧ p.branch? x key = some y ∧ p.Endless y then h.choose
  else ""

-- Routers that always lead round, and actions that do nothing.
noncomputable def roundabout (p : Plan) (x : NodeId) : Step → Step
  | .router name _ => .router name fun _ _ => .done (some (p.roundKey x))
  | .action name _ => .action name fun _ _ => .done none

theorem kind_roundabout {step : Step} : (p.roundabout x step).kind = step.kind := by
  cases step <;> rfl

theorem name_roundabout {step : Step} : (p.roundabout x step).name = step.name := by
  cases step <;> rfl

theorem roundKey_spec {key : String} (filled : Text.isBlank key = false)
    (branch : p.branch? x key = some y) (endless : p.Endless y) :
    ∃ y, Text.isBlank (p.roundKey x) = false ∧ p.branch? x (p.roundKey x) = some y ∧
      p.Endless y := by
  have h : ∃ key y, Text.isBlank key = false ∧ p.branch? x key = some y ∧ p.Endless y :=
    ⟨key, y, filled, branch, endless⟩
  rw [roundKey, dif_pos h]
  exact h.choose_spec

end Plan

namespace Run

open Plan

variable {p : Plan} {clock : Clock} {c : Context} {r : Run} {x y : NodeId}

-- The step at `x` leads on to `y`, whatever it is asked.
def Insists (p : Plan) (x y : NodeId) : Prop :=
  ∃ node, p.node? x = some node ∧
    match node.step with
    | .router _ decide => ∃ key, Text.isBlank key = false ∧ p.branch? x key = some y ∧
        ∀ input c, decide input c = .done (some key)
    | .action _ act => p.next? x = some y ∧ ∀ input c, act input c = .done none

theorem insists_roundabout (endless : p.Endless x) :
    ∃ y, Insists (p.restaged p.roundabout) x y ∧ p.Endless y := by
  have ⟨y, ⟨node, known, way⟩, endless'⟩ := endless.exists_passes
  have known' : (p.restaged p.roundabout).node? x =
      some { node with step := p.roundabout x node.step } := by
    rw [node?_restaged, known, Option.map_some]
  cases step : node.step with
  | router name decide =>
    rw [step] at way
    have ⟨key, filled, branch⟩ := way
    have ⟨y, filled, branch, endless⟩ := roundKey_spec filled branch endless'
    refine ⟨y, ⟨_, known', ?_⟩, endless⟩
    rw [step]
    exact ⟨p.roundKey x, filled, branch, fun _ _ => rfl⟩
  | action name act =>
    rw [step] at way
    refine ⟨y, ⟨_, known', ?_⟩, endless'⟩
    rw [step]
    exact ⟨way, fun _ _ => rfl⟩

theorem Insists.moves (insists : Insists p x y) (clock : Clock) (c : Context) :
    ∃ step e c' detail,
      move ⟨p, clock, c, .entering x⟩ = some (⟨p, clock, c, .invoking x step⟩, e) ∧
      move ⟨p, clock, c, .invoking x step⟩ =
        some (⟨p, clock, c', .recorded detail (.ok (some y))⟩, none) := by
  have ⟨node, known, leads⟩ := insists
  obtain ⟨⟨began, ended⟩, times⟩ : ∃ times, clock c.records.length = times := ⟨_, rfl⟩
  have enters : move ⟨p, clock, c, .entering x⟩ = some (⟨p, clock, c, .invoking x node.step⟩,
      some ⟨c.runId, .stepStarted node.step.name node.step.kind⟩) := by
    simp [move, known, event]
  cases step : node.step with
  | router name decide =>
    rw [step] at leads enters
    obtain ⟨key, filled, branch, answer⟩ := leads
    have follow : follow p x name key = .ok (some y) := follow_eq_ok_iff.mpr branch
    refine ⟨_, _, c.routed began ended name key, .routeDecided name key, enters, ?_⟩
    simp [move, invoke, answer, decided, filled, follow, times, Context.routed]
  | action name act =>
    rw [step] at leads enters
    obtain ⟨next, answer⟩ := leads
    refine ⟨_, _, c.acted began ended name none, .actionCompleted name false, enters, ?_⟩
    simp [move, invoke, answer, acted, next, times, Context.acted]

theorem Course.visit (insists : Insists p x y) (course : Course r ⟨p, clock, c, .entering x⟩) :
    ∃ (c' : Context) (course' : Course r ⟨p, clock, c', .entering y⟩),
      course'.invocations.length = course.invocations.length + 1 ∧
      course'.fires = course.fires := by
  have ⟨step, e, c', detail, enters, answers⟩ := insists.moves clock c
  refine ⟨c', ((course.move enters).move answers).move rfl, ?_, rfl⟩
  simp [invocations, invocation?]

theorem exists_long_course (cyclic : ¬p.Acyclic) (clock : Clock) (c : Context) (n : Nat) :
    ∃ (x : NodeId) (c' : Context) (course : Course (.start (p.restaged p.roundabout) clock c)
      ⟨p.restaged p.roundabout, clock, c', .entering x⟩),
      p.Endless x ∧ course.invocations.length = n ∧ course.fires = 0 := by
  induction n with
  | zero =>
    let begun : Course (.start (p.restaged p.roundabout) clock c)
      ⟨_, clock, c, .entering p.root⟩ := .move .rest rfl
    exact ⟨p.root, c, begun, endless_root_of_not_acyclic cyclic, rfl, rfl⟩
  | succ n ih =>
    have ⟨x, c', course, endless, length, alone⟩ := ih
    have ⟨y, insists, endless⟩ := insists_roundabout endless
    have ⟨c'', course', length', alone'⟩ := course.visit insists
    exact ⟨y, c'', course', endless, by rw [length', length], alone'.trans alone⟩

namespace Course

variable (sound : p.Sound) (acyclic : p.Acyclic) (course : Course (.start p clock c) r)

include sound acyclic course

theorem result?_isSome_of_answers (answers : ∀ i, r.Meets i → i.Answers) {n : Nat}
    (enough : p.moves ≤ n) : (r.drive n).1.result?.isSome := by
  have stuck := course.move_drive_eq_none sound acyclic enough
  cases result?_isSome_or_invocation?_isSome stuck with
  | inl finished => exact finished
  | inr waits =>
    have ⟨i, hi⟩ := Option.isSome_iff_exists.mp waits
    exact absurd stuck <| move_ne_none_of_answers hi <| answers i ⟨n, hi⟩

end Course

-- Without a reachable cycle a run ends if none of the steps of its plan ever waits.
theorem result?_execute_isSome (sound : p.Sound) (acyclic : p.Acyclic)
    (prompt : ∀ node ∈ p.nodes, ∀ x c, Invocation.Answers ⟨x, node.step, c⟩) :
    (p.execute clock c p.moves).1.result?.isSome := by
  refine Course.result?_isSome_of_answers sound acyclic .rest (fun i ⟨n, invokes⟩ => ?_) le_rfl
  have ⟨course, _⟩ := p.exists_course_execute clock c n
  have ⟨node, known, step⟩ := course.node?_of_invoking <| phase_of_invocation? invokes
  have answers := prompt node (List.mem_of_getElem? known) i.id i.context
  rwa [step] at answers

-- Without a reachable cycle no step is invoked twice, no more of them are invoked than there are
-- nodes on a longest path, and a run ends unless one of its steps waits. With one, other steps of
-- the same kinds keep a run going.
theorem runs_of_build {b : Builder} {root : NodeId} (built : b.build root = .ok p) :
    (p.Acyclic →
      ∃ longest, p.IsLongest longest ∧
        (∀ (resolve : Resolver) (d : Definition), d.compile resolve = .ok p →
          p.toDefinition?.map Definition.height = some longest.length) ∧
        ∀ clock c r (course : Course (.start p clock c) r),
          (course.invocations.map (·.id)).Nodup ∧
          course.invocations.length ≤ longest.length ∧
          ((∀ i, r.Meets i → i.Answers) → ∀ n, p.moves ≤ n → (r.drive n).1.result?.isSome)) ∧
    (¬p.Acyclic →
      ∃ stage : NodeId → Step → Step,
        (∀ x step, (stage x step).kind = step.kind ∧ (stage x step).name = step.name) ∧
        ∀ clock c n, ∃ r, ∃ course : Course (.start (p.restaged stage) clock c) r,
          n < course.invocations.length ∧ course.fires = 0) := by
  have sound := sound_of_build built
  constructor
  · intro acyclic
    have ⟨longest, h⟩ := acyclic.exists_longest sound
    refine ⟨longest, h, fun resolve d loaded => ?_, fun clock c r course => ⟨?_, ?_, ?_⟩⟩
    · have unfoldable := unfoldable_of_compile loaded
      have ⟨d', unfolded⟩ := unfoldable.exists_toDefinition?
      rw [unfolded, Option.map_some, unfoldable.height_eq_length h unfolded]
    · exact course.isPath_invocations.nodup acyclic
    · simpa using h.most _ course.isPath_invocations
    · exact fun answers _ => course.result?_isSome_of_answers sound acyclic answers
  · intro cyclic
    refine ⟨p.roundabout, fun _ _ => ⟨kind_roundabout, name_roundabout⟩, fun clock c n => ?_⟩
    have ⟨_, _, course, _, length, alone⟩ := exists_long_course cyclic clock c (n + 1)
    exact ⟨_, course, by omega, alone⟩

-- The desk leads back to itself for no route key but the blank one, and neither its successor nor
-- the branch of the clerk is ever looked up.
def lobby : Builder :=
  let (desk, b) := Builder.empty.addStep <| .router "desk" fun input _ => .done (some input.text)
  let (clerk, b) := b.addStep <| .action "clerk" fun input _ => .done (some input)
  let b := (b.branch desk "" desk).2
  let b := (b.branch desk "on" clerk).2
  let b := (b.branch clerk "back" desk).2
  b.chainTo desk desk

theorem acyclic_lobby : lobby.draft.Acyclic := by
  apply acyclic_of_ways [⟨0⟩, ⟨1⟩] NodeId.index <;> decide +kernel

-- With a successor for the clerk there is a cycle.
theorem not_acyclic_lobby : ¬(lobby.chainTo ⟨1⟩ ⟨0⟩).draft.Acyclic := by
  intro acyclic
  have there : (lobby.chainTo ⟨1⟩ ⟨0⟩).draft.Passes ⟨0⟩ ⟨1⟩ := ⟨_, rfl, "on", by decide, rfl⟩
  have back : (lobby.chainTo ⟨1⟩ ⟨0⟩).draft.Passes ⟨1⟩ ⟨0⟩ := ⟨_, rfl, rfl⟩
  exact acyclic ⟨0⟩ .refl (.tail (.single there) back)

theorem runs_lobby :
    (lobby.build ⟨0⟩ = .ok lobby.draft ∧
      ∀ clock c, (lobby.draft.execute clock c lobby.draft.moves).1.result?.isSome) ∧
    ∃ p, (lobby.chainTo ⟨1⟩ ⟨0⟩).build ⟨0⟩ = .ok p ∧ ∃ stage : NodeId → Step → Step,
      ∀ clock c n, ∃ r, ∃ course : Course (.start (p.restaged stage) clock c) r,
        n < course.invocations.length := by
  constructor
  · have built : lobby.build ⟨0⟩ = .ok lobby.draft := rfl
    have prompt : ∀ node ∈ lobby.draft.nodes, ∀ x c, Invocation.Answers ⟨x, node.step, c⟩ := by
      refine List.forall_mem_cons.mpr ⟨?_, List.forall_mem_cons.mpr ⟨?_, nofun⟩⟩ <;> exact nofun
    have ⟨_, _, _, runs⟩ := (runs_of_build built).left acyclic_lobby
    refine ⟨built, fun clock c => ?_⟩
    have ⟨_, _, ends⟩ := runs clock c _ .rest
    refine ends (fun i ⟨n, invokes⟩ => ?_) _ (Nat.le_refl _)
    have ⟨course, _⟩ := lobby.draft.exists_course_execute clock c n
    have ⟨node, known, step⟩ := course.node?_of_invoking <| phase_of_invocation? invokes
    have answers := prompt node (List.mem_of_getElem? known) i.id i.context
    rwa [step] at answers
  · have built : (lobby.chainTo ⟨1⟩ ⟨0⟩).build ⟨0⟩ = .ok (lobby.chainTo ⟨1⟩ ⟨0⟩).draft := rfl
    have ⟨stage, _, runs⟩ := (runs_of_build built).right not_acyclic_lobby
    refine ⟨_, built, stage, fun clock c n => ?_⟩
    have ⟨r, course, long, _⟩ := runs clock c n
    exact ⟨r, course, long⟩

end Run
end RoutingPlan
