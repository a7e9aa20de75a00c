import RoutingPlan.Proofs.Plan.Loaded
import RoutingPlan.Proofs.Run.Outcome

-- Running the plan of a definition comes to the same as carrying out the definition itself, step
-- after step and without node numbers or tables.

namespace RoutingPlan

-- A step that never waits.
def Step.Prompt : Step → Prop
  | .router _ decide => ∀ input c, decide input c ≠ .pending
  | .action _ act => ∀ input c, act input c ≠ .pending

namespace Definition

-- A definition carried out as it is written, node after node and without a plan.
def walk (resolve : Resolver) (clock : Clock) (d : Definition) (c : Context) : Outcome :=
  match resolve d.step with
  | .error e => ⟨some (.error e), c, []⟩
  | .ok (.router name decide) =>
    Outcome.after [⟨c.runId, .stepStarted name .router⟩] <|
    match decide c.workingInput c with
    | .pending => ⟨none, c, []⟩
    | .failed e => ⟨some (.error e), c, []⟩
    | .done answer =>
      match answer.filter (!Text.isBlank ·) with
      | none => ⟨some (.error (.undeterminedRoute name)), c, []⟩
      | some key =>
        let (began, ended) := clock c.records.length
        let record := Record.routed name began ended c.workingInput key
        let c' := (c.setRouteKey key).pushRecord record
        Outcome.after [⟨c.runId, .routeDecided name key⟩] <|
        match _last : lastWith? (some key) d.children with
        | none => ⟨some (.error (.unmatchedRouteKey name key)), c', []⟩
        | some child => child.walk resolve clock c'
  | .ok (.action name act) =>
    Outcome.after [⟨c.runId, .stepStarted name .action⟩] <|
    match act c.workingInput c with
    | .pending => ⟨none, c, []⟩
    | .failed e => ⟨some (.error e), c, []⟩
    | .done answer =>
      let output := answer.filter (!·.isNull)
      let (began, ended) := clock c.records.length
      let record := Record.acted name began ended c.workingInput output
      let c' := (c.setOutput output).pushRecord record
      Outcome.after [⟨c.runId, .actionCompleted name output.isSome⟩] <|
      match _single : d.children with
      | [next] => next.walk resolve clock c'
      | _ => ⟨some (.ok ()), c', []⟩
termination_by sizeOf d
decreasing_by
  · exact sizeOf_lt_of_mem_children <| mem_of_lastWith? _last
  · exact sizeOf_lt_of_mem_children <| _single ▸ List.mem_singleton_self next

theorem walk_router {resolve : Resolver} {clock : Clock} {d : Definition} {c : Context}
    {name : String} {decide : Json.Value → Context → Reply (Option String)}
    (h : resolve d.step = .ok (.router name decide)) :
    d.walk resolve clock c =
      Outcome.after [⟨c.runId, .stepStarted name .router⟩] (match decide c.workingInput c with
        | .pending => ⟨none, c, []⟩
        | .failed e => ⟨some (.error e), c, []⟩
        | .done answer =>
          match answer.filter (!Text.isBlank ·) with
          | none => ⟨some (.error (.undeterminedRoute name)), c, []⟩
          | some key =>
            let (began, ended) := clock c.records.length
            let record := Record.routed name began ended c.workingInput key
            let c' := (c.setRouteKey key).pushRecord record
            Outcome.after [⟨c.runId, .routeDecided name key⟩]
              (match lastWith? (some key) d.children with
                | none => ⟨some (.error (.unmatchedRouteKey name key)), c', []⟩
                | some child => child.walk resolve clock c')) := by
  rw [walk, h]
  simp only
  congr 1
  cases decide c.workingInput c with
  | pending | failed => rfl
  | done answer =>
    simp only
    cases answer.filter (!Text.isBlank ·) with
    | none => rfl
    | some key =>
      simp only
      congr 1
      split <;> simp_all only

theorem walk_action {resolve : Resolver} {clock : Clock} {d : Definition} {c : Context}
    {name : String} {act : Json.Value → Context → Reply (Option Json.Value)}
    (h : resolve d.step = .ok (.action name act)) :
    d.walk resolve clock c =
      Outcome.after [⟨c.runId, .stepStarted name .action⟩] (match act c.workingInput c with
        | .pending => ⟨none, c, []⟩
        | .failed e => ⟨some (.error e), c, []⟩
        | .done answer =>
          let output := answer.filter (!·.isNull)
          let (began, ended) := clock c.records.length
          let record := Record.acted name began ended c.workingInput output
          let c' := (c.setOutput output).pushRecord record
          Outcome.after [⟨c.runId, .actionCompleted name output.isSome⟩]
            (match d.children with
              | [next] => next.walk resolve clock c'
              | _ => ⟨some (.ok ()), c', []⟩)) := by
  rw [walk, h]
  simp only
  congr 1
  cases act c.workingInput c with
  | pending | failed => rfl
  | done answer =>
    simp only
    congr 1
    split <;> simp_all only

def interpret (resolve : Resolver) (clock : Clock) (d : Definition) (c : Context) : Outcome :=
  (d.walk resolve clock c).closed.after [⟨c.runId, .runStarted c.input⟩]

section Prompt

variable {resolve : Resolver} {clock : Clock} {d : Definition} {c : Context}

theorem walk_isSome (prompt : ∀ key step, resolve key = .ok step → step.Prompt) :
    (d.walk resolve clock c).result.isSome := by
  induction d using childInduction generalizing c with
  | node d ih =>
    cases hd : resolve d.step with
    | error e => rw [walk, hd]; rfl
    | ok step =>
      cases step with
      | router name decide =>
        rw [walk_router hd, Outcome.after_result]
        have prompt := prompt d.step _ hd c.workingInput c
        cases hr : decide c.workingInput c with
        | pending => exact absurd hr prompt
        | failed e => rfl
        | done answer =>
          simp only
          cases answer.filter (!Text.isBlank ·) with
          | none => rfl
          | some key =>
            simp only [Outcome.after_result]
            cases hc : lastWith? (some key) d.children with
            | none => rfl
            | some child => exact ih child (mem_of_lastWith? hc)
      | action name act =>
        rw [walk_action hd, Outcome.after_result]
        have prompt := prompt d.step _ hd c.workingInput c
        cases hr : act c.workingInput c with
        | pending => exact absurd hr prompt
        | failed e => rfl
        | done answer =>
          simp only [Outcome.after_result]
          split
          case h_1 next single => exact ih next (single ▸ List.mem_singleton_self next)
          case h_2 => rfl

theorem interpret_isSome (prompt : ∀ key step, resolve key = .ok step → step.Prompt) :
    (d.interpret resolve clock c).result.isSome := by
  rw [interpret, Outcome.after_result, Outcome.closed_result]
  exact walk_isSome prompt

end Prompt

end Definition

namespace Run

variable {p : Plan} {clock : Clock} {c : Context} {n : Nat}

open Plan Definition

variable {resolve : Resolver} {d : Definition} {id : NodeId} {name : String}

-- A visit to a node does what carrying out its definition does, if what comes after it does.
theorem settle_router_eq_walk {decide : Json.Value → Context → Reply (Option String)}
    (resolved : resolve d.step = .ok (.router name decide))
    (node : p.node? id = some ⟨id, d.step, .router name decide⟩)
    (after : ∀ key c, settle (n + 1) ⟨p, clock, c, onward (follow p id name key)⟩ =
      Outcome.closed (match lastWith? (some key) d.children with
        | none => ⟨some (.error (.unmatchedRouteKey name key)), c, []⟩
        | some child => child.walk resolve clock c)) :
    settle (n + 4) ⟨p, clock, c, .entering id⟩ = (d.walk resolve clock c).closed := by
  rw [settle_router node, walk_router resolved, Outcome.closed_after]
  congr 1
  cases decide c.workingInput c with
  | pending | failed => rfl
  | done answer =>
    simp only
    cases answer.filter (!Text.isBlank ·) with
    | none => rfl
    | some key =>
      simp only [Outcome.closed_after]
      congr 1
      exact after key _

theorem settle_action_eq_walk {act : Json.Value → Context → Reply (Option Json.Value)}
    (resolved : resolve d.step = .ok (.action name act))
    (node : p.node? id = some ⟨id, d.step, .action name act⟩)
    (after : ∀ c, settle (n + 1) ⟨p, clock, c, onward (.ok (p.next? id))⟩ =
      Outcome.closed (match d.children with
        | [next] => next.walk resolve clock c
        | _ => ⟨some (.ok ()), c, []⟩)) :
    settle (n + 4) ⟨p, clock, c, .entering id⟩ = (d.walk resolve clock c).closed := by
  rw [settle_action node, walk_action resolved, Outcome.closed_after]
  congr 1
  cases act c.workingInput c with
  | pending | failed => rfl
  | done answer =>
    simp only [Outcome.closed_after]
    congr 1
    exact after _

-- From the first node of a part a run does what carrying out its definition does. The induction is
-- on the definition: what follows a step is the part of one of its children, and a node pays for
-- the three moves that a run makes at it.
theorem settle_part {i j : Nat} (part : Part p resolve d i j) (enough : 3 * (j - i) + 1 ≤ n) :
    settle n ⟨p, clock, c, .entering ⟨i⟩⟩ = (d.walk resolve clock c).closed := by
  induction d using childInduction generalizing i j c n with
  | node d ih =>
    have lt := part.lt
    obtain ⟨n, rfl⟩ : ∃ m, n = m + 4 := ⟨n - 4, by omega⟩
    cases part with
    | router resolved node branches next nonempty arms =>
      refine settle_router_eq_walk resolved node fun key c => ?_
      rw [follow_eq branches (arms.ne_nil <| standing_ne_nil nonempty)]
      cases hc : lastWith? (some key) d.children with
      | none =>
        rw [arms.get?_eq_none (find?_standing.trans hc)]
        exact settle_closing _
      | some child =>
        obtain ⟨k, m, hget, part', hk, hm⟩ := arms.get?_eq_some (find?_standing.trans hc)
        rw [hget]
        exact ih child (mem_of_lastWith? hc) part' (by omega)
    | final resolved node branches next children =>
      refine settle_action_eq_walk resolved node fun c => ?_
      rw [next, children]
      exact settle_closing _
    | chained resolved node branches next children part =>
      refine settle_action_eq_walk resolved node fun c => ?_
      rw [next, children]
      exact ih _ (by simp [children]) part (by omega)

theorem settle_compile (loaded : d.compile resolve = .ok p) (enough : p.moves ≤ n) :
    (start p clock c).settle n = d.interpret resolve clock c := by
  have ⟨root, part⟩ := compile_part loaded
  simp only [Plan.moves] at enough
  obtain ⟨n, rfl⟩ : ∃ m, n = m + 1 := ⟨n - 1, by omega⟩
  rw [settle_start, root, settle_part part (by omega), interpret]

end Run

theorem Definition.execute_eq_interpret {resolve : Resolver} {d : Definition} {p : Plan}
    (loaded : d.compile resolve = .ok p) (clock : Clock) (c : Context) {n : Nat}
    (enough : p.moves ≤ n) :
    let run := p.execute clock c n
    let direct := d.interpret resolve clock c
    run.1.result? = direct.result ∧ run.1.context = direct.context ∧ run.2 = direct.events ∧
      ((∀ key step, resolve key = .ok step → step.Prompt) → run.1.result?.isSome) := by
  have settled : (Run.start p clock c).settle n = d.interpret resolve clock c :=
    Run.settle_compile loaded enough
  have result : (p.execute clock c n).1.result? = (d.interpret resolve clock c).result :=
    congrArg Outcome.result settled
  refine ⟨result, congrArg Outcome.context settled, congrArg Outcome.events settled, ?_⟩
  intro prompt
  rw [result]
  exact interpret_isSome prompt

-- The decision "sales" leads to the branch that has replaced the first one.
theorem Definition.execute_overridden :
    ∃ p, overridden.compile (stepsWithout ["retired"]) = .ok p ∧
      let run := p.execute (fun _ => (⟨0, 0⟩, ⟨0, 0⟩))
        ⟨⟨"run"⟩, .string "sales", none, none, [], [], ⟨0, 0⟩, ⟨0, false⟩⟩ p.moves
      run.1.result? = some (.ok ()) ∧ run.1.context.records.map (·.step) = ["desk", "sell"] ∧
        run.2.map (·.detail.name) = ["run_started", "step_started", "route_decided",
          "step_started", "action_completed", "run_completed"] := by
  have ⟨p, loaded⟩ : ∃ p, overridden.compile (stepsWithout ["retired"]) = .ok p := ⟨_, rfl⟩
  have ⟨result, context, events, _⟩ := execute_eq_interpret loaded (fun _ => (⟨0, 0⟩, ⟨0, 0⟩))
    ⟨⟨"run"⟩, .string "sales", none, none, [], [], ⟨0, 0⟩, ⟨0, false⟩⟩ (Nat.le_refl _)
  refine ⟨p, loaded, result.trans ?_, ?_, ?_⟩
  · cbv
  · rw [context]; cbv
  · rw [events]; cbv

end RoutingPlan
