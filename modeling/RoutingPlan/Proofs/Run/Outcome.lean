import RoutingPlan.Run

-- What a run comes to, one law for each kind of move and one for a whole visit to a node.

namespace RoutingPlan

-- What a run comes to: its result, unless one of its steps waits, its context and its events.
structure Outcome where
  result  : Option (Except Error Unit)
  context : Context
  events  : List Event

namespace Outcome

def after (es : List Event) (o : Outcome) : Outcome :=
  { o with events := es ++ o.events }

-- The last event of a run that has a result tells it.
def closed (o : Outcome) : Outcome :=
  match o.result with
  | none => o
  | some (.ok ()) =>
    { o with events := o.events ++ [⟨o.context.runId, .runCompleted o.context.records.length⟩] }
  | some (.error e) => { o with events := o.events ++ [⟨o.context.runId, .runFailed e.message⟩] }

@[simp]
theorem after_result (es : List Event) (o : Outcome) : (o.after es).result = o.result :=
  rfl

@[simp]
theorem closed_result (o : Outcome) : o.closed.result = o.result := by
  obtain ⟨_ | _ | _, c, es⟩ := o <;> rfl

theorem closed_after (es : List Event) (o : Outcome) : (o.after es).closed = o.closed.after es := by
  obtain ⟨_ | _ | _, c, es'⟩ := o <;> simp [closed, after]

end Outcome

namespace Run

variable {p : Plan} {clock : Clock} {c : Context} {r r' : Run} {n : Nat}

def settle (n : Nat) (r : Run) : Outcome :=
  let (r, es) := r.drive n
  ⟨r.result?, r.context, es⟩

theorem settle_of_move {e : Option Event} (h : r.move = some (r', e)) :
    r.settle (n + 1) = (r'.settle n).after e.toList := by
  simp [settle, drive, h, Outcome.after]

theorem settle_of_stuck (h : r.move = none) : r.settle n = ⟨r.result?, r.context, []⟩ := by
  cases n <;> simp [settle, drive, h]

theorem settle_start :
    (start p clock c).settle (n + 1) =
      (settle n ⟨p, clock, c, .entering p.root⟩).after [⟨c.runId, .runStarted c.input⟩] := by
  have begun : (start p clock c).move =
      some (⟨p, clock, c, .entering p.root⟩, some ⟨c.runId, .runStarted c.input⟩) :=
    rfl
  exact settle_of_move begun

theorem settle_closing (result : Except Error Unit) :
    settle (n + 1) ⟨p, clock, c, .closing result⟩ = Outcome.closed ⟨some result, c, []⟩ := by
  rw [settle_of_move rfl, settle_of_stuck rfl]
  cases result <;> rfl

-- The first move at a node makes its step known, the second one invokes it.
theorem settle_entering {id : NodeId} {node : Plan.Node} (h : p.node? id = some node) :
    settle (n + 2) ⟨p, clock, c, .entering id⟩ =
      Outcome.after [⟨c.runId, .stepStarted node.step.name node.step.kind⟩]
        (match invoke ⟨p, clock, c, .invoking id node.step⟩ id node.step with
          | none => ⟨none, c, []⟩
          | some r => r.settle n) := by
  have known : move ⟨p, clock, c, .entering id⟩ =
      some (⟨p, clock, c, .invoking id node.step⟩,
        some ⟨c.runId, .stepStarted node.step.name node.step.kind⟩) := by
    simp [move, h, event]
  rw [settle_of_move known]
  congr 1
  cases hr : invoke ⟨p, clock, c, .invoking id node.step⟩ id node.step with
  | none =>
    rw [settle_of_stuck (by simp [move, hr])]
    rfl
  | some r =>
    have invoked : move ⟨p, clock, c, .invoking id node.step⟩ = some (r, none) := by
      simp [move, hr]
    rw [settle_of_move invoked]
    rfl

-- Where a run goes on after a step that has been recorded.
def onward : Except Error (Option NodeId) → Phase
  | .ok (some id) => .entering id
  | .ok none => .closing (.ok ())
  | .error e => .closing (.error e)

theorem settle_recorded {detail : Event.Detail} {next : Except Error (Option NodeId)} :
    settle (n + 1) ⟨p, clock, c, .recorded detail next⟩ =
      (settle n ⟨p, clock, c, onward next⟩).after [⟨c.runId, detail⟩] := by
  have known : move ⟨p, clock, c, .recorded detail next⟩ =
      some (⟨p, clock, c, onward next⟩, some ⟨c.runId, detail⟩) := by
    rfl
  rw [settle_of_move known]
  rfl

theorem settle_router {id : NodeId} {key name : String}
    {decide : Json.Value → Context → Reply (Option String)}
    (h : p.node? id = some ⟨id, key, .router name decide⟩) :
    settle (n + 4) ⟨p, clock, c, .entering id⟩ =
      Outcome.after [⟨c.runId, .stepStarted name .router⟩] (match decide c.workingInput c with
        | .pending => ⟨none, c, []⟩
        | .failed e => Outcome.closed ⟨some (.error e), c, []⟩
        | .done answer =>
          match answer.filter (!Text.isBlank ·) with
          | none => Outcome.closed ⟨some (.error (.undeterminedRoute name)), c, []⟩
          | some key =>
            let (began, ended) := clock c.records.length
            let record := Record.routed name began ended c.workingInput key
            let c' := (c.setRouteKey key).pushRecord record
            Outcome.after [⟨c.runId, .routeDecided name key⟩]
              (settle (n + 1) ⟨p, clock, c', onward (follow p id name key)⟩)) := by
  rw [settle_entering h]
  simp only [Step.name, Step.kind, invoke]
  congr 1
  cases decide c.workingInput c with
  | pending => rfl
  | failed e => exact settle_closing _
  | done answer =>
    cases answer with
    | none => exact settle_closing _
    | some key =>
      cases blank : Text.isBlank key <;> simp only [decided, blank, if_true, if_false,
        Bool.false_eq_true, Option.filter_some, Bool.not_true, Bool.not_false]
      case false => exact settle_recorded
      case true  => exact settle_closing _

theorem settle_action {id : NodeId} {key name : String}
    {act : Json.Value → Context → Reply (Option Json.Value)}
    (h : p.node? id = some ⟨id, key, .action name act⟩) :
    settle (n + 4) ⟨p, clock, c, .entering id⟩ =
      Outcome.after [⟨c.runId, .stepStarted name .action⟩] (match act c.workingInput c with
        | .pending => ⟨none, c, []⟩
        | .failed e => Outcome.closed ⟨some (.error e), c, []⟩
        | .done answer =>
          let output := answer.filter (!·.isNull)
          let (began, ended) := clock c.records.length
          let record := Record.acted name began ended c.workingInput output
          let c' := (c.setOutput output).pushRecord record
          Outcome.after [⟨c.runId, .actionCompleted name output.isSome⟩]
            (settle (n + 1) ⟨p, clock, c', onward (.ok (p.next? id))⟩)) := by
  rw [settle_entering h]
  simp only [Step.name, Step.kind, invoke]
  congr 1
  cases act c.workingInput c with
  | pending => rfl
  | failed e => exact settle_closing _
  | done answer => exact settle_recorded

theorem follow_eq {id : NodeId} {name key : String} {t : Branches} (h : p.branches? id = some t)
    (nonempty : t ≠ []) :
    follow p id name key = match Keyed.get? key t with
      | some next => .ok (some next)
      | none => .error (.unmatchedRouteKey name key) := by
  rw [follow, h]
  cases t with
  | nil => exact absurd rfl nonempty
  | cons => rfl

end Run
end RoutingPlan
