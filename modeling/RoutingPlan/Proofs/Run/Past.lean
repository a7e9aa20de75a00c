import RoutingPlan.Proofs.Run.Audit
import RoutingPlan.Proofs.Run.Drive
import RoutingPlan.Proofs.Run.Resemblance
import RoutingPlan.Proofs.Run.Termination

-- Runs of steps that answer by their input alone. What was before such a run gets into it through
-- the first input only: two runs that begin with the same one stay abreast, move by move, whatever
-- else their contexts hold and whenever their tokens fire.

namespace RoutingPlan

open Event (Detail)
open Json (Value)

-- All that a record says but for its times.
def Record.entry (x : Record) : String × Value × Option Value × Option String :=
  (x.step, x.input, x.output, x.routeKey)

-- The answers of the step hang on its input alone.
def Step.ReadsInputOnly : Step → Prop
  | .router _ decide => ∀ input c c', decide input c = decide input c'
  | .action _ act    => ∀ input c c', act input c = act input c'

-- What a run from `c` makes known, and what one from `c'` makes known in its place: the steps that
-- have run in the end are the records that there were before and as many new ones.
inductive Event.Detail.Matches (c c' : Context) : Detail → Detail → Prop
  | runStarted : Matches c c' (.runStarted c.input) (.runStarted c'.input)
  | stepStarted {name kind} : Matches c c' (.stepStarted name kind) (.stepStarted name kind)
  | routeDecided {name key} : Matches c c' (.routeDecided name key) (.routeDecided name key)
  | actionCompleted {name hasOutput} :
    Matches c c' (.actionCompleted name hasOutput) (.actionCompleted name hasOutput)
  | runCompleted {n} :
    Matches c c' (.runCompleted (c.records.length + n)) (.runCompleted (c'.records.length + n))
  | runFailed {error} : Matches c c' (.runFailed error) (.runFailed error)

structure Event.Matches (c c' : Context) (e e' : Event) : Prop where
  runId  : e.runId = c.runId
  runId' : e'.runId = c'.runId
  detail : e.detail.Matches c c' e'.detail

namespace Run

-- What a phase holds is the same for a run from `c` and one from `c'`.
def Phase.Fits (c c' : Context) : Phase → Prop
  | .invoking _ step   => step.ReadsInputOnly
  | .recorded detail _ => detail.Matches c c' detail
  | .ready | .entering _ | .closing _ | .finished _ => True

-- A run from `c` and one from `c'` that have come equally far.
structure Abreast (c c' : Context) (r r' : Run) : Prop where
  plan         : r'.plan = r.plan
  phase        : r'.phase = r.phase
  fits         : r.phase.Fits c c'
  workingInput : r'.context.workingInput = r.context.workingInput
  records      : ∃ new new', r.context.records = c.records ++ new ∧
    r'.context.records = c'.records ++ new' ∧ new'.map Record.entry = new.map Record.entry
  own          : r.context.runId = c.runId ∧ r.context.input = c.input
  own'         : r'.context.runId = c'.runId ∧ r'.context.input = c'.input

variable {p : Plan} {clock clock' : Clock} {c c' c₁ c₁' : Context} {r r' : Run}

theorem abreast_start (same : c'.workingInput = c.workingInput) :
    Abreast c c' (.start p clock c) (.start p clock' c') where
  plan         := rfl
  phase        := rfl
  fits         := trivial
  workingInput := same
  records      := ⟨[], [], by simp [start], by simp [start], rfl⟩
  own          := ⟨rfl, rfl⟩
  own'         := ⟨rfl, rfl⟩

namespace Abreast

theorem cancel_left (abreast : Abreast c c' r r') : Abreast c c' r.cancel r' := by
  rw [cancel, Context.fire_token]
  exact { abreast with workingInput := abreast.workingInput, records := abreast.records }

theorem cancel_right (abreast : Abreast c c' r r') : Abreast c c' r r'.cancel := by
  rw [cancel, Context.fire_token]
  exact { abreast with workingInput := abreast.workingInput, records := abreast.records }

section Phase

variable {phase phase' : Phase}
  (abreast : Abreast c c' ⟨p, clock, c₁, phase⟩ ⟨p, clock', c₁', phase⟩)

include abreast

theorem turn (fits : phase'.Fits c c') :
    Abreast c c' ⟨p, clock, c₁, phase'⟩ ⟨p, clock', c₁', phase'⟩ :=
  { abreast with phase := rfl, fits }

-- One more record on either side, and the output and the route key become whatever they become.
theorem push {x x' : Record} {detail : Detail} {next : Except Error (Option NodeId)}
    (entry : x'.entry = x.entry) (fits : detail.Matches c c' detail)
    (output output' : Option Value) (routeKey routeKey' : Option String) :
    Abreast c c'
      ⟨p, clock, { c₁ with output, routeKey, records := c₁.records ++ [x] },
        .recorded detail next⟩
      ⟨p, clock',
        { c₁' with output := output', routeKey := routeKey', records := c₁'.records ++ [x'] },
        .recorded detail next⟩ where
  plan         := rfl
  phase        := rfl
  fits         := fits
  workingInput := by
    have output : x'.output = x.output := congrArg (·.2.2.1) entry
    refine (Context.workingInput_pushRecord (c := c₁')).trans ?_
    rw [output, show c₁'.workingInput = c₁.workingInput from abreast.workingInput]
    exact Context.workingInput_pushRecord.symm
  records      := by
    obtain ⟨new, new', h, h', same⟩ := abreast.records
    refine ⟨new ++ [x], new' ++ [x'], ?_, ?_, by simp [same, entry]⟩
    · exact (congrArg (· ++ [x]) h).trans (List.append_assoc ..)
    · exact (congrArg (· ++ [x']) h').trans (List.append_assoc ..)
  own          := abreast.own
  own'         := abreast.own'

end Phase

theorem invoke {id : NodeId} {step : Step}
    (abreast : Abreast c c' ⟨p, clock, c₁, .invoking id step⟩ ⟨p, clock', c₁', .invoking id step⟩) :
    Option.Rel (Abreast c c') (Run.invoke ⟨p, clock, c₁, .invoking id step⟩ id step)
      (Run.invoke ⟨p, clock', c₁', .invoking id step⟩ id step) := by
  have input : c₁'.workingInput = c₁.workingInput := abreast.workingInput
  have closing (e : Error) : Abreast c c' ⟨p, clock, c₁, .closing (.error e)⟩
      ⟨p, clock', c₁', .closing (.error e)⟩ := abreast.turn trivial
  cases step with
  | router name decide =>
    have same : decide c₁'.workingInput c₁' = decide c₁.workingInput c₁ := by
      rw [input]
      exact abreast.fits ..
    simp only [Run.invoke, same]
    cases decide c₁.workingInput c₁ with
    | pending  => exact .none
    | failed e => exact .some (closing e)
    | done answer =>
      cases answer with
      | none => exact .some (closing _)
      | some key =>
        cases blank : Text.isBlank key <;>
          simp only [decided, blank, if_true, Bool.false_eq_true, if_false]
        case true  => exact .some (closing _)
        case false => exact .some <| abreast.push (by rw [input]; rfl) .routeDecided ..
  | action name act =>
    have same : act c₁'.workingInput c₁' = act c₁.workingInput c₁ := by
      rw [input]
      exact abreast.fits ..
    simp only [Run.invoke, same]
    cases act c₁.workingInput c₁ with
    | pending  => exact .none
    | failed e => exact .some (closing e)
    | done output =>
      exact .some <| abreast.push (by rw [input]; rfl) .actionCompleted ..

theorem move (abreast : Abreast c c' r r')
    (readers : ∀ node ∈ r.plan.nodes, node.step.ReadsInputOnly) :
    Option.Rel (fun m m' => Abreast c c' m.1 m'.1 ∧ Option.Rel (Event.Matches c c') m.2 m'.2)
      r.move r'.move := by
  obtain ⟨p, clock, c₁, phase⟩ := r
  obtain ⟨p', clock', c₁', phase'⟩ := r'
  have turned : phase = phase' := abreast.phase.symm
  have planned : p = p' := abreast.plan.symm
  subst turned planned
  have tells {d d' : Detail} (h : d.Matches c c' d') :
      Event.Matches c c' ⟨c₁.runId, d⟩ ⟨c₁'.runId, d'⟩ := ⟨abreast.own.left, abreast.own'.left, h⟩
  cases phase with
  | ready =>
    refine .some ⟨abreast.turn trivial, .some (tells ?_)⟩
    rw [show c₁.input = c.input from abreast.own.right,
      show c₁'.input = c'.input from abreast.own'.right]
    exact .runStarted
  | entering id =>
    simp only [Run.move]
    cases known : p.node? id with
    | none      => exact .some ⟨abreast.turn trivial, .none⟩
    | some node =>
      have reads : node.step.ReadsInputOnly := readers node (List.mem_of_getElem? known)
      exact .some ⟨abreast.turn reads, .some (tells .stepStarted)⟩
  | invoking id step =>
    have invoked := abreast.invoke
    simp only [Run.move]
    generalize Run.invoke ⟨p, clock, c₁, _⟩ id step = o at invoked ⊢
    generalize Run.invoke ⟨p, clock', c₁', _⟩ id step = o' at invoked ⊢
    cases invoked with
    | none         => exact .none
    | some abreast => exact .some ⟨abreast, .none⟩
  | recorded detail next =>
    refine .some ⟨abreast.turn ?_, .some (tells abreast.fits)⟩
    cases next with
    | error _ => trivial
    | ok next => cases next <;> trivial
  | closing result =>
    refine .some ⟨abreast.turn trivial, .some (tells ?_)⟩
    obtain ⟨new, new', h, h', same⟩ := abreast.records
    have length : new'.length = new.length := by simpa using congrArg List.length same
    cases result with
    | error e => exact .runFailed
    | ok _    =>
      simp only [show c₁.records = _ from h, show c₁'.records = _ from h', List.length_append,
        length]
      exact .runCompleted
  | finished => exact .none

end Abreast

section Courses

variable (readers : ∀ node ∈ p.nodes, node.step.ReadsInputOnly)
  (same : c'.workingInput = c.workingInput)

include readers same

theorem Course.abreast (course : Course (.start p clock c) r)
    (course' : Course (.start p clock' c') r') (length : course'.length = course.length) :
    Abreast c c' r r' ∧ List.Forall₂ (Event.Matches c c') course.events course'.events := by
  induction course generalizing r' with
  | rest =>
    induction course' with
    | rest         => exact ⟨abreast_start same, .nil⟩
    | move         => cases length
    | fire _ ih    => exact (ih length).imp_left Abreast.cancel_right
  | fire _ ih => exact (ih course' length).imp_left Abreast.cancel_left
  | @move r₁ r₂ e course m ih =>
    induction course' with
    | rest      => cases length
    | fire _ ih => exact (ih length).imp_left Abreast.cancel_right
    | move course' m' =>
      have ⟨abreast, events⟩ := ih course' (Nat.succ.inj length)
      have next := abreast.move (course.plan_eq ▸ readers)
      rw [m, m'] at next
      have .some ⟨abreast, event⟩ := next
      refine ⟨abreast, List.rel_append events ?_⟩
      cases event with
      | none   => exact .nil
      | some h => exact .cons h .nil

theorem Course.exists_abreast (course : Course (.start p clock c) r) :
    ∃ (r' : Run) (course' : Course (.start p clock' c') r'), course'.length = course.length := by
  induction course with
  | rest      => exact ⟨_, .rest, rfl⟩
  | fire _ ih => exact ih
  | move course m ih =>
    have ⟨_, course', length⟩ := ih
    have next := (course.abreast readers same course' length).left.move (course.plan_eq ▸ readers)
    rw [m] at next
    obtain ⟨_, m', _⟩ := (exists_of_rel next).left _ rfl
    exact ⟨_, course'.move m', congrArg (· + 1) length⟩

-- No run comes further than the other one that has come to its end.
theorem Course.length_le_of_finished (course : Course (.start p clock c) r)
    (course' : Course (.start p clock' c') r') (finished : r.result?.isSome) :
    course'.length ≤ course.length := by
  induction course' with
  | rest      => exact Nat.zero_le _
  | fire _ ih => exact ih
  | move course' m' ih =>
    refine Nat.lt_of_le_of_ne ih fun length => ?_
    have ⟨abreast, _⟩ := course.abreast readers same course' length
    have next := abreast.move (course.plan_eq ▸ readers)
    rw [m', move_eq_none_of_result? finished] at next
    cases next

-- Runs of one plan whose first steps consume the same value can make as many moves as one another,
-- and then have come to the same, whatever was before and whenever their tokens have fired.
theorem courses_match (course : Course (.start p clock c) r) :
    (∃ (r' : Run) (course' : Course (.start p clock' c') r'), course'.length = course.length) ∧
    ∀ (r' : Run) (course' : Course (.start p clock' c') r'),
      (r.result?.isSome → r'.result?.isSome → course'.length = course.length) ∧
      (course'.length = course.length →
        r'.result? = r.result? ∧
        (∃ new new', r.context.records = c.records ++ new ∧
          r'.context.records = c'.records ++ new' ∧
          new'.map Record.entry = new.map Record.entry) ∧
        List.Forall₂ (Event.Matches c c') course.events course'.events) := by
  refine ⟨course.exists_abreast readers same, fun r' course' => ⟨fun h h' => ?_, fun length => ?_⟩⟩
  · exact Nat.le_antisymm (course.length_le_of_finished readers same course' h)
      (course'.length_le_of_finished readers same.symm course h')
  · have ⟨abreast, events⟩ := course.abreast readers same course' length
    refine ⟨?_, abreast.records, events⟩
    rw [result?, result?, abreast.phase]

end Courses

-- The second caller has asked for help, but a step has made of it what the first one asks for.
theorem courses_match_lobby :
    let clock : Clock := fun n => (⟨n, 0⟩, ⟨n, 0⟩)
    let c : Context := ⟨⟨"first"⟩, .string "on", none, none, [], [], ⟨0, 0⟩, ⟨0, false⟩⟩
    let gate : Record := .acted "gate" ⟨0, 0⟩ ⟨0, 0⟩ (.string "help") (some (.string "on"))
    let c' : Context :=
      ⟨⟨"second"⟩, .string "help", none, some "in", [gate], [⟨.user, "hello"⟩], ⟨9, 0⟩, ⟨7, true⟩⟩
    (∀ node ∈ lobby.draft.nodes, node.step.ReadsInputOnly) ∧ c'.workingInput = c.workingInput ∧
      ∀ (r' : Run) (_ : Course (.start lobby.draft clock c') r'), r'.result?.isSome →
        r'.result? = some (.ok ()) ∧
        r'.context.records.map (·.step) = ["gate", "desk", "clerk"] := by
  intro clock c gate c'
  have readers : ∀ node ∈ lobby.draft.nodes, node.step.ReadsInputOnly :=
    List.forall_mem_cons.mpr ⟨fun _ _ _ => rfl, List.forall_mem_cons.mpr ⟨fun _ _ _ => rfl, nofun⟩⟩
  have same : c'.workingInput = c.workingInput := by decide +kernel
  refine ⟨readers, same, fun r' course' finished => ?_⟩
  have ⟨course, _⟩ := lobby.draft.exists_course_execute clock c lobby.draft.moves
  have ⟨ended, steps⟩ : (lobby.draft.execute clock c lobby.draft.moves).1.result? = some (.ok ()) ∧
      (lobby.draft.execute clock c lobby.draft.moves).1.context.records.map (·.step) =
        ["desk", "clerk"] := by
    decide +kernel
  have ⟨length, matched⟩ := (courses_match readers same course).right r' course'
  have ⟨result, ⟨new, new', records, records', entries⟩, _⟩ :=
    matched (length (by rw [ended]; rfl) finished)
  refine ⟨result.trans ended, ?_⟩
  have names : new'.map (·.step) = new.map (·.step) := by
    have heads := congrArg (List.map Prod.fst) entries
    rw [List.map_map, List.map_map] at heads
    exact heads
  rw [records] at steps
  rw [records', List.map_append, names]
  exact congrArg ("gate" :: ·) steps

end Run
end RoutingPlan
