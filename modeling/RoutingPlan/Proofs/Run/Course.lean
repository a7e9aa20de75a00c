import RoutingPlan.Proofs.Run.Outcome

-- The courses that runs can take: moves one after the other, each of one of a few kinds (`Moves`),
-- and between two of them the token of the run may fire.

namespace RoutingPlan

open Json (Value)

-- A step as a run invokes it. No two invocations of a run see the same context, since every one but
-- the last leaves a record; so what a step answers may also hang on what it was asked before.
structure Invocation where
  id      : NodeId
  step    : Step
  context : Context

namespace Invocation

def Fails (i : Invocation) (e : Error) : Prop :=
  match i.step with
  | .router _ decide => decide i.context.workingInput i.context = .failed e
  | .action _ act => act i.context.workingInput i.context = .failed e

def Decides (i : Invocation) (answer : Option String) : Prop :=
  match i.step with
  | .router _ decide => decide i.context.workingInput i.context = .done answer
  | .action .. => False

def Produces (i : Invocation) (output : Option Value) : Prop :=
  match i.step with
  | .router .. => False
  | .action _ act => act i.context.workingInput i.context = .done output

-- The step does not wait.
def Answers (i : Invocation) : Prop :=
  match i.step with
  | .router _ decide => decide i.context.workingInput i.context ≠ .pending
  | .action _ act => act i.context.workingInput i.context ≠ .pending

-- An invocation that ends its run and leaves no record: the step fails, or it is a router that
-- knows no way on.
inductive Refuses (i : Invocation) : Error → Prop
  | failed {e} (fails : i.Fails e) : Refuses i e
  | undetermined {answer} (decides : i.Decides answer) (blank : answer.all Text.isBlank = true) :
    Refuses i (.undeterminedRoute i.step.name)

variable {i : Invocation} {answer answer' : Option String} {output : Option Value} {e : Error}

theorem Decides.deterministic (h : i.Decides answer) (h' : i.Decides answer') :
    answer = answer' := by
  obtain ⟨id, step, c⟩ := i
  cases step with
  | router => exact Reply.done.inj <| h.symm.trans h'
  | action => exact h.elim

theorem Decides.not_fails (h : i.Decides answer) : ¬i.Fails e := by
  obtain ⟨id, step, c⟩ := i
  cases step with
  | router => exact fun h' => nomatch h.symm.trans h'
  | action => exact h.elim

theorem Decides.answers (h : i.Decides answer) : i.Answers := by
  obtain ⟨id, step, c⟩ := i
  cases step with
  | router => exact fun h' => nomatch h.symm.trans h'
  | action => exact h.elim

theorem Decides.kind (h : i.Decides answer) : i.step.kind = .router := by
  obtain ⟨id, step, c⟩ := i
  cases step with
  | router => rfl
  | action => exact h.elim

-- A router that decides a route key to go on with does not end its run by itself.
theorem Decides.not_refuses {key : String} (h : i.Decides (some key))
    (filled : Text.isBlank key = false) : ¬i.Refuses e := by
  intro refuses
  cases refuses with
  | failed fails => exact h.not_fails fails
  | undetermined decides blank =>
    rw [← h.deterministic decides, Option.all_some, filled] at blank
    cases blank

theorem Produces.not_fails (h : i.Produces output) : ¬i.Fails e := by
  obtain ⟨id, step, c⟩ := i
  cases step with
  | router => exact h.elim
  | action => exact fun h' => nomatch h.symm.trans h'

theorem Produces.answers (h : i.Produces output) : i.Answers := by
  obtain ⟨id, step, c⟩ := i
  cases step with
  | router => exact h.elim
  | action => exact fun h' => nomatch h.symm.trans h'

theorem Produces.kind (h : i.Produces output) : i.step.kind = .action := by
  obtain ⟨id, step, c⟩ := i
  cases step with
  | router => exact h.elim
  | action => rfl

theorem Produces.not_decides (h : i.Produces output) : ¬i.Decides answer :=
  fun h' => nomatch h.kind.symm.trans h'.kind

theorem Produces.not_refuses (h : i.Produces output) : ¬i.Refuses e := by
  intro refuses
  cases refuses with
  | failed fails         => exact h.not_fails fails
  | undetermined decides => exact h.not_decides decides

end Invocation

namespace Context

-- The context once a decision has been recorded.
def routed (c : Context) (began ended : Instant) (name key : String) : Context :=
  (c.setRouteKey key).pushRecord (.routed name began ended c.workingInput key)

-- The context once an output has been recorded.
def acted (c : Context) (began ended : Instant) (name : String) (output : Option Value) : Context :=
  (c.setOutput output).pushRecord (.acted name began ended c.workingInput output)

theorem fire_token (c : Context) :
    c.fire c.token.id = { c with token := { c.token with fired := true } } :=
  if_pos rfl

end Context

namespace Run

-- The invocation that a run is about to make.
def invocation? (r : Run) : Option Invocation :=
  match r.phase with
  | .invoking id step => some ⟨id, step, r.context⟩
  | _ => none

theorem phase_of_invocation? {r : Run} {i : Invocation} (h : r.invocation? = some i) :
    r.phase = .invoking i.id i.step := by
  obtain ⟨p, clock, c, phase⟩ := r
  cases phase <;> cases h
  rfl

theorem phase_of_result? {r : Run} {result : Except Error Unit} (h : r.result? = some result) :
    r.phase = .finished result := by
  obtain ⟨p, clock, c, phase⟩ := r
  cases phase <;> cases h
  rfl

-- The invocations that a run comes to when it moves on alone.
def Meets (r : Run) (i : Invocation) : Prop :=
  ∃ n, (r.drive n).1.invocation? = some i

theorem Meets.of_move {r r' : Run} {e : Option Event} {i : Invocation}
    (h : r.move = some (r', e)) (meets : r'.Meets i) : r.Meets i := by
  have ⟨n, hn⟩ := meets
  exact ⟨n + 1, by rw [drive, h]; exact hn⟩

-- How a run tells what it has come to.
def closingDetail (steps : Nat) : Except Error Unit → Event.Detail
  | .ok () => .runCompleted steps
  | .error e => .runFailed e.message

-- The kinds of moves, each with the event that it makes known.
inductive Moves : Run → Option Event → Run → Prop
  | begins {p clock c} :
    Moves ⟨p, clock, c, .ready⟩ (some ⟨c.runId, .runStarted c.input⟩)
      ⟨p, clock, c, .entering p.root⟩
  | enters {p clock c id node} (known : p.node? id = some node) :
    Moves ⟨p, clock, c, .entering id⟩
      (some ⟨c.runId, .stepStarted node.step.name node.step.kind⟩)
      ⟨p, clock, c, .invoking id node.step⟩
  | misses {p clock c id} (unknown : p.node? id = none) :
    Moves ⟨p, clock, c, .entering id⟩ none
      ⟨p, clock, c, .closing (.error (.step id.text "node not found in plan"))⟩
  | refuses {p clock c id step e} (h : Invocation.Refuses ⟨id, step, c⟩ e) :
    Moves ⟨p, clock, c, .invoking id step⟩ none ⟨p, clock, c, .closing (.error e)⟩
  | decides {p clock c id step key} (began ended : Instant)
    (h : Invocation.Decides ⟨id, step, c⟩ (some key)) (filled : Text.isBlank key = false) :
    Moves ⟨p, clock, c, .invoking id step⟩ none
      ⟨p, clock, c.routed began ended step.name key,
        .recorded (.routeDecided step.name key) (follow p id step.name key)⟩
  | produces {p clock c id step output} (began ended : Instant)
    (h : Invocation.Produces ⟨id, step, c⟩ output) :
    Moves ⟨p, clock, c, .invoking id step⟩ none
      ⟨p, clock, c.acted began ended step.name (output.filter (!·.isNull)),
        .recorded (.actionCompleted step.name (output.filter (!·.isNull)).isSome)
          (.ok (p.next? id))⟩
  | tells {p clock c detail next} :
    Moves ⟨p, clock, c, .recorded detail next⟩ (some ⟨c.runId, detail⟩) ⟨p, clock, c, onward next⟩
  | closes {p clock c result} :
    Moves ⟨p, clock, c, .closing result⟩
      (some ⟨c.runId, closingDetail c.records.length result⟩) ⟨p, clock, c, .finished result⟩

section Moves

variable {r r₁ r₂ : Run} {e : Option Event}

theorem moves_of_invoke {p : Plan} {clock : Clock} {c : Context} {id : NodeId} {step : Step}
    (h : invoke ⟨p, clock, c, .invoking id step⟩ id step = some r) :
    Moves ⟨p, clock, c, .invoking id step⟩ none r := by
  cases step with
  | router name decide =>
    simp only [invoke] at h
    cases reply : decide c.workingInput c with
    | pending  => simp [reply] at h
    | failed e =>
      simp only [reply, Option.some.injEq] at h
      exact h ▸ .refuses (.failed reply)
    | done answer =>
      simp only [reply, Option.some.injEq] at h
      cases answer with
      | none     => exact h ▸ .refuses (.undetermined reply rfl)
      | some key =>
        cases blank : Text.isBlank key <;> simp only [decided, blank] at h
        case true  => exact h ▸ .refuses (.undetermined reply (by simpa using blank))
        case false => exact h ▸ .decides _ _ reply blank
  | action name act =>
    simp only [invoke] at h
    cases reply : act c.workingInput c with
    | pending  => simp [reply] at h
    | failed e =>
      simp only [reply, Option.some.injEq] at h
      exact h ▸ .refuses (.failed reply)
    | done answer =>
      simp only [reply, Option.some.injEq] at h
      exact h ▸ .produces _ _ reply

theorem moves_of_move (h : r₁.move = some (r₂, e)) : Moves r₁ e r₂ := by
  obtain ⟨p, clock, c, phase⟩ := r₁
  cases phase with
  | ready => cases h; exact .begins
  | entering id =>
    cases known : p.node? id with
    | none => simp only [move, known] at h; cases h; exact .misses known
    | some => simp only [move, known] at h; cases h; exact .enters known
  | invoking id step =>
    obtain ⟨r, hr, eq⟩ := Option.map_eq_some_iff.mp h
    cases eq
    exact moves_of_invoke hr
  | recorded detail next => cases h; exact .tells
  | closing result =>
    cases h
    cases result <;> exact .closes
  | finished result => cases h

theorem Moves.plan_eq (moves : Moves r₁ e r₂) : r₂.plan = r₁.plan := by
  cases moves <;> rfl

theorem Moves.clock_eq (moves : Moves r₁ e r₂) : r₂.clock = r₁.clock := by
  cases moves <;> rfl

theorem Moves.runId_eq (moves : Moves r₁ e r₂) : r₂.context.runId = r₁.context.runId := by
  cases moves <;> rfl

theorem Moves.input_eq (moves : Moves r₁ e r₂) : r₂.context.input = r₁.context.input := by
  cases moves <;> rfl

-- A run goes on when its step answers.
theorem move_ne_none_of_answers {i : Invocation} (invokes : r.invocation? = some i)
    (h : i.Answers) : r.move ≠ none := by
  obtain ⟨p, clock, c, phase⟩ := r
  cases phase <;> cases invokes
  case invoking id step =>
    cases step with
    | router _ decide =>
      cases reply : decide c.workingInput c with
      | pending       => exact absurd reply h
      | failed | done => simp [move, invoke, reply]
    | action _ act =>
      cases reply : act c.workingInput c with
      | pending       => exact absurd reply h
      | failed | done => simp [move, invoke, reply]

-- A run that can make no move has come to its end, or a step waits.
theorem result?_isSome_or_invocation?_isSome (h : r.move = none) :
    r.result?.isSome ∨ r.invocation?.isSome := by
  obtain ⟨p, clock, c, phase⟩ := r
  cases phase with
  | ready | recorded | closing => cases h
  | entering id => cases known : p.node? id <;> simp [move, known] at h
  | invoking    => exact .inr rfl
  | finished    => exact .inl rfl

end Moves

theorem drive_of_move {r r' : Run} {e : Option Event} {n : Nat}
    (h : (r.drive n).1.move = some (r', e)) :
    r.drive (n + 1) = (r', (r.drive n).2 ++ e.toList) := by
  induction n generalizing r with
  | zero =>
    simp only [drive] at h
    simp [drive, h]
  | succ n ih =>
    rw [drive] at h ⊢
    cases first : r.move with
    | none => simp [first] at h
    | some m =>
      simp only [first] at h ⊢
      rw [ih h, drive, first]
      simp

inductive Course (r : Run) : Run → Type
  | rest : Course r r
  | move {r₁ r₂ e} : Course r r₁ → r₁.move = some (r₂, e) → Course r r₂
  | fire {r₁} : Course r r₁ → Course r r₁.cancel

namespace Course

variable {r' : Run}

def events {r' : Run} : Course r r' → List Event
  | rest                    => []
  | @move _ _ _ e course _  => course.events ++ e.toList
  | fire course             => course.events

def invocations {r' : Run} : Course r r' → List Invocation
  | rest                    => []
  | @move _ r₁ _ _ course _ => course.invocations ++ r₁.invocation?.toList
  | fire course             => course.invocations

-- The number of moves.
def length {r' : Run} : Course r r' → Nat
  | rest          => 0
  | move course _ => course.length + 1
  | fire course   => course.length

-- How often the token has fired.
def fires {r' : Run} : Course r r' → Nat
  | rest          => 0
  | move course _ => course.fires
  | fire course   => course.fires + 1

def append {r₁ r₂ : Run} (course : Course r r₁) : Course r₁ r₂ → Course r r₂
  | rest         => course
  | move later h => (course.append later).move h
  | fire later   => (course.append later).fire

theorem invocations_move {r₁ : Run} {e : Option Event} {course : Course r r₁}
    {h : r₁.move = some (r', e)} :
    (course.move h).invocations = course.invocations ++ r₁.invocation?.toList :=
  rfl

theorem fires_append {r₁ r₂ : Run} (course : Course r r₁) (later : Course r₁ r₂) :
    (course.append later).fires = course.fires + later.fires := by
  induction later with
  | rest        => rfl
  | move _ _ ih => exact ih
  | fire _ ih   => simp only [append, fires, ih, Nat.add_assoc]

theorem events_append {r₁ r₂ : Run} (course : Course r r₁) (later : Course r₁ r₂) :
    (course.append later).events = course.events ++ later.events := by
  induction later with
  | rest        => simp [append, events]
  | move _ _ ih => simp only [append, events, ih, List.append_assoc]
  | fire _ ih   => exact ih

theorem plan_eq (course : Course r r') : r'.plan = r.plan := by
  induction course with
  | rest        => rfl
  | move _ h ih => exact (moves_of_move h).plan_eq.trans ih
  | fire _ ih   => exact ih

theorem clock_eq (course : Course r r') : r'.clock = r.clock := by
  induction course with
  | rest        => rfl
  | move _ h ih => exact (moves_of_move h).clock_eq.trans ih
  | fire _ ih   => exact ih

theorem runId_eq (course : Course r r') : r'.context.runId = r.context.runId := by
  induction course with
  | rest        => rfl
  | move _ h ih => exact (moves_of_move h).runId_eq.trans ih
  | fire _ ih   => simpa [cancel, Context.fire_token] using ih

theorem input_eq (course : Course r r') : r'.context.input = r.context.input := by
  induction course with
  | rest        => rfl
  | move _ h ih => exact (moves_of_move h).input_eq.trans ih
  | fire _ ih   => simpa [cancel, Context.fire_token] using ih

-- A run that moves on alone takes a course. It makes all of its moves unless it can make no more.
theorem exists_drive (n : Nat) (course : Course r r') :
    ∃ course' : Course r (r'.drive n).1,
      course'.events = course.events ++ (r'.drive n).2 ∧
      course'.fires = course.fires ∧
      (∀ i ∈ course'.invocations, i ∈ course.invocations ∨ r'.Meets i) ∧
      (course'.length = course.length + n ∨ (r'.drive n).1.move = none) := by
  induction n generalizing r' with
  | zero => exact ⟨course, by simp [drive], rfl, fun _ => .inl, .inl rfl⟩
  | succ n ih =>
    rw [drive]
    cases h : r'.move with
    | none   => exact ⟨course, by simp, rfl, fun _ => .inl, .inr h⟩
    | some m =>
      obtain ⟨course', events, fires, invocations, length⟩ := ih (course.move h)
      refine ⟨course', by simp [events, Course.events], fires, fun i hi => ?_, ?_⟩
      · cases invocations i hi with
        | inr later => exact .inr <| .of_move h later
        | inl hi =>
          cases List.mem_append.mp hi with
          | inl hi  => exact .inl hi
          | inr now => exact .inr ⟨0, Option.mem_toList.mp now⟩
      · exact length.imp_left fun length => by rw [length, Course.length]; omega

-- A course without fires is the way that a run takes when it moves on alone.
theorem drive_eq (course : Course r r') (alone : course.fires = 0) :
    r.drive course.length = (r', course.events) := by
  induction course with
  | rest => rfl
  | @move r₁ r₂ e course h ih =>
    have before : r.drive course.length = (r₁, course.events) := ih alone
    have next : (r.drive course.length).1.move = some (r₂, e) := before ▸ h
    rw [length, drive_of_move next, before, events]
  | fire _ _ => cases alone

theorem exists_driveCancelling (n : Nat) (r : Run) :
    ∃ course : Course r (r.driveCancelling n).1, course.events = (r.driveCancelling n).2 := by
  have ⟨course, events, _⟩ := exists_drive n (.rest (r := r))
  have ⟨course', events', _⟩ := exists_drive n course.fire
  simp only [Course.events, List.nil_append] at events
  simp only [Course.events, events] at events'
  cases finished : (r.drive n).1.result?.isSome with
  | true =>
    have alone : r.driveCancelling n = r.drive n := by simp [driveCancelling, finished]
    exact alone ▸ ⟨course, events⟩
  | false =>
    have fired : r.driveCancelling n =
        (((r.drive n).1.cancel.drive n).1, (r.drive n).2 ++ ((r.drive n).1.cancel.drive n).2) := by
      simp [driveCancelling, finished]
    exact fired ▸ ⟨course', events'⟩

end Course
end Run

theorem Plan.exists_course_execute (p : Plan) (clock : Clock) (c : Context) (n : Nat) :
    ∃ course : Run.Course (.start p clock c) (p.execute clock c n).1,
      course.events = (p.execute clock c n).2 := by
  have ⟨course, events, _⟩ := Run.Course.exists_drive n (.rest (r := .start p clock c))
  exact ⟨course, events⟩

namespace Run.Course

variable {p : Plan} {clock : Clock} {c : Context} {r : Run}

-- What the token does before a run begins it might as well do right after.
theorem exists_course_entering (course : Course (.start p clock c) r) :
    (r.phase = .ready ∧ course.events = [] ∧
      ∃ later : Course ⟨p, clock, c, .entering p.root⟩ { r with phase := .entering p.root },
        later.fires = course.fires ∧ later.events = []) ∨
    ∃ later : Course ⟨p, clock, c, .entering p.root⟩ r, later.fires = course.fires ∧
      course.events = ⟨c.runId, .runStarted c.input⟩ :: later.events := by
  induction course with
  | rest => exact .inl ⟨rfl, rfl, .rest, rfl, rfl⟩
  | move course m ih =>
    cases ih with
    | inl ih =>
      have ⟨ready, events, later, fires, quiet⟩ := ih
      have plan := course.plan_eq
      have runId := course.runId_eq
      have input := course.input_eq
      cases moves_of_move m <;> cases ready
      cases plan
      refine .inr ⟨later, fires, ?_⟩
      rw [Course.events, events, quiet, runId, input]
      rfl
    | inr ih =>
      have ⟨later, fires, events⟩ := ih
      exact .inr ⟨later.move m, fires, by rw [Course.events, events, Course.events]; rfl⟩
  | fire course ih =>
    cases ih with
    | inl ih =>
      have ⟨ready, events, later, fires, quiet⟩ := ih
      exact .inl ⟨ready, events, later.fire, congrArg (· + 1) fires, quiet⟩
    | inr ih =>
      have ⟨later, fires, events⟩ := ih
      exact .inr ⟨later.fire, congrArg (· + 1) fires, events⟩

end Run.Course

namespace Plan

-- A run of the plan from `c` comes to its end with a result and a context and has made known the
-- events, while its token has fired a number of times.
def Yields (p : Plan) (clock : Clock) (c : Context) (fires : Nat) (events : List Event)
    (result : Except Error Unit) (c' : Context) : Prop :=
  ∃ (r : Run) (course : Run.Course (.start p clock c) r),
    course.fires = fires ∧ course.events = events ∧ r.result? = some result ∧ r.context = c'

theorem yields_zero_iff {p : Plan} {clock : Clock} {c c' : Context} {events : List Event}
    {result : Except Error Unit} : p.Yields clock c 0 events result c' ↔
      ∃ n, (p.execute clock c n).1.result? = some result ∧ (p.execute clock c n).1.context = c' ∧
        (p.execute clock c n).2 = events := by
  constructor
  case mp =>
    rintro ⟨r, course, alone, rfl, finished, rfl⟩
    refine ⟨course.length, ?_⟩
    simp [execute, course.drive_eq alone, finished]
  case mpr =>
    rintro ⟨n, finished, rfl, rfl⟩
    have ⟨course, events, fires, _⟩ := Run.Course.exists_drive n (.rest (r := .start p clock c))
    exact ⟨_, course, fires, events, finished, rfl⟩

end Plan
end RoutingPlan
