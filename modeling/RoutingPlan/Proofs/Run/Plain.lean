import RoutingPlan.Proofs.Run.Audit
import RoutingPlan.Proofs.Run.Resemblance
import RoutingPlan.Proofs.Run.Route

-- Null is as good as no output, and a blank route key as good as none. A plan runs as if its steps
-- left out both (`Run.move_plain`), so plans whose steps differ in nothing else run alike. What a
-- step consumes is what an earlier one has left to it, and none comes after one that refuses to go
-- on.

namespace RoutingPlan

open Json (Value)

namespace Reply

variable {α : Type}

def plain (silent : α → Bool) : Reply (Option α) → Reply (Option α)
  | done answer => done (answer.filter (!silent ·))
  | reply       => reply

-- The same answer, or two answers that both say nothing.
inductive Agrees (silent : α → Bool) : Reply (Option α) → Reply (Option α) → Prop
  | same {reply} : Agrees silent reply reply
  | silent {answer answer'} (h : answer.all silent) (h' : answer'.all silent) :
    Agrees silent (.done answer) (.done answer')

variable {silent : α → Bool} {reply reply' : Reply (Option α)}

theorem filter_eq_none_of_all {answer : Option α} (h : answer.all silent) :
    answer.filter (!silent ·) = none := by
  cases answer with
  | none   => rfl
  | some a => simpa using h

theorem Agrees.plain_eq (agrees : Agrees silent reply reply') :
    reply'.plain silent = reply.plain silent := by
  cases agrees with
  | same        => rfl
  | silent h h' => rw [plain, plain, filter_eq_none_of_all h, filter_eq_none_of_all h']

end Reply

namespace Step

def plain : Step → Step
  | .router name decide => .router name fun input c => (decide input c).plain Text.isBlank
  | .action name act    => .action name fun input c => (act input c).plain Value.isNull

inductive Agrees : Step → Step → Prop
  | router {name decide decide'}
    (h : ∀ input c, (decide input c).Agrees Text.isBlank (decide' input c)) :
    Agrees (.router name decide) (.router name decide')
  | action {name act act'} (h : ∀ input c, (act input c).Agrees Value.isNull (act' input c)) :
    Agrees (.action name act) (.action name act')

variable {step step' : Step}

theorem Agrees.plain_eq (agrees : step.Agrees step') : step'.plain = step.plain := by
  cases agrees <;> simp only [plain, (‹∀ _ _, Reply.Agrees ..› _ _).plain_eq]

theorem name_plain : step.plain.name = step.name := by
  cases step <;> rfl

theorem kind_plain : step.plain.kind = step.kind := by
  cases step <;> rfl

end Step

namespace Plan

def Node.plain (node : Node) : Node :=
  { node with step := node.step.plain }

def plain (p : Plan) : Plan :=
  { p with nodes := p.nodes.map Node.plain }

-- The same plan but for what its steps answer, and they agree on that.
structure Agrees (p p' : Plan) : Prop where
  nodes    : List.Forall₂ (fun n n' => n'.id = n.id ∧ n'.key = n.key ∧ n.step.Agrees n'.step)
    p.nodes p'.nodes
  root     : p'.root = p.root
  branches : p'.branches = p.branches
  chain    : p'.chain = p.chain

variable {p p' : Plan}

theorem node?_plain {id : NodeId} : p.plain.node? id = (p.node? id).map Node.plain := by
  simp [node?, plain]

theorem Agrees.plain_eq (agrees : p.Agrees p') : p'.plain = p.plain := by
  have nodes : p'.nodes.map Node.plain = p.nodes.map Node.plain := by
    have nodes := agrees.nodes
    generalize p.nodes = ns, p'.nodes = ns' at nodes
    induction nodes with
    | nil => rfl
    | cons same _ ih =>
      have ⟨id, key, step⟩ := same
      rw [List.map_cons, List.map_cons, ih, Node.plain, Node.plain, id, key, step.plain_eq]
  rw [plain, plain, nodes, agrees.root, agrees.branches, agrees.chain]

end Plan

namespace Run

def Phase.plain : Phase → Phase
  | invoking id step => invoking id step.plain
  | phase            => phase

def plain (r : Run) : Run :=
  { r with plan := r.plan.plain, phase := r.phase.plain }

variable {p p' : Plan} {clock : Clock} {c c' : Context} {r r' s : Run} {e : Option Event}

theorem result?_plain : r.plain.result? = r.result? := by
  obtain ⟨p, clock, c, phase⟩ := r
  cases phase <;> rfl

theorem context_plain : r.plain.context = r.context :=
  rfl

theorem plain_cancel : r.cancel.plain = r.plain.cancel :=
  rfl

theorem decided_plain {id : NodeId} {name : String} {answer : Option String} :
    r.plain.decided id name (answer.filter (!Text.isBlank ·)) =
      (r.decided id name answer).plain := by
  cases answer with
  | none     => rfl
  | some key =>
    cases blank : Text.isBlank key with
    | true  =>
      rw [Option.filter_some_neg (by simp [blank])]
      simp only [decided, blank, if_true]
      rfl
    | false =>
      rw [Option.filter_some_pos (by simp [blank])]
      simp only [decided, blank, Bool.false_eq_true, if_false]
      rfl

theorem acted_plain {id : NodeId} {name : String} {output : Option Value} :
    r.plain.acted id name (output.filter (!·.isNull)) = (r.acted id name output).plain := by
  simp only [acted, Option.filter_filter, Bool.and_self]
  rfl

theorem invoke_plain {id : NodeId} {step : Step} :
    r.plain.invoke id step.plain = (r.invoke id step).map plain := by
  cases step with
  | router name decide =>
    simp only [Step.plain, invoke]
    rw [context_plain]
    cases decide r.context.workingInput r.context with
    | pending | failed => rfl
    | done answer      => exact congrArg some decided_plain
  | action name act =>
    simp only [Step.plain, invoke]
    rw [context_plain]
    cases act r.context.workingInput r.context with
    | pending | failed => rfl
    | done output      => exact congrArg some acted_plain

-- A move does not tell apart what the steps leave out and what it leaves out itself.
theorem move_plain : r.plain.move = r.move.map fun m => (m.1.plain, m.2) := by
  obtain ⟨p, clock, c, phase⟩ := r
  cases phase with
  | ready | finished => rfl
  | recorded _ next =>
    match next with
    | .ok (some _) | .ok none | .error _ => rfl
  | closing result => cases result <;> rfl
  | entering id =>
    cases known : p.node? id <;>
      simp [move, plain, Phase.plain, Plan.node?_plain, known, Plan.Node.plain, Step.name_plain,
        Step.kind_plain, event]
  | invoking id step =>
    let r : Run := ⟨p, clock, c, .invoking id step⟩
    calc (r.plain.invoke id step.plain).map (·, none)
      _ = ((r.invoke id step).map plain).map (·, none) := by rw [invoke_plain]
      _ = r.move.map fun m => (m.1.plain, m.2)         := by
        simp only [move, r, Option.map_map]
        rfl

theorem drive_plain {n : Nat} : r.plain.drive n = ((r.drive n).1.plain, (r.drive n).2) := by
  induction n generalizing r with
  | zero => rfl
  | succ n ih =>
    rw [drive, drive, move_plain]
    cases r.move with
    | none   => rfl
    | some m => simp [ih]

theorem execute_eq_of_plain_eq (same : p'.plain = p.plain) (n : Nat) :
    (p'.execute clock c n).1.result? = (p.execute clock c n).1.result? ∧
      (p'.execute clock c n).1.context = (p.execute clock c n).1.context ∧
      (p'.execute clock c n).2 = (p.execute clock c n).2 := by
  have driven (p : Plan) : (start p.plain clock c).drive n =
      ((p.execute clock c n).1.plain, (p.execute clock c n).2) :=
    drive_plain (r := start p clock c)
  have ⟨run, events⟩ := Prod.mk.inj <| (driven p').symm.trans <| same ▸ driven p
  refine ⟨?_, ?_, events⟩
  · rw [← result?_plain, run, result?_plain]
  · rw [← context_plain, run, context_plain]

-- What a run does, any run with the same plain form does too.
theorem exists_move_of_plain_eq (same : r'.plain = r.plain) (h : r.move = some (s, e)) :
    ∃ s', r'.move = some (s', e) ∧ s'.plain = s.plain := by
  have moved := move_plain (r := r')
  rw [same, move_plain, h, Option.map_some] at moved
  obtain ⟨⟨s', e'⟩, h', eq⟩ := Option.map_eq_some_iff.mp moved.symm
  obtain ⟨plain, rfl⟩ := Prod.mk.inj eq
  exact ⟨s', h', plain⟩

theorem yields_of_plain_eq (same : p'.plain = p.plain) {fires : Nat} {events : List Event}
    {result : Except Error Unit} (yields : p.Yields clock c fires events result c') :
    p'.Yields clock c fires events result c' := by
  obtain ⟨r, course, rfl, rfl, finished, rfl⟩ := yields
  have start : (start p' clock c).plain = (start p clock c).plain :=
    congrArg (Run.mk · clock c .ready) same
  have followed := course.exists_followed
    (T := fun r r' => r'.plain = r.plain) (D := fun _ _ => False)
    (fun same h => (exists_move_of_plain_eq same h).imp fun _ => .imp_right .inl)
    (fun same => by rw [plain_cancel, same, plain_cancel]) start
  obtain ⟨r', course', same, fires, events⟩ | ⟨_, _, _, _, parted, _⟩ := followed
  case inr => exact parted.elim
  case inl =>
    refine ⟨r', course', fires, events, ?_, ?_⟩
    · rw [← result?_plain, same, result?_plain, finished]
    · rw [← context_plain, same, context_plain]

end Run

namespace Invocation

-- What an action leaves to the steps after it.
def output? (i : Invocation) : Option Value :=
  match i.step with
  | .router .. => none
  | .action _ act =>
    match act i.context.workingInput i.context with
    | .done output         => output.filter (!·.isNull)
    | .pending | .failed _ => none

variable {i : Invocation} {answer : Option String} {output : Option Value} {e e' : Error}

theorem output?_ne_null : i.output? ≠ some .null := by
  obtain ⟨id, step, c⟩ := i
  cases step with
  | router => nofun
  | action name act =>
    simp only [output?]
    cases act c.workingInput c with
    | pending | failed => nofun
    | done output      => simp [Option.filter_eq_some_iff, Value.isNull]

theorem getD_newest_ne_null {is : List Invocation} {v : Value} (h : v ≠ .null) :
    (is.filterMap output?).getLast?.getD v ≠ .null := by
  cases newest : (is.filterMap output?).getLast? with
  | none   => exact h
  | some w =>
    have ⟨i, _, produced⟩ := List.mem_filterMap.mp (List.mem_of_getLast? newest)
    rintro rfl
    exact output?_ne_null produced

theorem Fails.output?_eq (h : i.Fails e) : i.output? = none := by
  obtain ⟨id, step, c⟩ := i
  cases step with
  | router => rfl
  | action name act =>
    have fails : act c.workingInput c = .failed e := h
    simp only [output?, fails]

theorem Decides.output?_eq (h : i.Decides answer) : i.output? = none := by
  obtain ⟨id, step, c⟩ := i
  cases step with
  | router => rfl
  | action => exact h.elim

theorem Produces.output?_eq (h : i.Produces output) : i.output? = output.filter (!·.isNull) := by
  obtain ⟨id, step, c⟩ := i
  cases step with
  | router => exact h.elim
  | action name act =>
    have produces : act c.workingInput c = .done output := h
    simp only [output?, produces]

theorem Refuses.output?_eq (h : i.Refuses e) : i.output? = none := by
  cases h with
  | failed fails         => exact fails.output?_eq
  | undetermined decides => exact decides.output?_eq

theorem Fails.deterministic (h : i.Fails e) (h' : i.Fails e') : e = e' := by
  obtain ⟨id, step, c⟩ := i
  cases step <;> exact Reply.failed.inj <| h.symm.trans h'

theorem Refuses.deterministic (h : i.Refuses e) (h' : i.Refuses e') : e = e' := by
  cases h with
  | failed fails =>
    cases h' with
    | failed fails'        => exact fails.deterministic fails'
    | undetermined decides => exact absurd fails decides.not_fails
  | undetermined decides =>
    cases h' with
    | failed fails => exact absurd fails decides.not_fails
    | undetermined => rfl

end Invocation

namespace Run

variable {p p' : Plan} {clock : Clock} {c : Context} {r r' : Run} {e : Option Event}
  {before after : List Invocation} {i : Invocation}

theorem workingInput_cancel : r.cancel.context.workingInput = r.context.workingInput := by
  rw [cancel, Context.fire_token]
  rfl

theorem context_of_invocation? (h : r.invocation? = some i) : i.context = r.context := by
  obtain ⟨p, clock, c, phase⟩ := r
  cases phase <;> cases h
  rfl

theorem Moves.workingInput_eq (moves : Moves r e r') :
    r'.context.workingInput =
      (r.invocation?.bind Invocation.output?).getD r.context.workingInput := by
  cases moves with
  | begins | enters | misses | tells | closes => rfl
  | refuses h => simp [invocation?, h.output?_eq]
  | decides began ended h =>
    simp only [invocation?, Option.bind_some, h.output?_eq]
    exact Context.workingInput_pushRecord
  | produces began ended h =>
    simp only [invocation?, Option.bind_some, h.output?_eq]
    exact Context.workingInput_pushRecord

theorem Moves.of_refuses {error : Error} (moves : Moves r e r') (h : r.invocation? = some i)
    (refuses : i.Refuses error) :
    r'.context = r.context ∧ r'.phase = .closing (.error error) := by
  cases moves with
  | begins | enters | misses | tells | closes => cases h
  | refuses refuses' =>
    cases h
    exact ⟨rfl, by rw [refuses.deterministic refuses']⟩
  | decides _ _ decides filled =>
    cases h
    exact absurd refuses (decides.not_refuses filled)
  | produces _ _ produces =>
    cases h
    exact absurd refuses produces.not_refuses

theorem Moves.of_closing {result : Except Error Unit} (moves : Moves r e r')
    (h : r.phase = .closing result ∨ r.phase = .finished result) :
    r'.context = r.context ∧ r'.phase = .finished result := by
  cases moves <;> cases h <;> cases ‹_ = _›
  exact ⟨rfl, rfl⟩

namespace Course

-- What a step consumes is the newest output of the steps before it, or else what the first step
-- consumes.
theorem workingInput_eq (course : Course (.start p clock c) r) :
    r.context.workingInput =
      (course.invocations.filterMap Invocation.output?).getLast?.getD c.workingInput := by
  induction course with
  | rest => rfl
  | @move r₁ _ _ course m ih =>
    rw [(moves_of_move m).workingInput_eq, ih, invocations_move, List.filterMap_append]
    cases r₁.invocation? with
    | none   => simp
    | some i => cases h : i.output? <;> simp [h]
  | fire _ ih => exact workingInput_cancel.trans ih

-- A run that has made an invocation has been about to make it.
theorem exists_invocation? (course : Course r r')
    (split : course.invocations = before ++ i :: after) :
    ∃ (r₁ : Run) (course₁ : Course r r₁),
      course₁.invocations = before ∧ r₁.invocation? = some i := by
  induction course generalizing before i after with
  | rest => cases before <;> cases split
  | @move r₁ _ _ course m ih =>
    rw [invocations_move] at split
    cases h : r₁.invocation? with
    | none =>
      rw [h, Option.toList_none, List.append_nil] at split
      exact ih split
    | some j =>
      rw [h] at split
      exact Context.forall_split_concat (fun _ _ _ => ih) ⟨r₁, course, rfl, h⟩ _ _ _ split
  | fire _ ih => exact ih split

theorem workingInput_eq_of_invocations (course : Course (.start p clock c) r)
    (split : course.invocations = before ++ i :: after) :
    i.context.workingInput =
      (before.filterMap Invocation.output?).getLast?.getD c.workingInput := by
  obtain ⟨r₁, course₁, rfl, h⟩ := course.exists_invocation? split
  rw [context_of_invocation? h]
  exact course₁.workingInput_eq

-- A step that refuses to go on is the last one that its run invokes, and leaves nothing behind.
theorem last_of_refuses {error : Error} (course : Course r r')
    (split : course.invocations = before ++ i :: after) (refuses : i.Refuses error) :
    after = [] ∧ (∃ token, r'.context = i.context.withToken token) ∧
      (r'.phase = .closing (.error error) ∨ r'.phase = .finished (.error error)) := by
  induction course generalizing after with
  | rest => cases before <;> cases split
  | @move r₁ r₂ _ course m ih =>
    rw [invocations_move] at split
    cases h : r₁.invocation? with
    | none =>
      rw [h, Option.toList_none, List.append_nil] at split
      have ⟨last, ⟨token, same⟩, phase⟩ := ih split
      have ⟨context, phase⟩ := (moves_of_move m).of_closing phase
      exact ⟨last, ⟨token, context.trans same⟩, .inr phase⟩
    | some j =>
      rw [h] at split
      cases after using List.reverseRecOn with
      | nil =>
        have ⟨_, eq⟩ := List.append_inj' split rfl
        cases eq
        have ⟨context, phase⟩ := (moves_of_move m).of_refuses h refuses
        exact ⟨rfl, ⟨_, context.trans (context_of_invocation? h).symm⟩, .inl phase⟩
      | append_singleton after k =>
        rw [← List.cons_append, ← List.append_assoc] at split
        have ⟨_, _, phase⟩ := ih (List.append_inj' split rfl).left
        rw [phase_of_invocation? h] at phase
        cases phase <;> contradiction
  | @fire r₁ course ih =>
    have ⟨last, ⟨token, same⟩, phase⟩ := ih split
    refine ⟨last, ⟨{ r₁.context.token with fired := true }, ?_⟩, phase⟩
    rw [cancel, Context.fire_token, same]
    rfl

end Course

-- Runs of plans that agree do not differ. What an action leaves out does not become the input of a
-- later step, and a blank route key leads nowhere, whatever the branch tables hold.
theorem runs_agree (agrees : p.Agrees p') (clock : Clock) (c : Context) :
    (∀ n,
      (p'.execute clock c n).1.result? = (p.execute clock c n).1.result? ∧
      (p'.execute clock c n).1.context = (p.execute clock c n).1.context ∧
      (p'.execute clock c n).2 = (p.execute clock c n).2) ∧
    (∀ fires events result c', p.Yields clock c fires events result c' ↔
      p'.Yields clock c fires events result c') ∧
    ∀ r (course : Course (.start p clock c) r) before i after,
      course.invocations = before ++ i :: after →
        i.context.workingInput =
          (before.filterMap Invocation.output?).getLast?.getD c.workingInput ∧
        (c.workingInput ≠ .null → i.context.workingInput ≠ .null) ∧
        ∀ answer, i.Decides answer → answer.all Text.isBlank →
          after = [] ∧ (∃ token, r.context = i.context.withToken token) ∧
          (r.phase = .closing (.error (.undeterminedRoute i.step.name)) ∨
            r.phase = .finished (.error (.undeterminedRoute i.step.name))) := by
  have same : p'.plain = p.plain := agrees.plain_eq
  refine ⟨fun n => ?_, fun _ _ _ _ => ⟨yields_of_plain_eq same, yields_of_plain_eq same.symm⟩,
    fun r course before i after split => ?_⟩
  · exact execute_eq_of_plain_eq same n
  · have input := course.workingInput_eq_of_invocations split
    exact ⟨input, fun filled => input ▸ Invocation.getD_newest_ne_null filled,
      fun answer decides blank => course.last_of_refuses split (.undetermined decides blank)⟩

-- The gate has a branch for the blank route key, and it leads back to the bell.
def porch (ring : Option Value) (key : Option String) : Plan.Builder :=
  let (bell, b) := Plan.Builder.empty.addStep <| .action "bell" fun _ _ => .done ring
  let (gate, b) := b.addStep <| .router "gate" fun _ _ => .done key
  let b := (b.branch gate " " bell).2
  b.chainTo bell gate

theorem runs_agree_porch :
    let p := (porch (some .null) (some " ")).draft
    let p' := (porch none none).draft
    let clock : Clock := fun _ => (⟨0, 0⟩, ⟨0, 0⟩)
    let c : Context := ⟨⟨"run"⟩, .string "knock", none, none, [], [], ⟨0, 0⟩, ⟨0, false⟩⟩
    p.Agrees p' ∧ p.branch? ⟨1⟩ " " = some ⟨0⟩ ∧
      (p.execute clock c 9).1.result? = some (.error (.undeterminedRoute "gate")) ∧
      (p'.execute clock c 9).1.result? = some (.error (.undeterminedRoute "gate")) ∧
      ∀ r (course : Course (.start p clock c) r) before i after,
        course.invocations = before ++ i :: after → i.context.workingInput ≠ .null ∧
          (i.id = ⟨1⟩ → after = []) := by
  intro p p' clock c
  have agrees : p.Agrees p' := by
    refine ⟨?_, rfl, rfl, rfl⟩
    have bell : Step.Agrees (.action "bell" fun _ _ => .done (some .null))
        (.action "bell" fun _ _ => .done none) :=
      .action fun _ _ => .silent rfl rfl
    have gate : Step.Agrees (.router "gate" fun _ _ => .done (some " "))
        (.router "gate" fun _ _ => .done none) :=
      .router fun _ _ => .silent rfl rfl
    exact .cons ⟨rfl, rfl, bell⟩ (.cons ⟨rfl, rfl, gate⟩ .nil)
  have ⟨alike, _, later⟩ := runs_agree agrees clock c
  have finished : (p.execute clock c 9).1.result? = some (.error (.undeterminedRoute "gate")) := by
    decide +kernel
  refine ⟨agrees, rfl, finished, (alike 9).left.trans finished, ?_⟩
  intro r course before i after split
  have ⟨_, filled, blank⟩ := later r course before i after split
  refine ⟨filled nofun, fun gate => (blank (some " ") ?_ rfl).left⟩
  have ⟨node, known, step⟩ := course.node?_of_mem_invocations (i := i) (by simp [split])
  rw [gate] at known
  cases known
  rw [Invocation.Decides, ← step]

end Run
end RoutingPlan
