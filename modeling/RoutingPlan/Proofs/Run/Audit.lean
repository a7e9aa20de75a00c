import Mathlib.Data.List.Forall2
import Mathlib.Data.List.Induction
import RoutingPlan.Plan.Builder
import RoutingPlan.Proofs.Run.Course

-- The audit trail of a run: what its invocations leave in the context, and which values go from one
-- step to the next. Nothing of it hangs on the plan, so it holds on every course of every run.

namespace RoutingPlan

open Json (Value)

-- What is given by the newest element of a list that gives anything, or else the old value.
inductive Newest {α β : Type} (gives : α → β → Prop) (old : β) : List α → β → Prop
  | given {older newer a b} (given : gives a b) (silent : ∀ x ∈ newer, ∀ b, ¬gives x b) :
    Newest gives old (older ++ a :: newer) b
  | kept {xs} (silent : ∀ x ∈ xs, ∀ b, ¬gives x b) : Newest gives old xs old

namespace Newest

variable {α β : Type} {gives : α → β → Prop} {old b : β} {a : α} {xs : List α}

theorem concat_given (h : gives a b) : Newest gives old (xs ++ [a]) b :=
  .given h nofun

theorem concat_silent (h : Newest gives old xs b) (silent : ∀ b, ¬gives a b) :
    Newest gives old (xs ++ [a]) b := by
  have extend {ys : List α} (h : ∀ x ∈ ys, ∀ b, ¬gives x b) : ∀ x ∈ ys ++ [a], ∀ b, ¬gives x b :=
    List.forall_mem_append.mpr ⟨h, List.forall_mem_singleton.mpr silent⟩
  cases h with
  | kept h => exact .kept (extend h)
  | given given h =>
    rw [List.append_assoc]
    exact .given given (extend h)

end Newest

namespace Record

-- The record of a decision.
def IsRouted (x : Record) : Prop :=
  x.output = none ∧ ∃ key, x.routeKey = some key ∧ Text.isBlank key = false

-- The record of an action, whose output is never null.
def IsActed (x : Record) : Prop :=
  x.routeKey = none ∧ x.output ≠ some .null

end Record

namespace Context

-- What a step consumes after the given records: the newest output among them, or else the input.
def Consumes (input : Value) : List Record → Value → Prop :=
  Newest (·.output = some ·) input

-- `c'` has come from `c` in a run that added the records `new`. Its token is the same one, even if
-- it has fired in the meantime; and unless `c` had an output of its own, an output of `c'` is what
-- the next step would consume.
structure Audited (c : Context) (new : List Record) (c' : Context) : Prop where
  records   : c'.records = c.records ++ new
  inputs    : ∀ before x after, new = before ++ x :: after →
    Consumes c.input (c.records ++ before) x.input
  forms     : ∀ x ∈ new, x.IsRouted ∨ x.IsActed
  output    : c'.output = ((new.filter (·.routeKey.isNone)).getLast?.map (·.output)).getD c.output
  routeKey  : c'.routeKey = (new.filterMap (·.routeKey)).getLast?.or c.routeKey
  runId     : c'.runId = c.runId
  input     : c'.input = c.input
  history   : c'.history = c.history
  startedAt : c'.startedAt = c.startedAt
  token     : c'.token = c.token ∨ c'.token = { c.token with fired := true }
  newest    : c.output = none → ∀ v, c'.output = some v → c'.workingInput = v

variable {c c' : Context} {new : List Record} {x : Record}

theorem consumes_workingInput : Consumes c.input c.records c.workingInput := by
  cases h : c.records.reverse.findSome? (·.output) with
  | none =>
    rw [workingInput, h]
    refine .kept fun y hy v => ?_
    simp [List.findSome?_eq_none_iff.mp h y (List.mem_reverse.mpr hy)]
  | some v =>
    obtain ⟨newer, x, older, split, produced, silent⟩ := List.findSome?_eq_some_iff.mp h
    have records : c.records = older.reverse ++ x :: newer.reverse := by
      simpa using congrArg List.reverse split
    rw [workingInput, h, records]
    refine .given produced fun y hy v => ?_
    simp [silent y (List.mem_reverse.mp hy)]

theorem workingInput_pushRecord : (c.pushRecord x).workingInput = x.output.getD c.workingInput := by
  cases h : x.output <;> simp [workingInput, pushRecord, h]

theorem audited_refl : Audited c [] c where
  records   := (List.append_nil _).symm
  inputs    := by simp
  forms     := by simp
  output    := rfl
  routeKey  := rfl
  runId     := rfl
  input     := rfl
  history   := rfl
  startedAt := rfl
  token     := .inl rfl
  newest    := fun none v some => nomatch none.symm.trans some

theorem forall_split_concat {α : Type} {P : List α → α → Prop} {l : List α} {a : α}
    (old : ∀ before x after, l = before ++ x :: after → P before x) (new : P l a) :
    ∀ before x after, l ++ [a] = before ++ x :: after → P before x := by
  intro before x after split
  cases after using List.reverseRecOn with
  | nil =>
    have ⟨hl, ha⟩ := List.append_inj' split rfl
    cases ha
    exact hl ▸ new
  | append_singleton after b =>
    rw [← List.cons_append, ← List.append_assoc] at split
    exact old before x after (List.append_inj' split rfl).left

namespace Audited

-- One more record: a decision leaves the output as it is, and an action the route key.
theorem push (h : Audited c new c') (form : x.IsRouted ∨ x.IsActed)
    (input : x.input = c'.workingInput) :
    Audited c (new ++ [x])
      { c' with
        output   := if x.routeKey.isNone then x.output else c'.output
        routeKey := x.routeKey.or c'.routeKey
        records  := c'.records ++ [x] } where
  records   := by simp [h.records]
  inputs    := by
    refine forall_split_concat h.inputs ?_
    rw [input, ← h.records, ← h.input]
    exact consumes_workingInput
  forms     := by
    intro y hy
    cases List.mem_append.mp hy
    case inl hy => exact h.forms y hy
    case inr hy => exact List.mem_singleton.mp hy ▸ form
  output    := by
    cases key : x.routeKey with
    | none   => simp [key]
    | some _ => simp [key, h.output]
  routeKey  := by
    cases key : x.routeKey with
    | none   => simp [key, h.routeKey]
    | some _ => simp [key]
  runId     := h.runId
  input     := h.input
  history   := h.history
  startedAt := h.startedAt
  token     := h.token
  newest    := by
    intro none v some
    refine workingInput_pushRecord (c := c').trans ?_
    cases form with
    | inl routed =>
      have ⟨silent, key, hk, _⟩ := routed
      simp only [hk] at some
      rw [silent]
      exact h.newest none v some
    | inr acted =>
      simp only [acted.left] at some
      simp [show x.output = _ from some]

theorem routed {name key : String} (h : Audited c new c') (began ended : Instant)
    (filled : Text.isBlank key = false) :
    Audited c (new ++ [.routed name began ended c'.workingInput key])
      (c'.routed began ended name key) :=
  h.push (.inl ⟨rfl, key, rfl, filled⟩) rfl

theorem acted {name : String} {output : Option Value} (h : Audited c new c')
    (began ended : Instant) (value : output ≠ some .null) :
    Audited c (new ++ [.acted name began ended c'.workingInput output])
      (c'.acted began ended name output) :=
  h.push (.inr ⟨rfl, value⟩) rfl

theorem fire (h : Audited c new c') : Audited c new (c'.fire c'.token.id) := by
  rw [fire_token]
  exact { h with
    token := by
      cases h.token with
      | inl same | inr fired => simp [*]
    newest := h.newest }

end Audited
end Context

namespace Invocation

-- The output that an action leaves behind. Null is as good as none.
def PutsOut (i : Invocation) (output : Option Value) : Prop :=
  ∃ answer, i.Produces answer ∧ output = answer.filter (!·.isNull)

-- The route key that a router leaves behind.
def Routes (i : Invocation) (routeKey : Option String) : Prop :=
  ∃ key, i.Decides (some key) ∧ Text.isBlank key = false ∧ routeKey = some key

-- The record that an invocation leaves behind, whatever the times.
inductive Leaves (i : Invocation) : Record → Prop
  | routed {key} (began ended : Instant) (decides : i.Decides (some key))
    (filled : Text.isBlank key = false) :
    Leaves i (.routed i.step.name began ended i.context.workingInput key)
  | acted {answer} (began ended : Instant) (produces : i.Produces answer) :
    Leaves i (.acted i.step.name began ended i.context.workingInput (answer.filter (!·.isNull)))

variable {i : Invocation} {answer output : Option Value} {decision routeKey : Option String}
  {e : Error}

namespace Leaves

variable {x : Record}

theorem routes {key : String} (h : i.Leaves x) (routed : x.routeKey = some key) :
    i.Routes (some key) := by
  cases h with
  | routed _ _ decides filled => exact ⟨_, decides, filled, routed.symm⟩
  | acted                     => cases routed

theorem putsOut (h : i.Leaves x) (acted : x.routeKey = none) : i.PutsOut x.output := by
  cases h with
  | routed             => cases acted
  | acted _ _ produces => exact ⟨_, produces, rfl⟩

end Leaves

theorem Decides.not_putsOut (h : i.Decides decision) : ¬i.PutsOut output :=
  fun ⟨_, produces, _⟩ => produces.not_decides h

theorem Produces.not_routes (h : i.Produces answer) : ¬i.Routes routeKey :=
  fun ⟨_, decides, _⟩ => h.not_decides decides

theorem Refuses.not_putsOut (h : i.Refuses e) : ¬i.PutsOut output :=
  fun ⟨_, produces, _⟩ => produces.not_refuses h

theorem Refuses.not_routes (h : i.Refuses e) : ¬i.Routes routeKey :=
  fun ⟨_, decides, filled, _⟩ => decides.not_refuses filled h

end Invocation

namespace Run

-- The result that a run has come to, told or not.
def Phase.outcome? : Phase → Option (Except Error Unit)
  | .closing result | .finished result => some result
  | _ => none

-- Every invocation has left one record behind, but for a last one that has ended the run.
def Recorded (new : List Record) (invocations : List Invocation) (phase : Phase) : Prop :=
  ∃ completed refused, invocations = completed ++ Option.toList refused ∧
    List.Forall₂ Invocation.Leaves completed new ∧
    ∀ i ∈ refused, ∃ e, i.Refuses e ∧ phase.outcome? = some (.error e)

namespace Recorded

variable {new : List Record} {invocations : List Invocation} {phase phase' : Phase}
  {i : Invocation} {x : Record}

theorem all (h : List.Forall₂ Invocation.Leaves invocations new) : Recorded new invocations phase :=
  ⟨invocations, none, (List.append_nil _).symm, h, nofun⟩

-- As long as a run goes on, no step has refused.
section GoesOn

variable (h : Recorded new invocations phase) (goesOn : phase.outcome? = none)

include h goesOn

theorem forall₂_leaves : List.Forall₂ Invocation.Leaves invocations new := by
  obtain ⟨completed, refused, rfl, leaves, ended⟩ := h
  cases refused with
  | none   => rwa [Option.toList_none, List.append_nil]
  | some i =>
    have ⟨_, _, ended⟩ := ended i rfl
    exact nomatch goesOn.symm.trans ended

theorem quiet : Recorded new invocations phase' :=
  .all <| h.forall₂_leaves goesOn

theorem concat (leaves : i.Leaves x) : Recorded (new ++ [x]) (invocations ++ [i]) phase' :=
  .all <| List.rel_append (h.forall₂_leaves goesOn) (.cons leaves .nil)

theorem concat_refused {e : Error} (refuses : i.Refuses e) :
    Recorded new (invocations ++ [i]) (.closing (.error e)) := by
  refine ⟨invocations, some i, rfl, h.forall₂_leaves goesOn, ?_⟩
  rintro _ ⟨⟩
  exact ⟨e, refuses, rfl⟩

end GoesOn
end Recorded

-- What a run from `c` has to show for its invocations.
structure Logged (c : Context) (new : List Record) (invocations : List Invocation) (r : Run) :
    Prop where
  audited  : c.Audited new r.context
  recorded : Recorded new invocations r.phase
  output   : Newest Invocation.PutsOut c.output invocations r.context.output
  routeKey : Newest Invocation.Routes c.routeKey invocations r.context.routeKey

variable {p : Plan} {clock : Clock} {c now : Context} {new : List Record} {r r' : Run}
  {invocations : List Invocation} {phase phase' : Phase}

-- A move that invokes no step leaves everything as it is.
theorem Logged.quiet (h : Logged c new invocations ⟨p, clock, now, phase⟩)
    (recorded : Recorded new invocations phase') :
    ∃ added, Logged c (new ++ added) (invocations ++ []) ⟨p, clock, now, phase'⟩ := by
  refine ⟨[], ?_⟩
  rw [List.append_nil, List.append_nil]
  exact { h with recorded }

theorem Moves.logged {e : Option Event} (moves : Moves r e r') (h : Logged c new invocations r) :
    ∃ added, Logged c (new ++ added) (invocations ++ r.invocation?.toList) r' := by
  cases moves with
  | decides began ended decides filled =>
    exact ⟨_, {
      audited  := h.audited.routed began ended filled
      recorded := h.recorded.concat rfl (.routed began ended decides filled)
      output   := h.output.concat_silent fun _ => decides.not_putsOut
      routeKey := .concat_given ⟨_, decides, filled, rfl⟩ }⟩
  | @produces _ _ _ _ _ answer began ended produces =>
    have value : answer.filter (!·.isNull) ≠ some .null := by
      simp [Option.filter_eq_some_iff, Value.isNull]
    exact ⟨_, {
      audited  := h.audited.acted began ended value
      recorded := h.recorded.concat rfl (.acted began ended produces)
      output   := .concat_given ⟨answer, produces, rfl⟩
      routeKey := h.routeKey.concat_silent fun _ => produces.not_routes }⟩
  | refuses refuses =>
    refine ⟨[], ?_⟩
    rw [List.append_nil]
    exact {
      audited  := h.audited
      recorded := h.recorded.concat_refused rfl refuses
      output   := h.output.concat_silent fun _ => refuses.not_putsOut
      routeKey := h.routeKey.concat_silent fun _ => refuses.not_routes }
  | begins | enters | misses | tells => exact h.quiet (h.recorded.quiet rfl)
  | closes => exact h.quiet h.recorded

theorem Logged.fire (h : Logged c new invocations r) : Logged c new invocations r.cancel where
  audited  := h.audited.fire
  recorded := h.recorded
  output   := by simpa [cancel, Context.fire_token] using h.output
  routeKey := by simpa [cancel, Context.fire_token] using h.routeKey

namespace Course

theorem exists_logged (course : Course (.start p clock c) r) :
    ∃ new, Logged c new course.invocations r := by
  induction course with
  | rest => exact ⟨[], Context.audited_refl, .all .nil, .kept nofun, .kept nofun⟩
  | move _ m ih =>
    have ⟨new, logged⟩ := ih
    have ⟨added, logged⟩ := (moves_of_move m).logged logged
    exact ⟨new ++ added, logged⟩
  | fire _ ih =>
    have ⟨new, logged⟩ := ih
    exact ⟨new, logged.fire⟩

-- A run keeps one record for each invocation that completes, in their order, and its output and its
-- route key are those of the newest of them. Only the last invocation can leave no record.
theorem audited_invocations (course : Course (.start p clock c) r) :
    ∃ new completed refused,
      c.Audited new r.context ∧
      course.invocations = completed ++ Option.toList refused ∧
      List.Forall₂ Invocation.Leaves completed new ∧
      (∀ i ∈ refused, ∃ e, i.Refuses e ∧
        ∀ result, r.result? = some result → result = .error e) ∧
      Newest Invocation.PutsOut c.output course.invocations r.context.output ∧
      Newest Invocation.Routes c.routeKey course.invocations r.context.routeKey := by
  have ⟨new, logged⟩ := course.exists_logged
  have ⟨completed, refused, split, leaves, refuses⟩ := logged.recorded
  refine ⟨new, completed, refused, logged.audited, split, leaves, fun i hi => ?_, logged.output,
    logged.routeKey⟩
  have ⟨e, refuses, ended⟩ := refuses i hi
  refine ⟨e, refuses, fun result finished => ?_⟩
  rw [phase_of_result? finished] at ended
  exact Option.some.inj ended

end Course

-- The porter has answered before, and this time there is no answer on the way to a locked vault.
def foyer : Plan.Builder :=
  let (desk, b) := Plan.Builder.empty.addStep <| .router "desk" fun _ _ => .done (some "vault")
  let (porter, b) := b.addStep <| .action "porter" fun _ _ => .done (some .null)
  let (vault, b) := b.addStep <| .action "vault" fun _ _ => .failed (.step "vault" "locked")
  (b.branch desk "vault" porter).2.chainTo porter vault

theorem audited_invocations_foyer :
    let now : Instant := ⟨0, 0⟩
    let answer : Value := .string "good day"
    let porter : Record := .acted "porter" now now (.string "hello") (some answer)
    let c : Context :=
      ⟨⟨"run"⟩, .string "hello", some answer, some "door", [porter], [], now, ⟨0, false⟩⟩
    ∃ (p : Plan) (r : Run) (course : Course (.start p (fun _ => (now, now)) c) r)
      (desk silent : Invocation) (refused : Option Invocation),
      foyer.build ⟨0⟩ = .ok p ∧
      r.result? = some (.error (.step "vault" "locked")) ∧
      r.context.records = [porter, .routed "desk" now now answer "vault",
        .acted "porter" now now answer none] ∧
      course.invocations = [desk, silent] ++ refused.toList ∧
      (∀ i ∈ refused, i.Refuses (.step "vault" "locked")) ∧
      desk.Routes (some "vault") ∧ silent.PutsOut none := by
  intro now answer porter c
  have ⟨p, built, finished, records⟩ : ∃ p, foyer.build ⟨0⟩ = .ok p ∧
      (p.execute (fun _ => (now, now)) c p.moves).1.result? =
        some (.error (.step "vault" "locked")) ∧
      (p.execute (fun _ => (now, now)) c p.moves).1.context.records =
        [porter, .routed "desk" now now answer "vault", .acted "porter" now now answer none] :=
    ⟨_, rfl, rfl, rfl⟩
  have ⟨course, _⟩ := p.exists_course_execute (fun _ => (now, now)) c p.moves
  have ⟨new, completed, refused, audited, split, leaves, refuses, _⟩ := course.audited_invocations
  obtain rfl := (List.cons.inj <| audited.records.symm.trans records).right
  obtain _ | ⟨desk, _ | ⟨silent, _ | _⟩⟩ := leaves
  refine ⟨p, _, course, _, _, refused, built, finished, records, split, fun i hi => ?_,
    desk.routes rfl, silent.putsOut rfl⟩
  have ⟨e, refuses, ended⟩ := refuses i hi
  exact Except.error.inj (ended _ finished) ▸ refuses

end Run
end RoutingPlan
