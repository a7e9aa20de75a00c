import RoutingPlan.Proofs.Run.Route

-- The events of a run: they are determined by the records that it adds, by its result and, if that
-- is an error, by whether the step that the run invoked last has left a record.

namespace RoutingPlan

open Event (Detail)

-- What is made known of a step that leaves this record.
def Record.details (x : Record) : List Detail :=
  match x.routeKey with
  | some key => [.stepStarted x.step .router, .routeDecided x.step key]
  | none     => [.stepStarted x.step .action, .actionCompleted x.step x.output.isSome]

namespace Run

-- What is made known of a run from `c` up to the last of the records that it adds.
def account (c : Context) (new : List Record) : List Detail :=
  .runStarted c.input :: new.flatMap Record.details

theorem account_concat {c : Context} {new : List Record} {x : Record} :
    account c (new ++ [x]) = account c new ++ x.details := by
  simp [account]

-- How a run ends. The last list is what has been made known of a step without a record.
inductive Ends (p : Plan) (records : List Record) (invocations : List Invocation) :
    Except Error Unit → List Detail → Prop
  | completed : Ends p records invocations (.ok ()) []
  | refused {i e} (last : invocations.getLast? = some i) (refuses : i.Refuses e)
    (unrecorded : records = i.context.records) :
    Ends p records invocations (.error e) [.stepStarted i.step.name i.step.kind]
  | stranded {i x key e} (last : invocations.getLast? = some i) (decides : i.Decides (some key))
    (filled : Text.isBlank key = false) (recorded : records = i.context.records ++ [x])
    (routed : x.step = i.step.name ∧ x.routeKey = some key)
    (nowhere : follow p i.id i.step.name key = .error e)
    (routing : e = .routerHasNoBranches i.step.name ∨ e = .unmatchedRouteKey i.step.name key) :
    Ends p records invocations (.error e) []

theorem Ends.ne_nil_iff {p : Plan} {records : List Record} {invocations : List Invocation}
    {result : Except Error Unit} {unrecorded : List Detail}
    (ends : Ends p records invocations result unrecorded) :
    unrecorded ≠ [] ↔
      ∃ e i, result = .error e ∧ invocations.getLast? = some i ∧ i.Refuses e := by
  cases ends with
  | completed => simp
  | refused last refuses => simpa [last] using refuses
  | stranded last decides filled => simpa [last] using decides.not_refuses filled

-- What a run from `c` has made known when it has come to a phase.
def Told (p : Plan) (c : Context) (new : List Record) (invocations : List Invocation)
    (details : List Detail) : Phase → Prop
  | .ready => new = [] ∧ details = []
  | .entering _ => details = account c new
  | .invoking _ step => details = account c new ++ [.stepStarted step.name step.kind]
  | .recorded detail next =>
    details ++ [detail] = account c new ∧
      ∀ e, next = .error e → Ends p (c.records ++ new) invocations (.error e) []
  | .closing result =>
    ∃ unrecorded, details = account c new ++ unrecorded ∧
      Ends p (c.records ++ new) invocations result unrecorded
  | .finished result =>
    ∃ unrecorded, Ends p (c.records ++ new) invocations result unrecorded ∧
      details = account c new ++ unrecorded ++ [closingDetail (c.records ++ new).length result]

variable {p : Plan} {clock : Clock} {c : Context} {r r' : Run} {e : Option Event}
  {new : List Record} {invocations : List Invocation} {details : List Detail}

theorem eq_of_follow_eq_error {id : NodeId} {name key : String} {e : Error}
    (h : follow p id name key = .error e) :
    e = .routerHasNoBranches name ∨ e = .unmatchedRouteKey name key := by
  unfold follow at h
  split at h
  case h_1 | h_2 => cases h; exact .inl rfl
  case h_3 =>
    split at h
    case h_1 => cases h
    case h_2 => cases h; exact .inr rfl

theorem Moves.told (moves : Moves r e r') (plan : r.plan = p)
    (known : ∀ id, r.upcoming? = some id → ∃ node, p.node? id = some node)
    (input : r.context.input = c.input) (records : r.context.records = c.records ++ new)
    (told : Told p c new invocations details r.phase) :
    ∃ new', r'.context.records = c.records ++ new' ∧
      Told p c new' (invocations ++ r.invocation?.toList)
        (details ++ e.toList.map (·.detail)) r'.phase := by
  subst plan
  cases moves with
  | begins =>
    obtain ⟨rfl, rfl⟩ := told
    exact ⟨[], records, congrArg (fun input => [Detail.runStarted input]) input⟩
  | enters =>
    subst told
    exact ⟨new, records, rfl⟩
  | misses unknown =>
    have ⟨_, h⟩ := known _ rfl
    exact nomatch unknown.symm.trans h
  | refuses h =>
    subst told
    exact ⟨new, records, _, by simp, .refused List.getLast?_concat h records.symm⟩
  | @decides _ _ now _ step key began ended h filled =>
    let x : Record := .routed step.name began ended now.workingInput key
    have recorded : c.records ++ (new ++ [x]) = now.records ++ [x] := by
      rw [← List.append_assoc, ← records]
    refine ⟨new ++ [x], recorded.symm, ?_, fun e nowhere => ?_⟩
    · subst told
      simp [account_concat, Record.details, x, Record.routed, show step.kind = _ from h.kind]
    · exact .stranded List.getLast?_concat h filled recorded ⟨rfl, rfl⟩ nowhere
        (eq_of_follow_eq_error nowhere)
  | @produces _ _ now _ step output began ended h =>
    let x : Record := .acted step.name began ended now.workingInput (output.filter (!·.isNull))
    have recorded : c.records ++ (new ++ [x]) = now.records ++ [x] := by
      rw [← List.append_assoc, ← records]
    refine ⟨new ++ [x], recorded.symm, ?_, fun e nowhere => nomatch nowhere⟩
    subst told
    simp [account_concat, Record.details, x, Record.acted, show step.kind = _ from h.kind]
  | @tells _ _ _ _ next =>
    obtain ⟨told, ends⟩ := told
    refine ⟨new, records, ?_⟩
    simp only [invocation?, Option.toList_none, List.append_nil]
    cases next with
    | error e => exact ⟨[], by simpa using told, ends e rfl⟩
    | ok next =>
      cases next with
      | none   => exact ⟨[], by simpa using told, .completed⟩
      | some _ => exact told
  | closes =>
    obtain ⟨unrecorded, rfl, ends⟩ := told
    refine ⟨new, records, unrecorded, ?_, by simp [← records]⟩
    simpa [invocation?] using ends

theorem Moves.runId_eq_of_event (moves : Moves r e r') {event : Event} (h : e = some event) :
    event.runId = r.context.runId := by
  cases moves <;> cases h <;> rfl

namespace Course

theorem runId_of_mem_events (course : Course (.start p clock c) r) {e : Event}
    (h : e ∈ course.events) : e.runId = c.runId := by
  induction course with
  | rest => cases h
  | move course m ih =>
    cases List.mem_append.mp h with
    | inl h => exact ih h
    | inr h =>
      exact ((moves_of_move m).runId_eq_of_event <| Option.mem_toList.mp h).trans course.runId_eq
  | fire _ ih => exact ih h

theorem map_detail_events (course : Course (.start p clock c) r) :
    (course.events.map (·.detail)).map (Event.mk c.runId) = course.events := by
  have own : ∀ e ∈ course.events, Event.mk c.runId e.detail = e := fun e h => by
    rw [← course.runId_of_mem_events h]
  rw [List.map_map]
  exact (List.map_congr_left own).trans (List.map_id _)

theorem told (sound : p.Sound) (course : Course (.start p clock c) r) :
    ∃ new, r.context.records = c.records ++ new ∧
      Told p c new course.invocations (course.events.map (·.detail)) r.phase := by
  induction course with
  | rest => exact ⟨[], (List.append_nil _).symm, rfl, rfl⟩
  | move course m ih =>
    have ⟨new, records, told⟩ := ih
    have known := fun id h => Plan.exists_node_of_lt <| course.lt_nodeCount sound (x := id) h
    have ⟨new', records', told'⟩ :=
      (moves_of_move m).told course.plan_eq known course.input_eq records told
    refine ⟨new', records', ?_⟩
    rwa [events, List.map_append]
  | fire _ ih =>
    have ⟨new, records, told⟩ := ih
    exact ⟨new, by simpa [cancel, Context.fire_token] using records, told⟩

theorem ends (sound : p.Sound) (course : Course (.start p clock c) r) {result : Except Error Unit}
    (finished : r.result? = some result) :
    ∃ new unrecorded, r.context.records = c.records ++ new ∧
      Ends p r.context.records course.invocations result unrecorded ∧
      course.events.map (·.detail) =
        account c new ++ unrecorded ++ [closingDetail r.context.records.length result] := by
  have ⟨new, records, told⟩ := course.told sound
  rw [phase_of_result? finished] at told
  have ⟨unrecorded, ends, details⟩ := told
  rw [← records] at ends details
  exact ⟨new, unrecorded, records, ends, details⟩

-- A step is made known without a record if and only if it ended the run by itself.
theorem events_of_build {b : Plan.Builder} {root : NodeId} {result : Except Error Unit}
    (built : b.build root = .ok p) (course : Course (.start p clock c) r)
    (finished : r.result? = some result) :
    ∃ new unrecorded,
      r.context.records = c.records ++ new ∧
      course.events = (.runStarted c.input :: new.flatMap Record.details ++ unrecorded ++
        [closingDetail (c.records.length + new.length) result]).map (Event.mk c.runId) ∧
      Ends p r.context.records course.invocations result unrecorded ∧
      (unrecorded ≠ [] ↔ ∃ e i, result = .error e ∧ course.invocations.getLast? = some i ∧
        i.Refuses e) ∧
      r.move = none := by
  have ⟨new, unrecorded, records, ends, details⟩ := course.ends (Plan.sound_of_build built) finished
  have stopped : r.move = none := by rw [Run.move, phase_of_result? finished]
  refine ⟨new, unrecorded, records, ?_, ends, ends.ne_nil_iff, stopped⟩
  rw [← course.map_detail_events, details, records, List.length_append]
  rfl

end Course

-- An action that waits for its run to be cancelled, and after it a router without branches.
def waiting : Plan.Builder :=
  let (wait, b) := Plan.Builder.empty.addStep <| .action "wait" fun _ c =>
    if c.isCancelled then .done (some (.string "late")) else .pending
  let (desk, b) := b.addStep <| .router "desk" fun input _ => .done (some input.text)
  b.chainTo wait desk

-- A run that is cancelled when it waits.
def cancelled (p : Plan) : Run × List Event :=
  (start p (fun _ => (⟨0, 0⟩, ⟨0, 0⟩))
    ⟨⟨"run"⟩, .string "sales", none, none, [], [], ⟨0, 0⟩, ⟨0, false⟩⟩).driveCancelling p.moves

theorem events_waiting :
    ∃ (p : Plan) (new : List Record) (unrecorded : List Detail), waiting.build ⟨0⟩ = .ok p ∧
      (cancelled p).1.result? = some (.error (.routerHasNoBranches "desk")) ∧
      new.map (·.step) = ["wait", "desk"] ∧
      (cancelled p).2 = (Detail.runStarted (.string "sales") :: new.flatMap Record.details ++
        unrecorded ++ [Detail.runFailed "Router desk has no registered children"]).map
          (Event.mk ⟨"run"⟩) := by
  have ⟨p, built, finished, steps⟩ : ∃ p, waiting.build ⟨0⟩ = .ok p ∧
      (cancelled p).1.result? = some (.error (.routerHasNoBranches "desk")) ∧
      (cancelled p).1.context.records.map (·.step) = ["wait", "desk"] :=
    ⟨_, rfl, by decide +kernel, by decide +kernel⟩
  have ⟨course, events⟩ : ∃ course : Course _ (cancelled p).1, course.events = (cancelled p).2 :=
    Course.exists_driveCancelling ..
  have ⟨new, unrecorded, records, told, _⟩ := course.events_of_build built finished
  have new_steps := (congrArg (List.map (·.step)) records).symm.trans steps
  exact ⟨p, new, unrecorded, built, finished, new_steps, events ▸ told⟩

end Run
end RoutingPlan
