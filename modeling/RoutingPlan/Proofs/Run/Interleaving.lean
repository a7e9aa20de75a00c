import Mathlib.Data.List.Induction
import RoutingPlan.Proofs.Run.Drive
import RoutingPlan.Proofs.Run.Protocol
import RoutingPlan.Proofs.Run.Termination

-- Runs of one plan that take turns, move by move and in any order, and make their events known in
-- one place. Each of them comes as far as it would have come alone with as many moves, and what it
-- has told can be told apart by its name.

namespace RoutingPlan

-- Runs side by side, and all that they have made known.
structure Ensemble where
  runs   : List Run
  events : List Event

namespace Ensemble

-- A run from each context, before the first move.
def start (p : Plan) (clocks : Nat → Clock) (contexts : List Context) : Ensemble :=
  ⟨contexts.mapIdx fun i c => .start p (clocks i) c, []⟩

-- The turn of the `i`-th run: one move, if it can make one.
def turn (e : Ensemble) (i : Nat) : Ensemble :=
  match e.runs[i]?.bind Run.move with
  | some (r, event) => ⟨e.runs.set i r, e.events ++ event.toList⟩
  | none            => e

def turns (e : Ensemble) (schedule : List Nat) : Ensemble :=
  schedule.foldl turn e

-- What the run of the given name has made known.
def eventsOf (e : Ensemble) (id : RunId) : List Event :=
  e.events.filter (·.runId = id)

variable {p : Plan} {clocks : Nat → Clock} {contexts : List Context} {schedule : List Nat}
  {c : Context} {e : Ensemble} {r r' : Run} {event : Option Event} {i j : Nat}

theorem turn_of_move (h : e.runs[i]? = some r) (move : r.move = some (r', event)) :
    e.turn i = ⟨e.runs.set i r', e.events ++ event.toList⟩ := by
  simp [turn, h, move]

theorem turn_of_stuck (stuck : ∀ r, e.runs[i]? = some r → r.move = none) : e.turn i = e := by
  rw [turn]
  cases h : e.runs[i]? with
  | none   => rfl
  | some r => simp [stuck r h]

theorem turns_concat : e.turns (schedule ++ [i]) = (e.turns schedule).turn i := by
  rw [turns, List.foldl_append]
  rfl

-- Every run has come as far as it comes alone with as many moves as the schedule has turns for it,
-- and has told what it tells alone.
structure Independent (p : Plan) (clocks : Nat → Clock) (contexts : List Context)
    (schedule : List Nat) (e : Ensemble) : Prop where
  runs   : ∀ i, e.runs[i]? =
    contexts[i]?.map fun c => (p.execute (clocks i) c (schedule.count i)).1
  events : ∀ i c, contexts[i]? = some c →
    e.eventsOf c.runId = (p.execute (clocks i) c (schedule.count i)).2

theorem independent_start : (start p clocks contexts).Independent p clocks contexts [] where
  runs i       := by simp [start, List.getElem?_mapIdx, Plan.execute, Run.drive]
  events _ _ _ := rfl

theorem runId_ne_of_ne (distinct : (contexts.map (·.runId)).Nodup) {c c' : Context}
    (h : contexts[i]? = some c) (h' : contexts[j]? = some c') (ne : i ≠ j) :
    c.runId ≠ c'.runId := by
  intro same
  have ⟨lt, _⟩ := List.getElem?_eq_some_iff.mp h
  have inj := List.getElem?_inj (j := j) (by simpa using lt) distinct
  exact ne <| inj.mp <| by simp [h, h', same]

-- A run makes nothing known but events of its own.
theorem runId_of_move {clock : Clock} {n : Nat}
    (move : (p.execute clock c n).1.move = some (r, event)) :
    ∀ own ∈ event.toList, own.runId = c.runId := by
  intro own mem
  have ⟨course, _⟩ := p.exists_course_execute clock c n
  have named := (Run.moves_of_move move).runId_eq_of_event (Option.mem_toList.mp mem)
  exact named.trans course.runId_eq

namespace Independent

-- A turn of a run that can make no move changes nothing, here and alone.
theorem concat_of_stuck (h : e.Independent p clocks contexts schedule)
    (stuck : ∀ r, e.runs[j]? = some r → r.move = none) :
    e.Independent p clocks contexts (schedule ++ [j]) := by
  have same {i : Nat} {c : Context} (hc : contexts[i]? = some c) :
      p.execute (clocks i) c ((schedule ++ [j]).count i) =
        p.execute (clocks i) c (schedule.count i) := by
    rw [List.count_append]
    by_cases own : i = j
    case neg => simp [Ne.symm own]
    case pos =>
      subst own
      rw [List.count_singleton_self]
      exact Run.drive_eq_of_stuck (stuck _ <| by simp [h.runs, hc, Plan.execute]) (Nat.le_succ _)
  constructor
  case runs =>
    intro i
    rw [h.runs]
    exact Option.map_congr fun c hc => by rw [same hc]
  case events =>
    intro i c hc
    rw [h.events i c hc, same hc]

theorem concat_of_move (h : e.Independent p clocks contexts schedule)
    (distinct : (contexts.map (·.runId)).Nodup) (hc : contexts[j]? = some c)
    (move : (p.execute (clocks j) c (schedule.count j)).1.move = some (r', event)) :
    Independent p clocks contexts (schedule ++ [j])
      ⟨e.runs.set j r', e.events ++ event.toList⟩ := by
  have alone : p.execute (clocks j) c ((schedule ++ [j]).count j) =
      (r', (p.execute (clocks j) c (schedule.count j)).2 ++ event.toList) := by
    rw [List.count_append, List.count_singleton_self]
    exact Run.drive_of_move move
  have others {i : Nat} (ne : i ≠ j) : (schedule ++ [j]).count i = schedule.count i := by
    simp [Ne.symm ne]
  constructor
  case runs =>
    intro i
    by_cases own : i = j
    case pos =>
      subst own
      rw [List.getElem?_set_self', h.runs, hc, Option.map_some, Option.map_some, alone]
      rfl
    case neg => rw [List.getElem?_set_ne (Ne.symm own), h.runs, others own]
  case events =>
    intro i c' hc'
    rw [eventsOf, List.filter_append, ← eventsOf, h.events i c' hc']
    have named := runId_of_move move
    by_cases own : i = j
    case pos =>
      subst own
      cases hc.symm.trans hc'
      rw [alone, List.filter_eq_self.mpr (by simpa using named)]
    case neg =>
      have ne := runId_ne_of_ne distinct hc' hc own
      have none : event.toList.filter (·.runId = c'.runId) = [] := by
        apply List.filter_eq_nil_iff.mpr
        intro other mem
        simpa [named other mem] using ne.symm
      rw [none, List.append_nil, others own]

theorem turn (h : e.Independent p clocks contexts schedule)
    (distinct : (contexts.map (·.runId)).Nodup) (j : Nat) :
    (e.turn j).Independent p clocks contexts (schedule ++ [j]) := by
  cases hr : e.runs[j]? with
  | none   =>
    rw [turn_of_stuck (by simp [hr])]
    exact h.concat_of_stuck (by simp [hr])
  | some r =>
    cases move : r.move with
    | none   =>
      rw [turn_of_stuck (by simp [hr, move])]
      exact h.concat_of_stuck (by simp [hr, move])
    | some m =>
      rw [turn_of_move hr move]
      have ⟨c, hc, at'⟩ := Option.map_eq_some_iff.mp <| (h.runs j).symm.trans hr
      exact h.concat_of_move distinct hc (at' ▸ move)

theorem turns (p : Plan) (clocks : Nat → Clock) (distinct : (contexts.map (·.runId)).Nodup)
    (schedule : List Nat) :
    ((start p clocks contexts).turns schedule).Independent p clocks contexts schedule := by
  induction schedule using List.reverseRecOn with
  | nil => exact independent_start
  | append_singleton schedule j ih =>
    rw [turns_concat]
    exact ih.turn distinct j

end Independent

-- Runs that take turns do not disturb one another. At every point a run has come as far as it comes
-- alone, and has told the beginning of what it tells alone; and when it has finished, or has had as
-- many turns as it takes alone, it has come to the same end and has told all of it.
theorem turns_eq_execute (p : Plan) (clocks : Nat → Clock)
    (distinct : (contexts.map (·.runId)).Nodup) (schedule : List Nat) (h : contexts[i]? = some c) :
    let alone := p.execute (clocks i) c
    let e := (start p clocks contexts).turns schedule
    let taken := schedule.count i
    ∃ r, e.runs[i]? = some r ∧ alone taken = (r, e.eventsOf c.runId) ∧
      ∀ n, (alone n).1.result?.isSome →
        e.eventsOf c.runId <+: (alone n).2 ∧
        (r.result?.isSome ∨ n ≤ taken → alone n = (r, e.eventsOf c.runId)) := by
  intro alone e taken
  have ⟨runs, events⟩ := Independent.turns p clocks distinct schedule
  refine ⟨(alone taken).1, by rw [runs, h, Option.map_some], ?_⟩
  rw [events i c h]
  refine ⟨rfl, fun n finished => ?_⟩
  have stuck := Run.move_eq_none_of_result? finished
  constructor
  case left =>
    cases Nat.le_total taken n with
    | inl le => exact Run.events_drive_prefix le
    | inr le =>
      have same : alone taken = alone n := Run.drive_eq_of_stuck stuck le
      exact same ▸ List.prefix_rfl
  case right =>
    intro ended
    cases ended with
    | inl finished' => exact Run.drive_eq_of_finished finished finished'
    | inr le        => exact (Run.drive_eq_of_stuck stuck le).symm

def caller (name request : String) : Context :=
  { runId     := ⟨name⟩
    input     := .string request
    output    := none
    routeKey  := none
    records   := []
    history   := []
    startedAt := ⟨0, 0⟩
    token     := ⟨0, false⟩ }

-- Two callers in the lobby, of whom the second one finds no way on, and their turns.
def callers : List Context :=
  [caller "first" "on", caller "second" "off"]

def shifts : List Nat :=
  [0, 1, 0, 1, 1, 1, 0, 1]

def noon : Clock := fun _ =>
  (⟨0, 0⟩, ⟨0, 0⟩)

-- The second one is done before the first one has got any further than to the desk.
theorem turns_callers :
    let e := (start Run.lobby.draft (fun _ => noon) callers).turns shifts
    (callers.map (·.runId)).Nodup ∧ callers[1]? = some (caller "second" "off") ∧
      ∃ r, e.runs[1]? = some r ∧
        r.result? = some (.error (.unmatchedRouteKey "desk" "off")) ∧
        (e.eventsOf ⟨"second"⟩).map (·.detail.name) =
          ["run_started", "step_started", "route_decided", "run_failed"] := by
  have distinct : (callers.map (·.runId)).Nodup := by
    decide
  have second : callers[1]? = some (caller "second" "off") :=
    rfl
  have ⟨r, runs, alone, _⟩ :=
    turns_eq_execute Run.lobby.draft (fun _ => noon) distinct shifts second
  have ends : ((Run.lobby.draft.execute noon (caller "second" "off") (shifts.count 1)).1.result?,
      (Run.lobby.draft.execute noon (caller "second" "off") (shifts.count 1)).2.map
        (·.detail.name)) =
      (some (.error (.unmatchedRouteKey "desk" "off")),
        ["run_started", "step_started", "route_decided", "run_failed"]) := by
    decide +kernel
  rw [alone] at ends
  have ⟨result, told⟩ := Prod.mk.inj ends
  exact ⟨distinct, second, r, runs, result, told⟩

end Ensemble
end RoutingPlan
