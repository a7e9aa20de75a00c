import RoutingPlan.Proofs.Definition.Violation
import RoutingPlan.Proofs.Plan.Position
import RoutingPlan.Proofs.Run.Protocol

-- What can go wrong when the plan of a definition runs. The checks made when it was assembled leave
-- a run only the errors of its steps, decisions that say nothing, and keys that no child has.

namespace RoutingPlan

open Plan

namespace Invocation

-- What makes an invocation the last one of its run, where the step is that of node `n` of a
-- definition.
inductive Causes (i : Invocation) (n : Definition) : Error → Prop
  | refuses {e} (h : i.Refuses e) : Causes i n e
  | unmatched {key} (decides : i.Decides (some key)) (filled : Text.isBlank key = false)
    (nowhere : ∀ c ∈ n.children, c.routeKey ≠ some key) :
    Causes i n (.unmatchedRouteKey i.step.name key)

-- An action that does not fail, or a router that answers the route key of a child.
inductive Served (resolve : Resolver) (d : Definition) (i : Invocation) : Prop
  | action {output} (produces : i.Produces output) : Served resolve d i
  | router {n c key} (place : (d.live resolve)[i.id.index]? = some n)
    (decides : i.Decides (some key)) (child : c ∈ n.children) (routeKey : c.routeKey = some key) :
    Served resolve d i

variable {resolve : Resolver} {d n : Definition} {i : Invocation} {e : Error}

theorem Served.not_causes (served : i.Served resolve d)
    (place : (d.live resolve)[i.id.index]? = some n) (resolved : resolve n.step = .ok i.step)
    (wellFormed : n.WellFormed resolve) : ¬i.Causes n e := by
  intro causes
  cases served with
  | action produces =>
    cases causes with
    | refuses refuses   => exact produces.not_refuses refuses
    | unmatched decides => exact produces.not_decides decides
  | @router n' c key place' decides child routeKey =>
    cases place'.symm.trans place
    have ⟨step, resolved', valid⟩ := wellFormed
    cases resolved'.symm.trans resolved
    rw [decides.kind] at valid
    have ⟨key', routeKey', filled⟩ := valid.right c child
    cases routeKey'.symm.trans routeKey
    cases causes with
    | refuses refuses => exact decides.not_refuses filled refuses
    | unmatched decides' _ nowhere =>
      cases decides.deterministic decides'
      exact nowhere c child routeKey

-- An error that no step has answered.
theorem Causes.of_not_fails (causes : i.Causes n e) (h : ¬i.Fails e) :
    e = .undeterminedRoute i.step.name ∨ ∃ key, e = .unmatchedRouteKey i.step.name key := by
  cases causes with
  | unmatched => exact .inr ⟨_, rfl⟩
  | refuses refuses =>
    cases refuses with
    | failed fails  => exact absurd fails h
    | undetermined => exact .inl rfl

end Invocation

namespace Run

variable {p : Plan} {clock : Clock} {c : Context} {r : Run} {resolve : Resolver} {d : Definition}
  {e : Error}

theorem Ends.causes {records : List Record} {invocations : List Invocation}
    {unrecorded : List Event.Detail}
    (ends : Ends p records invocations (.error e) unrecorded)
    (node : ∀ i ∈ invocations, ∃ n m, (d.live resolve)[i.id.index]? = some n ∧
      resolve n.step = .ok i.step ∧ Part p resolve n i.id.index m) :
    ∃ i n, invocations.getLast? = some i ∧ (d.live resolve)[i.id.index]? = some n ∧
      resolve n.step = .ok i.step ∧ i.Causes n e := by
  cases ends with
  | @refused i _ last refuses =>
    have ⟨n, _, place, resolved, _⟩ := node i (List.mem_of_getLast? last)
    exact ⟨i, n, last, place, resolved, .refuses refuses⟩
  | @stranded i _ key _ last decides filled _ _ nowhere =>
    have ⟨n, _, place, resolved, part⟩ := node i (List.mem_of_getLast? last)
    refine ⟨i, n, last, place, resolved, ?_⟩
    have kind : n.kind? resolve = some .router := decides.kind ▸ Definition.kind?_eq_some resolved
    by_cases child : some key ∈ n.children.map Definition.routeKey
    case pos =>
      have ⟨next, onward⟩ : ∃ next, follow p i.id i.step.name key = .ok (some next) :=
        part.follow_eq_ok kind child
      exact nomatch onward.symm.trans nowhere
    case neg =>
      cases (part.follow_eq_error kind child).symm.trans nowhere
      exact .unmatched decides filled fun c hc h => child <| List.mem_map.mpr ⟨c, hc, h⟩

namespace Course

variable (loaded : d.compile resolve = .ok p) (course : Course (.start p clock c) r)

include loaded course

-- Every step that is invoked is that of a live node.
theorem exists_live {i : Invocation} (h : i ∈ course.invocations ∨ r.Meets i) :
    ∃ n m, (d.live resolve)[i.id.index]? = some n ∧ resolve n.step = .ok i.step ∧
      Part p resolve n i.id.index m := by
  have ⟨node, known, step⟩ : ∃ node, p.node? i.id = some node ∧ node.step = i.step := by
    cases h with
    | inl before => exact course.node?_of_mem_invocations before
    | inr later =>
      have ⟨n, invokes⟩ := later
      have ⟨course', _⟩ := course.exists_drive n
      exact course'.node?_of_invoking <| phase_of_invocation? invokes
  have ⟨_, part⟩ := Definition.compile_part loaded
  exact step ▸ part.exists_live known

theorem causes (failed : r.result? = some (.error e)) :
    ∃ i n, course.invocations.getLast? = some i ∧ (d.live resolve)[i.id.index]? = some n ∧
      resolve n.step = .ok i.step ∧ i.Causes n e := by
  have ⟨_, _, _, ends, _⟩ := course.ends (sound_of_compile loaded) failed
  exact ends.causes fun _ h => course.exists_live loaded (.inl h)

theorem result?_drive {n : Nat} (enough : p.moves ≤ n)
    (served : ∀ i, i ∈ course.invocations ∨ r.Meets i → i.Served resolve d) :
    (r.drive n).1.result? = some (.ok ()) := by
  have ⟨course', _, _, invocations, _⟩ := course.exists_drive n
  have stuck : (r.drive n).1.move = none :=
    course.move_drive_eq_none (sound_of_compile loaded) (acyclic_of_compile loaded) enough
  cases result?_isSome_or_invocation?_isSome stuck with
  | inr waits =>
    have ⟨i, hi⟩ := Option.isSome_iff_exists.mp waits
    cases served i (.inr ⟨n, hi⟩) with
    | action produces  => exact absurd stuck (move_ne_none_of_answers hi produces.answers)
    | router _ decides => exact absurd stuck (move_ne_none_of_answers hi decides.answers)
  | inl finished =>
    have ⟨result, hr⟩ := Option.isSome_iff_exists.mp finished
    cases result with
    | ok => exact hr
    | error e =>
      have ⟨i, n, last, place, resolved, causes⟩ := course'.causes loaded hr
      have wellFormed := Definition.compile_eq_ok_iff.mp ⟨p, loaded⟩ n (List.mem_of_getElem? place)
      have served := served i <| invocations i <| List.mem_of_getLast? last
      exact absurd causes (served.not_causes place resolved wellFormed)

-- The run itself makes up no error but for a decision that says nothing or leads nowhere, and
-- without any of these it comes to a good end.
theorem errors_of_compile :
    (∀ e, r.result? = some (.error e) →
      ∃ i n, course.invocations.getLast? = some i ∧ (d.live resolve)[i.id.index]? = some n ∧
        resolve n.step = .ok i.step ∧ i.Causes n e) ∧
    (∀ e, r.result? = some (.error e) → (∀ i ∈ course.invocations, ¬i.Fails e) →
      (∀ name, e ≠ .routerHasNoBranches name) ∧ ∀ name, e ≠ .step name "node not found in plan") ∧
    ((∀ i, i ∈ course.invocations ∨ r.Meets i → i.Served resolve d) →
      ∀ n, p.moves ≤ n → (r.drive n).1.result? = some (.ok ())) := by
  refine ⟨fun _ => course.causes loaded, fun e failed unfailing => ?_, fun served n enough => ?_⟩
  · have ⟨i, _, last, _, _, causes⟩ := course.causes loaded failed
    cases causes.of_not_fails <| unfailing i (List.mem_of_getLast? last) with
    | inl eq => simp [eq]
    | inr eq => have ⟨_, eq⟩ := eq; simp [eq]
  · exact course.result?_drive loaded enough served

end Course
end Run

namespace Definition

-- Steps for a definition whose desk answers the same key whatever it is asked.
def answering (key : String) : Resolver := fun step =>
  if step = "desk" then .ok <| .router step fun _ _ => .done (some key)
  else .ok <| .action step fun input _ => .done (some input)

theorem served_answering {i : Invocation} {n : Definition}
    (place : (overridden.live (answering "sales"))[i.id.index]? = some n)
    (resolved : answering "sales" n.step = .ok i.step) :
    i.Served (answering "sales") overridden := by
  have sales : ∀ n ∈ overridden.live (answering "sales"), n.step = "desk" →
      ∃ c ∈ n.children, c.routeKey = some "sales" := by
    decide +kernel
  obtain ⟨id, step, c⟩ := i
  unfold answering at resolved
  split at resolved
  case isTrue desk =>
    cases resolved
    have ⟨c, child, routeKey⟩ := sales n (List.mem_of_getElem? place) desk
    exact .router place rfl child routeKey
  case isFalse =>
    cases resolved
    exact .action rfl

-- Whatever is asked, all goes well if the desk sends it on to a branch; of "bill" it knows none,
-- since that is not the route key of a child but the step of a node that does not count.
theorem errors_overridden :
    (∃ p, overridden.compile (answering "sales") = .ok p ∧
      ∀ clock c, (p.execute clock c p.moves).1.result? = some (.ok ())) ∧
    ∃ p, overridden.compile (answering "bill") = .ok p ∧
      ∃ (i : Invocation) (n : Definition),
        (overridden.live (answering "bill"))[i.id.index]? = some n ∧
          i.Causes n (.unmatchedRouteKey "desk" "bill") := by
  constructor
  · have ⟨p, loaded⟩ : ∃ p, overridden.compile (answering "sales") = .ok p := ⟨_, rfl⟩
    refine ⟨p, loaded, fun clock c => ?_⟩
    have ⟨_, _, good⟩ := Run.Course.errors_of_compile loaded (.rest (r := .start p clock c))
    refine good (fun i h => ?_) p.moves (Nat.le_refl _)
    have ⟨_, _, place, resolved, _⟩ := Run.Course.exists_live loaded .rest h
    exact served_answering place resolved
  · let clock : Clock := fun _ => (⟨0, 0⟩, ⟨0, 0⟩)
    let c : Context := ⟨⟨"run"⟩, .string "bill", none, none, [], [], ⟨0, 0⟩, ⟨0, false⟩⟩
    have result : (overridden.compile (answering "bill")).map
        (fun p => (p.execute clock c p.moves).1.result?) =
        .ok (some (.error (.unmatchedRouteKey "desk" "bill"))) := by
      decide +kernel
    have ⟨p, loaded, failed⟩ := Definition.map_eq_ok result
    have ⟨course, _⟩ := p.exists_course_execute clock c p.moves
    have ⟨causes, _⟩ := course.errors_of_compile loaded
    have ⟨i, n, _, place, _, causes⟩ := causes _ failed
    exact ⟨p, loaded, i, n, place, causes⟩

end Definition
end RoutingPlan
