import RoutingPlan.Proofs.Definition.Graft
import RoutingPlan.Proofs.Run.Resemblance

-- Running a graft is running one definition and then, if that has come to a good end, the other one
-- on the context that is left. All that one step leaves for the next is in the context, so the run
-- of the second definition cannot tell which way it has begun.

namespace RoutingPlan

namespace Plan

-- A run that nobody cancels comes to an end with a result and a context.
def Returns (p : Plan) (clock : Clock) (c : Context) (result : Except Error Unit) (c' : Context) :
    Prop :=
  ∃ n, (p.execute clock c n).1.result? = some result ∧ (p.execute clock c n).1.context = c'

-- What comes of a run of `p₁` and then, if that has come to a good end, of a run of `p₂` on the
-- context that is left. In between, neither an end nor a beginning is made known.
inductive YieldsInTurn (p₁ p₂ : Plan) (clock : Clock) (c : Context) :
    Nat → List Event → Except Error Unit → Context → Prop
  | failed {fires events e c'} (h : p₁.Yields clock c fires events (.error e) c') :
    YieldsInTurn p₁ p₂ clock c fires events (.error e) c'
  | passed {fires₁ fires₂ events₁ events₂ result c₁ c'}
    (h₁ : p₁.Yields clock c fires₁ events₁ (.ok ()) c₁)
    (h₂ : p₂.Yields clock c₁ fires₂ events₂ result c') :
    YieldsInTurn p₁ p₂ clock c (fires₁ + fires₂) (events₁.dropLast ++ events₂.tail) result c'

variable {p p₁ p₂ : Plan} {clock : Clock} {c c' : Context} {result : Except Error Unit}

theorem returns_iff_yields :
    p.Returns clock c result c' ↔ ∃ events, p.Yields clock c 0 events result c' := by
  simp only [Returns, yields_zero_iff, exists_comm (α := List Event), exists_and_left, exists_eq',
    and_true]

theorem exists_yieldsInTurn_iff :
    (∃ events, p₁.YieldsInTurn p₂ clock c 0 events result c') ↔
      (∃ error, result = .error error ∧ p₁.Returns clock c result c') ∨
        ∃ c₁, p₁.Returns clock c (.ok ()) c₁ ∧ p₂.Returns clock c₁ result c' := by
  simp only [returns_iff_yields]
  constructor
  case mp =>
    intro ⟨events, turns⟩
    generalize alone : 0 = fires at turns
    cases turns with
    | failed yields => exact .inl ⟨_, rfl, events, alone ▸ yields⟩
    | @passed fires₁ fires₂ _ _ _ c₁ _ yields₁ yields₂ =>
      obtain ⟨rfl, rfl⟩ : fires₁ = 0 ∧ fires₂ = 0 := by omega
      exact .inr ⟨c₁, ⟨_, yields₁⟩, _, yields₂⟩
  case mpr =>
    rintro (⟨error, rfl, events, yields⟩ | ⟨c₁, ⟨_, yields₁⟩, _, yields₂⟩)
    · exact ⟨events, .failed yields⟩
    · exact ⟨_, .passed yields₁ yields₂⟩

end Plan

namespace Run

open Plan Definition

variable {p p₁ p₂ : Plan} {resolve : Resolver} {d e : Definition} {clock : Clock} {c c' : Context}
  {R R₁ : NodeId → Definition → Prop}

-- Ways on below `e` grafted on a definition, and ways on in the definition itself: where there are
-- none, `e` begins.
inductive Grafted (R R₁ : NodeId → Definition → Prop) (e : Definition) :
    Option NodeId → Option NodeId → Prop
  | inside {x y d} (h : R x (d.graft e)) (h₁ : R₁ y d) : Grafted R R₁ e (some x) (some y)
  | after {x} (h : R x e) : Grafted R R₁ e (some x) none

theorem resembles_grafted (h : p.Represents resolve R) (h₁ : p₁.Represents resolve R₁) :
    Resembles p p₁ (Grafted R R₁ e) := by
  constructor
  case ends => nofun
  case node =>
    rintro x y ⟨hx, hy⟩
    have ⟨node, known, resolved⟩ := h.node x _ hx
    have ⟨node', known', resolved'⟩ := h₁.node y _ hy
    rw [step_graft] at resolved
    exact ⟨node, node', known, known', Except.ok.inj <| resolved'.symm.trans resolved⟩
  case router =>
    rintro x y node hw known kind name key
    cases hw with
    | @inside _ _ d hx hy =>
      have kind : (d.graft e).kind? resolve = some .router := kind ▸ h.kind?_eq hx known
      have kind₁ : d.kind? resolve = some .router := kind?_graft.symm.trans kind
      have ⟨t, branches, nonempty, rel⟩ := h.router x _ hx kind
      have ⟨t₁, branches₁, nonempty₁, rel₁⟩ := h₁.router y d hy kind₁
      rw [children_graft (h₁.children_ne_nil hy kind₁)] at rel
      have same := rel_trans (f := (·.graft e)) (lastWith?_graft ▸ rel key) (rel₁ key)
      exact sameWay_follow branches nonempty branches₁ nonempty₁ same
        fun _ _ ⟨_, hx, hy⟩ => .inside hx hy
  case action =>
    rintro x y node hw known kind
    cases hw with
    | @inside _ _ d hx hy =>
      have kind : (d.graft e).kind? resolve = some .action := kind ▸ h.kind?_eq hx known
      have rel := h.action x _ hx kind
      have rel₁ := h₁.action y d hy (kind?_graft.symm.trans kind)
      generalize p.next? x = o at rel ⊢
      generalize p₁.next? y = o₁ at rel₁ ⊢
      cases children : d.children with
      | nil =>
        rw [children_graft_of_nil children] at rel
        rw [children] at rel₁
        have .some h := rel
        have .none := rel₁
        exact .after h
      | cons c cs =>
        rw [children_graft (children ▸ List.cons_ne_nil c cs), children] at rel
        rw [children] at rel₁
        have .some h := rel
        have .some h₁ := rel₁
        exact .inside h h₁

-- A run that is about to come to a good end ends, and the token may fire before and after that.
theorem Course.ends_of_closing {x : NodeId} {r : Run}
    (course : Course ⟨p₁, clock, c, .closing (.ok ())⟩ r) :
    ∃ same : Course ⟨p, clock, c, .entering x⟩ ⟨p, clock, r.context, .entering x⟩,
      same.fires = course.fires ∧ same.events = [] ∧
      (r = ⟨p₁, clock, r.context, .closing (.ok ())⟩ ∧ course.events = [] ∨
        r.phase = .finished (.ok ()) ∧ ∃ last, course.events = [last]) := by
  induction course with
  | rest => exact ⟨.rest, rfl, rfl, .inl ⟨rfl, rfl⟩⟩
  | @move r₁ r₂ e course m ih =>
    have ⟨same, fires, quiet, closing⟩ := ih
    cases closing with
    | inl closing =>
      obtain ⟨here, events⟩ := closing
      rw [here] at m
      cases m
      exact ⟨same, fires, quiet, .inr ⟨rfl, _, by rw [Course.events, events]; rfl⟩⟩
    | inr closing => simp [Run.move, closing.left] at m
  | fire course ih =>
    have ⟨same, fires, quiet, closing⟩ := ih
    refine ⟨same.fire, congrArg (· + 1) fires, quiet, ?_⟩
    cases closing with
    | inl closing => exact .inl ⟨by rw [closing.left]; rfl, closing.right⟩
    | inr closing => exact .inr closing

section Turns

variable {R₂ : NodeId → Definition → Prop} {fires : Nat} {events : List Event}
  {result : Except Error Unit} {r₁ : Run}
  (h : p.Represents resolve R) (h₁ : p₁.Represents resolve R₁) (h₂ : p₂.Represents resolve R₂)
  (root : R p.root (d.graft e)) (root₁ : R₁ p₁.root d) (root₂ : R₂ p₂.root e)

include root root₁ in
theorem together_start (clock : Clock) (c : Context) :
    Together p p₁ (Grafted R R₁ e) (.start p clock c) (.start p₁ clock c) :=
  .ready (.inside root root₁)

include h h₁ root root₁

-- When a run of the first definition has come to a good end, a run of the graft can stand at `e`.
theorem exists_course_after (course₁ : Course (.start p₁ clock c) r₁)
    (finished : r₁.result? = some (.ok ())) :
    ∃ (x : NodeId) (course : Course (.start p clock c) ⟨p, clock, r₁.context, .entering x⟩),
      R x e ∧ course.fires = course₁.fires ∧ course.events = course₁.events.dropLast := by
  have start := together_start root root₁ clock c
  cases start.exists_course_left (resembles_grafted h h₁) course₁ with
  | inl both =>
    have ⟨_, _, together, _⟩ := both
    cases together.way_of_ok (together.result?_eq.symm.trans finished)
  | inr passed =>
    obtain ⟨_, _, before, after, @⟨_, _, x, way⟩, fires, events⟩ := passed
    cases before.clock_eq
    have .after hx := way
    have ⟨same, sameFires, quiet, ended⟩ := after.ends_of_closing (p := p) (x := x)
    refine ⟨x, before.append same, hx, ?_, ?_⟩
    · rw [Course.fires_append, sameFires, fires]
    · cases ended with
      | inl ended => rw [ended.left] at finished; cases finished
      | inr ended =>
        have ⟨_, last⟩ := ended.right
        rw [Course.events_append, quiet, events, last, List.append_nil, List.dropLast_concat]

theorem yields_of_failed {error : Error}
    (failed : p₁.Yields clock c fires events (.error error) c') :
    p.Yields clock c fires events (.error error) c' := by
  obtain ⟨r₁, course₁, rfl, rfl, finished, rfl⟩ := failed
  have start := together_start root root₁ clock c
  cases start.exists_course_left (resembles_grafted h h₁) course₁ with
  | inl both =>
    have ⟨r, course, together, fires, events⟩ := both
    exact ⟨r, course, fires, events, together.result?_eq.symm.trans finished,
      together.context_eq.symm⟩
  | inr passed =>
    obtain ⟨_, _, _, after, @⟨_, _, x, _⟩, _⟩ := passed
    have ⟨_, _, _, ended⟩ := after.ends_of_closing (p := p) (x := x)
    cases ended with
    | inl ended => rw [ended.left] at finished; cases finished
    | inr ended => rw [result?, ended.left] at finished; cases finished

include h₂ root₂

theorem yields_of_yieldsInTurn (turns : p₁.YieldsInTurn p₂ clock c fires events result c') :
    p.Yields clock c fires events result c' := by
  cases turns with
  | failed failed => exact yields_of_failed h h₁ root root₁ failed
  | passed yields₁ yields₂ =>
    obtain ⟨r₁, course₁, rfl, rfl, finished₁, rfl⟩ := yields₁
    obtain ⟨r₂, course₂, rfl, rfl, finished₂, rfl⟩ := yields₂
    have ⟨x, before, hx, beforeFires, beforeEvents⟩ :=
      exists_course_after h h₁ root root₁ course₁ finished₁
    cases course₂.exists_course_entering with
    | inl ready => rw [result?, ready.left] at finished₂; cases finished₂
    | inr later =>
      have ⟨later, laterFires, laterEvents⟩ := later
      have ⟨r, after, afterFires, afterEvents, result, context⟩ :=
        exists_course_of_represents h₂ h root₂ hx later
      refine ⟨r, before.append after, ?_, ?_, result.trans finished₂, context⟩
      · rw [Course.fires_append, beforeFires, afterFires, laterFires]
      · rw [Course.events_append, beforeEvents, afterEvents, laterEvents, List.tail_cons]

theorem yieldsInTurn_of_yields (yields : p.Yields clock c fires events result c') :
    p₁.YieldsInTurn p₂ clock c fires events result c' := by
  obtain ⟨r, course, rfl, rfl, finished, rfl⟩ := yields
  have start := together_start root root₁ clock c
  cases start.exists_course (resembles_grafted h h₁) course with
  | inl both =>
    have ⟨r', course', together, fires, events⟩ := both
    cases result with
    | ok => cases together.way_of_ok finished
    | error error =>
      exact .failed ⟨r', course', fires, events, together.result?_eq.trans finished,
        together.context_eq⟩
  | inr passed =>
    obtain ⟨_, _, before, after, @⟨_, c₁, x, way⟩, fires, events⟩ := passed
    cases before.clock_eq
    have .after hx := way
    have ⟨r₂, later, laterFires, laterEvents, result₂, context₂⟩ :=
      exists_course_of_represents h h₂ hx root₂ after
    have yields₁ : p₁.Yields clock c before.fires (before.events ++ [_]) (.ok ()) c₁ :=
      ⟨_, before.move rfl, rfl, rfl, rfl, rfl⟩
    let begun : Course (.start p₂ clock c₁) ⟨p₂, clock, c₁, .entering p₂.root⟩ := .move .rest rfl
    have yields₂ : p₂.Yields clock c₁ after.fires
        (⟨c₁.runId, .runStarted c₁.input⟩ :: after.events) result r.context := by
      refine ⟨r₂, begun.append later, ?_, ?_, result₂.trans finished, context₂⟩
      · rw [Course.fires_append, laterFires]
        exact Nat.zero_add _
      · rw [Course.events_append, laterEvents]
        rfl
    rw [fires, events]
    simpa using YieldsInTurn.passed yields₁ yields₂

end Turns

end Run

namespace Definition

open Plan

variable {p₁ p₂ : Plan} {resolve : Resolver} {d e : Definition}

-- Only what a step has put into the context gets to the steps after it, and a run that comes to a
-- good end does so at a node without children.
theorem graft_runs_in_turn (first : d.compile resolve = .ok p₁)
    (second : e.compile resolve = .ok p₂) :
    ∃ p, (d.graft e).compile resolve = .ok p ∧ ∀ clock c,
      (∀ result c', p.Returns clock c result c' ↔
        (∃ error, result = .error error ∧ p₁.Returns clock c result c') ∨
          ∃ c₁, p₁.Returns clock c (.ok ()) c₁ ∧ p₂.Returns clock c₁ result c') ∧
      ∀ fires events result c', p.Yields clock c fires events result c' ↔
        p₁.YieldsInTurn p₂ clock c fires events result c' := by
  have ⟨p, whole⟩ := compile_graft first second
  have root := exists_part_root whole
  have root₁ := exists_part_root first
  have root₂ := exists_part_root second
  have turns clock c fires events result c' : p.Yields clock c fires events result c' ↔
      p₁.YieldsInTurn p₂ clock c fires events result c' :=
    ⟨Run.yieldsInTurn_of_yields represents_part represents_part represents_part root root₁ root₂,
      Run.yields_of_yieldsInTurn represents_part represents_part represents_part root root₁ root₂⟩
  refine ⟨p, whole, fun clock c => ⟨fun result c' => ?_, turns clock c⟩⟩
  rw [← exists_yieldsInTurn_iff, returns_iff_yields]
  exact exists_congr fun events => turns clock c 0 events result c'

-- Whichever branch the desk takes, the last step gets to work on what it has left.
theorem overridden_and_then_file :
    let steps := stepsWithout ["retired"]
    let clock : Clock := fun _ => (⟨0, 0⟩, ⟨0, 0⟩)
    let c : Context := ⟨⟨"run"⟩, .string "sales", none, none, [], [], ⟨0, 0⟩, ⟨0, false⟩⟩
    ∃ p, (overridden.graft (leaf "file")).compile steps = .ok p ∧
      ∃ c', p.Returns clock c (.ok ()) c' ∧ c'.records.map (·.step) = ["desk", "sell", "file"] := by
  intro steps clock c
  let next (p : Plan) (c : Context) : Context := (p.execute clock c p.moves).1.context
  have ⟨p₁, p₂, first, second, finished₁, finished₂, records⟩ :
      ∃ p₁ p₂, overridden.compile steps = .ok p₁ ∧ (leaf "file").compile steps = .ok p₂ ∧
        (p₁.execute clock c p₁.moves).1.result? = some (.ok ()) ∧
        (p₂.execute clock (next p₁ c) p₂.moves).1.result? = some (.ok ()) ∧
        (next p₂ (next p₁ c)).records.map (·.step) = ["desk", "sell", "file"] :=
    ⟨_, _, rfl, rfl, by decide +kernel, by decide +kernel, by decide +kernel⟩
  have ⟨p, whole, runs⟩ := graft_runs_in_turn first second
  refine ⟨p, whole, next p₂ (next p₁ c), ((runs clock c).left _ _).mpr <| .inr ?_, records⟩
  exact ⟨next p₁ c, ⟨_, finished₁, rfl⟩, _, finished₂, rfl⟩

end Definition
end RoutingPlan
