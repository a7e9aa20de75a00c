import RoutingPlan.Proofs.Plan.Representation
import RoutingPlan.Proofs.Run.Course

-- Runs of two plans that stay together: as long as both stand at nodes that match, each move of one
-- is a move of the other with the same event.

namespace RoutingPlan

open Plan

namespace Run

-- If the moves of one run can be followed by another one as long as `T` holds between them, then
-- all that the first one does can be followed, up to where `D` holds.
theorem Course.exists_followed {T D : Run → Run → Prop} {r r' s : Run} (course : Course r s)
    (move : ∀ {r r' s e}, T r r' → r.move = some (s, e) →
      ∃ s', r'.move = some (s', e) ∧ (T s s' ∨ D s s'))
    (cancel : ∀ {r r'}, T r r' → T r.cancel r'.cancel) (start : T r r') :
    (∃ (s' : Run) (course' : Course r' s'), T s s' ∧ course'.fires = course.fires ∧
      course'.events = course.events) ∨
    ∃ (t t' : Run) (before : Course r' t') (after : Course t s), D t t' ∧
      course.fires = before.fires + after.fires ∧
      course.events = before.events ++ after.events := by
  induction course with
  | rest => exact .inl ⟨r', .rest, start, rfl, rfl⟩
  | @move _ s e course h ih =>
    cases ih with
    | inl ih =>
      obtain ⟨_, course', together, fires, events⟩ := ih
      obtain ⟨s', h', next⟩ := move together h
      have fires : (course'.move h').fires = (course.move h).fires := fires
      have events : (course'.move h').events = (course.move h).events := by
        rw [Course.events, Course.events, events]
      cases next with
      | inl together => exact .inl ⟨s', course'.move h', together, fires, events⟩
      | inr parted   =>
        have nothing : (course.move h).events = (course'.move h').events ++ [] := by
          rw [events, List.append_nil]
        exact .inr ⟨s, s', course'.move h', .rest, parted, fires.symm, nothing⟩
    | inr ih =>
      obtain ⟨t, t', before, after, parted, fires, events⟩ := ih
      exact .inr ⟨t, t', before, after.move h, parted, fires, by simp [Course.events, events]⟩
  | fire course ih =>
    cases ih with
    | inl ih =>
      obtain ⟨s', course', together, fires, events⟩ := ih
      exact .inl ⟨_, course'.fire, cancel together, congrArg (· + 1) fires, events⟩
    | inr ih =>
      obtain ⟨t, t', before, after, parted, fires, events⟩ := ih
      exact .inr ⟨t, t', before, after.fire, parted, congrArg (· + 1) fires, events⟩

section Together

-- Which ways on match. A run that has no way on ends.
variable {W : Option NodeId → Option NodeId → Prop} {p q : Plan} {x y : NodeId} {r r' : Run}

inductive SameWay (W : Option NodeId → Option NodeId → Prop) :
    Except Error (Option NodeId) → Except Error (Option NodeId) → Prop
  | on {o o'} (h : W o o') : SameWay W (.ok o) (.ok o')
  | nowhere {e} : SameWay W (.error e) (.error e)

-- Nodes that match have the same step and lead on to ways that match. A run of `p` does not end
-- before the run of `q` that it is together with.
structure Resembles (p q : Plan) (W : Option NodeId → Option NodeId → Prop) : Prop where
  node   : ∀ x y, W (some x) (some y) →
    ∃ node node', p.node? x = some node ∧ q.node? y = some node' ∧ node'.step = node.step
  router : ∀ x y node, W (some x) (some y) → p.node? x = some node → node.step.kind = .router →
    ∀ name key, SameWay W (follow p x name key) (follow q y name key)
  action : ∀ x y node, W (some x) (some y) → p.node? x = some node → node.step.kind = .action →
    W (p.next? x) (q.next? y)
  ends   : ∀ y, ¬W none (some y)

inductive Together (p q : Plan) (W : Option NodeId → Option NodeId → Prop) : Run → Run → Prop
  | ready {clock c} (h : W (some p.root) (some q.root)) :
    Together p q W ⟨p, clock, c, .ready⟩ ⟨q, clock, c, .ready⟩
  | entering {clock c x y} (h : W (some x) (some y)) :
    Together p q W ⟨p, clock, c, .entering x⟩ ⟨q, clock, c, .entering y⟩
  | invoking {clock c x y node} (h : W (some x) (some y)) (known : p.node? x = some node) :
    Together p q W ⟨p, clock, c, .invoking x node.step⟩ ⟨q, clock, c, .invoking y node.step⟩
  | recorded {clock c detail next next'} (h : SameWay W next next') :
    Together p q W ⟨p, clock, c, .recorded detail next⟩ ⟨q, clock, c, .recorded detail next'⟩
  | closing {clock c result} (h : ∀ u, result = .ok u → W none none) :
    Together p q W ⟨p, clock, c, .closing result⟩ ⟨q, clock, c, .closing result⟩
  | finished {clock c result} (h : ∀ u, result = .ok u → W none none) :
    Together p q W ⟨p, clock, c, .finished result⟩ ⟨q, clock, c, .finished result⟩

-- The second run is about to end, but the first one goes on to a node.
inductive Parted (p q : Plan) (W : Option NodeId → Option NodeId → Prop) : Run → Run → Prop
  | intro {clock c x} (h : W (some x) none) :
    Parted p q W ⟨p, clock, c, .entering x⟩ ⟨q, clock, c, .closing (.ok ())⟩

theorem Together.failing {clock : Clock} {c : Context} {e : Error} :
    Together p q W ⟨p, clock, c, .closing (.error e)⟩ ⟨q, clock, c, .closing (.error e)⟩ :=
  .closing nofun

theorem Together.context_eq (together : Together p q W r r') : r'.context = r.context := by
  cases together <;> rfl

theorem Together.result?_eq (together : Together p q W r r') : r'.result? = r.result? := by
  cases together <;> rfl

theorem Together.way_of_ok (together : Together p q W r r') (h : r.result? = some (.ok ())) :
    W none none := by
  cases together with
  | ready | entering | invoking | recorded | closing => cases h
  | finished way => exact way () (Option.some.inj h)

theorem Together.cancel (together : Together p q W r r') :
    Together p q W r.cancel r'.cancel := by
  cases together with
  | ready h          => exact .ready h
  | entering h       => exact .entering h
  | invoking h known => exact .invoking h known
  | recorded h       => exact .recorded h
  | closing h        => exact .closing h
  | finished h       => exact .finished h

theorem Resembles.invoke (resembles : Resembles p q W) {clock : Clock} {c : Context} {node : Node}
    (h : W (some x) (some y)) (known : p.node? x = some node) :
    Option.Rel (Together p q W) (invoke ⟨p, clock, c, .invoking x node.step⟩ x node.step)
      (invoke ⟨q, clock, c, .invoking y node.step⟩ y node.step) := by
  cases step : node.step with
  | router name decide =>
    have follow := resembles.router x y node h known (by rw [step, Step.kind]) name
    simp only [Run.invoke]
    cases decide c.workingInput c with
    | pending  => exact .none
    | failed e => exact .some .failing
    | done answer =>
      cases answer with
      | none => exact .some .failing
      | some key =>
        cases blank : Text.isBlank key <;>
          simp only [decided, blank, if_true, Bool.false_eq_true, if_false]
        case true  => exact .some .failing
        case false => exact .some <| .recorded (follow key)
  | action name act =>
    have next := resembles.action x y node h known (by rw [step, Step.kind])
    simp only [Run.invoke]
    cases act c.workingInput c with
    | pending  => exact .none
    | failed e => exact .some .failing
    | done output => exact .some <| .recorded (.on next)

theorem exists_of_rel {α β : Type} {R : α → β → Prop} {o : Option α} {o' : Option β}
    (rel : Option.Rel R o o') :
    (∀ a, o = some a → ∃ b, o' = some b ∧ R a b) ∧ ∀ b, o' = some b → ∃ a, o = some a ∧ R a b := by
  cases rel with
  | none   => exact ⟨nofun, nofun⟩
  | some h => exact ⟨fun _ eq => ⟨_, rfl, Option.some.inj eq ▸ h⟩,
      fun _ eq => ⟨_, rfl, Option.some.inj eq ▸ h⟩⟩

-- Runs that are together make moves with the same events, and stay together unless one ends.
theorem Together.move (resembles : Resembles p q W) (together : Together p q W r r') :
    Option.Rel
      (fun m m' => m'.2 = m.2 ∧ (Together p q W m.1 m'.1 ∨ Parted p q W m.1 m'.1))
      r.move r'.move := by
  cases together with
  | ready h => exact .some ⟨rfl, .inl <| .entering h⟩
  | @entering _ _ x y h =>
    have ⟨node, node', known, known', same⟩ := resembles.node x y h
    simp only [Run.move, known, known', same]
    exact .some ⟨rfl, .inl <| .invoking h known⟩
  | @invoking clock c x y node h known =>
    have invoked : Option.Rel (Together p q W) (Run.invoke ⟨p, clock, c, _⟩ x node.step)
      (Run.invoke ⟨q, clock, c, _⟩ y node.step) := resembles.invoke h known
    simp only [Run.move]
    generalize Run.invoke ⟨p, clock, c, _⟩ x node.step = o at invoked ⊢
    generalize Run.invoke ⟨q, clock, c, _⟩ y node.step = o' at invoked ⊢
    cases invoked with
    | none => exact .none
    | some together => exact .some ⟨rfl, .inl together⟩
  | @recorded _ _ _ next next' h =>
    cases h with
    | nowhere => exact .some ⟨rfl, .inl .failing⟩
    | @on o o' h =>
      cases o with
      | some x =>
        cases o' with
        | some y => exact .some ⟨rfl, .inl <| .entering h⟩
        | none   => exact .some ⟨rfl, .inr <| .intro h⟩
      | none =>
        cases o' with
        | some y => exact absurd h (resembles.ends y)
        | none   => exact .some ⟨rfl, .inl <| .closing fun _ _ => h⟩
  | @closing _ _ result h => cases result <;> exact .some ⟨rfl, .inl <| .finished h⟩
  | finished => exact .none

theorem Together.exists_move (resembles : Resembles p q W) (together : Together p q W r r')
    {s : Run} {e : Option Event} (h : r.move = some (s, e)) :
    ∃ s', r'.move = some (s', e) ∧ (Together p q W s s' ∨ Parted p q W s s') := by
  have ⟨⟨s', _⟩, h', rfl, next⟩ := (exists_of_rel <| together.move resembles).left _ h
  exact ⟨s', h', next⟩

theorem Together.exists_move_left (resembles : Resembles p q W) (together : Together p q W r r')
    {s' : Run} {e : Option Event} (h' : r'.move = some (s', e)) :
    ∃ s, r.move = some (s, e) ∧ (Together p q W s s' ∨ Parted p q W s s') := by
  have ⟨⟨s, _⟩, h, rfl, next⟩ := (exists_of_rel <| together.move resembles).right _ h'
  exact ⟨s, h, next⟩

theorem Together.exists_course (resembles : Resembles p q W) (together : Together p q W r r')
    {s : Run} (course : Course r s) :
    (∃ (s' : Run) (course' : Course r' s'), Together p q W s s' ∧
      course'.fires = course.fires ∧ course'.events = course.events) ∨
    ∃ (t t' : Run) (before : Course r' t') (after : Course t s), Parted p q W t t' ∧
      course.fires = before.fires + after.fires ∧
      course.events = before.events ++ after.events :=
  course.exists_followed (fun h => h.exists_move resembles) (fun h => h.cancel) together

theorem Together.exists_course_left (resembles : Resembles p q W) (together : Together p q W r r')
    {s' : Run} (course' : Course r' s') :
    (∃ (s : Run) (course : Course r s), Together p q W s s' ∧
      course.fires = course'.fires ∧ course.events = course'.events) ∨
    ∃ (t' t : Run) (before : Course r t) (after : Course t' s'), Parted p q W t t' ∧
      course'.fires = before.fires + after.fires ∧
      course'.events = before.events ++ after.events :=
  course'.exists_followed (T := fun s' s => Together p q W s s')
    (D := fun s' s => Parted p q W s s') (fun h => h.exists_move_left resembles)
    (fun h => h.cancel) together

-- If the ways of both always end at the same time, then each run does what the other one does.
section Unparted

variable (resembles : Resembles p q W) (unparted : ∀ x, ¬W (some x) none)

include resembles unparted

theorem Together.exists_move_together (together : Together p q W r r') {s : Run}
    {e : Option Event} (h : r.move = some (s, e)) :
    ∃ s', r'.move = some (s', e) ∧ Together p q W s s' := by
  have ⟨s', h', next⟩ := together.exists_move resembles h
  cases next with
  | inl together => exact ⟨s', h', together⟩
  | inr parted   => have ⟨h⟩ := parted; exact absurd h (unparted _)

theorem Together.drive (together : Together p q W r r') (n : Nat) :
    Together p q W (r.drive n).1 (r'.drive n).1 ∧ (r'.drive n).2 = (r.drive n).2 := by
  induction n generalizing r r' with
  | zero => exact ⟨together, rfl⟩
  | succ n ih =>
    cases h : r.move with
    | none =>
      cases h' : r'.move with
      | none   => simp only [Run.drive, h, h']; exact ⟨together, trivial⟩
      | some m =>
        obtain ⟨_, moves, _⟩ := together.exists_move_left resembles h'
        cases h.symm.trans moves
    | some m =>
      obtain ⟨s', h', together⟩ := together.exists_move_together resembles unparted h
      obtain ⟨together, events⟩ := ih together
      simp only [Run.drive, h, h', events]
      exact ⟨together, trivial⟩

theorem Together.exists_course_together (together : Together p q W r r') {s : Run}
    (course : Course r s) :
    ∃ (s' : Run) (course' : Course r' s'), Together p q W s s' ∧ course'.fires = course.fires ∧
      course'.events = course.events := by
  cases together.exists_course resembles course with
  | inl h => exact h
  | inr h => have ⟨_, _, _, _, ⟨h⟩, _⟩ := h; exact absurd h (unparted _)

end Unparted

end Together

section Represents

variable {p q : Plan} {resolve : Resolver} {R R' : NodeId → Definition → Prop} {d : Definition}
  {x y : NodeId} {clock : Clock} {c c' : Context} {events : List Event}
  {result : Except Error Unit} {fires : Nat}

-- `f` is what has to be done to a definition on the right to make it one on the left.
theorem rel_trans {α β γ δ : Type} {R : α → δ → Prop} {R' : β → γ → Prop} {f : γ → δ}
    {a : Option α} {b : Option β} {o : Option γ} (rel : Option.Rel R a (o.map f))
    (rel' : Option.Rel R' b o) : Option.Rel (fun x y => ∃ d, R x (f d) ∧ R' y d) a b := by
  cases rel' with
  | none    => cases rel; exact .none
  | some h' => have .some h := rel; exact .some ⟨_, h, h'⟩

theorem sameWay_follow {W : Option NodeId → Option NodeId → Prop} {S : NodeId → NodeId → Prop}
    {name key : String} {t t' : Branches} (branches : p.branches? x = some t) (nonempty : t ≠ [])
    (branches' : q.branches? y = some t') (nonempty' : t' ≠ [])
    (rel : Option.Rel S (Keyed.get? key t) (Keyed.get? key t'))
    (on : ∀ x y, S x y → W (some x) (some y)) :
    SameWay W (follow p x name key) (follow q y name key) := by
  rw [follow_eq branches nonempty, follow_eq branches' nonempty']
  generalize Keyed.get? key t = o at rel ⊢
  generalize Keyed.get? key t' = o' at rel ⊢
  cases rel with
  | none   => exact .nowhere
  | some h => exact .on (on _ _ h)

-- Nodes that stand for the same definition.
def Alike (R R' : NodeId → Definition → Prop) (x y : NodeId) : Prop :=
  ∃ d, R x d ∧ R' y d

theorem resembles_of_represents (h : p.Represents resolve R) (h' : q.Represents resolve R') :
    Resembles p q (Option.Rel (Alike R R')) := by
  constructor
  case node =>
    rintro x y ⟨d, rx, ry⟩
    have ⟨node, known, resolved⟩ := h.node x d rx
    have ⟨node', known', resolved'⟩ := h'.node y d ry
    exact ⟨node, node', known, known', Except.ok.inj <| resolved'.symm.trans resolved⟩
  case router =>
    rintro x y node ⟨d, rx, ry⟩ known kind name key
    have kind : d.kind? resolve = some .router := kind ▸ h.kind?_eq rx known
    have ⟨t, branches, nonempty, rel⟩ := h.router x d rx kind
    have ⟨t', branches', nonempty', rel'⟩ := h'.router y d ry kind
    have same : Option.Rel (Alike R R') (Keyed.get? key t) (Keyed.get? key t') :=
      rel_trans (f := id) (by simpa using rel key) (rel' key)
    exact sameWay_follow branches nonempty branches' nonempty' same fun _ _ => .some
  case action =>
    rintro x y node ⟨d, rx, ry⟩ known kind
    have kind : d.kind? resolve = some .action := kind ▸ h.kind?_eq rx known
    exact rel_trans (f := id) (by simpa using h.action x d rx kind) (h'.action y d ry kind)
  case ends => rintro y ⟨⟩

-- Once two runs stand at nodes for the same definition, they come to the same.
theorem exists_course_of_represents (h : p.Represents resolve R) (h' : q.Represents resolve R')
    (hx : R x d) (hy : R' y d) {r : Run} (course : Course ⟨p, clock, c, .entering x⟩ r) :
    ∃ (r' : Run) (course' : Course ⟨q, clock, c, .entering y⟩ r'), course'.fires = course.fires ∧
      course'.events = course.events ∧ r'.result? = r.result? ∧ r'.context = r.context := by
  have start : Together p q (Option.Rel (Alike R R')) ⟨p, clock, c, .entering x⟩
      ⟨q, clock, c, .entering y⟩ := .entering <| .some ⟨d, hx, hy⟩
  have ⟨r', course', together, fires, events⟩ :=
    start.exists_course_together (resembles_of_represents h h') nofun course
  exact ⟨r', course', fires, events, together.result?_eq, together.context_eq⟩

section Alike

variable (h : p.Represents resolve R) (h' : q.Represents resolve R') (root : R p.root d)
  (root' : R' q.root d)

include h h' root root'

theorem execute_of_represents (n : Nat) :
    (q.execute clock c n).1.result? = (p.execute clock c n).1.result? ∧
      (q.execute clock c n).1.context = (p.execute clock c n).1.context ∧
      (q.execute clock c n).2 = (p.execute clock c n).2 := by
  have start : Together p q (Option.Rel (Alike R R')) (.start p clock c) (.start q clock c) :=
    .ready <| .some ⟨d, root, root'⟩
  have ⟨together, events⟩ := start.drive (resembles_of_represents h h') nofun n
  exact ⟨together.result?_eq, together.context_eq, events⟩

theorem yields_of_represents (yields : p.Yields clock c fires events result c') :
    q.Yields clock c fires events result c' := by
  obtain ⟨r, course, rfl, rfl, finished, rfl⟩ := yields
  have start : Together p q (Option.Rel (Alike R R')) (.start p clock c) (.start q clock c) :=
    .ready <| .some ⟨d, root, root'⟩
  have ⟨r', course', together, fires, events⟩ :=
    start.exists_course_together (resembles_of_represents h h') nofun course
  exact ⟨r', course', fires, events, together.result?_eq.trans finished, together.context_eq⟩

end Alike

end Represents

end Run
end RoutingPlan
