import Mathlib.Data.List.Forall2
import RoutingPlan.Proofs.Plan.Unfolding
import RoutingPlan.Proofs.Plan.Way
import RoutingPlan.Proofs.Run.Route

-- Runs along the ways through a plan that was made of a definition. A run takes the way that the
-- answers of its steps choose, so each node can be run to, and what a run does without fault is one
-- way from the root to a leaf.

namespace RoutingPlan

namespace Invocation

-- The answer with which a run leaves a node by an edge with a label: the route key, or any output.
def Follows (i : Invocation) : Option String → Prop
  | some key => i.Decides (some key)
  | none     => ∃ output, i.Produces output

structure Takes (i : Invocation) (e : NodeId × Option String) : Prop where
  id      : i.id = e.1
  follows : i.Follows e.2

-- Wherever the step is on a way, its answer is the one that the way takes.
def KeepsTo (i : Invocation) (way : List (NodeId × Option String)) : Prop :=
  ∀ label, (i.id, label) ∈ way → i.Follows label

variable {i : Invocation} {label label' : Option String}

theorem Follows.deterministic (h : i.Follows label) (h' : i.Follows label') : label = label' := by
  cases label <;> cases label'
  case none.none => rfl
  case none.some =>
    have ⟨_, produces⟩ := h
    exact absurd h' produces.not_decides
  case some.none =>
    have ⟨_, produces⟩ := h'
    exact absurd h produces.not_decides
  case some.some => exact Decides.deterministic h h'

theorem Follows.answers (h : i.Follows label) : i.Answers := by
  cases label with
  | none   => exact h.elim fun _ => Produces.answers
  | some _ => exact Decides.answers h

end Invocation

-- The step of which an event says that it starts.
def Event.Detail.started? : Event.Detail → Option (String × StepKind)
  | stepStarted name kind => some (name, kind)
  | _                     => none

namespace Run

open Plan

-- The run has come to a good end, or all that is left to do is to say so.
def Phase.Succeeds : Phase → Prop
  | .recorded _ next                     => next = .ok none
  | .closing result | .finished result   => result = .ok ()
  | .ready | .entering _ | .invoking _ _ => False

-- The steps that a run has invoked have taken it along a way. Either it stands at the end of the
-- way, or it has invoked the step there, too, and the answer led no further.
inductive Stands (p : Plan) : List Invocation → Run → Prop
  | heads {is r way x} (upcoming : r.upcoming? = some x) (walk : p.Way p.root way x)
      (taken : is.Forall₂ Invocation.Takes way) : Stands p is r
  | halts {is r way i} (upcoming : r.upcoming? = none) (walk : p.Way p.root way i.id)
      (taken : is.Forall₂ Invocation.Takes way)
      (lost : ∀ label y, i.Follows label → ¬p.Edge i.id label y)
      (leaf : r.phase.Succeeds → p.IsLeaf i.id) : Stands p (is ++ [i]) r

variable {p : Plan} {clock : Clock} {c : Context} {r r' : Run} {e : Option Event}
  {is : List Invocation} {way : List (NodeId × Option String)} {x y : NodeId}

theorem Stands.exists_way (stands : Stands p is r) (upcoming : r.upcoming? = some x) :
    ∃ way, p.Way p.root way x ∧ is.Forall₂ Invocation.Takes way := by
  cases stands with
  | heads upcoming' walk taken =>
    cases upcoming.symm.trans upcoming'
    exact ⟨_, walk, taken⟩
  | halts upcoming' => cases upcoming.symm.trans upcoming'

-- What matters of a run is where it goes on and whether it succeeds.
theorem Stands.congr (stands : Stands p is r) (upcoming : r'.upcoming? = r.upcoming?)
    (same : r'.phase.Succeeds → r.phase.Succeeds) : Stands p is r' := by
  cases stands with
  | heads upcoming' walk taken => exact .heads (upcoming.trans upcoming') walk taken
  | halts upcoming' walk taken lost leaf =>
    exact .halts (upcoming.trans upcoming') walk taken lost (leaf ∘ same)

theorem follow_ne_ok_none {name key : String} : follow p x name key ≠ .ok none := by
  unfold follow
  split
  case h_1 | h_2 => exact nofun
  case h_3       => split <;> exact nofun

section Loaded

variable {resolve : Resolver} {d : Definition}

theorem Moves.stands (moves : Moves r e r') (loaded : d.compile resolve = .ok r.plan)
    (informed : r.Informed) (stands : Stands r.plan is r) :
    Stands r.plan (is ++ r.invocation?.toList) r' := by
  have edges := (unfoldable_of_compile loaded).unambiguous
  cases moves with
  | begins | enters | closes =>
    rw [invocation?, Option.toList_none, List.append_nil]
    exact stands.congr rfl id
  | misses unknown =>
    obtain ⟨way, walk, _⟩ := stands.exists_way rfl
    obtain ⟨_, known⟩ := exists_node_of_lt (lt_of_way loaded walk)
    cases unknown.symm.trans known
  | refuses h =>
    obtain ⟨way, walk, taken⟩ := stands.exists_way rfl
    refine .halts rfl walk taken (fun label y follows edge => ?_) fun succeeds => ?_
    · cases label with
      | none     => exact follows.elim fun _ produces => produces.not_refuses h
      | some key => exact Invocation.Decides.not_refuses follows (isBlank_of_edge loaded edge) h
    · cases succeeds
  | @decides p _ c id step key began ended h filled =>
    obtain ⟨way, walk, taken⟩ := stands.exists_way rfl
    have follows : Invocation.Follows ⟨id, step, c⟩ (some key) := h
    have leads {y : NodeId} :
        follow p id step.name key = .ok (some y) ↔ p.Edge id (some key) y :=
      follow_eq_ok_iff.trans edges.branch?_eq_some_iff
    by_cases found : ∃ y, follow p id step.name key = .ok (some y)
    case pos =>
      obtain ⟨y, hy⟩ := found
      refine .heads (upcoming?_recorded.mpr hy) (walk.concat (leads.mp hy)) ?_
      exact List.rel_append taken <| .cons ⟨rfl, follows⟩ .nil
    case neg =>
      refine .halts ?_ walk taken (fun label y follows' edge => ?_) (fun succeeds => ?_)
      · refine Option.eq_none_iff_forall_ne_some.mpr fun y hy => found ⟨y, ?_⟩
        exact upcoming?_recorded.mp hy
      · cases follows.deterministic follows'
        exact found ⟨y, leads.mpr edge⟩
      · exact absurd succeeds follow_ne_ok_none
  | @produces p _ c id step output began ended h =>
    obtain ⟨way, walk, taken⟩ := stands.exists_way rfl
    have follows : Invocation.Follows ⟨id, step, c⟩ none := ⟨output, h⟩
    cases next : p.next? id with
    | some y =>
      refine .heads rfl (walk.concat (edges.next?_eq_some_iff.mp next)) ?_
      exact List.rel_append taken <| .cons ⟨rfl, follows⟩ .nil
    | none =>
      obtain ⟨node, known, eq⟩ := informed id step rfl
      have kind : node.step.kind = .action := eq ▸ h.kind
      refine .halts rfl walk taken (fun label y follows' edge => ?_)
        fun _ => ⟨node, known, kind, next⟩
      cases follows.deterministic follows'
      cases next.symm.trans (edges.next?_eq_some_iff.mpr edge)
  | @tells p _ c detail next =>
    rw [invocation?, Option.toList_none, List.append_nil]
    rcases next with e | _ | y
    case error   => exact stands.congr rfl fun succeeds => by cases succeeds
    case ok.none => exact stands.congr rfl fun _ => rfl
    case ok.some => exact stands.congr rfl fun succeeds => by cases succeeds

theorem Course.stands (loaded : d.compile resolve = .ok p) (course : Course (.start p clock c) r) :
    Stands p course.invocations r := by
  induction course with
  | rest => exact .heads rfl .nil .nil
  | @move r₁ r₂ e course m ih =>
    have plan : r₁.plan = p := course.plan_eq
    subst plan
    exact (moves_of_move m).stands loaded course.informed ih
  | fire _ ih => exact ih.congr rfl id

end Loaded

-- The invocations that have begun: those of the course and the one that comes next.
def Course.begun (course : Course r r') : List Invocation :=
  course.invocations ++ r'.invocation?.toList

-- What is still to be made known of a step that has been recorded is not that it starts.
def Phase.Quiet : Phase → Prop
  | .recorded detail _ => detail.started? = none
  | _                  => True

theorem Moves.started (moves : Moves r e r') (quiet : r.phase.Quiet) :
    e.toList.filterMap (·.detail.started?) =
      r'.invocation?.toList.map (fun i => (i.step.name, i.step.kind)) ∧ r'.phase.Quiet := by
  cases moves with
  | begins | enters | misses | refuses => exact ⟨rfl, trivial⟩
  | decides | produces                 => exact ⟨rfl, rfl⟩
  | @closes _ _ _ result               => cases result <;> exact ⟨rfl, trivial⟩
  | @tells _ _ _ _ next =>
    simp only [Phase.Quiet] at quiet
    match next with
    | .ok (some _) | .ok none | .error _ => exact ⟨by simp [quiet, onward, invocation?], trivial⟩

-- They are those whose steps have been made known.
theorem Course.started (course : Course (.start p clock c) r) :
    course.events.filterMap (·.detail.started?) =
      course.begun.map (fun i => (i.step.name, i.step.kind)) ∧ r.phase.Quiet := by
  induction course with
  | rest => exact ⟨rfl, trivial⟩
  | move course m ih =>
    have ⟨known, quiet⟩ := ih
    have ⟨now, quiet'⟩ := (moves_of_move m).started quiet
    refine ⟨?_, quiet'⟩
    rw [events, List.filterMap_append, known, now, ← List.map_append]
    rfl
  | @fire r₁ course ih =>
    have ⟨known, quiet⟩ := ih
    refine ⟨?_, quiet⟩
    obtain ⟨p, clock, c, phase⟩ := r₁
    rw [events, known]
    cases phase <;> simp [begun, invocations, invocation?, cancel]

theorem Course.node?_of_mem_begun (course : Course (.start p clock c) r) {i : Invocation}
    (h : i ∈ course.begun) : ∃ node, p.node? i.id = some node ∧ node.step = i.step := by
  cases List.mem_append.mp h with
  | inl h => exact course.node?_of_mem_invocations h
  | inr h => exact course.node?_of_invoking <| phase_of_invocation? <| Option.mem_toList.mp h

-- The way of a run: how far the steps that have begun lie along it, and what it means that the run
-- goes no further.
structure Tracks (p : Plan) (begun : List Invocation) (r : Run)
    (way : List (NodeId × Option String)) (x : NodeId) : Prop where
  walk  : p.Way p.root way x
  along : begun.map (·.id) <+: stops way x
  taken : ∀ e ∈ way, ∃ i ∈ begun, i.Takes e
  stuck : r.move = none → begun.map (·.id) = stops way x ∧
    ∃ i ∈ begun, i.id = x ∧ ∀ label y, i.Follows label → ¬p.Edge x label y
  leaf  : r.phase.Succeeds → begun.map (·.id) = stops way x ∧ p.IsLeaf x

theorem map_id_of_taken (taken : is.Forall₂ Invocation.Takes way) :
    is.map (·.id) = way.map (·.1) := by
  rw [← List.forall₂_eq_eq_eq, List.forall₂_map_left_iff, List.forall₂_map_right_iff]
  exact taken.imp fun _ _ => Invocation.Takes.id

theorem exists_of_taken {begun : List Invocation} (taken : is.Forall₂ Invocation.Takes way)
    (sub : is ⊆ begun) : ∀ e ∈ way, ∃ i ∈ begun, i.Takes e := by
  induction taken with
  | nil => exact nofun
  | cons takes _ ih =>
    have ⟨here, sub⟩ := List.cons_subset.mp sub
    exact List.forall_mem_cons.mpr ⟨⟨_, here, takes⟩, ih sub⟩

theorem upcoming?_of_invocation? {i : Invocation} (h : r.invocation? = some i) :
    r.upcoming? = some i.id := by
  rw [upcoming?, phase_of_invocation? h]

theorem upcoming?_of_result? {result : Except Error Unit} (h : r.result? = some result) :
    r.upcoming? = none := by
  rw [upcoming?, phase_of_result? h]

theorem upcoming?_of_succeeds (h : r.phase.Succeeds) : r.upcoming? = none := by
  obtain ⟨p, clock, c, phase⟩ := r
  cases phase with
  | recorded                    => cases h; rfl
  | closing | finished          => rfl
  | ready | entering | invoking => exact h.elim

theorem Stands.exists_tracks (stands : Stands p is r) :
    ∃ way x, Tracks p (is ++ r.invocation?.toList) r way x := by
  cases stands with
  | @heads _ _ way x upcoming walk taken =>
    have ids := map_id_of_taken taken
    have here {i : Invocation} (h : r.invocation? = some i) : i.id = x ∧
        (is ++ r.invocation?.toList).map (·.id) = stops way x := by
      have same : i.id = x := Option.some.inj <| (upcoming?_of_invocation? h).symm.trans upcoming
      refine ⟨same, ?_⟩
      rw [h, List.map_append, ids, stops, ← same]
      rfl
    have taken := exists_of_taken taken (List.subset_append_left is r.invocation?.toList)
    refine ⟨way, x, walk, ?along, taken, ?stuck, ?leaf⟩
    case along =>
      cases invokes : r.invocation? with
      | none   => simp [ids, stops]
      | some i => exact invokes ▸ (here invokes).right ▸ List.prefix_refl _
    case stuck =>
      intro stuck
      rcases result?_isSome_or_invocation?_isSome stuck with finished | invokes
      case inl =>
        obtain ⟨_, result⟩ := Option.isSome_iff_exists.mp finished
        cases upcoming.symm.trans (upcoming?_of_result? result)
      case inr =>
        obtain ⟨i, invokes⟩ := Option.isSome_iff_exists.mp invokes
        obtain ⟨same, stops⟩ := here invokes
        refine ⟨stops, i, by simp [invokes], same, fun label y follows _ => ?_⟩
        exact move_ne_none_of_answers invokes follows.answers stuck
    case leaf =>
      intro succeeds
      cases upcoming.symm.trans (upcoming?_of_succeeds succeeds)
  | @halts is _ way i upcoming walk taken lost leaf =>
    have ids : (is ++ [i]).map (·.id) = stops way i.id := by
      rw [List.map_append, map_id_of_taken taken]
      rfl
    have idle : r.invocation? = none := Option.eq_none_iff_forall_ne_some.mpr fun _ h =>
      Option.some_ne_none _ <| (upcoming?_of_invocation? h).symm.trans upcoming
    rw [idle, Option.toList_none, List.append_nil]
    have taken := exists_of_taken taken (List.subset_append_left is [i])
    refine ⟨way, i.id, walk, ids ▸ List.prefix_refl _, taken, fun _ => ⟨ids, ?_⟩,
      fun h => ⟨ids, leaf h⟩⟩
    exact ⟨i, by simp, rfl, lost⟩

namespace Tracks

variable {begun : List Invocation} {way' : List (NodeId × Option String)} {z : NodeId}

theorem compare (tracks : Tracks p begun r way x) (edges : p.Unambiguous)
    (other : p.Way p.root way' z) (keeps : ∀ i ∈ begun, i.KeepsTo way') :
    stops way' z <+: stops way x ∨ stops way x <+: stops way' z ∧ ∃ label, (x, label) ∈ way' := by
  refine tracks.walk.compare edges other fun e he e' he' same => ?_
  have ⟨i, hi, takes⟩ := tracks.taken e he
  have mem : (i.id, e'.2) ∈ way' := by rwa [takes.id, same]
  exact takes.follows.deterministic (keeps i hi _ mem)

-- A run that keeps to another way has not left it, and if it goes no further it is at its end.
theorem guided (tracks : Tracks p begun r way x) (edges : p.Unambiguous)
    (other : p.Way p.root way' z) (keeps : ∀ i ∈ begun, i.KeepsTo way') :
    (begun.map (·.id) <+: stops way' z ∨ stops way' z <+: begun.map (·.id)) ∧
      (r.move = none → stops way' z <+: begun.map (·.id)) := by
  constructor
  case left =>
    rcases tracks.compare edges other keeps with h | ⟨h, _⟩
    · exact List.prefix_or_prefix_of_prefix tracks.along h
    · exact .inl (tracks.along.trans h)
  case right =>
    intro stuck
    have ⟨ids, i, hi, same, lost⟩ := tracks.stuck stuck
    rcases tracks.compare edges other keeps with h | ⟨_, label, mem⟩
    · exact ids ▸ h
    · have ⟨y, edge⟩ := other.exists_edge mem
      exact absurd edge <| lost label y <| keeps i hi label (same ▸ mem)

end Tracks

section Loaded

variable {resolve : Resolver} {d : Definition}

theorem Tracks.exists_leaf {begun : List Invocation} (tracks : Tracks p begun r way x)
    (loaded : d.compile resolve = .ok p) :
    ∃ way leaf, p.Way p.root way leaf ∧ p.IsLeaf leaf ∧ begun.map (·.id) <+: stops way leaf ∧
      (r.result? = some (.ok ()) → begun.map (·.id) = stops way leaf) := by
  by_cases succeeds : r.phase.Succeeds
  case pos =>
    have ⟨ids, leaf⟩ := tracks.leaf succeeds
    exact ⟨way, x, tracks.walk, leaf, tracks.along, fun _ => ids⟩
  case neg =>
    have ⟨way', leaf, later, last⟩ := exists_way_to_leaf loaded (lt_of_way loaded tracks.walk)
    refine ⟨way ++ way', leaf, tracks.walk.append later, last, ?_, fun result => ?_⟩
    · exact tracks.along.trans later.stops_prefix_append
    · refine absurd ?_ succeeds
      rw [phase_of_result? result]
      rfl

-- Each node is where one way from the root leads, and a run whose steps answer as the way goes does
-- not leave it and comes to its end. Whatever the steps answer, a run goes along some way to a
-- leaf, and it goes all of it if its end is good.
theorem ways_of_compile (loaded : d.compile resolve = .ok p) :
    (∀ x : NodeId, x.index < p.nodeCount → ∃ way, p.Way p.root way x ∧
      (∀ way', p.Way p.root way' x → way' = way) ∧
      ∀ (clock : Clock) (c : Context) (r : Run) (course : Course (.start p clock c) r),
        (∀ i ∈ course.begun, i.KeepsTo way) →
          (course.begun.map (·.id) <+: stops way x ∨ stops way x <+: course.begun.map (·.id)) ∧
          (r.move = none → stops way x <+: course.begun.map (·.id))) ∧
    ∀ (clock : Clock) (c : Context) (r : Run) (course : Course (.start p clock c) r),
      course.length ≤ p.moves ∧
      course.events.filterMap (·.detail.started?) =
        course.begun.map (fun i => (i.step.name, i.step.kind)) ∧
      ∃ way leaf, p.Way p.root way leaf ∧ p.IsLeaf leaf ∧
        course.begun.map (·.id) <+: stops way leaf ∧
        (r.result? = some (.ok ()) → course.begun.map (·.id) = stops way leaf) := by
  have edges := (unfoldable_of_compile loaded).unambiguous
  constructor
  case left =>
    intro x lt
    have ⟨way, walk, unique⟩ := existsUnique_way loaded lt
    refine ⟨way, walk, unique, fun clock c r course keeps => ?_⟩
    have ⟨_, _, tracks⟩ := (course.stands loaded).exists_tracks
    exact tracks.guided edges walk keeps
  case right =>
    intro clock c r course
    have ⟨_, _, tracks⟩ := (course.stands loaded).exists_tracks
    refine ⟨?_, course.started.left, tracks.exists_leaf loaded⟩
    exact course.length_le_moves (sound_of_compile loaded) (acyclic_of_compile loaded)

end Loaded

-- A desk that always decides the same.
def stepsTo (answer : String) : Resolver := fun key =>
  if key = "desk" then .ok <| .router key fun _ _ => .done (some answer)
  else .ok <| .action key fun input _ => .done (some input)

-- The last node of the second branch.
theorem ways_overridden :
    let way : List (NodeId × Option String) := [(⟨0⟩, some "help"), (⟨2⟩, none)]
    ∃ p, Definition.overridden.compile (stepsTo "help") = .ok p ∧ p.Way p.root way ⟨3⟩ ∧
      ∀ (clock : Clock) (c : Context) (r : Run) (course : Course (.start p clock c) r),
        (∀ i ∈ course.begun, i.KeepsTo way) ∧
          (r.move = none → [⟨0⟩, ⟨2⟩, ⟨3⟩] <+: course.begun.map (·.id)) := by
  intro way
  have ⟨p, loaded, root, branches, chain, desk, help⟩ :
      ∃ p, Definition.overridden.compile (stepsTo "help") = .ok p ∧ p.root = ⟨0⟩ ∧
        p.branches = [(⟨0⟩, [("sales", ⟨1⟩), ("help", ⟨2⟩)])] ∧ p.chain = [(⟨2⟩, ⟨3⟩)] ∧
        p.node? ⟨0⟩ = some ⟨⟨0⟩, "desk", .router "desk" fun _ _ => .done (some "help")⟩ ∧
        p.node? ⟨2⟩ = some ⟨⟨2⟩, "help", .action "help" fun input _ => .done (some input)⟩ :=
    ⟨_, rfl, rfl, rfl, rfl, rfl, rfl⟩
  have walk : p.Way p.root way ⟨3⟩ := by
    have first : p.Edge ⟨0⟩ (some "help") ⟨2⟩ := ⟨_, branches ▸ List.mem_cons_self, by simp⟩
    have second : p.Edge ⟨2⟩ none ⟨3⟩ := by
      rw [Edge, chain]
      exact List.mem_cons_self
    exact root ▸ .cons first (.cons second .nil)
  obtain ⟨way', _, unique, run⟩ := (ways_of_compile loaded).left ⟨3⟩ (lt_of_way loaded walk)
  cases unique way walk
  refine ⟨p, loaded, walk, fun clock c r course => ?_⟩
  have keeps : ∀ i ∈ course.begun, i.KeepsTo way := by
    rintro ⟨id, step, context⟩ hi label mem
    obtain ⟨node, known, eq⟩ := course.node?_of_mem_begun hi
    subst eq
    simp only [way, List.mem_cons, Prod.mk.injEq, List.not_mem_nil, or_false] at mem
    rcases mem with ⟨rfl, rfl⟩ | ⟨rfl, rfl⟩
    · cases known.symm.trans desk
      exact rfl
    · cases known.symm.trans help
      exact ⟨_, rfl⟩
  exact ⟨keeps, (run clock c r course keeps).right⟩

end Run

end RoutingPlan
