import RoutingPlan.Proofs.Plan.Order
import RoutingPlan.Proofs.Plan.Unfolding

-- Where a definition is assembled makes no difference but for the numbers of its nodes: behind the
-- nodes that a builder has already, each of them gets the number that follows on from theirs.

namespace RoutingPlan

namespace Plan.Builder

variable {base b : Builder} {router child source next : NodeId} {key : String} {step : Step}

-- The number that `id` becomes behind those of `base`.
def place (base : Builder) (id : NodeId) : NodeId :=
  ⟨base.nodes.length + id.index⟩

def placeNode (base : Builder) (node : Node) : Node :=
  { node with id := base.place node.id }

def placeTable (base : Builder) (t : Branches) : Branches :=
  t.map (Prod.map id base.place)

-- All that `base` holds, and behind it all that `b` holds.
def followedBy (base b : Builder) : Builder where
  nodes    := base.nodes ++ b.nodes.map base.placeNode
  branches := base.branches ++ b.branches.map (Prod.map base.place base.placeTable)
  chain    := base.chain ++ b.chain.map (Prod.map base.place base.place)

theorem place_injective : Function.Injective base.place := by
  rintro ⟨i⟩ ⟨j⟩ h
  simpa [place] using h

theorem followedBy_empty : base.followedBy empty = base := by
  simp [followedBy, empty]

theorem place_length : base.place ⟨b.nodes.length⟩ = ⟨(base.followedBy b).nodes.length⟩ := by
  simp [place, followedBy]

theorem add_followedBy : (base.followedBy b).add key step =
    (base.place (b.add key step).1, base.followedBy (b.add key step).2) := by
  simp [add, followedBy, place, placeNode]

section Known

-- The tables of `base` mention no numbers but those that it gave out.
variable (known : ∀ id ∈ base.mentioned, id.index < base.nodes.length)

include known

theorem place_not_mem_mentioned {id : NodeId} : base.place id ∉ base.mentioned := by
  intro h
  have lt : base.nodes.length + id.index < base.nodes.length := known _ h
  omega

theorem place_not_mem_branches : base.place router ∉ Keyed.keys base.branches := by
  intro h
  have ⟨e, he, eq⟩ := List.mem_map.mp h
  exact place_not_mem_mentioned known <| mem_mentioned.mpr <| .inl ⟨e, he, .inl eq.symm⟩

theorem place_not_mem_chain : base.place source ∉ Keyed.keys base.chain := by
  intro h
  have ⟨e, he, eq⟩ := List.mem_map.mp h
  exact place_not_mem_mentioned known <| mem_mentioned.mpr <| .inr ⟨e, he, .inl eq.symm⟩

theorem table_followedBy :
    (base.followedBy b).table (base.place router) = base.placeTable (b.table router) := by
  rw [table, followedBy, Keyed.get?_append_of_not_mem_keys (place_not_mem_branches known),
    Keyed.get?_map _ place_injective, table]
  cases Keyed.get? router b.branches <;> rfl

theorem branch_followedBy :
    ((base.followedBy b).branch (base.place router) key (base.place child)).2 =
      base.followedBy (b.branch router key child).2 := by
  have table : Keyed.put key (base.place child) (base.placeTable (b.table router)) =
      base.placeTable (Keyed.put key child (b.table router)) :=
    (Keyed.map_put _ Function.injective_id).symm
  simp only [branch, table_followedBy known, table]
  simp only [followedBy, Keyed.put_append_of_not_mem_keys (place_not_mem_branches known),
    Keyed.map_put _ place_injective]

theorem chainTo_followedBy : (base.followedBy b).chainTo (base.place source) (base.place next) =
    base.followedBy (b.chainTo source next) := by
  simp only [chainTo, followedBy, Keyed.put_append_of_not_mem_keys (place_not_mem_chain known),
    Keyed.map_put _ place_injective]

end Known

end Plan.Builder

namespace Definition

open Plan Plan.Builder

variable {resolve : Resolver} {d : Definition} {cs : List Definition} {base b : Builder}
  {router : NodeId}

-- What the definition becomes behind `base` is what it becomes by itself, with other numbers.
def Follows (resolve : Resolver) (base : Builder) (d : Definition) : Prop :=
  ∀ b, d.assemble resolve (base.followedBy b) =
    (d.assemble resolve b).map (Prod.map base.place base.followedBy)

section Known

variable (known : ∀ id ∈ base.mentioned, id.index < base.nodes.length)

include known

theorem connect_followedBy (follows : ∀ c ∈ cs, c.Follows resolve base) :
    connect (base.place router) (cs.map (toArm resolve)) (base.followedBy b) =
      (connect router (cs.map (toArm resolve)) b).map base.followedBy := by
  induction cs generalizing b with
  | nil => rfl
  | cons c cs ih =>
    rw [List.forall_mem_cons] at follows
    rw [List.map_cons, toArm, connect, connect, follows.left b]
    cases c.assemble resolve b with
    | error e => rfl
    | ok r =>
      have rest := ih (b := (r.2.branch router c.label r.1).2) follows.right
      rwa [← branch_followedBy known] at rest

theorem follows_router {name : String} {decide : Json.Value → Context → Reply (Option String)}
    (resolved : resolve d.step = .ok (.router name decide))
    (ih : ∀ c ∈ d.children, c.Follows resolve base) : d.Follows resolve base := by
  intro b
  have connected : connect (base.place ⟨b.nodes.length⟩) ((standing d.children).map (toArm resolve))
      (base.followedBy (b.add d.step (.router name decide)).2) = _ :=
    connect_followedBy known fun c hc => ih c (mem_of_mem_standing hc)
  rw [assemble_router resolved, assemble_router resolved, add_followedBy, ← place_length, connected]
  split
  case isTrue  => rfl
  case isFalse =>
    split
    case h_1 => rfl
    case h_2 => cases connect _ _ (b.add d.step (.router name decide)).2 <;> rfl

theorem follows_action {name : String} {act : Json.Value → Context → Reply (Option Json.Value)}
    (resolved : resolve d.step = .ok (.action name act))
    (ih : ∀ c ∈ d.children, c.Follows resolve base) : d.Follows resolve base := by
  intro b
  rw [assemble_action resolved, assemble_action resolved, add_followedBy, ← place_length]
  match children : d.children with
  | []           => rfl
  | _ :: _ :: _  => rfl
  | [c] =>
    have below := ih c (by simp [children]) (b.add d.step (.action name act)).2
    simp only [below]
    cases c.assemble resolve (b.add d.step (.action name act)).2 with
    | error e => rfl
    | ok r =>
      have chained : (base.followedBy r.2).chainTo (base.place ⟨b.nodes.length⟩)
          (base.place r.1) = _ := chainTo_followedBy known
      simp only [Except.map, Prod.map, chained]

theorem follows : d.Follows resolve base := by
  induction d using childInduction with
  | node d ih =>
    cases resolved : resolve d.step with
    | error e =>
      intro b
      rw [assemble_of_resolve_error resolved, assemble_of_resolve_error resolved]
      rfl
    | ok step =>
      cases step with
      | router => exact follows_router known resolved ih
      | action => exact follows_action known resolved ih

-- A definition is assembled in the same way wherever that is: it is the plan by itself that comes
-- behind what was there.
theorem assemble_eq_map : d.assemble resolve base =
    (d.assemble resolve empty).map (Prod.map base.place base.followedBy) := by
  have follows : d.Follows resolve base := follows known
  rw [← follows empty, followedBy_empty]

end Known

end Definition

namespace Plan.Builder

-- A number that `b` gave out and `base` did not.
def IsNew (base b : Builder) (id : NodeId) : Prop :=
  base.nodes.length ≤ id.index ∧ id.index < b.nodes.length

-- `b` is `base` with the plan `p` behind it.
structure Appended (base b : Builder) (p : Plan) : Prop where
  nodes    : b.nodes = base.nodes ++ p.nodes.map base.placeNode
  branches : b.branches = base.branches ++ p.branches.map (Prod.map base.place base.placeTable)
  chain    : b.chain = base.chain ++ p.chain.map (Prod.map base.place base.place)
  numbered : (p.nodes.map base.placeNode).map (·.id) =
    (List.range' base.nodes.length p.nodeCount).map NodeId.mk
  routers  : ∀ e ∈ b.branches, e ∈ base.branches ∨
    IsNew base b e.1 ∧ ∀ a ∈ e.2, IsNew base b a.2
  links    : ∀ e ∈ b.chain, e ∈ base.chain ∨ IsNew base b e.1 ∧ IsNew base b e.2

variable {base b : Builder}

theorem isNew_place {id : NodeId} (h : id.index < b.nodes.length) :
    IsNew base (base.followedBy b) (base.place id) := by
  simp only [IsNew, place, followedBy, List.length_append, List.length_map]
  omega

theorem isNew_of_mem_branches {e : NodeId × Branches}
    (known : ∀ id ∈ b.mentioned, id.index < b.nodes.length)
    (h : e ∈ b.branches.map (Prod.map base.place base.placeTable)) :
    IsNew base (base.followedBy b) e.1 ∧ ∀ a ∈ e.2, IsNew base (base.followedBy b) a.2 := by
  obtain ⟨e, he, rfl⟩ := List.mem_map.mp h
  refine ⟨isNew_place <| known _ <| mem_mentioned.mpr <| .inl ⟨e, he, .inl rfl⟩, fun a ha => ?_⟩
  obtain ⟨child, hc, rfl⟩ := List.mem_map.mp ha
  exact isNew_place <| known _ <| mem_mentioned.mpr <| .inl ⟨e, he, .inr ⟨child, hc, rfl⟩⟩

theorem isNew_of_mem_chain {e : NodeId × NodeId}
    (known : ∀ id ∈ b.mentioned, id.index < b.nodes.length)
    (h : e ∈ b.chain.map (Prod.map base.place base.place)) :
    IsNew base (base.followedBy b) e.1 ∧ IsNew base (base.followedBy b) e.2 := by
  obtain ⟨e, he, rfl⟩ := List.mem_map.mp h
  exact ⟨isNew_place <| known _ <| mem_mentioned.mpr <| .inr ⟨e, he, .inl rfl⟩,
    isNew_place <| known _ <| mem_mentioned.mpr <| .inr ⟨e, he, .inr rfl⟩⟩

theorem map_id_placeNode {nodes : List Node} {n : Nat}
    (h : nodes.map (·.id) = (List.range n).map NodeId.mk) :
    (nodes.map base.placeNode).map (·.id) = (List.range' base.nodes.length n).map NodeId.mk := by
  have ids : (nodes.map base.placeNode).map (·.id) = (nodes.map (·.id)).map base.place := by
    simp only [List.map_map]
    rfl
  rw [ids, h, List.range'_eq_map_range, List.map_map, List.map_map]
  rfl

theorem Closed.appended (closed : b.Closed)
    (numbered : b.nodes.map (·.id) = (List.range b.nodes.length).map NodeId.mk) :
    Appended base (base.followedBy b) b.draft where
  nodes      := rfl
  branches   := rfl
  chain      := rfl
  numbered   := map_id_placeNode numbered
  routers _ h := (List.mem_append.mp h).imp_right <| isNew_of_mem_branches closed.known
  links _ h   := (List.mem_append.mp h).imp_right <| isNew_of_mem_chain closed.known

end Plan.Builder

namespace Definition

open Plan Plan.Builder

variable {resolve : Resolver} {d : Definition} {base : Builder}

-- Assembling fails where making a plan of the definition does, and otherwise appends that plan.
theorem assemble_appends (known : ∀ id ∈ base.mentioned, id.index < base.nodes.length) :
    (∀ e, d.assemble resolve base = .error e ↔ d.compile resolve = .error e) ∧
      ∀ id b, d.assemble resolve base = .ok (id, b) →
        ∃ p, d.compile resolve = .ok p ∧ id = base.place p.root ∧ Appended base b p := by
  rw [assemble_eq_map known, compile_eq]
  cases assembled : d.assemble resolve empty with
  | error e => exact ⟨by simp [Except.map], nofun⟩
  | ok r =>
    have ⟨root, ext, part⟩ := appends resolve d closed_empty assembled
    refine ⟨fun _ => ⟨nofun, nofun⟩, fun id b behind => ?_⟩
    cases behind
    exact ⟨_, rfl, congrArg base.place root, ext.closed.appended part.map_id_nodes⟩

-- Behind a builder that has a branch table and a chain already.
theorem assemble_appends_office :
    let base := ofOperations officeOperations
    (∀ id ∈ base.mentioned, id.index < base.nodes.length) ∧
      ∃ b, overridden.assemble (stepsWithout ["retired"]) base = .ok (⟨5⟩, b) ∧
        b.chain = base.chain ++ [(⟨7⟩, ⟨8⟩)] ∧
        b.branches = base.branches ++ [(⟨5⟩, [("sales", ⟨6⟩), ("help", ⟨7⟩)])] ∧
        overridden.assemble (stepsWithout ["help"]) base = .error (.unknownStepKey "help") := by
  intro base
  have known : ∀ id ∈ base.mentioned, id.index < base.nodes.length := by decide
  have ⟨b, assembled⟩ :
      ∃ b, overridden.assemble (stepsWithout ["retired"]) base = .ok (⟨5⟩, b) := ⟨_, rfl⟩
  have ⟨p, loaded, _, appended⟩ := (assemble_appends known).right _ _ assembled
  refine ⟨known, b, assembled, ?chain, ?branches, ((assemble_appends known).left _).mpr rfl⟩
  case chain    => rw [appended.chain]; cases loaded; rfl
  case branches => rw [appended.branches]; cases loaded; rfl

end Definition
end RoutingPlan
