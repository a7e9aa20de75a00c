import RoutingPlan.Proofs.Definition.Live
import RoutingPlan.Proofs.Keyed

-- Assembling a definition, as one equation for each kind of step.

namespace RoutingPlan.Definition

variable {resolve : Resolver} {d c : Definition} {cs : List Definition} {b : Plan.Builder}

-- No route key, or a blank one.
def lacksRouteKey (d : Definition) : Bool :=
  d.routeKey.all Text.isBlank

def label (d : Definition) : String :=
  d.routeKey.getD ""

theorem routeKey_eq_some_label (h : c.lacksRouteKey = false) : c.routeKey = some c.label := by
  cases hc : c.routeKey with
  | none => simp [lacksRouteKey, hc] at h
  | some => simp [label, hc]

theorem isBlank_label (h : c.lacksRouteKey = false) : Text.isBlank c.label = false := by
  rwa [lacksRouteKey, routeKey_eq_some_label h, Option.all_some] at h

theorem map_some_label (h : ∀ c ∈ cs, c.lacksRouteKey = false) :
    (cs.map label).map some = cs.map routeKey := by
  rw [List.map_map]
  exact List.map_congr_left fun c hc => (routeKey_eq_some_label (h c hc)).symm

theorem nodup_label_standing (h : ∀ c ∈ cs, c.lacksRouteKey = false) :
    ((standing cs).map label).Nodup := by
  refine List.Nodup.of_map some ?_
  rw [map_some_label fun c hc => h c (mem_of_mem_standing hc)]
  exact nodup_routeKey_standing

-- `standing_concat` for children that all have a route key.
theorem standing_concat_label (h : ∀ s ∈ cs ++ [c], s.lacksRouteKey = false) :
    standing (cs ++ [c]) =
      if c.label ∈ (standing cs).map label
      then (standing cs).map fun s => if s.label = c.label then c else s
      else standing cs ++ [c] := by
  have hc := routeKey_eq_some_label <| h c (by simp)
  have hs : ∀ s ∈ standing cs, s.routeKey = some s.label := fun s hs =>
    routeKey_eq_some_label <| h s <| List.mem_append_left _ <| mem_of_mem_standing hs
  have mem : c.label ∈ (standing cs).map label ↔ c.routeKey ∈ cs.map routeKey := by
    rw [← List.mem_eraseDups (l := cs.map routeKey), ← map_routeKey_standing, List.mem_map,
      List.mem_map]
    refine exists_congr fun s => and_congr_right fun h => ?_
    rw [hs s h, hc, Option.some_inj]
  have same : ∀ s ∈ standing cs,
      (if s.routeKey = c.routeKey then c else s) = if s.label = c.label then c else s := by
    intro s h
    rw [hs s h, hc]
    simp only [Option.some_inj]
  rw [standing_concat, List.map_congr_left same]
  simp only [mem]

def toChild (resolve : Resolver) (c : Definition) : Child :=
  ⟨c.step, c.routeKey, c.assemble resolve⟩

def toArm (resolve : Resolver) (c : Definition) : String × Assembly :=
  (c.label, c.assemble resolve)

theorem map_eq_ok {ε α β : Type} {f : α → β} {x : Except ε α} {y : β} (h : x.map f = .ok y) :
    ∃ a, x = .ok a ∧ f a = y := by
  cases x with
  | error => cases h
  | ok a  => cases h; exact ⟨a, rfl, rfl⟩

theorem childrenToAssemble_eq_map :
    childrenToAssemble resolve cs = cs.map (toChild resolve) := by
  induction cs with
  | nil => rfl
  | cons c cs ih => rw [childrenToAssemble, ih, List.map_cons, toChild]

theorem arms_append {router : String} (cs cs' : List Child) (t : List (String × Assembly)) :
    arms router (cs ++ cs') t = (arms router cs t).bind (arms router cs') := by
  induction cs generalizing t with
  | nil => rfl
  | cons c cs ih =>
    rw [List.cons_append, arms, arms]
    split
    case h_1 => split <;> first | rfl | exact ih _
    case h_2 => rfl

theorem arms_singleton {router : String} (t : List (String × Assembly)) :
    arms router [c.toChild resolve] t =
      if c.lacksRouteKey then .error (.childMissingRouteKey router c.step)
      else .ok (Keyed.put c.label (c.assemble resolve) t) := by
  cases hc : c.routeKey with
  | none => simp [arms, toChild, lacksRouteKey, hc]
  | some key => simp [arms, toChild, lacksRouteKey, label, hc]

-- A later child takes the place of an earlier one with its route key, so what is left in the end
-- are the children that count.
theorem arms_eq_ok {router : String} (h : ∀ c ∈ cs, c.lacksRouteKey = false) :
    arms router (cs.map (toChild resolve)) [] = .ok ((standing cs).map (toArm resolve)) := by
  induction cs using List.reverseRecOn with
  | nil => rfl
  | append_singleton cs c ih =>
    have hcs : ∀ c ∈ cs, c.lacksRouteKey = false := fun s hs => h s (List.mem_append_left _ hs)
    have put : Keyed.put c.label (c.assemble resolve) ((standing cs).map (toArm resolve)) =
        (standing (cs ++ [c])).map (toArm resolve) := by
      rw [standing_concat_label h]
      exact Keyed.put_map c (nodup_label_standing hcs)
    rw [List.map_append, List.map_singleton, arms_append, ih hcs, Except.bind, arms_singleton,
      h c (by simp), put]
    rfl

theorem arms_eq_error {router : String} (t : List (String × Assembly))
    (h : cs.find? lacksRouteKey = some c) :
    arms router (cs.map (toChild resolve)) t = .error (.childMissingRouteKey router c.step) := by
  induction cs generalizing t with
  | nil => simp at h
  | cons s cs ih =>
    rw [List.map_cons, ← List.singleton_append, arms_append, arms_singleton]
    cases hs : s.lacksRouteKey <;> rw [List.find?_cons, hs] at h
    case false => exact ih _ h
    case true  => cases h; rfl

theorem assemble_eq :
    d.assemble resolve = assembleNode resolve d.step (d.children.map (toChild resolve)) := by
  rw [← childrenToAssemble_eq_map]
  match d with
  | mk _ _ none | mk _ _ (some _) => rfl

theorem assemble_of_resolve_error {e : Error} (h : resolve d.step = .error e) :
    d.assemble resolve b = .error e := by
  rw [assemble_eq, assembleNode, h]
  rfl

theorem assemble_router {name : String} {decide : Json.Value → Context → Reply (Option String)}
    (h : resolve d.step = .ok (.router name decide)) :
    d.assemble resolve b =
      if d.children = [] then .error (.routerMissingChildren d.step)
      else match d.children.find? lacksRouteKey with
        | some c => .error (.childMissingRouteKey d.step c.step)
        | none =>
          (connect ⟨b.nodes.length⟩ ((standing d.children).map (toArm resolve))
            (b.add d.step (.router name decide)).2).map (⟨b.nodes.length⟩, ·) := by
  rw [assemble_eq, assembleNode, h]
  cases hd : d.children with
  | nil => rfl
  | cons s cs =>
    rw [if_neg (List.cons_ne_nil s cs)]
    simp only [bind, Except.bind, Step.kind, List.map_cons]
    rw [← List.map_cons]
    cases hf : (s :: cs).find? lacksRouteKey with
    | some c => rw [arms_eq_error _ hf]
    | none =>
      rw [arms_eq_ok fun c hc => by simpa using List.find?_eq_none.mp hf c hc]
      rfl

theorem assemble_action {name : String} {act : Json.Value → Context → Reply (Option Json.Value)}
    (h : resolve d.step = .ok (.action name act)) :
    d.assemble resolve b =
      match d.children with
      | [] => .ok (⟨b.nodes.length⟩, (b.add d.step (.action name act)).2)
      | [c] =>
        (c.assemble resolve (b.add d.step (.action name act)).2).map fun (next, b') =>
          (⟨b.nodes.length⟩, b'.chainTo ⟨b.nodes.length⟩ next)
      | cs => .error (.actionInvalidChildCardinality d.step cs.length) := by
  rw [assemble_eq, assembleNode, h]
  match hd : d.children with
  | [] | [c] => rfl
  | c₁ :: c₂ :: cs => simp [bind, Except.bind, Step.kind]

end RoutingPlan.Definition
