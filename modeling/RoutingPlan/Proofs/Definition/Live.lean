import Mathlib.Data.List.Basic
import Mathlib.Data.List.Nodup
import Mathlib.Data.List.Induction
import RoutingPlan.Plan.Compile

-- Which nodes of a definition count. Of the children of a router with one route key only the last
-- one does, at the place of the first (`mem_standing_iff`, `map_routeKey_standing`); `live` lists
-- the nodes that count in the order in which they are visited.

namespace RoutingPlan.Definition

theorem sizeOf_lt_of_mem_children {c d : Definition} (h : c ∈ d.children) :
    sizeOf c < sizeOf d := by
  match d with
  | mk s r none => simp [children, children?] at h
  | mk s r (some cs) =>
    have := List.sizeOf_lt_of_mem h
    simp only [children, children?, Option.getD_some] at this
    simp only [mk.sizeOf_spec, Option.some.sizeOf_spec]
    omega

@[elab_as_elim]
theorem childInduction {motive : Definition → Prop}
    (node : ∀ d, (∀ c ∈ d.children, motive c) → motive d) (d : Definition) : motive d :=
  node d fun c _ => childInduction node c
termination_by sizeOf d
decreasing_by exact sizeOf_lt_of_mem_children ‹_›

def lastWith? (routeKey : Option String) (cs : List Definition) : Option Definition :=
  cs.findRev? (·.routeKey = routeKey)

-- The children of a router that count: of those with the same route key the last one, at the place
-- of the first one.
def standing (cs : List Definition) : List Definition :=
  (cs.map routeKey).eraseDups.filterMap (lastWith? · cs)

section Standing

section

variable {α : Type} [BEq α] [LawfulBEq α] {a : α} {l : List α}

theorem eraseDups_concat [DecidableEq α] :
    (l ++ [a]).eraseDups = if a ∈ l then l.eraseDups else l.eraseDups ++ [a] := by
  rw [List.eraseDups_append]
  split <;> simp_all [List.removeAll, List.eraseDups_cons]

theorem eraseDups_sublist [DecidableEq α] : l.eraseDups.Sublist l := by
  induction l using List.reverseRecOn with
  | nil => simp
  | append_singleton l a ih =>
    rw [eraseDups_concat]
    split
    case isTrue  => exact ih.trans (List.sublist_append_left ..)
    case isFalse => exact ih.append (List.Sublist.refl _)

theorem nodup_eraseDups [DecidableEq α] : l.eraseDups.Nodup := by
  induction l using List.reverseRecOn with
  | nil => simp
  | append_singleton l a ih =>
    rw [eraseDups_concat]
    split
    case isTrue    => exact ih
    case isFalse h => exact ih.append (List.nodup_singleton a) (by simpa using h)

end

variable {c : Definition} {cs : List Definition} {r : Option String}

theorem lastWith?_concat :
    lastWith? r (cs ++ [c]) = if c.routeKey = r then some c else lastWith? r cs := by
  simp only [lastWith?, List.findRev?_eq_find?_reverse, List.reverse_append, List.reverse_singleton,
    List.singleton_append, List.find?_cons]
  split <;> simp_all

theorem routeKey_of_lastWith? (h : lastWith? r cs = some c) : c.routeKey = r := by
  rw [lastWith?, List.findRev?_eq_find?_reverse] at h
  simpa using List.find?_some h

theorem mem_of_lastWith? (h : lastWith? r cs = some c) : c ∈ cs := by
  rw [lastWith?, List.findRev?_eq_find?_reverse] at h
  exact List.mem_reverse.mp <| List.mem_of_find?_eq_some h

theorem lastWith?_isSome (h : r ∈ cs.map routeKey) : (lastWith? r cs).isSome := by
  have ⟨c, hc, hr⟩ := List.mem_map.mp h
  rw [lastWith?, List.findRev?_eq_find?_reverse, List.find?_isSome]
  exact ⟨c, List.mem_reverse.mpr hc, decide_eq_true hr⟩

theorem lastWith?_eq_none (h : r ∉ cs.map routeKey) : lastWith? r cs = none := by
  rw [lastWith?, List.findRev?_eq_find?_reverse, List.find?_eq_none]
  intro c hc hr
  exact h <| List.mem_map.mpr ⟨c, List.mem_reverse.mp hc, of_decide_eq_true hr⟩

theorem mem_of_mem_standing (h : c ∈ standing cs) : c ∈ cs := by
  have ⟨_, _, h⟩ := List.mem_filterMap.mp h
  exact mem_of_lastWith? h

-- The children that count are those that no later child with the same route key follows.
theorem mem_standing_iff :
    c ∈ standing cs ↔ ∃ l r, cs = l ++ c :: r ∧ c.routeKey ∉ r.map routeKey := by
  have last : c ∈ standing cs ↔ lastWith? c.routeKey cs = some c := by
    rw [standing, List.mem_filterMap]
    constructor
    case mp =>
      intro ⟨r, _, hr⟩
      rwa [routeKey_of_lastWith? hr]
    case mpr =>
      intro h
      refine ⟨c.routeKey, List.mem_eraseDups.mpr ?_, h⟩
      exact List.mem_map_of_mem <| mem_of_lastWith? h
  rw [last, lastWith?, List.findRev?_eq_find?_reverse, List.find?_eq_some_iff_append]
  constructor
  case mp =>
    intro ⟨_, r, l, hcs, hr⟩
    refine ⟨l.reverse, r.reverse, ?_, ?_⟩
    · simpa using congrArg List.reverse hcs
    · simpa using hr
  case mpr =>
    intro ⟨l, r, hcs, hr⟩
    exact ⟨by simp, r.reverse, l.reverse, by simp [hcs], by simpa using hr⟩

theorem map_routeKey_standing : (standing cs).map routeKey = (cs.map routeKey).eraseDups := by
  have key : ∀ r ∈ (cs.map routeKey).eraseDups, (lastWith? r cs).map routeKey = some r := by
    intro r hr
    have ⟨c, hc⟩ := Option.isSome_iff_exists.mp <| lastWith?_isSome <| List.mem_eraseDups.mp hr
    simp [hc, routeKey_of_lastWith? hc]
  rw [standing, List.map_filterMap, List.filterMap_congr key, List.filterMap_some]

theorem nodup_routeKey_standing : ((standing cs).map routeKey).Nodup :=
  map_routeKey_standing ▸ nodup_eraseDups

theorem standing_ne_nil (h : cs ≠ []) : standing cs ≠ [] := by
  intro hs
  have none : (cs.map routeKey).eraseDups = [] := by
    rw [← map_routeKey_standing, hs, List.map_nil]
  cases cs with
  | nil => exact h rfl
  | cons c cs => rw [List.map_cons, List.eraseDups_cons] at none; cases none

theorem standing_concat :
    standing (cs ++ [c]) =
      if c.routeKey ∈ cs.map routeKey
      then (standing cs).map fun s => if s.routeKey = c.routeKey then c else s
      else standing cs ++ [c] := by
  have old : ∀ r ∈ (cs.map routeKey).eraseDups, lastWith? r (cs ++ [c]) =
      (lastWith? r cs).map fun s => if s.routeKey = c.routeKey then c else s := by
    intro r hr
    have ⟨s, hs⟩ := Option.isSome_iff_exists.mp <| lastWith?_isSome <| List.mem_eraseDups.mp hr
    rw [lastWith?_concat, hs, Option.map_some, routeKey_of_lastWith? hs]
    split <;> simp_all [eq_comm]
  rw [standing, List.map_append, List.map_singleton, eraseDups_concat]
  split
  case isTrue h => rw [List.filterMap_congr old, standing, List.map_filterMap]
  case isFalse h =>
    have same : ∀ r ∈ (cs.map routeKey).eraseDups, lastWith? r (cs ++ [c]) = lastWith? r cs := by
      intro r hr
      refine lastWith?_concat.trans <| if_neg fun hc => h ?_
      exact hc ▸ List.mem_eraseDups.mp hr
    rw [List.filterMap_append, List.filterMap_congr same, standing]
    simp [lastWith?_concat]

theorem find?_standing : (standing cs).find? (·.routeKey = r) = lastWith? r cs := by
  induction cs using List.reverseRecOn with
  | nil => rfl
  | append_singleton cs c ih =>
    rw [standing_concat, lastWith?_concat]
    split
    case isTrue h =>
      have kept :
          ((fun s : Definition => decide (s.routeKey = r)) ∘
            fun s => if s.routeKey = c.routeKey then c else s) =
          fun s => decide (s.routeKey = r) := by
        funext s
        by_cases hs : s.routeKey = c.routeKey <;> simp [hs]
      rw [List.find?_map, kept, ih]
      by_cases hc : c.routeKey = r
      case pos =>
        have ⟨s, hs⟩ := Option.isSome_iff_exists.mp <| lastWith?_isSome (hc ▸ h)
        simp [hc, hs, routeKey_of_lastWith? hs]
      case neg =>
        cases hs : lastWith? r cs with
        | none => simp [hc]
        | some s => simp [hc, routeKey_of_lastWith? hs, Ne.symm hc]
    case isFalse h =>
      rw [List.find?_append, ih]
      by_cases hc : c.routeKey = r
      case pos => simp [hc, lastWith?_eq_none (hc ▸ h)]
      case neg => simp [hc]

theorem standing_eq_self (h : (cs.map routeKey).Nodup) : standing cs = cs := by
  induction cs using List.reverseRecOn with
  | nil => rfl
  | append_singleton cs c ih =>
    rw [List.map_append, List.nodup_append] at h
    have fresh : c.routeKey ∉ cs.map routeKey := fun hc => h.2.2 _ hc _ (by simp) rfl
    rw [standing_concat, if_neg fresh, ih h.1]

theorem nodup_of_length_standing (h : (standing cs).length = cs.length) :
    (cs.map routeKey).Nodup := by
  have same : (cs.map routeKey).eraseDups = cs.map routeKey := by
    refine eraseDups_sublist.eq_of_length ?_
    rw [← map_routeKey_standing, List.length_map, List.length_map, h]
  exact same ▸ nodup_eraseDups

end Standing

def kind? (resolve : Resolver) (d : Definition) : Option StepKind :=
  match resolve d.step with
  | .ok step => some step.kind
  | .error _ => none

theorem kind?_eq_some {resolve : Resolver} {d : Definition} {step : Step}
    (resolved : resolve d.step = .ok step) : d.kind? resolve = some step.kind := by
  rw [kind?, resolved]

theorem exists_step_of_kind? {resolve : Resolver} {d : Definition} {kind : StepKind}
    (h : d.kind? resolve = some kind) : ∃ step, resolve d.step = .ok step ∧ step.kind = kind := by
  unfold kind? at h
  split at h
  case h_1 step resolved => exact ⟨step, resolved, Option.some.inj h⟩
  case h_2 => cases h

-- The nodes right below a live node that are live themselves, in the order in which they are
-- visited.
def successors (resolve : Resolver) (d : Definition) : List Definition :=
  match d.kind? resolve with
  | some .router => standing d.children
  | some .action => if d.children.length = 1 then d.children else []
  | none => []

theorem mem_children_of_mem_successors {resolve : Resolver} {c d : Definition}
    (h : c ∈ d.successors resolve) : c ∈ d.children := by
  unfold successors at h
  split at h
  case h_1 => exact mem_of_mem_standing h
  case h_2 =>
    split at h
    case isTrue  => exact h
    case isFalse => exact absurd h List.not_mem_nil
  case h_3 => exact absurd h List.not_mem_nil

theorem successors_router {resolve : Resolver} {d : Definition}
    (h : d.kind? resolve = some .router) : d.successors resolve = standing d.children := by
  rw [successors, h]

theorem successors_action {resolve : Resolver} {d : Definition}
    (h : d.kind? resolve = some .action) (single : d.children.length ≤ 1) :
    d.successors resolve = d.children := by
  rw [successors, h]
  match children : d.children with
  | []           => rfl
  | [_]          => rfl
  | _ :: _ :: _  => rw [children] at single; simp at single

-- The live nodes of a definition, each as the definition that it begins, in depth-first pre-order.
def live (resolve : Resolver) (d : Definition) : List Definition :=
  d :: (d.successors resolve).attach.flatMap fun c => live resolve c.val
termination_by sizeOf d
decreasing_by exact sizeOf_lt_of_mem_children <| mem_children_of_mem_successors c.property

theorem live_eq (resolve : Resolver) (d : Definition) :
    d.live resolve = d :: (d.successors resolve).flatMap (live resolve) := by
  rw [live, List.flatMap_subtype fun _ _ => rfl, List.unattach_attach]

theorem live_router {resolve : Resolver} {d : Definition} (h : d.kind? resolve = some .router) :
    d.live resolve = d :: (standing d.children).flatMap (live resolve) := by
  rw [live_eq, successors_router h]

theorem live_action {resolve : Resolver} {d : Definition} (h : d.kind? resolve = some .action)
    (single : d.children.length ≤ 1) :
    d.live resolve = d :: d.children.flatMap (live resolve) := by
  rw [live_eq, successors_action h single]

-- A router whose first branch has been replaced by its last one, and the steps for it; keys in
-- `missing` have no step.
def overridden : Definition :=
  mk "desk" none <| some [
    mk "retired" (some "sales") <| some [leaf "sell", leaf "bill"],
    mk "help" (some "help") <| some [mk "close" (some "done") none],
    mk "sell" (some "sales") none]

def stepsWithout (missing : List String) : Resolver := fun key =>
  if key ∈ missing then .error (.unknownStepKey key)
  else if key = "desk" then .ok <| .router key fun input _ => .done (some input.text)
  else .ok <| .action key fun input _ => .done (some input)

example :
    (overridden.live (stepsWithout ["retired"])).map step = ["desk", "sell", "help", "close"] := by
  decide +kernel

end RoutingPlan.Definition
