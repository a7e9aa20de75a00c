import Mathlib.Logic.Relation
import RoutingPlan.Proofs.Definition.NormalForm

-- Changes to a definition that make no difference to what it compiles to, be it a plan or an error:
-- how an empty list of children is written, route keys that nobody looks at, and branches that a
-- later one replaces.

namespace RoutingPlan.Definition

def rekeyed (r : Option String) (d : Definition) : Definition :=
  mk d.step r d.children?

-- One change, at a node or somewhere below it. It leaves the step and the route key of the node
-- itself as they are, so that the nodes above have the same child as before.
inductive Change (resolve : Resolver) : Definition → Definition → Prop
  | emptied {step r} : Change resolve (mk step r none) (mk step r (some []))
  | omitted {step r} : Change resolve (mk step r (some [])) (mk step r none)
  | rekeyed {step r c} (r' : Option String)
      (kind : (mk step r (some [c])).kind? resolve = some .action) :
      Change resolve (mk step r (some [c])) (mk step r (some [c.rekeyed r']))
  | replaced {step r key before c c' after}
      (kind : (mk step r (some (before ++ c :: after))).kind? resolve = some .router)
      (filled : Text.isBlank key = false)
      (routeKey : c.routeKey = some key)
      (routeKey' : c'.routeKey = some key)
      (later : some key ∈ after.map Definition.routeKey) :
      Change resolve (mk step r (some (before ++ c :: after)))
        (mk step r (some (before ++ c' :: after)))
  | deleted {step r key before c after}
      (kind : (mk step r (some (before ++ c :: after))).kind? resolve = some .router)
      (filled : Text.isBlank key = false)
      (routeKey : c.routeKey = some key)
      (earlier : some key ∈ before.map Definition.routeKey)
      (later : some key ∈ after.map Definition.routeKey) :
      Change resolve (mk step r (some (before ++ c :: after))) (mk step r (some (before ++ after)))
  | inside {step r before c c' after} (change : Change resolve c c') :
      Change resolve (mk step r (some (before ++ c :: after)))
        (mk step r (some (before ++ c' :: after)))

-- A change somewhere, or another route key for the first step.
inductive Ignored (resolve : Resolver) (d : Definition) : Definition → Prop
  | change {d'} (h : Change resolve d d') : Ignored resolve d d'
  | rekeyed (r : Option String) : Ignored resolve d (d.rekeyed r)

variable {resolve : Resolver} {d d' c c' : Definition} {before after : List Definition}
  {r : Option String}

theorem Change.step_eq (change : Change resolve d d') : d'.step = d.step := by
  cases change <;> rfl

theorem Change.routeKey_eq (change : Change resolve d d') : d'.routeKey = d.routeKey := by
  cases change <;> rfl

section Standing

theorem lastWith?_append :
    lastWith? r (before ++ after) = (lastWith? r after).or (lastWith? r before) := by
  simp only [lastWith?, List.findRev?_eq_find?_reverse, List.reverse_append, List.find?_append]

-- A child does not count if a later one has its route key.
theorem lastWith?_of_later (later : c.routeKey ∈ after.map routeKey) :
    lastWith? r (before ++ c :: after) = lastWith? r (before ++ after) := by
  rw [← List.singleton_append, ← List.append_assoc, lastWith?_append, lastWith?_concat,
    lastWith?_append]
  split
  case isTrue h =>
    have ⟨s, hs⟩ := Option.isSome_iff_exists.mp <| lastWith?_isSome (h ▸ later)
    simp [hs]
  case isFalse => rfl

theorem standing_replaced (same : c'.routeKey = c.routeKey)
    (later : c.routeKey ∈ after.map routeKey) :
    standing (before ++ c' :: after) = standing (before ++ c :: after) := by
  have keys : (before ++ c' :: after).map routeKey = (before ++ c :: after).map routeKey := by
    simp [same]
  have last : ∀ r, lastWith? r (before ++ c' :: after) = lastWith? r (before ++ c :: after) :=
    fun r => (lastWith?_of_later (same ▸ later)).trans (lastWith?_of_later later).symm
  simp only [standing, keys, last]

theorem standing_deleted (earlier : c.routeKey ∈ before.map routeKey)
    (later : c.routeKey ∈ after.map routeKey) :
    standing (before ++ after) = standing (before ++ c :: after) := by
  have keys : ((before ++ c :: after).map routeKey).eraseDups =
      ((before ++ after).map routeKey).eraseDups := by
    simp only [List.map_append, List.map_cons, List.eraseDups_append, List.removeAll]
    rw [List.filter_cons_of_neg (by simpa using earlier)]
  simp only [standing, keys, lastWith?_of_later later]

theorem find?_lacksRouteKey_append (h : c.lacksRouteKey = false) :
    (before ++ c :: after).find? lacksRouteKey = (before ++ after).find? lacksRouteKey := by
  simp [List.find?_append, h]

end Standing

section Assemble

theorem assemble_rekeyed : (d.rekeyed r).assemble resolve = d.assemble resolve := by
  obtain ⟨step, r', children⟩ := d
  rw [assemble_eq, assemble_eq]
  rfl

-- Assembling a node takes into account its step and, of each child, what a `Child` holds.
theorem assemble_congr (step : d'.step = d.step)
    (children : d'.children.map (toChild resolve) = d.children.map (toChild resolve)) :
    d'.assemble resolve = d.assemble resolve := by
  rw [assemble_eq, assemble_eq, step, children]

-- Of a router it takes into account the first child without a route key, or else the children that
-- count.
theorem assemble_congr_router (kind : d.kind? resolve = some .router) (step : d'.step = d.step)
    (nonempty : d.children ≠ []) (nonempty' : d'.children ≠ [])
    (lacking : d'.children.find? lacksRouteKey = d.children.find? lacksRouteKey)
    (counting : standing d'.children = standing d.children) :
    d'.assemble resolve = d.assemble resolve := by
  have ⟨s, resolved, kind⟩ := exists_step_of_kind? kind
  funext b
  cases s with
  | action => cases kind
  | router =>
    rw [assemble_router resolved, assemble_router (step ▸ resolved), if_neg nonempty,
      if_neg nonempty', lacking, counting, step]

theorem assemble_congr_action (kind : d.kind? resolve = some .action) (step : d'.step = d.step)
    (children : d.children = [c]) (children' : d'.children = [c'])
    (child : c'.assemble resolve = c.assemble resolve) :
    d'.assemble resolve = d.assemble resolve := by
  have ⟨s, resolved, kind⟩ := exists_step_of_kind? kind
  funext b
  cases s with
  | router => cases kind
  | action =>
    rw [assemble_action resolved, assemble_action (step ▸ resolved), children, children', step]
    simp only [child]

-- The induction is on where the change is made; on the way up to the root every node has a child
-- that it cannot tell from the one before.
theorem Change.assemble_eq (change : Change resolve d d') :
    d'.assemble resolve = d.assemble resolve := by
  induction change with
  | emptied | omitted => exact assemble_congr rfl rfl
  | rekeyed r' kind => exact assemble_congr_action kind rfl rfl rfl assemble_rekeyed
  | replaced kind filled routeKey routeKey' later =>
    refine assemble_congr_router kind rfl (by simp [children, children?])
      (by simp [children, children?]) ?_ ?_
    · have lacks {c : Definition} (h : c.routeKey = some _) : c.lacksRouteKey = false :=
        lacksRouteKey_eq_false_iff.mpr ⟨_, h, filled⟩
      exact (find?_lacksRouteKey_append (lacks routeKey')).trans
        (find?_lacksRouteKey_append (lacks routeKey)).symm
    · exact standing_replaced (routeKey'.trans routeKey.symm) (routeKey ▸ later)
  | deleted kind filled routeKey earlier later =>
    refine assemble_congr_router kind rfl (by simp [children, children?]) ?_ ?_ ?_
    · have : _ ≠ [] := List.ne_nil_of_mem (List.mem_map.mp later).choose_spec.1
      simp [children, children?, this]
    · have lacks := lacksRouteKey_eq_false_iff.mpr ⟨_, routeKey, filled⟩
      exact (find?_lacksRouteKey_append lacks).symm
    · exact standing_deleted (routeKey ▸ earlier) (routeKey ▸ later)
  | inside change ih =>
    refine assemble_congr rfl ?_
    simp only [children, children?, Option.getD_some, List.map_append, List.map_cons, toChild, ih,
      change.step_eq, change.routeKey_eq]

theorem Ignored.assemble_eq (ignored : Ignored resolve d d') :
    d'.assemble resolve = d.assemble resolve := by
  cases ignored with
  | change h => exact h.assemble_eq
  | rekeyed  => exact assemble_rekeyed

theorem toChild_eq_of_isEquivalent (h : c.isEquivalent c' = true)
    (assembly : c.assemble resolve = c'.assemble resolve) :
    c.toChild resolve = c'.toChild resolve := by
  have ⟨step, routeKey, _⟩ := isEquivalent_iff.mp h
  rw [toChild, toChild, step, routeKey, assembly]

theorem assemble_eq_of_isEquivalent (h : d.isEquivalent d' = true) :
    d.assemble resolve = d'.assemble resolve := by
  induction d using childInduction generalizing d' with
  | node d ih =>
    have ⟨step, _, children⟩ := isEquivalent_iff.mp h
    refine assemble_congr step ?_
    rw [← List.forall₂_eq_eq_eq, List.forall₂_map_left_iff, List.forall₂_map_right_iff]
    refine ((List.forall₂_and_left _ _).mpr ⟨fun c hc => hc, children⟩).imp ?_
    intro c c' ⟨hc, h⟩
    exact toChild_eq_of_isEquivalent h (ih c hc h)

end Assemble

theorem compile_eq_of_assemble_eq (h : d'.assemble resolve = d.assemble resolve) :
    d'.compile resolve = d.compile resolve := by
  rw [compile, compile, h]

theorem assemble_eq_of_ignored (changes : Relation.ReflTransGen (Ignored resolve) d d') :
    d'.assemble resolve = d.assemble resolve := by
  induction changes with
  | refl => rfl
  | tail _ ignored ih => exact ignored.assemble_eq.trans ih

-- Any number of such changes at any depth, and all ways to write empty lists of children, make the
-- same plan with the same numbers and tables, or the same error.
theorem compile_eq_of_ignored (resolve : Resolver) (d : Definition) :
    (∀ d', Relation.ReflTransGen (Ignored resolve) d d' →
      d'.compile resolve = d.compile resolve) ∧
    ∀ d', d.isEquivalent d' = true → d'.compile resolve = d.compile resolve := by
  refine ⟨fun d' changes => ?_, fun d' h => ?_⟩
  · exact compile_eq_of_assemble_eq (assemble_eq_of_ignored changes)
  · exact compile_eq_of_assemble_eq (assemble_eq_of_isEquivalent h).symm

-- Of three branches for one route key the second goes and the first gives way to one that nobody
-- could take; a chained step gets another route key and the desk one of its own.
theorem compile_crowded_eq :
    let help := mk "help" (some "help") <| some [mk "close" (some "done") none]
    let help' := mk "help" (some "help") <| some [mk "close" (some "over") none]
    let sell := mk "sell" (some "sales") none
    let crowded := mk "desk" none <| some
      [mk "bill" (some "sales") none, mk "close" (some "sales") none, help, sell]
    let changed := mk "desk" (some "front") <| some
      [mk "retired" (some "sales") <| some [leaf "bill", leaf "bill"], help', sell]
    let spelled := mk "desk" none <| some
      [mk "bill" (some "sales") (some []), mk "close" (some "sales") none, help, sell]
    let resolve := stepsWithout ["retired"]
    Relation.ReflTransGen (Ignored resolve) crowded changed ∧ crowded.isEquivalent spelled = true ∧
      changed.compile resolve = crowded.compile resolve ∧
      spelled.compile resolve = crowded.compile resolve := by
  intro help help' sell crowded changed spelled resolve
  let bill := mk "bill" (some "sales") none
  let close := mk "close" (some "sales") none
  let retired := mk "retired" (some "sales") <| some [leaf "bill", leaf "bill"]
  have filled : Text.isBlank "sales" = false := by decide
  have kind {cs : Option (List Definition)} : (mk "desk" none cs).kind? resolve = some .router :=
    rfl
  have second := @Change.deleted resolve "desk" none "sales" [bill] close [help, sell] kind filled
    rfl (by decide) (by decide)
  have first := @Change.replaced resolve "desk" none "sales" [] bill retired [help, sell] kind
    filled rfl rfl (by decide)
  have chained := @Change.inside resolve "desk" none [retired] help help' [sell] <|
    .rekeyed (some "over") rfl
  have changes : Relation.ReflTransGen (Ignored resolve) crowded changed :=
    (((Relation.ReflTransGen.single (.change second)).tail (.change first)).tail
      (.change chained)).tail (.rekeyed (some "front"))
  have ⟨ignored, equivalent⟩ := compile_eq_of_ignored resolve crowded
  have spelling : crowded.isEquivalent spelled = true := by decide +kernel
  exact ⟨changes, spelling, ignored changed changes, equivalent spelled spelling⟩

end RoutingPlan.Definition
