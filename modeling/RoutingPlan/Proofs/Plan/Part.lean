import RoutingPlan.Proofs.Definition.Live
import RoutingPlan.Proofs.Keyed

-- Parts of a plan: the numbers from `i` up to `j` as the nodes of one definition.

namespace RoutingPlan

theorem NodeId.ne_of_index_lt {x y : NodeId} (h : x.index < y.index) : x ≠ y :=
  fun eq => Nat.ne_of_lt h (congrArg index eq)

namespace Plan

open Definition

-- `p.Part resolve d i j` says that the nodes of `p` with numbers from `i` up to, but without, `j`
-- are the live nodes of `d` as `resolve` finds their steps: the first one is node `i`, and the
-- tables lead from each node to the nodes right below it. `Arms` says the same of the children of a
-- router and the entries of its branch table.
mutual

inductive Part (p : Plan) (resolve : Resolver) : Definition → Nat → Nat → Prop
  | router {d i j name decide table}
      (resolved : resolve d.step = .ok (.router name decide))
      (node : p.node? ⟨i⟩ = some ⟨⟨i⟩, d.step, .router name decide⟩)
      (branches : p.branches? ⟨i⟩ = some table)
      (next : p.next? ⟨i⟩ = none)
      (nonempty : d.children ≠ [])
      (arms : Arms p resolve (standing d.children) table (i + 1) j) : Part p resolve d i j
  | final {d i name act}
      (resolved : resolve d.step = .ok (.action name act))
      (node : p.node? ⟨i⟩ = some ⟨⟨i⟩, d.step, .action name act⟩)
      (branches : p.branches? ⟨i⟩ = none)
      (next : p.next? ⟨i⟩ = none)
      (children : d.children = []) : Part p resolve d i (i + 1)
  | chained {d c i j name act}
      (resolved : resolve d.step = .ok (.action name act))
      (node : p.node? ⟨i⟩ = some ⟨⟨i⟩, d.step, .action name act⟩)
      (branches : p.branches? ⟨i⟩ = none)
      (next : p.next? ⟨i⟩ = some ⟨i + 1⟩)
      (children : d.children = [c])
      (part : Part p resolve c (i + 1) j) : Part p resolve d i j

inductive Arms (p : Plan) (resolve : Resolver) : List Definition → Branches → Nat → Nat → Prop
  | nil {i} : Arms p resolve [] [] i i
  | cons {c cs key table i m j}
      (routeKey : c.routeKey = some key)
      (filled : Text.isBlank key = false)
      (part : Part p resolve c i m)
      (arms : Arms p resolve cs table m j) : Arms p resolve (c :: cs) ((key, ⟨i⟩) :: table) i j

end

-- `q` looks the same as `p` at node `id`.
structure SameAt (p q : Plan) (id : NodeId) : Prop where
  node     : q.node? id = p.node? id
  branches : q.branches? id = p.branches? id
  next     : q.next? id = p.next? id

theorem SameAt.trans {p₁ p₂ p₃ : Plan} {id : NodeId} (s₁ : SameAt p₁ p₂ id) (s₂ : SameAt p₂ p₃ id) :
    SameAt p₁ p₃ id :=
  ⟨s₂.node.trans s₁.node, s₂.branches.trans s₁.branches, s₂.next.trans s₁.next⟩

variable {p q : Plan} {resolve : Resolver}

mutual

theorem Part.lt {d : Definition} {i j : Nat} : Part p resolve d i j → i < j
  | .router _ _ _ _ _ arms  => arms.le
  | .final ..               => Nat.lt_succ_self _
  | .chained _ _ _ _ _ part => Nat.lt_of_succ_lt part.lt

theorem Arms.le {cs : List Definition} {t : Branches} {i j : Nat} : Arms p resolve cs t i j → i ≤ j
  | .nil                => Nat.le_refl _
  | .cons _ _ part arms => Nat.le_trans (Nat.le_of_lt part.lt) arms.le

end

mutual

theorem Part.congr {d : Definition} {i j : Nat} (same : ∀ k, i ≤ k → k < j → SameAt p q ⟨k⟩)
    (part : Part p resolve d i j) : Part q resolve d i j := by
  have ⟨node, branches, next⟩ := same i (Nat.le_refl _) part.lt
  match part with
  | .router h₁ h₂ h₃ h₄ h₅ arms =>
    refine .router h₁ (node.trans h₂) (branches.trans h₃) (next.trans h₄) h₅ ?_
    exact arms.congr fun k hk => same k (Nat.le_of_succ_le hk)
  | .final h₁ h₂ h₃ h₄ h₅ =>
    exact .final h₁ (node.trans h₂) (branches.trans h₃) (next.trans h₄) h₅
  | .chained h₁ h₂ h₃ h₄ h₅ part =>
    refine .chained h₁ (node.trans h₂) (branches.trans h₃) (next.trans h₄) h₅ ?_
    exact part.congr fun k hk => same k (Nat.le_of_succ_le hk)

theorem Arms.congr {cs : List Definition} {t : Branches} {i j : Nat}
    (same : ∀ k, i ≤ k → k < j → SameAt p q ⟨k⟩) (arms : Arms p resolve cs t i j) :
    Arms q resolve cs t i j := by
  match arms with
  | .nil => exact .nil
  | .cons h₁ h₂ part arms =>
    refine .cons h₁ h₂ (part.congr fun k hk hk' => ?_) (arms.congr fun k hk hk' => ?_)
    · exact same k hk (Nat.lt_of_lt_of_le hk' arms.le)
    · exact same k (Nat.le_trans (Nat.le_of_lt part.lt) hk) hk'

end

-- The keys of a branch table are the route keys of the children.
theorem Arms.keys_eq {cs : List Definition} {t : Branches} {i j : Nat} :
    Arms p resolve cs t i j → (Keyed.keys t).map some = cs.map routeKey
  | .nil                    => rfl
  | .cons routeKey _ _ arms => by simp [routeKey, arms.keys_eq]

theorem Arms.ne_nil {cs : List Definition} {t : Branches} {i j : Nat} (h : cs ≠ []) :
    Arms p resolve cs t i j → t ≠ []
  | .nil       => absurd rfl h
  | .cons .. => List.cons_ne_nil _ _

-- The branch table has an entry for a route key if and only if there is a child with it.
theorem Arms.get?_eq_none {key : String} {cs : List Definition} {t : Branches} {i j : Nat}
    (arms : Arms p resolve cs t i j) (h : cs.find? (·.routeKey = some key) = none) :
    Keyed.get? key t = none := by
  rw [Keyed.get?_eq_none_iff]
  intro hk
  have ⟨c, hc, hr⟩ := List.mem_map.mp <| arms.keys_eq ▸ List.mem_map_of_mem hk
  exact List.find?_eq_none.mp h c hc (decide_eq_true hr)

theorem Arms.get?_eq_some {key : String} {c : Definition} {cs : List Definition} {t : Branches}
    {i j : Nat} (arms : Arms p resolve cs t i j)
    (h : cs.find? (·.routeKey = some key) = some c) :
    ∃ k m, Keyed.get? key t = some ⟨k⟩ ∧ Part p resolve c k m ∧ i ≤ k ∧ m ≤ j := by
  induction cs generalizing t i with
  | nil => cases h
  | cons s cs ih =>
    cases arms with
    | @cons _ _ key' _ _ m _ routeKey _ part arms =>
      rw [List.find?_cons, routeKey] at h
      by_cases hk : key' = key
      case pos =>
        simp only [hk, decide_true, Option.some.injEq] at h
        exact ⟨i, m, by simp [Keyed.get?, hk], h ▸ part, Nat.le_refl _, arms.le⟩
      case neg =>
        simp only [Option.some.injEq, hk, decide_false] at h
        obtain ⟨k, m', hget, part', hk', hm⟩ := ih arms h
        have le := Nat.le_trans (Nat.le_of_lt part.lt) hk'
        exact ⟨k, m', by simp [Keyed.get?, hk, hget], part', le, hm⟩

end Plan
end RoutingPlan
