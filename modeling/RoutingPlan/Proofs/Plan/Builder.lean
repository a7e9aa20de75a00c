import RoutingPlan.Proofs.Plan.Part

-- What the operations of a builder do to the plan that it has come to so far.

namespace RoutingPlan.Plan

-- No table has two entries for one key.
structure Unambiguous (p : Plan) : Prop where
  branches : (Keyed.keys p.branches).Nodup
  tables   : ∀ e ∈ p.branches, (Keyed.keys e.2).Nodup
  chain    : (Keyed.keys p.chain).Nodup

namespace Builder

variable {b : Builder} {id router child source next : NodeId} {key : String} {step : Step}

-- The plan that a builder has come to.
def draft (b : Builder) : Plan :=
  ⟨b.nodes, ⟨0⟩, b.branches, b.chain⟩

-- The tables mention no node numbers but those that the builder gave out, and each key once.
structure Closed (b : Builder) : Prop where
  known       : ∀ id ∈ b.mentioned, id.index < b.nodes.length
  unambiguous : b.draft.Unambiguous

theorem closed_empty : empty.Closed where
  known _ h   := absurd h List.not_mem_nil
  unambiguous := ⟨List.nodup_nil, fun _ h => absurd h List.not_mem_nil, List.nodup_nil⟩

theorem mem_mentioned :
    id ∈ b.mentioned ↔
      (∃ e ∈ b.branches, id = e.1 ∨ ∃ a ∈ e.2, id = a.2) ∨
        ∃ e ∈ b.chain, id = e.1 ∨ id = e.2 := by
  simp only [mentioned, List.mem_append, List.mem_flatMap, List.mem_cons, List.mem_map,
    List.not_mem_nil, or_false, eq_comm (a := id)]

theorem table_eq : b.table id = (b.draft.branches? id).getD [] :=
  rfl

theorem branches?_eq_some {t : Branches} (h : b.table id = t) (nonempty : t ≠ []) :
    b.draft.branches? id = some t := by
  rw [table_eq] at h
  cases ht : b.draft.branches? id with
  | none   => rw [ht] at h; exact absurd h.symm nonempty
  | some _ => rw [ht] at h; exact congrArg some h

theorem mem_of_table_ne_nil (h : b.table id ≠ []) : (id, b.table id) ∈ b.branches := by
  cases ht : b.draft.branches? id with
  | none   => simp [table_eq, ht] at h
  | some t =>
    rw [table_eq, ht]
    exact Keyed.mem_of_get?_eq_some ht

theorem nodup_keys_table (h : b.draft.Unambiguous) : (Keyed.keys (b.table id)).Nodup := by
  by_cases ht : b.table id = []
  case pos => simp [ht]
  case neg => exact h.tables _ (mem_of_table_ne_nil ht)

theorem mem_mentioned_of_mem_table (h : (key, child) ∈ b.table router) : child ∈ b.mentioned := by
  have mem : (router, b.table router) ∈ b.branches := mem_of_table_ne_nil (List.ne_nil_of_mem h)
  exact mem_mentioned.mpr <| .inl ⟨_, mem, .inr ⟨_, h, rfl⟩⟩

-- A plan comes of a builder, with all that it has come to, if there is nothing in it or about the
-- root that the builder never gave out.
theorem build_eq_ok_iff {p : Plan} {root : NodeId} : b.build root = .ok p ↔
    (∀ id ∈ root :: b.mentioned, id.index < b.nodes.length) ∧
      p = ⟨b.nodes, root, b.branches, b.chain⟩ := by
  rw [build]
  split
  case h_1 id found =>
    have alien : ¬id.index < b.nodes.length := by simpa [owns] using List.find?_some found
    exact ⟨nofun, fun ⟨known, _⟩ => absurd (known id <| List.mem_of_find?_eq_some found) alien⟩
  case h_2 owned =>
    have known : ∀ id ∈ root :: b.mentioned, id.index < b.nodes.length := fun id h => by
      simpa [owns] using List.find?_eq_none.mp owned id h
    exact ⟨fun built => ⟨known, (Except.ok.inj built).symm⟩, fun ⟨_, eq⟩ => eq ▸ rfl⟩

theorem eq_of_build {p : Plan} {root : NodeId} (built : b.build root = .ok p) :
    p = ⟨b.nodes, root, b.branches, b.chain⟩ :=
  (build_eq_ok_iff.mp built).right

namespace Closed

theorem branches?_eq_none (closed : b.Closed) (h : b.nodes.length ≤ id.index) :
    b.draft.branches? id = none := by
  by_contra ht
  have ⟨t, ht⟩ := Option.ne_none_iff_exists'.mp ht
  have := closed.known id <| mem_mentioned.mpr <| .inl ⟨_, Keyed.mem_of_get?_eq_some ht, .inl rfl⟩
  omega

theorem next?_eq_none (closed : b.Closed) (h : b.nodes.length ≤ id.index) :
    b.draft.next? id = none := by
  by_contra hn
  have ⟨n, hn⟩ := Option.ne_none_iff_exists'.mp hn
  have := closed.known id <| mem_mentioned.mpr <| .inr ⟨_, Keyed.mem_of_get?_eq_some hn, .inl rfl⟩
  omega

theorem table_eq_nil (closed : b.Closed) (h : b.nodes.length ≤ id.index) : b.table id = [] := by
  rw [table_eq, closed.branches?_eq_none h, Option.getD_none]

-- There is nothing for `build` to object to.
theorem build_eq_ok (closed : b.Closed) (h : id.index < b.nodes.length) :
    b.build id = .ok ⟨b.nodes, id, b.branches, b.chain⟩ :=
  build_eq_ok_iff.mpr ⟨List.forall_mem_cons.mpr ⟨h, closed.known⟩, rfl⟩

end Closed

section Add

theorem add_node? : (b.add key step).2.draft.node? ⟨b.nodes.length⟩ =
    some ⟨⟨b.nodes.length⟩, key, step⟩ := by
  simp [add, draft, node?]

theorem add_sameAt (h : id.index < b.nodes.length) :
    SameAt b.draft (b.add key step).2.draft id where
  node     := by simp [add, draft, node?, List.getElem?_append_left h]
  branches := rfl
  next     := rfl

theorem length_add : (b.add key step).2.nodes.length = b.nodes.length + 1 := by
  simp [add]

theorem unambiguous_add (h : b.draft.Unambiguous) : (b.add key step).2.draft.Unambiguous :=
  ⟨h.branches, h.tables, h.chain⟩

theorem Closed.add (closed : b.Closed) : (b.add key step).2.Closed where
  known id h  := length_add ▸ Nat.lt_succ_of_lt (closed.known id h)
  unambiguous := unambiguous_add closed.unambiguous

end Add

section Branch

theorem branch_sameAt (h : id ≠ router) :
    SameAt b.draft (b.branch router key child).2.draft id where
  node     := rfl
  branches := Keyed.get?_put_of_ne h.symm ..
  next     := rfl

theorem branch_table : (b.branch router key child).2.draft.branches? router =
    some (Keyed.put key child (b.table router)) :=
  Keyed.get?_put_self ..

theorem unambiguous_branch (h : b.draft.Unambiguous) :
    (b.branch router key child).2.draft.Unambiguous := by
  refine ⟨Keyed.nodup_keys_put h.branches, fun e he => ?_, h.chain⟩
  cases Keyed.mem_of_mem_put he
  case inl he => exact he ▸ Keyed.nodup_keys_put (nodup_keys_table h)
  case inr he => exact h.tables e he

theorem Closed.branch (closed : b.Closed) (hr : router.index < b.nodes.length)
    (hc : child.index < b.nodes.length) : (b.branch router key child).2.Closed where
  known id h := by
    cases mem_mentioned.mp h
    case inr h => exact closed.known id <| mem_mentioned.mpr <| .inr h
    case inl h =>
      have ⟨e, he, h⟩ := h
      cases Keyed.mem_of_mem_put he
      case inr he => exact closed.known id <| mem_mentioned.mpr <| .inl ⟨e, he, h⟩
      case inl he =>
        subst he
        cases h
        case inl h => exact h ▸ hr
        case inr h =>
          have ⟨a, ha, h⟩ := h
          cases Keyed.mem_of_mem_put ha
          case inl ha => exact h ▸ ha ▸ hc
          case inr ha => exact h ▸ closed.known _ (mem_mentioned_of_mem_table ha)
  unambiguous := unambiguous_branch closed.unambiguous

end Branch

section ChainTo

theorem chainTo_sameAt (h : id ≠ source) : SameAt b.draft (b.chainTo source next).draft id where
  node     := rfl
  branches := rfl
  next     := Keyed.get?_put_of_ne h.symm ..

theorem chainTo_next? : (b.chainTo source next).draft.next? source = some next :=
  Keyed.get?_put_self ..

theorem unambiguous_chainTo (h : b.draft.Unambiguous) :
    (b.chainTo source next).draft.Unambiguous :=
  ⟨h.branches, h.tables, Keyed.nodup_keys_put h.chain⟩

theorem Closed.chainTo (closed : b.Closed) (hs : source.index < b.nodes.length)
    (hn : next.index < b.nodes.length) : (b.chainTo source next).Closed where
  known id h := by
    cases mem_mentioned.mp h
    case inl h => exact closed.known id <| mem_mentioned.mpr <| .inl h
    case inr h =>
      have ⟨e, he, h⟩ := h
      cases Keyed.mem_of_mem_put he
      case inr he => exact closed.known id <| mem_mentioned.mpr <| .inr ⟨e, he, h⟩
      case inl he =>
        subst he
        cases h
        case inl h => exact h ▸ hs
        case inr h => exact h ▸ hn
  unambiguous := unambiguous_chainTo closed.unambiguous

end ChainTo

section Operations

-- What can be done with a builder.
inductive Operation where
  | add (key : String) (step : Step)
  | branch (router : NodeId) (key : String) (child : NodeId)
  | chainTo (source next : NodeId)

def apply (b : Builder) : Operation → Builder
  | .add key step            => (b.add key step).2
  | .branch router key child => (b.branch router key child).2
  | .chainTo source next     => b.chainTo source next

-- The builders that there are: each comes about by operations, one after the other.
def ofOperations (ops : List Operation) : Builder :=
  ops.foldl apply empty

-- What every operation keeps: each key has one entry, and no branch table is empty.
structure Regular (b : Builder) : Prop where
  unambiguous : b.draft.Unambiguous
  nonempty    : ∀ e ∈ b.branches, e.2 ≠ []

theorem put_ne_nil {t : Branches} : Keyed.put key child t ≠ [] := by
  have put := Keyed.get?_put_self key child t
  exact List.ne_nil_of_mem <| Keyed.mem_of_get?_eq_some put

theorem Regular.apply (regular : b.Regular) (op : Operation) : (b.apply op).Regular := by
  cases op with
  | add key step        => exact ⟨unambiguous_add regular.unambiguous, regular.nonempty⟩
  | chainTo source next => exact ⟨unambiguous_chainTo regular.unambiguous, regular.nonempty⟩
  | branch router key child =>
    refine ⟨unambiguous_branch regular.unambiguous, fun e he => ?_⟩
    cases Keyed.mem_of_mem_put he
    case inl he => exact he ▸ put_ne_nil
    case inr he => exact regular.nonempty e he

theorem regular_ofOperations (ops : List Operation) : (ofOperations ops).Regular := by
  suffices ∀ b : Builder, b.Regular → (ops.foldl Builder.apply b).Regular from
    this empty ⟨closed_empty.unambiguous, fun _ h => absurd h List.not_mem_nil⟩
  induction ops with
  | nil => exact fun _ h => h
  | cons op ops ih => exact fun b h => ih (b.apply op) (h.apply op)

end Operations

end Builder
end RoutingPlan.Plan
