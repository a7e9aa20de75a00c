import RoutingPlan.Proofs.Definition.Assemble
import RoutingPlan.Proofs.Plan.Builder

-- Assembling a definition appends its part to a builder, whatever is in there already; so the plan
-- of a definition is one part from its first to its last node.

namespace RoutingPlan.Plan.Builder

-- `b'` has the nodes and tables of `b`, and nodes of its own.
structure Extends (b b' : Builder) : Prop where
  closed    : b'.Closed
  length_le : b.nodes.length ≤ b'.nodes.length
  same      : ∀ id : NodeId, id.index < b.nodes.length → SameAt b.draft b'.draft id

-- Like `Extends`, but the branch table of `router` has got the entries `t`.
structure Widens (router : NodeId) (t : Branches) (b b' : Builder) : Prop where
  closed    : b'.Closed
  length_le : b.nodes.length ≤ b'.nodes.length
  same      : ∀ id : NodeId, id.index < b.nodes.length → id ≠ router → SameAt b.draft b'.draft id
  node      : b'.draft.node? router = b.draft.node? router
  next      : b'.draft.next? router = b.draft.next? router
  table     : b'.table router = b.table router ++ t

variable {b b' b₁ b₂ b₃ : Builder} {router child : NodeId} {key : String} {step : Step}
  {t t₁ t₂ : Branches}

theorem Widens.refl (closed : b.Closed) : Widens router [] b b :=
  ⟨closed, Nat.le_refl _, fun _ _ _ => ⟨rfl, rfl, rfl⟩, rfl, rfl, (List.append_nil _).symm⟩

theorem Widens.trans (w₁ : Widens router t₁ b₁ b₂) (w₂ : Widens router t₂ b₂ b₃) :
    Widens router (t₁ ++ t₂) b₁ b₃ where
  closed    := w₂.closed
  length_le := Nat.le_trans w₁.length_le w₂.length_le
  same id h h' := (w₁.same id h h').trans (w₂.same id (Nat.lt_of_lt_of_le h w₁.length_le) h')
  node      := w₂.node.trans w₁.node
  next      := w₂.next.trans w₁.next
  table     := by rw [w₂.table, w₁.table, List.append_assoc]

theorem Extends.widens (e : Extends b b') (h : router.index < b.nodes.length) :
    Widens router [] b b' where
  closed    := e.closed
  length_le := e.length_le
  same id h _ := e.same id h
  node      := (e.same router h).node
  next      := (e.same router h).next
  table     := by rw [table_eq, table_eq, (e.same router h).branches, List.append_nil]

theorem branch_widens (closed : b.Closed) (hr : router.index < b.nodes.length)
    (hc : child.index < b.nodes.length) (fresh : key ∉ Keyed.keys (b.table router)) :
    Widens router [(key, child)] b (b.branch router key child).2 where
  closed    := closed.branch hr hc
  length_le := Nat.le_refl _
  same _ _ h := branch_sameAt h
  node      := rfl
  next      := rfl
  table     := by rw [table_eq, branch_table, Option.getD_some, Keyed.put_of_not_mem_keys fresh]

theorem add_extends (closed : b.Closed) : Extends b (b.add key step).2 where
  closed    := closed.add
  length_le := length_add ▸ Nat.le_succ _
  same _ h  := add_sameAt h

theorem Extends.trans (e₁ : Extends b₁ b₂) (e₂ : Extends b₂ b₃) : Extends b₁ b₃ where
  closed    := e₂.closed
  length_le := Nat.le_trans e₁.length_le e₂.length_le
  same id h := (e₁.same id h).trans (e₂.same id (Nat.lt_of_lt_of_le h e₁.length_le))

theorem Extends.chainTo {source next : NodeId} (e : Extends b b')
    (hs : source.index < b'.nodes.length) (hn : next.index < b'.nodes.length)
    (h : b.nodes.length ≤ source.index) : Extends b (b'.chainTo source next) where
  closed    := e.closed.chainTo hs hn
  length_le := e.length_le
  same id hid := (e.same id hid).trans <|
    chainTo_sameAt <| NodeId.ne_of_index_lt <| Nat.lt_of_lt_of_le hid h

-- The table of a new node does not concern the old ones.
theorem Extends.widen (e : Extends b₁ b₂) (w : Widens router t b₂ b₃)
    (h : b₁.nodes.length ≤ router.index) : Extends b₁ b₃ where
  closed    := w.closed
  length_le := Nat.le_trans e.length_le w.length_le
  same id hid := by
    have ne := NodeId.ne_of_index_lt <| Nat.lt_of_lt_of_le hid h
    exact (e.same id hid).trans (w.same id (Nat.lt_of_lt_of_le hid e.length_le) ne)

end RoutingPlan.Plan.Builder

namespace RoutingPlan.Definition

open Plan Plan.Builder

variable {resolve : Resolver} {d : Definition} {b b' : Builder} {router : NodeId}

-- Assembling `d` appends its part to a builder, whatever the builder holds already.
def Appends (resolve : Resolver) (d : Definition) : Prop :=
  ∀ {b b' id}, b.Closed → d.assemble resolve b = .ok (id, b') →
    id = ⟨b.nodes.length⟩ ∧ Extends b b' ∧
      Part b'.draft resolve d b.nodes.length b'.nodes.length

-- The induction is on the children that are left; the table of the router grows at its end, because
-- no two of them have the same route key.
theorem connect_arms {cs : List Definition} (appends : ∀ c ∈ cs, Appends resolve c)
    (keyed : ∀ c ∈ cs, c.lacksRouteKey = false) (nodup : (cs.map label).Nodup)
    (fresh : ∀ c ∈ cs, c.label ∉ Keyed.keys (b.table router))
    (closed : b.Closed) (hr : router.index < b.nodes.length)
    (h : connect router (cs.map (toArm resolve)) b = .ok b') :
    ∃ t, Widens router t b b' ∧ Arms b'.draft resolve cs t b.nodes.length b'.nodes.length := by
  induction cs generalizing b with
  | nil =>
    cases h
    exact ⟨[], .refl closed, .nil⟩
  | cons c cs ih =>
    rw [List.map_cons, toArm, connect] at h
    rw [List.forall_mem_cons] at appends keyed fresh
    rw [List.map_cons, List.nodup_cons] at nodup
    cases hc : c.assemble resolve b with
    | error e => rw [hc] at h; cases h
    | ok r =>
      obtain ⟨child, b₁⟩ := r
      rw [hc] at h
      have ⟨hid, ext, part⟩ := appends.left closed hc
      subst hid
      have w₁ := ext.widens hr
      have hr₁ : router.index < b₁.nodes.length := Nat.lt_of_lt_of_le hr w₁.length_le
      have fresh₁ : c.label ∉ Keyed.keys (b₁.table router) := by
        rw [w₁.table, List.append_nil]
        exact fresh.left
      have w₂ := branch_widens w₁.closed hr₁ part.lt fresh₁
      have fresh₂ : ∀ s ∈ cs, s.label ∉
          Keyed.keys ((b₁.branch router c.label ⟨b.nodes.length⟩).2.table router) := by
        intro s hs hk
        rw [(w₁.trans w₂).table, Keyed.keys_append, List.mem_append] at hk
        cases hk
        case inl hk => exact fresh.right s hs hk
        case inr hk => exact nodup.left <| List.mem_map.mpr ⟨s, hs, List.mem_singleton.mp hk⟩
      have ⟨t, w₃, arms⟩ := ih appends.right keyed.right nodup.right fresh₂ w₂.closed hr₁ h
      refine ⟨_, (w₁.trans w₂).trans w₃, ?_⟩
      refine .cons (routeKey_eq_some_label keyed.left) (isBlank_label keyed.left) ?_ arms
      refine part.congr fun k hk hk' => ?_
      have ne : (⟨k⟩ : NodeId) ≠ router := (NodeId.ne_of_index_lt <| Nat.lt_of_lt_of_le hr hk).symm
      exact (branch_sameAt ne).trans (w₃.same _ hk' ne)

theorem appends_router {name : String} {decide : Json.Value → Context → Reply (Option String)}
    (hd : resolve d.step = .ok (.router name decide)) (ih : ∀ c ∈ d.children, Appends resolve c) :
    Appends resolve d := by
  intro b b' id closed h
  let b₀ := (b.add d.step (.router name decide)).2
  have ext : Extends b b₀ := add_extends closed
  have len : b₀.nodes.length = b.nodes.length + 1 := length_add
  have hr : b.nodes.length < b₀.nodes.length := by omega
  rw [assemble_router hd] at h
  split at h
  case isTrue => cases h
  case isFalse nonempty =>
    split at h
    case h_1 => cases h
    case h_2 lacking =>
      have keyed : ∀ c ∈ d.children, c.lacksRouteKey = false := fun c hc => by
        simpa using List.find?_eq_none.mp lacking c hc
      have standing_sub : ∀ c ∈ standing d.children, c ∈ d.children := fun _ => mem_of_mem_standing
      have ⟨_, h, hid⟩ := map_eq_ok h
      cases hid
      have empty : b₀.table ⟨b.nodes.length⟩ = [] :=
        closed.table_eq_nil (Nat.le_refl _)
      have ⟨t, w, arms⟩ := connect_arms (fun c hc => ih c (standing_sub c hc))
        (fun c hc => keyed c (standing_sub c hc)) (nodup_label_standing keyed)
        (fun c _ => by simp [empty]) ext.closed hr h
      have table : b'.table ⟨b.nodes.length⟩ = t := by rw [w.table, empty, List.nil_append]
      rw [length_add] at arms
      refine ⟨rfl, ext.widen w (Nat.le_refl _), ?_⟩
      refine .router hd (w.node.trans add_node?) ?branches ?next nonempty arms
      case branches => exact branches?_eq_some table <| arms.ne_nil <| standing_ne_nil nonempty
      case next     => exact w.next.trans <| closed.next?_eq_none (Nat.le_refl _)

theorem appends_action {name : String} {act : Json.Value → Context → Reply (Option Json.Value)}
    (hd : resolve d.step = .ok (.action name act)) (ih : ∀ c ∈ d.children, Appends resolve c) :
    Appends resolve d := by
  intro b b' id closed h
  let b₀ := (b.add d.step (.action name act)).2
  have ext : Extends b b₀ := add_extends closed
  have len : b₀.nodes.length = b.nodes.length + 1 := length_add
  have branches : b.draft.branches? ⟨b.nodes.length⟩ = none :=
    closed.branches?_eq_none (Nat.le_refl _)
  have next : b.draft.next? ⟨b.nodes.length⟩ = none := closed.next?_eq_none (Nat.le_refl _)
  rw [assemble_action hd] at h
  split at h
  case h_1 children =>
    cases h
    refine ⟨rfl, ext, ?_⟩
    rw [length_add]
    exact .final hd add_node? branches next children
  case h_2 c children =>
    have ⟨⟨next, b₁⟩, hc, hid⟩ := map_eq_ok h
    cases hid
    have ⟨hnext, ext₁, part⟩ := ih c (by simp [children]) ext.closed hc
    subst hnext
    rw [len] at part
    have below := ext₁.same ⟨b.nodes.length⟩ (len ▸ Nat.lt_succ_self _)
    refine ⟨rfl, ?_, ?_⟩
    · exact (ext.trans ext₁).chainTo (Nat.lt_of_succ_lt part.lt) (len ▸ part.lt)
        (Nat.le_refl _)
    · refine .chained hd ?_ ?_ ?_ children (part.congr fun k hk _ => chainTo_sameAt ?_)
      · exact below.node.trans add_node?
      · exact below.branches.trans branches
      · exact len ▸ chainTo_next?
      · exact (NodeId.ne_of_index_lt hk).symm
  case h_3 => cases h

theorem appends (resolve : Resolver) (d : Definition) : Appends resolve d := by
  induction d using childInduction with
  | node d ih =>
    cases hd : resolve d.step with
    | error e =>
      intro _ _ _ _ h
      rw [assemble_of_resolve_error hd] at h
      cases h
    | ok step =>
      cases step with
      | router => exact appends_router hd ih
      | action => exact appends_action hd ih

-- A builder that has assembled a definition has nothing in it for `build` to object to.
theorem compile_eq :
    d.compile resolve = (d.assemble resolve .empty).map fun (_, b) => b.draft := by
  rw [compile]
  cases h : d.assemble resolve .empty with
  | error e => rfl
  | ok r =>
    obtain ⟨root, b⟩ := r
    have ⟨hroot, ext, part⟩ := appends resolve d closed_empty h
    subst hroot
    exact ext.closed.build_eq_ok part.lt

theorem compile_eq_ok {p : Plan} (h : d.compile resolve = .ok p) :
    ∃ b : Builder, p = b.draft ∧ b.Closed ∧ Part p resolve d 0 p.nodeCount := by
  rw [compile_eq] at h
  have ⟨⟨root, b⟩, hb, hp⟩ := map_eq_ok h
  have ⟨_, ext, part⟩ := appends resolve d closed_empty hb
  exact ⟨b, hp.symm, ext.closed, hp ▸ part⟩

theorem compile_part {p : Plan} (h : d.compile resolve = .ok p) :
    p.root = ⟨0⟩ ∧ Part p resolve d 0 p.nodeCount := by
  have ⟨_, hp, _, part⟩ := compile_eq_ok h
  exact ⟨hp ▸ rfl, part⟩

end RoutingPlan.Definition
