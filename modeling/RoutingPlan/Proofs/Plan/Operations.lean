import Mathlib.Data.List.Induction
import RoutingPlan.Proofs.Plan.Builder

-- Builders, seen from the operations that they have come about by: which node numbers have been
-- given out, and which ones the tables hold, namely those that the last operation on each entry has
-- put there.

namespace RoutingPlan.Plan.Builder

namespace Operation

-- Adds a step under its own name.
def addStep (step : Step) : Operation :=
  .add step.name step

-- The child that a router gets for a route key.
def child? (router : NodeId) (key : String) : Operation → Option NodeId
  | .branch r k child => if r = router ∧ k = key then some child else none
  | _                 => none

-- The route key for which a router gets a child.
def routeKey? (router : NodeId) : Operation → Option String
  | .branch r key _ => if r = router then some key else none
  | _               => none

-- The node that is to follow another one.
def next? (source : NodeId) : Operation → Option NodeId
  | .chainTo s next => if s = source then some next else none
  | _               => none

end Operation

-- What an operation answers.
inductive Answer where
  | issued (id : NodeId)
  | replaced (child : Option NodeId)
  | nothing
deriving DecidableEq

def Answer.issued? : Answer → Option NodeId
  | issued id => some id
  | _         => none

def answer (b : Builder) : Operation → Answer
  | .add key step            => .issued (b.add key step).1
  | .branch router key child => .replaced (b.branch router key child).1
  | .chainTo ..              => .nothing

-- What operations answer one after the other.
def answers (b : Builder) : List Operation → List Answer
  | []        => []
  | op :: ops => b.answer op :: (b.apply op).answers ops

-- The node numbers that have been given out.
def issued (ops : List Operation) : List NodeId :=
  (empty.answers ops).filterMap Answer.issued?

def lastChild? (ops : List Operation) (router : NodeId) (key : String) : Option NodeId :=
  (ops.filterMap (·.child? router key)).getLast?

def lastNext? (ops : List Operation) (source : NodeId) : Option NodeId :=
  (ops.filterMap (·.next? source)).getLast?

-- The route keys for which a router has been given children, in the order in which each of them
-- came first.
def routeKeys (ops : List Operation) (router : NodeId) : List String :=
  (ops.filterMap (·.routeKey? router)).eraseDups

-- The node numbers that no later operation has put out of the tables.
inductive Remains (ops : List Operation) (id : NodeId) : Prop
  | router {key child} (h : .branch id key child ∈ ops)
  | child {router key} (h : lastChild? ops router key = some id)
  | source {next} (h : .chainTo id next ∈ ops)
  | next {source} (h : lastNext? ops source = some id)

variable {b : Builder} {op : Operation} {ops before after : List Operation}
  {id router child source next root : NodeId} {key : String} {e : Error}

theorem ofOperations_concat : ofOperations (ops ++ [op]) = (ofOperations ops).apply op :=
  List.foldl_concat ..

theorem answers_append :
    b.answers (before ++ after) = b.answers before ++ (before.foldl apply b).answers after := by
  induction before generalizing b with
  | nil => rfl
  | cons op ops ih => simp only [List.cons_append, answers, ih, List.foldl_cons]

theorem length_answers : (b.answers ops).length = ops.length := by
  induction ops generalizing b with
  | nil => rfl
  | cons op ops ih => rw [answers, List.length_cons, ih, List.length_cons]

theorem getElem?_answers : (empty.answers (before ++ op :: after))[before.length]? =
    some ((ofOperations before).answer op) := by
  rw [answers_append, List.getElem?_append_right (Nat.le_of_eq length_answers), length_answers,
    Nat.sub_self]
  rfl

theorem getLast?_filterMap_concat {α β : Type} {f : α → Option β} {l : List α} {a : α} :
    ((l ++ [a]).filterMap f).getLast? = (f a).or (l.filterMap f).getLast? := by
  cases h : f a <;> simp [List.filterMap_append, h]

section Issued

theorem issued_concat :
    issued (ops ++ [op]) = issued ops ++ ((ofOperations ops).answer op).issued?.toList := by
  rw [issued, answers_append, List.filterMap_append]
  cases h : ((ofOperations ops).answer op).issued? <;> simp_all [issued, answers, ofOperations]

theorem length_nodes_apply :
    (b.apply op).nodes.length = b.nodes.length + (b.answer op).issued?.toList.length := by
  cases op with
  | add              => exact length_add
  | branch | chainTo => rfl

theorem issued?_answer (h : (b.answer op).issued? = some id) : id = ⟨b.nodes.length⟩ := by
  cases op with
  | add              => exact (Option.some.inj h).symm
  | branch | chainTo => cases h

-- Node numbers are given out one after the other.
theorem issued_eq : issued ops = (List.range (ofOperations ops).nodes.length).map NodeId.mk := by
  induction ops using List.reverseRecOn with
  | nil => rfl
  | append_singleton ops op ih =>
    rw [issued_concat, ofOperations_concat, length_nodes_apply, ih]
    cases h : ((ofOperations ops).answer op).issued? with
    | none   => simp
    | some _ => simp [List.range_succ, issued?_answer h]

theorem mem_issued_iff : id ∈ issued ops ↔ id.index < (ofOperations ops).nodes.length := by
  rw [issued_eq, List.mem_map]
  exact ⟨fun ⟨_, lt, eq⟩ => eq ▸ List.mem_range.mp lt, fun lt => ⟨_, List.mem_range.mpr lt, rfl⟩⟩

end Issued

section Tables

theorem branch?_eq_get?_table : b.draft.branch? router key = Keyed.get? key (b.table router) := by
  rw [branch?, table_eq]
  cases b.draft.branches? router <;> rfl

theorem table_branch {r : NodeId} : (b.branch r key child).2.table router =
    if r = router then Keyed.put key child (b.table router) else b.table router := by
  split
  case isTrue same     => rw [← same, table_eq, branch_table, Option.getD_some]
  case isFalse another => rw [table_eq, (branch_sameAt (Ne.symm another)).branches, ← table_eq]

theorem get?_table_apply : Keyed.get? key ((b.apply op).table router) =
    (op.child? router key).or (Keyed.get? key (b.table router)) := by
  cases op with
  | add | chainTo => rfl
  | branch r k child =>
    rw [apply, table_branch, Operation.child?]
    by_cases same : r = router
    case neg => simp [same]
    case pos =>
      by_cases sameKey : k = key
      case neg => simp [same, sameKey, Keyed.get?_put_of_ne sameKey]
      case pos => simp [same, sameKey, Keyed.get?_put_self]

theorem keys_table_apply : Keyed.keys ((b.apply op).table router) =
    match op.routeKey? router with
    | none   => Keyed.keys (b.table router)
    | some k => if k ∈ Keyed.keys (b.table router) then Keyed.keys (b.table router)
        else Keyed.keys (b.table router) ++ [k] := by
  cases op with
  | add | chainTo => rfl
  | branch r k child =>
    rw [apply, table_branch, Operation.routeKey?]
    by_cases same : r = router <;> simp [same, Keyed.keys_put]

theorem next?_apply :
    (b.apply op).draft.next? source = (op.next? source).or (b.draft.next? source) := by
  cases op with
  | add | branch => rfl
  | chainTo s next =>
    rw [apply, Operation.next?]
    by_cases same : s = source
    case pos => simp [← same, chainTo_next?]
    case neg => simp [same, (chainTo_sameAt (Ne.symm same)).next]

theorem get?_table :
    Keyed.get? key ((ofOperations ops).table router) = lastChild? ops router key := by
  induction ops using List.reverseRecOn with
  | nil => rfl
  | append_singleton ops op ih =>
    rw [ofOperations_concat, get?_table_apply, ih]
    exact getLast?_filterMap_concat.symm

theorem answer_branch : (ofOperations ops).answer (.branch router key child) =
    .replaced (lastChild? ops router key) :=
  congrArg Answer.replaced get?_table

theorem keys_table : Keyed.keys ((ofOperations ops).table router) = routeKeys ops router := by
  induction ops using List.reverseRecOn with
  | nil => rfl
  | append_singleton ops op ih =>
    rw [ofOperations_concat, keys_table_apply, ih]
    cases h : op.routeKey? router with
    | none   => simp [routeKeys, h]
    | some k => simp [routeKeys, h, Definition.eraseDups_concat]

theorem next?_ofOperations : (ofOperations ops).draft.next? source = lastNext? ops source := by
  induction ops using List.reverseRecOn with
  | nil => rfl
  | append_singleton ops op ih =>
    rw [ofOperations_concat, next?_apply, ih]
    exact getLast?_filterMap_concat.symm

end Tables

section Remains

theorem mem_routeKeys_iff :
    key ∈ routeKeys ops router ↔ ∃ child, .branch router key child ∈ ops := by
  rw [routeKeys, List.mem_eraseDups, List.mem_filterMap]
  constructor
  case mp =>
    rintro ⟨op, mem, h⟩
    cases op with
    | add | chainTo => cases h
    | branch r k child =>
      obtain ⟨rfl, rfl⟩ : r = router ∧ k = key := by simpa [Operation.routeKey?] using h
      exact ⟨child, mem⟩
  case mpr =>
    rintro ⟨child, mem⟩
    exact ⟨_, mem, by simp [Operation.routeKey?]⟩

theorem isSome_lastNext?_iff :
    (lastNext? ops source).isSome ↔ ∃ next, .chainTo source next ∈ ops := by
  rw [lastNext?, List.getLast?_isSome, ne_eq, List.filterMap_eq_nil_iff]
  constructor
  case mp =>
    intro given
    simp only [not_forall] at given
    have ⟨op, mem, h⟩ := given
    cases op with
    | add | branch => exact absurd rfl h
    | chainTo s next =>
      have same : s = source := by simpa [Operation.next?] using h
      exact ⟨next, same ▸ mem⟩
  case mpr =>
    rintro ⟨next, mem⟩ none
    simpa [Operation.next?] using none _ mem

theorem remains_of_mem_mentioned (h : id ∈ (ofOperations ops).mentioned) : Remains ops id := by
  have ⟨⟨branches, tables, chain⟩, nonempty⟩ := regular_ofOperations ops
  cases mem_mentioned.mp h with
  | inl h =>
    obtain ⟨⟨router, t⟩, mem, h⟩ := h
    have table : (ofOperations ops).table router = t := by
      rw [table_eq, branches?, (Keyed.get?_eq_some_iff branches).mpr mem, Option.getD_some]
    cases h with
    | inl h =>
      subst h
      have ⟨a, ha⟩ := List.exists_mem_of_ne_nil t (nonempty _ mem)
      have key : a.1 ∈ routeKeys ops id := by
        rw [← keys_table, table]
        exact List.mem_map_of_mem ha
      have ⟨_, given⟩ := mem_routeKeys_iff.mp key
      exact .router given
    | inr h =>
      obtain ⟨⟨key, child⟩, ha, h⟩ := h
      subst h
      have last : lastChild? ops router key = some id := by
        rw [← get?_table, table]
        exact (Keyed.get?_eq_some_iff (tables _ mem)).mpr ha
      exact .child last
  | inr h =>
    obtain ⟨⟨source, next⟩, mem, h⟩ := h
    have last : lastNext? ops source = some next :=
      next?_ofOperations.symm.trans <| (Keyed.get?_eq_some_iff chain).mpr mem
    cases h with
    | inl h =>
      subst h
      have ⟨_, given⟩ := isSome_lastNext?_iff.mp <| Option.isSome_of_eq_some last
      exact .source given
    | inr h => exact .next (last.trans (congrArg some h.symm))

theorem Remains.mem_mentioned (h : Remains ops id) : id ∈ (ofOperations ops).mentioned := by
  cases h with
  | @router key child given =>
    have key : key ∈ Keyed.keys ((ofOperations ops).table id) :=
      keys_table ▸ mem_routeKeys_iff.mpr ⟨child, given⟩
    have full : (ofOperations ops).table id ≠ [] := fun none => by simp [none] at key
    exact Builder.mem_mentioned.mpr <| .inl ⟨_, mem_of_table_ne_nil full, .inl rfl⟩
  | child last =>
    exact mem_mentioned_of_mem_table <| Keyed.mem_of_get?_eq_some <| get?_table.trans last
  | source given =>
    have ⟨_, last⟩ := Option.isSome_iff_exists.mp <| isSome_lastNext?_iff.mpr ⟨_, given⟩
    have mem := Keyed.mem_of_get?_eq_some <| next?_ofOperations.trans last
    exact Builder.mem_mentioned.mpr <| .inr ⟨_, mem, .inl rfl⟩
  | next last =>
    have mem := Keyed.mem_of_get?_eq_some <| next?_ofOperations.trans last
    exact Builder.mem_mentioned.mpr <| .inr ⟨_, mem, .inr rfl⟩

theorem mem_mentioned_iff : id ∈ (ofOperations ops).mentioned ↔ Remains ops id :=
  ⟨remains_of_mem_mentioned, Remains.mem_mentioned⟩

end Remains

section Build

theorem exists_build_eq_ok_iff :
    (∃ p, (ofOperations ops).build root = .ok p) ↔
      root ∈ issued ops ∧ ∀ id, Remains ops id → id ∈ issued ops := by
  simp only [build_eq_ok_iff, List.forall_mem_cons, mem_mentioned_iff, ← mem_issued_iff]
  exact ⟨fun ⟨_, known, _⟩ => known, fun known => ⟨_, known, rfl⟩⟩

-- The root is looked at first.
theorem exists_dangling (failed : (ofOperations ops).build root = .error e) :
    ∃ id, e = .danglingNode id.text ∧ id ∉ issued ops ∧
      if root ∈ issued ops then Remains ops id else id = root := by
  rw [build] at failed
  split at failed
  case h_2 => cases failed
  case h_1 id found =>
    cases failed
    have foreign : id ∉ issued ops := by
      simpa [mem_issued_iff, owns] using List.find?_some found
    refine ⟨id, rfl, foreign, ?_⟩
    split
    case isTrue own =>
      cases List.mem_cons.mp <| List.mem_of_find?_eq_some found with
      | inl h => exact absurd (h ▸ own) foreign
      | inr h => exact mem_mentioned_iff.mp h
    case isFalse alien =>
      have first : (ofOperations ops).owns root = false := by
        simpa [mem_issued_iff, owns] using alien
      simpa [List.find?_cons, first, eq_comm] using found

end Build

end RoutingPlan.Plan.Builder
