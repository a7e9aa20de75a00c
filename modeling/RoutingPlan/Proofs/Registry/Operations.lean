import RoutingPlan.Proofs.Definition.NormalForm
import RoutingPlan.Proofs.Registry
import RoutingPlan.Proofs.Text.Bytes

-- Registries, seen from the operations that they have come about by: a key has the step that the
-- last operation on it has left there, the keys are listed in the order of their bytes, and what is
-- done with other keys does not change the plan of a definition.

namespace RoutingPlan

namespace Definition

variable {resolve resolve' : Resolver} {d : Definition}

-- Making a plan asks for no keys but those of the definition.
theorem assemble_eq_of_resolves (same : ∀ n ∈ d.nodes, resolve' n.step = resolve n.step) :
    d.assemble resolve' = d.assemble resolve := by
  induction d using childInduction with
  | node d ih =>
    rw [nodes_eq, List.forall_mem_cons] at same
    have children : d.children.map (toChild resolve') = d.children.map (toChild resolve) := by
      refine List.map_congr_left fun c hc => ?_
      rw [toChild, toChild, ih c hc fun n hn => same.right n <| List.mem_flatMap_of_mem hc hn]
    rw [assemble_eq, assemble_eq, children]
    funext b
    rw [assembleNode, assembleNode, same.left]

theorem compile_eq_of_resolves (same : ∀ n ∈ d.nodes, resolve' n.step = resolve n.step) :
    d.compile resolve' = d.compile resolve := by
  rw [compile, compile, assemble_eq_of_resolves same]

end Definition

namespace Registry

-- What can be done with a registry.
inductive Operation where
  | register (step : Step)
  | registerAs (key : String) (step : Step)
  | unregister (key : String)

namespace Operation

-- The key that an operation is about.
def key : Operation → String
  | register step    => step.name
  | registerAs key _ => key
  | unregister key   => key

-- The step that it leaves for its key.
def step? : Operation → Option Step
  | register step | registerAs _ step => some step
  | unregister _                      => none

end Operation

def apply (r : Registry) : Operation → Registry
  | .register step       => r.register step
  | .registerAs key step => r.registerAs key step
  | .unregister key      => (r.unregister key).2

-- The registries that there are: each comes about by operations, one after the other.
def ofOperations (ops : List Operation) : Registry :=
  ops.foldl apply empty

-- A registration of the step for the key, after which no operation is about the key: neither
-- another registration nor one that takes the key away.
inductive InForce (ops : List Operation) (key : String) (step : Step) : Prop
  | intro {before op after} (split : ops = before ++ op :: after) (about : op.key = key)
      (registers : op.step? = some step) (last : ∀ later ∈ after, later.key ≠ key)

variable {r : Registry} {op : Operation} {ops before after : List Operation} {key : String}
  {step : Step}

section Lookup

theorem get?_apply_self : (r.apply op).get? op.key = op.step? := by
  cases op with
  | register | registerAs => exact Keyed.get?_putSorted_self
  | unregister            => exact get?_unregister_self

theorem get?_apply_of_ne (h : op.key ≠ key) : (r.apply op).get? key = r.get? key := by
  cases op with
  | register | registerAs => exact Keyed.get?_putSorted_of_ne h
  | unregister            => exact get?_unregister_of_ne h

theorem get?_foldl_apply (h : ∀ op ∈ ops, op.key ≠ key) :
    (ops.foldl apply r).get? key = r.get? key := by
  induction ops generalizing r with
  | nil => rfl
  | cons op ops ih =>
    have ⟨first, rest⟩ := List.forall_mem_cons.mp h
    exact (ih rest).trans <| get?_apply_of_ne first

theorem get?_of_last (about : op.key = key) (last : ∀ later ∈ after, later.key ≠ key) :
    (ofOperations (before ++ op :: after)).get? key = op.step? := by
  rw [ofOperations, List.foldl_append, List.foldl_cons, get?_foldl_apply last, ← about,
    get?_apply_self]

theorem forall_ne_or_exists_last (ops : List Operation) (key : String) :
    (∀ op ∈ ops, op.key ≠ key) ∨ ∃ before op after,
      ops = before ++ op :: after ∧ op.key = key ∧ ∀ later ∈ after, later.key ≠ key := by
  induction ops with
  | nil => exact .inl nofun
  | cons op ops ih =>
    cases ih with
    | inr h =>
      have ⟨before, last, after, split, h⟩ := h
      exact .inr ⟨op :: before, last, after, congrArg (op :: ·) split, h⟩
    | inl none =>
      by_cases about : op.key = key
      case pos => exact .inr ⟨[], op, ops, rfl, about, none⟩
      case neg => exact .inl <| List.forall_mem_cons.mpr ⟨about, none⟩

theorem get?_ofOperations : (ofOperations ops).get? key = some step ↔ InForce ops key step := by
  constructor
  case mp =>
    intro found
    cases forall_ne_or_exists_last ops key with
    | inl untouched =>
      have none : (ofOperations ops).get? key = none := get?_foldl_apply untouched
      cases none.symm.trans found
    | inr h =>
      obtain ⟨before, op, after, rfl, about, last⟩ := h
      exact ⟨rfl, about, (get?_of_last about last).symm.trans found, last⟩
  case mpr =>
    rintro ⟨rfl, about, registers, last⟩
    exact (get?_of_last about last).trans registers

theorem get?_ofOperations_eq_none_iff :
    (ofOperations ops).get? key = none ↔ ¬∃ step, InForce ops key step := by
  simp only [Option.eq_none_iff_forall_ne_some, ne_eq, get?_ofOperations, not_exists]

end Lookup

section Keys

theorem ascending_apply (h : r.keys.Pairwise (· < ·)) : (r.apply op).keys.Pairwise (· < ·) := by
  cases op with
  | register | registerAs => exact Keyed.ascending_putSorted h
  | unregister            => exact h.sublist Keyed.keys_erase_sublist

theorem ascending_ofOperations : (ofOperations ops).keys.Pairwise (· < ·) := by
  induction ops using List.reverseRecOn with
  | nil => exact .nil
  | append_singleton ops op ih =>
    rw [ofOperations, List.foldl_concat]
    exact ascending_apply ih

end Keys

theorem compile_foldl_apply {d : Definition}
    (h : ∀ op ∈ ops, op.key ∉ d.nodes.map Definition.step) :
    d.compile (ops.foldl apply r).resolve = d.compile r.resolve := by
  refine Definition.compile_eq_of_resolves fun n hn => resolve_congr <| get?_foldl_apply ?_
  exact fun op hop same => h op hop <| same ▸ List.mem_map_of_mem hn

-- What a registry has to say when these are the operations that have been done.
structure Reflects (r : Registry) (ops : List Operation) : Prop where
  get       : ∀ key step, r.get? key = some step ↔ InForce ops key step
  resolved  : ∀ key step, r.resolve key = .ok step ↔ r.get? key = some step
  unknown   : ∀ key e, r.resolve key = .error e ↔
    (¬∃ step, InForce ops key step) ∧ e = .unknownStepKey key
  removed   : ∀ key, (r.unregister key).1 = true ↔ ∃ step, InForce ops key step
  gone      : ∀ key, (r.unregister key).2.get? key = none
  others    : ∀ key other, key ≠ other → (r.unregister key).2.get? other = r.get? other
  ascending : r.keys.Pairwise fun k k' => Text.bytes k < Text.bytes k'
  listed    : ∀ key, key ∈ r.keys ↔ ∃ step, InForce ops key step
  size      : r.keys.length = r.size
  isEmpty   : r.isEmpty = true ↔ r.keys = []
  compiles  : ∀ (d : Definition) (further : List Operation),
    (∀ op ∈ further, op.key ∉ d.nodes.map Definition.step) →
      d.compile (further.foldl apply r).resolve = d.compile r.resolve

theorem reflects_ofOperations (ops : List Operation) : (ofOperations ops).Reflects ops where
  get _ _        := get?_ofOperations
  resolved _ _   := resolve_eq_ok_iff
  unknown _ _    := by rw [resolve_eq_error_iff, get?_ofOperations_eq_none_iff]
  removed _      := by simp only [unregister_eq_true_iff, get?_ofOperations]
  gone _         := get?_unregister_self
  others _ _     := get?_unregister_of_ne
  ascending      := ascending_ofOperations.imp Text.bytes_lt_bytes_iff.mpr
  listed _       := by simp only [mem_keys_iff, get?_ofOperations]
  size           := List.length_map _
  isEmpty        := isEmpty_iff
  compiles _ _   := compile_foldl_apply

-- The desk takes the place of a step with its name as key, and an alias comes and goes; an accent
-- makes a key come last.
def reception : List Operation :=
  [.registerAs "étage" <| .action "floor" fun _ _ => .done none,
    .registerAs "desk" <| .action "bell" fun _ _ => .done none,
    .register <| .router "desk" fun input _ => .done (some input.text),
    .registerAs "zone" <| .action "floor" fun _ _ => .done none,
    .registerAs "alias" <| .action "bell" fun _ _ => .done none, .unregister "alias"]

theorem reflects_reception :
    let r := ofOperations reception
    let d := Definition.mk "desk" none <| some [.mk "étage" (some "up") none]
    let further := [.unregister "zone", .registerAs "alias" <| .action "up" fun _ _ => .pending]
    r.keys = ["desk", "zone", "étage"] ∧ r.size = 3 ∧
      (∃ step, InForce reception "desk" step ∧ step.kind = .router) ∧
      (¬∃ step, InForce reception "alias" step) ∧
      r.resolve "alias" = .error (.unknownStepKey "alias") ∧
      (∀ op ∈ further, op.key ∉ d.nodes.map Definition.step) ∧
      (∃ p, d.compile r.resolve = .ok p) ∧
      d.compile (further.foldl apply r).resolve = d.compile r.resolve := by
  intro r d further
  have reflects : r.Reflects reception := reflects_ofOperations reception
  have keys : r.keys = ["desk", "zone", "étage"] := by decide +kernel
  have foreign : ∀ op ∈ further, op.key ∉ d.nodes.map Definition.step := by decide +kernel
  have none : ¬∃ step, InForce reception "alias" step := by
    rw [← reflects.listed, keys]
    decide
  refine ⟨keys, ?_, ⟨_, (reflects.get "desk" _).mp rfl, rfl⟩, none,
    (reflects.unknown "alias" _).mpr ⟨none, rfl⟩, foreign, ⟨_, rfl⟩,
    reflects.compiles d further foreign⟩
  rw [← reflects.size, keys]
  rfl

end Registry
end RoutingPlan
