import RoutingPlan.Proofs.Keyed
import RoutingPlan.Registry

-- Looking up the steps of a registry, and its keys.

namespace RoutingPlan.Registry

variable {r : Registry} {step : Step} {steps : List Step} {key other : String} {e : Error}

theorem get?_register_self : (r.register step).get? step.name = some step :=
  Keyed.get?_putSorted_self

theorem get?_register_of_ne (h : step.name ≠ key) : (r.register step).get? key = r.get? key :=
  Keyed.get?_putSorted_of_ne h

theorem get?_unregister_self : (r.unregister key).2.get? key = none :=
  Keyed.get?_erase_self

theorem get?_unregister_of_ne (h : key ≠ other) :
    (r.unregister key).2.get? other = r.get? other :=
  Keyed.get?_erase_of_ne h

theorem get?_registerAll_of_not_mem (h : key ∉ steps.map Step.name) :
    (r.registerAll steps).get? key = r.get? key := by
  induction steps generalizing r with
  | nil => rfl
  | cons step steps ih =>
    have ⟨ne, h⟩ := not_or.mp <| mt List.mem_cons.mpr h
    exact (ih h).trans <| get?_register_of_ne <| Ne.symm ne

-- Steps whose names are all different do not displace each other.
theorem get?_registerAll (distinct : (steps.map Step.name).Nodup) (h : step ∈ steps) :
    (r.registerAll steps).get? step.name = some step := by
  induction steps generalizing r with
  | nil => cases h
  | cons first steps ih =>
    have ⟨fresh, distinct⟩ := List.nodup_cons.mp distinct
    cases h with
    | head      => exact (get?_registerAll_of_not_mem fresh).trans get?_register_self
    | tail _ h  => exact ih distinct h

theorem resolve_eq_ok_iff : r.resolve key = .ok step ↔ r.get? key = some step := by
  rw [resolve]
  cases r.get? key <;> simp

theorem resolve_eq_error_iff :
    r.resolve key = .error e ↔ r.get? key = none ∧ e = .unknownStepKey key := by
  rw [resolve]
  cases r.get? key <;> simp [eq_comm]

theorem resolve_congr {r' : Registry} (h : r'.get? key = r.get? key) :
    r'.resolve key = r.resolve key := by
  rw [resolve, resolve, h]

theorem resolve_registerAll (distinct : (steps.map Step.name).Nodup) (h : step ∈ steps) :
    (r.registerAll steps).resolve step.name = .ok step :=
  resolve_eq_ok_iff.mpr <| get?_registerAll distinct h

theorem mem_keys_iff : key ∈ r.keys ↔ ∃ step, r.get? key = some step := by
  rw [← Option.ne_none_iff_exists', ne_eq, get?, Keyed.get?_eq_none_iff, not_not]
  rfl

theorem unregister_eq_true_iff : (r.unregister key).1 = true ↔ ∃ step, r.get? key = some step :=
  Option.isSome_iff_exists

theorem isEmpty_iff : r.isEmpty = true ↔ r.keys = [] := by
  rw [isEmpty, keys, List.isEmpty_iff, List.map_eq_nil_iff]

end RoutingPlan.Registry
