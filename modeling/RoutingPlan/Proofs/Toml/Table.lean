import RoutingPlan.Proofs.Keyed
import RoutingPlan.Toml.Table

-- Tables along a path: what is changed there step by step is changed at once.

namespace RoutingPlan.Toml.Table

variable {α β : Type} {t s : Table} {key : String} {item item' : Item}
variable {path path' : List String}
variable {f : Table → Option (α × Table)} {g : Table → Option (β × Table)}

theorem get?_put_self : (t.put key item).get? key = some item :=
  Keyed.get?_put_self key item t.entries

theorem put_put : (t.put key item).put key item' = t.put key item' := by
  simp only [put, Keyed.put_put]

theorem put_of_get? (h : t.get? key = none) :
    t.put key item = { t with entries := t.entries ++ [(key, item)] } := by
  rw [put, Keyed.put_of_not_mem_keys (Keyed.get?_eq_none_iff.mp h)]

theorem change_append {dotted : Bool} :
    t.change dotted (path ++ path') f = t.change dotted path (change dotted path' f) := by
  induction path generalizing t with
  | nil => rfl
  | cons key path ih =>
    simp only [List.cons_append, change, ih]

theorem change_put_table : (t.put key (.table s)).change false (key :: path) f =
    (s.change false path f).map fun (a, s) => (a, t.put key (.table s)) := by
  simp [change, get?_put_self, put_put]

-- Of several tables under one key it is the last that a path leads through.
theorem change_put_tables {ts : List Table} :
    (t.put key (.tables (ts ++ [s]))).change false (key :: path) f =
      (s.change false path f).map fun (a, s) => (a, t.put key (.tables (ts ++ [s]))) := by
  simp [change, get?_put_self, put_put]

theorem change_change :
    ((t.change false path f).bind fun (_, s) => s.change false path g) =
      t.change false path fun s => (f s).bind fun (_, s) => g s := by
  induction path generalizing t with
  | nil => rfl
  | cons key path ih =>
    have under {x : Table} {place : Table → Table}
        (into : ∀ s, (place s).change false (key :: path) g =
          (s.change false path g).map fun (b, s) => (b, place s)) :
        (((x.change false path f).map fun (a, s) => (a, place s)).bind fun (_, s) =>
            s.change false (key :: path) g) =
          (x.change false path fun s => (f s).bind fun (_, s) => g s).map
            fun (b, s) => (b, place s) := by
      rw [← ih]
      cases x.change false path f <;> simp [into]
    rw [change, change]
    split
    case h_1 => exact under fun s => change_put_table
    case h_2 => rfl
    case h_3 ts _ =>
      split
      case h_1 => rfl
      case h_2 => exact under fun s => change_put_tables
    case h_4 => exact under fun s => change_put_table

theorem map_change_change :
    (((t.change false path f).map (·.2)).bind fun s => (s.change false path g).map (·.2)) =
      (t.change false path fun s => (f s).bind fun (_, s) => g s).map (·.2) := by
  rw [← change_change]
  cases t.change false path f <;> rfl

end RoutingPlan.Toml.Table
