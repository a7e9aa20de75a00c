import RoutingPlan.Proofs.Toml.Table
import RoutingPlan.Toml.Reader

-- Documents in which every header names the last of the tables under one key, then the last of the
-- tables under that key in it, and so on: what is read this way are tables nested in each other.

namespace RoutingPlan.Toml

open Table

-- The section of such a document that is `k` levels down.
def nested (key : String) : Nat → Section
  | 0     => .top
  | k + 1 => .element (List.replicate k key) key

namespace Document

-- A document `k` levels down, with the entries of `t` read there so far.
def within (key : String) (k : Nat) (root t : Table) : Document :=
  ⟨root, nested key k, t⟩

variable {key : String} {k : Nat} {root whole t u : Table} {ts : List Table}

-- What is done to the table at the end of the path after the section has ended could have been done
-- to the section before.
theorem change_close {f : Table → Option (Unit × Table)} (h : f t = some ((), u)) :
    ((within key k root t).close.bind fun whole =>
        (whole.change false (List.replicate k key) f).map (·.2)) = (within key k root u).close := by
  cases k with
  | zero   => simp [within, close, nested, change, h]
  | succ k =>
    simp only [within, close, nested, addTable, List.replicate_succ', change_append,
      map_change_change]
    congr 2
    funext s
    have enter (ts : List Table) :
        (s.put key (.tables (ts ++ [t]))).change false [key] f =
          some ((), s.put key (.tables (ts ++ [u]))) := by
      rw [change_put_tables, change, h]
      rfl
    split
    case h_1 ts _ => exact enter ts
    case h_2      => exact enter []
    case h_3      => rfl

theorem addTable_close (u : Table) :
    ((within key k root (t.put key (.tables ts))).close.bind fun whole =>
        whole.addTable (List.replicate k key) key u) =
      (within key k root (t.put key (.tables (ts ++ [u])))).close := by
  refine change_close ?_
  simp [get?_put_self, put_put]

-- Makes sure that the section that has been read can have tables under the key in it.
def reserve (d : Document) (key : String) (k : Nat) : Option Table :=
  d.close.bind fun whole => whole.reserveTables (List.replicate k key) key

theorem openElement_eq (d : Document) : d.openElement (List.replicate k key) key =
    (d.reserve key k).map fun whole => within key (k + 1) whole .new := by
  cases eq : d.close with
  | none       => simp [openElement, reserve, eq]
  | some whole =>
    cases eq' : whole.reserveTables (List.replicate k key) key <;>
      simp [openElement, reserve, eq, eq', within, nested]

theorem reserve_within (root : Table) (k : Nat) (h : t.get? key = none) :
    (within key k root t).reserve key k = (within key k root (t.put key (.tables []))).close := by
  refine change_close ?_
  simp [h]

theorem reserve_of_close {d : Document}
    (h : d.close = (within key k root (t.put key (.tables ts))).close) :
    d.reserve key k = (within key k root (t.put key (.tables ts))).close := by
  rw [reserve, h]
  refine change_close ?_
  simp [get?_put_self]

-- Whatever the section holds, there is room for it.
def Receives (key : String) (k : Nat) (root : Table) : Prop :=
  ∀ t, ∃ whole, (within key k root t).close = some whole

theorem receives_zero : Receives key 0 root :=
  fun t => ⟨t, rfl⟩

theorem close_element (h : (within key k root (t.put key (.tables ts))).close = some whole)
    (u : Table) : (within key (k + 1) whole u).close =
      (within key k root (t.put key (.tables (ts ++ [u])))).close := by
  rw [← addTable_close, h]
  rfl

theorem Receives.succ (receives : Receives key k root)
    (h : (within key k root (t.put key (.tables ts))).close = some whole) :
    Receives key (k + 1) whole := by
  intro u
  rw [close_element h]
  exact receives _

theorem exists_openElement {d : Document} (receives : Receives key k root)
    (reserved : d.reserve key k = (within key k root (t.put key (.tables ts))).close) :
    ∃ whole, d.openElement (List.replicate k key) key = some (within key (k + 1) whole .new) ∧
      (within key k root (t.put key (.tables ts))).close = some whole := by
  have ⟨whole, closes⟩ := receives (t.put key (.tables ts))
  refine ⟨whole, ?_, closes⟩
  rw [openElement_eq, reserved, closes]
  rfl

end Document

end RoutingPlan.Toml
