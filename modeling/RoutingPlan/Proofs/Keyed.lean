import Mathlib.Data.List.Basic
import Mathlib.Data.List.Nodup
import RoutingPlan.Keyed

-- Laws of tables: `get?` and `put` in terms of the keys of a table and of its entries.

namespace RoutingPlan.Keyed

variable {α β γ : Type} [DecidableEq α] {k : α} {v : β} {t : List (α × β)}

def keys (t : List (α × β)) : List α :=
  t.map (·.1)

omit [DecidableEq α] in
@[simp]
theorem keys_nil : keys ([] : List (α × β)) = [] :=
  rfl

omit [DecidableEq α] in
@[simp]
theorem keys_cons (e : α × β) : keys (e :: t) = e.1 :: keys t :=
  rfl

omit [DecidableEq α] in
@[simp]
theorem keys_append (t' : List (α × β)) : keys (t ++ t') = keys t ++ keys t' :=
  List.map_append

theorem get?_eq_none_iff : get? k t = none ↔ k ∉ keys t := by
  induction t with
  | nil => simp [get?]
  | cons e t ih => by_cases h : e.1 = k <;> simp [get?, h, ih, eq_comm (a := k)]

theorem mem_of_get?_eq_some (h : get? k t = some v) : (k, v) ∈ t := by
  induction t with
  | nil => simp [get?] at h
  | cons e t ih =>
    by_cases hk : e.1 = k
    case pos =>
      simp only [get?, hk, if_true, Option.some.injEq] at h
      exact List.mem_cons.mpr <| .inl <| Prod.ext hk.symm h.symm
    case neg =>
      simp only [get?, hk, if_false] at h
      exact List.mem_cons_of_mem _ (ih h)

theorem get?_eq_some_iff (nodup : (keys t).Nodup) : get? k t = some v ↔ (k, v) ∈ t := by
  refine ⟨mem_of_get?_eq_some, fun h => ?_⟩
  induction t with
  | nil => exact absurd h List.not_mem_nil
  | cons e t ih =>
    rw [keys_cons, List.nodup_cons] at nodup
    cases List.mem_cons.mp h
    case inl h => simp [get?, ← h]
    case inr h =>
      have hk : e.1 ≠ k := fun hk => nodup.left <| List.mem_map.mpr ⟨_, h, hk.symm⟩
      simpa [get?, hk] using ih nodup.right h

theorem keys_put : keys (put k v t) = if k ∈ keys t then keys t else keys t ++ [k] := by
  induction t with
  | nil => rfl
  | cons e t ih =>
    by_cases hk : e.1 = k
    case pos => simp [put, hk]
    case neg =>
      simp only [put, hk, if_false, keys_cons, ih, List.mem_cons, Ne.symm hk, false_or]
      split <;> rfl

theorem nodup_keys_put (h : (keys t).Nodup) : (keys (put k v t)).Nodup := by
  rw [keys_put]
  split
  case isTrue      => exact h
  case isFalse hk  => exact h.append (List.nodup_singleton k) (by simpa using hk)

theorem put_append_of_not_mem_keys {t' : List (α × β)} (h : k ∉ keys t) :
    put k v (t ++ t') = t ++ put k v t' := by
  induction t with
  | nil => rfl
  | cons e t ih =>
    have ⟨hk, ht⟩ := not_or.mp <| mt List.mem_cons.mpr h
    rw [List.cons_append, put, if_neg (Ne.symm hk), ih ht, List.cons_append]

theorem put_of_not_mem_keys (h : k ∉ keys t) : put k v t = t ++ [(k, v)] := by
  have behind : put k v (t ++ []) = t ++ [(k, v)] := put_append_of_not_mem_keys h
  rwa [List.append_nil] at behind

theorem get?_append_of_not_mem_keys {t' : List (α × β)} (h : k ∉ keys t) :
    get? k (t ++ t') = get? k t' := by
  induction t with
  | nil => rfl
  | cons e t ih =>
    have ⟨hk, ht⟩ := not_or.mp <| mt List.mem_cons.mpr h
    rw [List.cons_append, get?, if_neg (Ne.symm hk), ih ht]

section Renamed

-- A table under other keys, and with other values.
variable {α' β' : Type} [DecidableEq α'] {f : α → α'} (g : β → β') (inj : Function.Injective f)

include inj

theorem get?_map : get? (f k) (t.map (Prod.map f g)) = (get? k t).map g := by
  induction t with
  | nil => rfl
  | cons e t ih =>
    simp only [List.map_cons, Prod.map, get?, inj.eq_iff, ih]
    split <;> rfl

theorem map_put : (put k v t).map (Prod.map f g) = put (f k) (g v) (t.map (Prod.map f g)) := by
  induction t with
  | nil => rfl
  | cons e t ih =>
    simp only [List.map_cons, Prod.map, put, inj.eq_iff]
    split
    case isTrue  => rfl
    case isFalse => rw [List.map_cons, ih]; rfl

end Renamed

theorem put_put {w : β} : put k w (put k v t) = put k w t := by
  induction t with
  | nil => simp [put]
  | cons e t ih => by_cases hk : e.1 = k <;> simp [put, hk, ih]

theorem mem_of_mem_put {e : α × β} (h : e ∈ put k v t) : e = (k, v) ∨ e ∈ t := by
  induction t with
  | nil => exact .inl <| List.mem_singleton.mp h
  | cons e' t ih =>
    by_cases hk : e'.1 = k <;> simp only [put, hk, if_true, if_false, List.mem_cons] at h ⊢
    case pos => exact h.imp_right .inr
    case neg =>
      cases h
      case inl h => exact .inr (.inl h)
      case inr h => exact (ih h).imp_right .inr

theorem keys_erase_sublist : (keys (erase k t)).Sublist (keys t) :=
  List.filter_sublist.map _

theorem get?_erase_self : get? k (erase k t) = none := by
  rw [get?_eq_none_iff, keys, erase]
  simp

theorem get?_erase_of_ne {k' : α} (h : k' ≠ k) : get? k (erase k' t) = get? k t := by
  induction t with
  | nil => rfl
  | cons e t ih => by_cases ha : e.1 = k' <;> simp_all [erase, get?]

-- Putting an element into the table that a list is written as is putting it into the list: in the
-- place of the element with its key, or at the end.
theorem put_map {f : γ → α} {g : γ → β} {xs : List γ} (x : γ) (h : (xs.map f).Nodup) :
    put (f x) (g x) (xs.map fun y => (f y, g y)) =
      (if f x ∈ xs.map f then xs.map fun y => if f y = f x then x else y
        else xs ++ [x]).map fun y => (f y, g y) := by
  induction xs with
  | nil => rfl
  | cons y ys ih =>
    rw [List.map_cons, List.nodup_cons] at h
    by_cases hy : f y = f x
    case pos =>
      have same : ys.map (fun z => if f z = f x then x else z) = ys := by
        refine (List.map_congr_left fun z hz => if_neg fun hz' => h.left ?_).trans (List.map_id _)
        exact hy.trans hz'.symm ▸ List.mem_map_of_mem hz
      simp only [List.map_cons, put, hy, if_true, List.mem_cons_self, same]
    case neg =>
      simp only [List.map_cons, put, hy, if_false, List.mem_cons, Ne.symm hy, false_or, ih h.right]
      split <;> simp

theorem get?_eq_of_perm {t' : List (α × β)} (nodup : (keys t).Nodup) (perm : t.Perm t') :
    get? k t = get? k t' := by
  have nodup' : (keys t').Nodup := (perm.map _).nodup_iff.mp nodup
  ext v
  rw [get?_eq_some_iff nodup, get?_eq_some_iff nodup', perm.mem_iff]

section Sorted

variable {entries table : List (String × β)} {name : String}

theorem get?_putSorted_self : get? name (putSorted name v table) = some v := by
  induction table with
  | nil => simp [putSorted, get?]
  | cons e table ih =>
    rw [putSorted]
    split
    case isTrue => simp [get?]
    case isFalse ne =>
      split
      case isTrue  => simp [get?]
      case isFalse => rw [get?, if_neg <| Ne.symm ne, ih]

theorem get?_putSorted_of_ne {name' : String} (h : name' ≠ name) :
    get? name (putSorted name' v table) = get? name table := by
  induction table with
  | nil => simp [putSorted, get?, h]
  | cons e table ih =>
    rw [putSorted]
    split
    case isTrue same => simp [get?, h, ← same]
    case isFalse =>
      split
      case isTrue  => simp [get?, h]
      case isFalse => rw [get?, ih, get?]

theorem mem_keys_putSorted {other : String} :
    other ∈ keys (putSorted name v table) ↔ other = name ∨ other ∈ keys table := by
  induction table with
  | nil => simp [putSorted]
  | cons e table ih =>
    rw [putSorted]
    split
    case isTrue same => simp [same]
    case isFalse =>
      split
      case isTrue  => simp
      case isFalse => simp [ih, or_left_comm]

theorem ascending_putSorted (h : (keys table).Pairwise (· < ·)) :
    (keys (putSorted name v table)).Pairwise (· < ·) := by
  induction table with
  | nil => exact List.pairwise_singleton ..
  | cons e table ih =>
    have ⟨first, rest⟩ := List.pairwise_cons.mp h
    rw [putSorted]
    split
    case isTrue same => rwa [keys_cons, same]
    case isFalse ne =>
      split
      case isTrue lt =>
        refine List.pairwise_cons.mpr ⟨List.forall_mem_cons.mpr ⟨lt, fun k hk => ?_⟩, h⟩
        exact String.lt_trans lt (first k hk)
      case isFalse le =>
        have lt : e.1 < name := String.not_le.mp fun ge => ne <| String.le_antisymm ge le
        refine List.pairwise_cons.mpr ⟨fun k hk => ?_, ih rest⟩
        cases mem_keys_putSorted.mp hk with
        | inl eq => exact eq ▸ lt
        | inr hk => exact first k hk

theorem perm_putSorted (h : name ∉ keys table) :
    (putSorted name v table).Perm ((name, v) :: table) := by
  induction table with
  | nil => exact .refl _
  | cons e table ih =>
    have ⟨ne, h⟩ := not_or.mp <| mt List.mem_cons.mpr h
    rw [putSorted, if_neg ne]
    split
    case isTrue  => exact .refl _
    case isFalse => exact ((ih h).cons e).trans (.swap ..)

theorem perm_foldl_putSorted (nodup : (keys (table ++ entries)).Nodup) :
    (entries.foldl (fun t e => putSorted e.1 e.2 t) table).Perm (table ++ entries) := by
  induction entries generalizing table with
  | nil => simp
  | cons e entries ih =>
    have front : (table ++ e :: entries).Perm (e :: table ++ entries) := List.perm_middle
    have put : (putSorted e.1 e.2 table).Perm (e :: table) := by
      rw [keys_append, keys_cons] at nodup
      exact perm_putSorted fun h => List.disjoint_of_nodup_append nodup h List.mem_cons_self
    have all := (put.append_right entries).trans front.symm
    exact (ih <| (all.map _).nodup_iff.mpr nodup).trans all

-- Names that are all different have nothing but their order changed.
theorem perm_sorted (nodup : (keys entries).Nodup) : (sorted entries).Perm entries :=
  perm_foldl_putSorted nodup

end Sorted

end RoutingPlan.Keyed
