import RoutingPlan.Proofs.Toml.Table
import RoutingPlan.Toml.Reader

-- What a document has said once it does not take back: a value in a section that a header has
-- opened is there in the end, whatever lines come after it.

namespace RoutingPlan.Toml

namespace Table

-- A value stands at the end of a path, on which there are only tables that have been opened.
def Holds (t : Table) : List String → String → Value → Prop
  | [], key, v        => t.get? key = some (.value v)
  | k :: path, key, v => ∃ u, t.get? k = some (.table u) ∧ u.implicit = false ∧ Holds u path key v

-- `t'` holds all that `t` holds.
structure Kept (t t' : Table) : Prop where
  implicit : t'.implicit = t.implicit
  holds    : ∀ path key v, t.Holds path key v → t'.Holds path key v

variable {α : Type} {t t' t'' s u : Table} {path : List String} {key : String} {item : Item}

theorem get?_put_of_ne {k : String} (h : key ≠ k) : (t.put key item).get? k = t.get? k :=
  Keyed.get?_put_of_ne h item t.entries

theorem Kept.refl (t : Table) : t.Kept t :=
  ⟨rfl, fun _ _ _ h => h⟩

theorem Kept.trans (h : t.Kept t') (h' : t'.Kept t'') : t.Kept t'' :=
  ⟨h'.implicit.trans h.implicit, fun _ _ _ => h'.holds _ _ _ ∘ h.holds _ _ _⟩

-- Nothing is lost under a key that has no value, if what its table holds is kept.
theorem kept_put (free : ∀ v, t.get? key ≠ some (.value v))
    (under : ∀ s, t.get? key = some (.table s) → s.implicit = false →
      ∃ u, item = .table u ∧ Kept s u) : t.Kept (t.put key item) := by
  refine ⟨rfl, fun path k v holds => ?_⟩
  cases path with
  | nil =>
    have ne : key ≠ k := fun eq => free v (eq ▸ holds)
    exact (get?_put_of_ne ne).trans holds
  | cons k' path =>
    have ⟨s, there, opened, inside⟩ := holds
    by_cases eq : key = k'
    case pos =>
      subst eq
      have ⟨u, table, kept⟩ := under s there opened
      subst table
      exact ⟨u, get?_put_self, kept.implicit.trans opened, kept.holds _ _ _ inside⟩
    case neg => exact ⟨s, (get?_put_of_ne eq).trans there, opened, inside⟩

theorem kept_put_of_none (h : t.get? key = none) : t.Kept (t.put key item) :=
  kept_put (by simp [h]) (by simp [h])

-- A table that nobody has opened yet holds nothing.
theorem kept_erase (h : t.get? key = some (.table s)) (implicit : s.implicit = true) :
    t.Kept (t.erase key) := by
  refine ⟨rfl, fun path k v holds => ?_⟩
  have other {k : String} (ne : key ≠ k) : (t.erase key).get? k = t.get? k :=
    Keyed.get?_erase_of_ne ne
  cases path with
  | nil =>
    refine (other ?_).trans holds
    rintro rfl
    cases h.symm.trans holds
  | cons k' path =>
    have ⟨s', there, opened, inside⟩ := holds
    refine ⟨s', (other ?_).trans there, opened, inside⟩
    rintro rfl
    cases h.symm.trans there
    cases implicit.symm.trans opened

-- Such a change loses nothing.
def Keeps (f : Table → Option (α × Table)) : Prop :=
  ∀ t a t', f t = some (a, t') → t.Kept t'

variable {f : Table → Option (α × Table)}

-- A change at the end of a path loses nothing if it loses nothing there.
theorem Keeps.change {dotted : Bool} (hf : Keeps f) (path : List String) :
    Keeps (change dotted path f) := by
  induction path with
  | nil => exact hf
  | cons key path ih =>
    intro t a t' h
    rw [Table.change] at h
    split at h
    case h_1 absent =>
      obtain ⟨_, _, eq⟩ := Option.map_eq_some_iff.mp h
      cases eq
      exact kept_put_of_none absent
    case h_2 => cases h
    case h_3 ts tables =>
      split at h
      case h_1 => cases h
      case h_2 =>
        obtain ⟨_, _, eq⟩ := Option.map_eq_some_iff.mp h
        cases eq
        exact kept_put (by simp [tables]) (by simp [tables])
    case h_4 s table =>
      split at h
      case isTrue  => cases h
      case isFalse =>
        obtain ⟨⟨_, u⟩, changed, eq⟩ := Option.map_eq_some_iff.mp h
        cases eq
        refine kept_put (by simp [table]) fun s' there _ => ?_
        cases table.symm.trans there
        exact ⟨u, rfl, ih s _ u changed⟩

theorem kept_define {v : Value} (h : t.define path key v = some t') : t.Kept t' := by
  have ⟨_, changed, eq⟩ := Option.map_eq_some_iff.mp h
  refine eq ▸ Keeps.change (fun s _ s' h => ?_) path t _ _ changed
  split at h
  case isTrue      => cases h
  case isFalse new =>
    cases h
    simp only [Bool.or_eq_true, not_or, Option.isSome_iff_ne_none, not_not] at new
    exact kept_put_of_none new.right

theorem kept_reserveTables (h : t.reserveTables path key = some t') : t.Kept t' := by
  have ⟨_, changed, eq⟩ := Option.map_eq_some_iff.mp h
  refine eq ▸ Keeps.change (fun s _ s' h => ?_) path t _ _ changed
  split at h
  case h_1 absent => cases h; exact kept_put_of_none absent
  case h_2        => cases h; exact .refl s
  case h_3        => cases h

theorem kept_addTable (h : t.addTable path key u = some t') : t.Kept t' := by
  have ⟨_, changed, eq⟩ := Option.map_eq_some_iff.mp h
  refine eq ▸ Keeps.change (fun s _ s' h => ?_) path t _ _ changed
  split at h
  case h_1 tables => cases h; exact kept_put (by simp [tables]) (by simp [tables])
  case h_2 absent => cases h; exact kept_put_of_none absent
  case h_3        => cases h

-- Where a table was taken out, any table can be put.
theorem kept_putTable (taken : t.takeTable path key = some (s, t'))
    (put : t'.putTable path key u = some t'') : t.Kept t'' := by
  have both : ((t.takeTable path key).map (·.2)).bind (·.putTable path key u) = some t'' := by
    rw [taken]
    exact put
  simp only [takeTable, putTable, map_change_change] at both
  have ⟨_, changed, eq⟩ := Option.map_eq_some_iff.mp both
  refine eq ▸ Keeps.change (fun s _ s' h => ?_) path t _ _ changed
  split at h
  case h_1 absent => cases h; exact kept_put_of_none absent
  case h_2 s there =>
    split at h
    case isFalse => cases h
    case isTrue unopened =>
      cases h
      simp only [Bool.and_eq_true] at unopened
      exact (kept_erase there unopened.left).trans <| kept_put_of_none Keyed.get?_erase_self
  case h_3 => cases h

end Table

namespace Document

-- What one line can do.
inductive Follows (d : Document) : Document → Prop
  | element {d'} (path key) (opens : d.openElement path key = some d') : Follows d d'
  | table {d'} (path key) (opens : d.openTable path key = some d') : Follows d d'
  | entry {d'} (path key v) (defines : d.define path key v = some d') : Follows d d'

variable {d d' : Document} {whole : Table} {name key : String} {v : Value} {n : Nat}
  {cs rest : List Char}

theorem follows_of_line (h : d.line cs = some (d', rest)) : d.Follows d' := by
  unfold line at h
  split at h
  case h_1 =>
    obtain ⟨⟨⟨path, key⟩, cs⟩, _, h⟩ := Option.bind_eq_some_iff.mp h
    dsimp only at h
    split at h
    case h_2 => cases h
    case h_1 =>
      obtain ⟨_, opens, h⟩ := Option.bind_eq_some_iff.mp h
      obtain ⟨_, _, h⟩ := Option.bind_eq_some_iff.mp h
      cases h
      exact .element _ _ opens
  case h_2 =>
    obtain ⟨⟨⟨path, key⟩, cs⟩, _, h⟩ := Option.bind_eq_some_iff.mp h
    dsimp only at h
    split at h
    case h_2 => cases h
    case h_1 =>
      obtain ⟨_, opens, h⟩ := Option.bind_eq_some_iff.mp h
      obtain ⟨_, _, h⟩ := Option.bind_eq_some_iff.mp h
      cases h
      exact .table _ _ opens
  case h_3 =>
    obtain ⟨⟨⟨path, key⟩, cs⟩, _, h⟩ := Option.bind_eq_some_iff.mp h
    dsimp only at h
    split at h
    case h_2 => cases h
    case h_1 =>
      obtain ⟨⟨v, cs⟩, _, h⟩ := Option.bind_eq_some_iff.mp h
      obtain ⟨_, defines, h⟩ := Option.bind_eq_some_iff.mp h
      obtain ⟨_, _, h⟩ := Option.bind_eq_some_iff.mp h
      cases h
      exact .entry _ _ _ defines

-- A section that a header has opened has a value: it is being read, or has been stored where
-- nothing else is going to be.
inductive Secures (name key : String) (v : Value) : Document → Prop
  | current {root t} (opened : t.implicit = false) (there : t.get? key = some (.value v)) :
    Secures name key v ⟨root, .table [] name, t⟩
  | stored {d : Document}
    (there : ∀ t whole, close { d with current := t } = some whole → whole.Holds [name] key v) :
    Secures name key v d

namespace Secures

theorem close (secures : Secures name key v d) (h : d.close = some whole) :
    whole.Holds [name] key v := by
  cases secures with
  | stored there => exact there d.current whole h
  | @current root t opened there =>
    cases h
    exact ⟨t, Table.get?_put_self, opened, there⟩

theorem follows (secures : Secures name key v d) (h : d.Follows d') : Secures name key v d' := by
  cases h with
  | element _ _ opens =>
    have ⟨whole, closed, opens⟩ := Option.bind_eq_some_iff.mp opens
    have ⟨root, reserved, eq⟩ := Option.bind_eq_some_iff.mp opens
    cases eq
    refine .stored fun t _ added => ?_
    have kept := (Table.kept_reserveTables reserved).trans (Table.kept_addTable added)
    exact kept.holds _ _ _ (secures.close closed)
  | table _ _ opens =>
    have ⟨whole, closed, opens⟩ := Option.bind_eq_some_iff.mp opens
    have ⟨⟨_, root⟩, taken, eq⟩ := Option.bind_eq_some_iff.mp opens
    cases eq
    refine .stored fun t _ put => ?_
    exact (Table.kept_putTable taken put).holds _ _ _ (secures.close closed)
  | entry _ _ _ defines =>
    have ⟨t', changed, eq⟩ := Option.map_eq_some_iff.mp defines
    cases eq
    cases secures with
    | stored there         => exact .stored there
    | current opened there =>
      have kept := Table.kept_define changed
      exact .current (kept.implicit.trans opened) (kept.holds [] _ _ there)

theorem lines (secures : Secures name key v d) (h : lines n d cs = some d') :
    Secures name key v d' := by
  induction n generalizing d cs with
  | zero => cases h
  | succ n ih =>
    rw [Document.lines] at h
    split at h
    case h_1 => cases h; exact secures
    case h_2 =>
      split at h
      case isTrue =>
        have ⟨_, _, h⟩ := Option.bind_eq_some_iff.mp h
        exact ih secures h
      case isFalse =>
        have ⟨⟨_, _⟩, first, h⟩ := Option.bind_eq_some_iff.mp h
        exact ih (secures.follows (follows_of_line first)) h

end Secures

end Document

end RoutingPlan.Toml
