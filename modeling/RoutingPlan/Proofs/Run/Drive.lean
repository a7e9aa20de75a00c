import RoutingPlan.Proofs.Run.Course

-- How far a run comes when it moves on alone, and what it leaves in its context. With more moves it
-- comes no less far, and no further than to where it can make no more.

namespace RoutingPlan.Run

variable {r r' : Run} {m n : Nat}

theorem move_eq_none_of_result? (finished : r.result?.isSome) : r.move = none := by
  have ⟨_, result⟩ := Option.isSome_iff_exists.mp finished
  rw [move, phase_of_result? result]

theorem drive_of_stuck (stuck : r.move = none) : r.drive n = (r, []) := by
  cases n with
  | zero   => rfl
  | succ n => rw [drive, stuck]

theorem drive_add :
    r.drive (m + n) = (((r.drive m).1.drive n).1, (r.drive m).2 ++ ((r.drive m).1.drive n).2) := by
  induction m generalizing r with
  | zero => simp [drive]
  | succ m ih =>
    rw [Nat.add_right_comm, drive, drive]
    cases h : r.move with
    | none   => simp [drive_of_stuck h]
    | some m => simp [ih]

theorem events_drive_prefix (le : m ≤ n) : (r.drive m).2 <+: (r.drive n).2 := by
  obtain ⟨k, rfl⟩ := Nat.exists_eq_add_of_le le
  rw [drive_add]
  exact List.prefix_append ..

theorem drive_eq_of_stuck (stuck : (r.drive m).1.move = none) (le : m ≤ n) :
    r.drive n = r.drive m := by
  obtain ⟨k, rfl⟩ := Nat.exists_eq_add_of_le le
  rw [drive_add, drive_of_stuck stuck, List.append_nil]

-- However many moves a run is given, it finishes in one way.
theorem drive_eq_of_finished (finished : (r.drive m).1.result?.isSome)
    (finished' : (r.drive n).1.result?.isSome) : r.drive m = r.drive n := by
  have stuck := move_eq_none_of_result? finished
  have stuck' := move_eq_none_of_result? finished'
  cases Nat.le_total m n with
  | inl le => exact (drive_eq_of_stuck stuck le).symm
  | inr le => exact drive_eq_of_stuck stuck' le

-- A run writes nothing into its context but the output, the route key and the records.
theorem Moves.exists_context_eq {e : Option Event} (moves : Moves r e r') :
    ∃ output routeKey records,
      r'.context = { r.context with output, routeKey, records } := by
  cases moves <;> exact ⟨_, _, _, rfl⟩

theorem exists_context_drive_eq (n : Nat) (r : Run) :
    ∃ output routeKey records,
      (r.drive n).1.context = { r.context with output, routeKey, records } := by
  induction n generalizing r with
  | zero => exact ⟨_, _, _, rfl⟩
  | succ n ih =>
    rw [drive]
    cases h : r.move with
    | none   => exact ⟨_, _, _, rfl⟩
    | some m =>
      obtain ⟨_, _, _, step⟩ := (moves_of_move h).exists_context_eq
      obtain ⟨output, routeKey, records, later⟩ := ih m.1
      exact ⟨output, routeKey, records, by rw [later, step]⟩

end RoutingPlan.Run
