import Mathlib.Data.List.DropRight

-- Scanning a text for as long as its characters are of one kind.

namespace RoutingPlan.Text

variable {p : Char → Bool} {cs rest : List Char}

-- A text does not go on with a character of some kind.
def Stops (p : Char → Bool) (rest : List Char) : Prop :=
  ∀ c, rest.head? = some c → p c = false

theorem stops_nil : Stops p [] :=
  nofun

theorem stops_cons {c : Char} (h : p c = false) : Stops p (c :: rest) := by
  intro d hd
  exact Option.some.inj hd ▸ h

theorem takeWhile_append (inside : ∀ c ∈ cs, p c = true) (stops : Stops p rest) :
    (cs ++ rest).takeWhile p = cs := by
  rw [List.takeWhile_append_of_pos inside]
  cases rest with
  | nil         => simp
  | cons c rest => simp [stops c rfl]

theorem dropWhile_append (inside : ∀ c ∈ cs, p c = true) (stops : Stops p rest) :
    (cs ++ rest).dropWhile p = rest := by
  rw [List.dropWhile_append_of_pos inside]
  cases rest with
  | nil         => rfl
  | cons c rest => simp [stops c rfl]

end RoutingPlan.Text
