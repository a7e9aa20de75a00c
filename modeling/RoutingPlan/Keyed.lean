-- Tables written as lists of key–value pairs. `put` keeps the order of first insertion, `putSorted`
-- keeps the keys of a table ascending; both leave at most one entry for a key.

namespace RoutingPlan.Keyed

variable {α β : Type}

def get? [DecidableEq α] (k : α) : List (α × β) → Option β
  | [] => none
  | (k', v) :: t => if k' = k then some v else get? k t

-- The value goes where the key already is, or to the end of the table.
def put [DecidableEq α] (k : α) (v : β) : List (α × β) → List (α × β)
  | [] => [(k, v)]
  | (k', v') :: t => if k' = k then (k, v) :: t else (k', v') :: put k v t

def erase [DecidableEq α] (k : α) (t : List (α × β)) : List (α × β) :=
  t.filter (·.1 ≠ k)

-- The value goes where the order of the keys puts it; an entry of the same key gives way.
def putSorted (k : String) (v : β) : List (String × β) → List (String × β)
  | [] => [(k, v)]
  | (k', v') :: t =>
    if k = k' then (k, v) :: t
    else if k < k' then (k, v) :: (k', v') :: t
    else (k', v') :: putSorted k v t

-- Later entries win over earlier ones of the same key.
def sorted (entries : List (String × β)) : List (String × β) :=
  entries.foldl (fun t e => putSorted e.1 e.2 t) []

theorem get?_put_self [DecidableEq α] (k : α) (v : β) (t : List (α × β)) :
    get? k (put k v t) = some v := by
  induction t with
  | nil => simp [put, get?]
  | cons e t ih => by_cases h : e.1 = k <;> simp [put, get?, h, ih]

theorem get?_put_of_ne [DecidableEq α] {k k' : α} (h : k' ≠ k) (v : β) (t : List (α × β)) :
    get? k (put k' v t) = get? k t := by
  induction t with
  | nil => simp [put, get?, h]
  | cons e t ih =>
    obtain ⟨a, b⟩ := e
    grind [put, get?]

end RoutingPlan.Keyed
