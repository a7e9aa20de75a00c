import RoutingPlan.Context

-- Conversations of any length: what is left of a transcript when every turn trims the history to a
-- limit of its own. In the end it is what one trimming would leave, by the tightest of the limits.

namespace RoutingPlan.Context

open Json (Value)

-- What lies between the beginning of one turn and that of the next: what the run of the turn leaves
-- in its context, and the call for the context after it.
structure Round where
  output : Option Value
  routeKey : Option String
  records : List Record
  -- Whether the token fires meanwhile.
  fires : Bool
  seed : Seed
  input : Value
  limit : Nat

def afterRun (c : Context) (r : Round) : Context :=
  { c with
    output   := r.output
    routeKey := r.routeKey
    records  := r.records
    token    := { c.token with fired := c.token.fired || r.fires } }

-- The context after a round whose input is accepted.
def following (c : Context) (r : Round) : Context :=
  { runId     := r.seed.runId
    input     := r.input
    output    := none
    routeKey  := none
    records   := []
    history   := lastOf r.limit (c.history ++ (c.afterRun r).exchange)
    startedAt := r.seed.startedAt
    token     := (c.afterRun r).token }

-- The context that a conversation comes to by a list of rounds.
def converse (c : Context) : List Round → Except Error Context
  | [] => .ok c
  | r :: rs => (c.afterRun r).nextTurn r.seed r.input r.limit >>= (·.converse rs)

-- What is said in a list of rounds of which the first turn has the given input.
def said (asked : Value) : List Round → List Message
  | [] => []
  | r :: rs =>
    ⟨.user, asked.text⟩ :: (r.output.map fun v => ⟨.assistant, v.text⟩).toList ++ said r.input rs

def transcript (c : Context) (rs : List Round) : List Message :=
  c.history ++ said c.input rs

-- How many messages each round lets through: its limit, and all that is said later.
def allowances : List Round → List Nat
  | [] => []
  | r :: rs => (r.limit + (said r.input rs).length) :: allowances rs

-- How many messages of the transcript are left.
def kept (c : Context) (rs : List Round) : Nat :=
  (allowances rs).foldr min (c.transcript rs).length

section LastOf

variable {α : Type} {m n : Nat} {xs ys : List α}

theorem length_lastOf : (lastOf n xs).length = min n xs.length := by
  rw [lastOf, List.length_drop]
  omega

theorem lastOf_length : lastOf xs.length xs = xs := by
  simp [lastOf]

theorem lastOf_append : lastOf n xs ++ ys = lastOf (n + ys.length) (xs ++ ys) := by
  have same : (xs ++ ys).length - (n + ys.length) = xs.length - n := by
    rw [List.length_append]
    omega
  rw [lastOf, lastOf, same, List.drop_append_of_le_length (Nat.sub_le ..)]

theorem lastOf_lastOf : lastOf m (lastOf n xs) = lastOf (min m n) xs := by
  have same : xs.length - n + ((lastOf n xs).length - m) = xs.length - min m n := by
    rw [length_lastOf]
    omega
  rw [lastOf, lastOf, List.drop_drop, ← lastOf, same, ← lastOf]

-- Messages that are trimmed again and again are trimmed once in the end.
theorem lastOf_lastOf_append : lastOf n (lastOf n xs ++ ys) = lastOf n (xs ++ ys) := by
  rw [lastOf_append, lastOf_lastOf, Nat.min_eq_left (Nat.le_add_right ..)]

theorem foldr_min_comm {ns : List Nat} : ns.foldr min (min m n) = min m (ns.foldr min n) := by
  induction ns with
  | nil => rfl
  | cons a ns ih => rw [List.foldr_cons, List.foldr_cons, ih, Nat.min_left_comm]

theorem le_foldr_min_iff {ns : List Nat} : m ≤ ns.foldr min n ↔ m ≤ n ∧ ∀ a ∈ ns, m ≤ a := by
  induction ns with
  | nil => simp
  | cons a ns ih =>
    rw [List.foldr_cons, Nat.le_min, ih, List.forall_mem_cons, and_left_comm]

end LastOf

variable {c : Context} {r : Round} {rs : List Round}

theorem nextTurn_afterRun (c : Context) (r : Round) :
    (c.afterRun r).nextTurn r.seed r.input r.limit =
      if isEmptyInput r.input then .error .emptyInput else .ok (c.following r) := by
  unfold nextTurn new
  split <;> rfl

theorem converse_cons_of_accepted (accepted : isEmptyInput r.input = false) :
    c.converse (r :: rs) = (c.following r).converse rs := by
  rw [converse, nextTurn_afterRun, accepted]
  rfl

theorem converse_of_refused (refused : ∃ r ∈ rs, isEmptyInput r.input = true) :
    c.converse rs = .error .emptyInput := by
  induction rs generalizing c with
  | nil => simp at refused
  | cons r rs ih =>
    cases h : isEmptyInput r.input with
    | true =>
      rw [converse, nextTurn_afterRun, h]
      rfl
    | false =>
      rw [converse_cons_of_accepted h]
      exact ih <| by simpa [h] using refused

theorem converse_concat_of_accepted {last : Round}
    (accepted : ∀ r ∈ rs ++ [last], isEmptyInput r.input = false) :
    ∃ d : Context, c.converse (rs ++ [last]) = .ok (d.following last) := by
  induction rs generalizing c with
  | nil => exact ⟨c, converse_cons_of_accepted (accepted last (by simp))⟩
  | cons r rs ih =>
    rw [List.cons_append, List.forall_mem_cons] at accepted
    rw [List.cons_append, converse_cons_of_accepted accepted.left]
    exact ih accepted.right

-- A round leaves as much of the transcript as it lets through.
theorem transcript_following : (c.following r).transcript rs =
    lastOf (r.limit + (said r.input rs).length) (c.transcript (r :: rs)) := by
  refine lastOf_append.trans ?_
  rw [transcript, List.append_assoc]
  rfl

theorem kept_following : (c.following r).kept rs = c.kept (r :: rs) := by
  rw [kept, transcript_following, length_lastOf, foldr_min_comm]
  rfl

theorem kept_le : c.kept (r :: rs) ≤ r.limit + (said r.input rs).length :=
  Nat.min_le_left ..

theorem history_of_converse {d : Context} (reached : c.converse rs = .ok d)
    (accepted : ∀ r ∈ rs, isEmptyInput r.input = false) :
    d.history = lastOf (c.kept rs) (c.transcript rs) := by
  induction rs generalizing c with
  | nil =>
    cases reached
    simp [kept, allowances, transcript, said, lastOf_length]
  | cons r rs ih =>
    rw [List.forall_mem_cons] at accepted
    rw [converse_cons_of_accepted accepted.left] at reached
    rw [ih reached accepted.right, kept_following, transcript_following, lastOf_lastOf,
      Nat.min_eq_left kept_le]

theorem token_of_converse {d : Context} (reached : c.converse rs = .ok d)
    (accepted : ∀ r ∈ rs, isEmptyInput r.input = false) :
    d.token = { c.token with fired := c.token.fired || rs.any (·.fires) } := by
  induction rs generalizing c with
  | nil =>
    cases reached
    simp
  | cons r rs ih =>
    rw [List.forall_mem_cons] at accepted
    rw [converse_cons_of_accepted accepted.left] at reached
    rw [ih reached accepted.right]
    simp [following, afterRun, Bool.or_assoc]

theorem exists_limit_le {a : Nat} (h : a ∈ allowances rs) : ∃ r ∈ rs, r.limit ≤ a := by
  induction rs with
  | nil => cases h
  | cons r rs ih =>
    cases List.mem_cons.mp h
    case inl h => exact ⟨r, List.mem_cons_self, h ▸ Nat.le_add_right ..⟩
    case inr h =>
      have ⟨r', hr, le⟩ := ih h
      exact ⟨r', List.mem_cons_of_mem r hr, le⟩

theorem limit_mem_allowances {last : Round} : last.limit ∈ allowances (rs ++ [last]) := by
  induction rs with
  | nil => exact List.mem_singleton.mpr rfl
  | cons r rs ih => exact List.mem_cons_of_mem _ ih

-- With one limit for all rounds it is enough to trim the transcript in the end.
theorem kept_of_limit {l : Nat} {last : Round} (limit : ∀ r ∈ rs ++ [last], r.limit = l) :
    c.kept (rs ++ [last]) = min l (c.transcript (rs ++ [last])).length := by
  refine Nat.le_antisymm (Nat.le_min.mpr ?_) (le_foldr_min_iff.mpr ⟨Nat.min_le_right .., ?_⟩)
  · have ⟨le, le'⟩ := le_foldr_min_iff.mp <| Nat.le_refl (c.kept (rs ++ [last]))
    exact ⟨limit last (by simp) ▸ le' _ limit_mem_allowances, le⟩
  · intro a ha
    have ⟨r, hr, le⟩ := exists_limit_le ha
    exact Nat.le_trans (Nat.min_le_left ..) (limit r hr ▸ le)

theorem converse_concat (c : Context) (rs : List Round) (last : Round) :
    (c.converse (rs ++ [last]) =
      if (rs ++ [last]).any (isEmptyInput ·.input) then .error .emptyInput
      else .ok
        { runId     := last.seed.runId
          input     := last.input
          output    := none
          routeKey  := none
          records   := []
          history   := lastOf (c.kept (rs ++ [last])) (c.transcript (rs ++ [last]))
          startedAt := last.seed.startedAt
          token     :=
            { c.token with fired := c.token.fired || (rs ++ [last]).any (·.fires) } }) ∧
    ∀ l, (∀ r ∈ rs ++ [last], r.limit = l) →
      c.kept (rs ++ [last]) = min l (c.transcript (rs ++ [last])).length := by
  refine ⟨?_, fun l => kept_of_limit⟩
  split
  case isTrue refused => exact converse_of_refused (by simpa using refused)
  case isFalse accepted =>
    have accepted : ∀ r ∈ rs ++ [last], isEmptyInput r.input = false := by
      simpa [or_imp, forall_and] using accepted
    have ⟨d, reached⟩ := converse_concat_of_accepted (c := c) accepted
    rw [reached, ← history_of_converse reached accepted, ← token_of_converse reached accepted]
    rfl

def asking (question : String) : Context :=
  { runId     := ⟨question⟩
    input     := .string question
    output    := none
    routeKey  := none
    records   := []
    history   := []
    startedAt := ⟨0, 0⟩
    token     := ⟨0, false⟩ }

-- A round that goes on with the next question, with a limit of three messages.
def answering (answer question : String) : Round :=
  { output   := some (.string answer)
    routeKey := none
    records  := []
    fires    := false
    seed     := ⟨⟨question⟩, ⟨0, 0⟩, 0⟩
    input    := .string question
    limit    := 3 }

-- The limit cuts the first exchange in half.
theorem converse_one_two_three :
    (∀ r ∈ [answering "1" "two"] ++ [answering "2" "three"], r.limit = 3) ∧
    (asking "one").kept ([answering "1" "two"] ++ [answering "2" "three"]) = 3 ∧
    (asking "one").converse ([answering "1" "two"] ++ [answering "2" "three"]) =
      .ok { asking "three" with
        history := [⟨.assistant, "1"⟩, ⟨.user, "two"⟩, ⟨.assistant, "2"⟩] } := by
  have ⟨reached, trimmed⟩ :=
    converse_concat (asking "one") [answering "1" "two"] (answering "2" "three")
  have limit : ∀ r ∈ [answering "1" "two"] ++ [answering "2" "three"], r.limit = 3 := by
    simp [answering]
  have kept := trimmed 3 limit
  refine ⟨limit, kept, ?_⟩
  rw [reached, kept]
  rfl

end RoutingPlan.Context
