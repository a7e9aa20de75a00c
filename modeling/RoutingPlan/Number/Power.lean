-- Powers of two and of ten, the steps of binary and decimal scales.

namespace RoutingPlan

-- The `k`-th power of two.
abbrev twoTo (k : Nat) : Nat :=
  Nat.pow 2 k

-- The `k`-th power of ten.
abbrev tenTo (k : Nat) : Nat :=
  Nat.pow 10 k

end RoutingPlan
