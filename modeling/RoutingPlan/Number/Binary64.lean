import RoutingPlan.Number.Power

-- Finite binary64 numbers as exact integers: the number with `significand` and `scale` has the
-- magnitude `significand * 2 ^ scale` in units of `2 ^ -1074`.

namespace RoutingPlan

-- The pairs that stand for a magnitude in exactly one way.
def Binary64.Canonical (significand scale : Nat) : Prop :=
  significand < twoTo 53 ∧ (twoTo 52 ≤ significand ∨ scale = 0) ∧ scale ≤ 2045

instance (significand scale : Nat) : Decidable (Binary64.Canonical significand scale) :=
  inferInstanceAs (Decidable (_ ∧ _ ∧ _))

structure Binary64 where
  negative : Bool
  significand : Nat
  scale : Nat
  canonical : Binary64.Canonical significand scale
deriving DecidableEq

namespace Binary64

def zero (negative : Bool) : Binary64 where
  negative := negative
  significand := 0
  scale := 0
  canonical := by decide

def isZero (x : Binary64) : Bool :=
  x.significand == 0

-- The magnitude in units of `2 ^ -1074`.
def units (x : Binary64) : Nat :=
  x.significand * twoTo x.scale

-- The whole number nearest to `a / d`; a half goes to the even neighbour.
def nearestEven (a d : Nat) : Nat :=
  let q := a / d
  let r := a % d
  if 2 * r < d then q
  else if d < 2 * r then q + 1
  else if q % 2 = 0 then q
  else q + 1

-- The number nearest to `a / d` units, none if that is too large to be finite.
def ofUnits? (negative : Bool) (a d : Nat) : Option Binary64 :=
  let p := (a / d).log2 - 52
  let m := nearestEven a (d * twoTo p)
  let significand := if m = twoTo 53 then twoTo 52 else m
  let scale := if m = twoTo 53 then p + 1 else p
  if h : Canonical significand scale then some ⟨negative, significand, scale, h⟩ else none

-- The number nearest to a whole number.
def ofNat? (negative : Bool) (n : Nat) : Option Binary64 :=
  ofUnits? negative (n * twoTo 1074) 1

-- The product of the magnitudes, rounded.
def mul? (x y : Binary64) : Option Binary64 :=
  ofUnits? x.negative (x.units * y.units) (twoTo 1074)

-- The quotient of the magnitudes, rounded.
def div? (x y : Binary64) : Option Binary64 :=
  ofUnits? x.negative (x.units * twoTo 1074) y.units

def neg (x : Binary64) : Binary64 :=
  { x with negative := !x.negative }

end Binary64
end RoutingPlan
