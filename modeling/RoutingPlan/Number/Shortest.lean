import RoutingPlan.Number.Binary64

-- The shortest decimal that reads back as a given binary64 number, and its text.

namespace RoutingPlan.Binary64

-- The decimals that round to a number lie between `low` and `high`, counted with the number itself
-- in units of `2 ^ -1076`; the ends belong to them when `closed` holds.
structure Neighbourhood where
  low : Nat
  centre : Nat
  high : Nat
  closed : Bool

-- Half the way to each neighbour: below a power of two the numbers lie twice as close.
def neighbourhood (x : Binary64) : Neighbourhood :=
  let step := twoTo x.scale
  let below := if x.significand = twoTo 52 ∧ 0 < x.scale then step else 2 * step
  { low := 4 * x.units - below
    centre := 4 * x.units
    high := 4 * x.units + 2 * step
    closed := x.significand % 2 = 0 }

namespace Neighbourhood

-- Whether `c / d` units lie inside.
def holds (b : Neighbourhood) (c d : Nat) : Bool :=
  if b.closed then b.low * d ≤ c && c ≤ b.high * d else b.low * d < c && c < b.high * d

-- The multiple of `10 ^ k` inside that is nearest to the centre: only the two on either side of it
-- come into question, and of two equally near ones the even multiple is taken.
def multiple? (b : Neighbourhood) (k : Int) : Option Nat :=
  let unit := twoTo 1076 * tenTo k.toNat
  let d := tenTo (-k).toNat
  let c := b.centre * d / unit
  let down := b.holds (c * unit) d
  let up := b.holds ((c + 1) * unit) d
  let toDown := b.centre * d - c * unit
  let toUp := (c + 1) * unit - b.centre * d
  if down && up then
    if toDown < toUp then some c
    else if toUp < toDown then some (c + 1)
    else if c % 2 = 0 then some c else some (c + 1)
  else if down then some c
  else if up then some (c + 1)
  else none

-- Goes from coarse decimal grids to fine ones, at most `n` of them, to the first with a point
-- inside.
def coarsest (b : Neighbourhood) : Nat → Int → Nat × Int
  | 0, k => (0, k)
  | n + 1, k =>
    match b.multiple? k with
    | some c => (c, k)
    | none => coarsest b n (k - 1)

end Neighbourhood

-- Digits `c` and exponent `k` of the shortest decimal `c * 10 ^ k` that rounds to the number. The
-- grid of `10 ^ -1074` holds every number itself, so the search ends there at the latest.
def shortest (x : Binary64) : Nat × Int :=
  let whole := (Nat.toDigits 10 (x.units / twoTo 1074)).length
  x.neighbourhood.coarsest (whole + 1075) whole

-- Written with a point when the first digit stands for a power of ten from -5 to 15, else with an
-- exponent, which always has a sign in front of a positive value.
def layout (digits : List Char) (k : Int) : List Char :=
  let e : Int := k + digits.length - 1
  if -5 ≤ e ∧ e ≤ 15 then
    if 0 ≤ k then digits ++ List.replicate k.toNat '0' ++ ['.', '0']
    else if 0 ≤ e then digits.take (e.toNat + 1) ++ '.' :: digits.drop (e.toNat + 1)
    else '0' :: '.' :: List.replicate (-e - 1).toNat '0' ++ digits
  else
    let mantissa := match digits with
      | d :: ds@(_ :: _) => d :: '.' :: ds
      | ds => ds
    mantissa ++ 'e' :: (if 0 ≤ e then '+' else '-') :: Nat.toDigits 10 e.natAbs

-- The text of a number: the fewest digits that read back, with a point or an exponent always.
def render (x : Binary64) : List Char :=
  let sign := if x.negative then ['-'] else []
  if x.isZero then sign ++ ['0', '.', '0']
  else
    let (c, k) := x.shortest
    sign ++ layout (Nat.toDigits 10 c) k

end RoutingPlan.Binary64
