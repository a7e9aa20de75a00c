import RoutingPlan.Number.Shortest

-- Numbers of JSON: whole numbers of 64 bits, signed or not, and binary64 numbers for all else.

namespace RoutingPlan.Json

inductive Number where
  | whole (n : Int)
  | real (x : Binary64)
deriving DecidableEq

-- A number as it is spelled: the parts between its marks.
structure Numeral where
  negative : Bool
  digits : List Char
  fraction : Option (List Char)
  exponent : Option (Bool × List Char)

namespace Numeral

def digitValue (c : Char) : Nat :=
  c.toNat - '0'.toNat

-- A decimal `significand * 10 ^ exponent` on its way to a binary64 number.
structure Decimal where
  significand : Nat
  exponent : Int

namespace Decimal

-- Significands stay below this bound.
def room : Nat := twoTo 64

-- Takes up digits while there is room for them, and gives back the others.
def take : Nat → List Char → Nat × List Char
  | s, [] => (s, [])
  | s, c :: cs =>
    let s' := s * 10 + digitValue c
    if s' < room then take s' cs else (s, c :: cs)

-- The digits before the point; each one without room stands for a factor of ten.
def ofDigits (digits : List Char) : Decimal :=
  let (s, rest) := take 0 digits
  ⟨s, rest.length⟩

-- The digits after the point; those without room are dropped.
def addFraction (d : Decimal) (digits : List Char) : Decimal :=
  let (s, rest) := take d.significand digits
  ⟨s, d.exponent - (digits.length - rest.length : Nat)⟩

def power? (k : Nat) : Option Binary64 :=
  Binary64.ofNat? false (tenTo k)

-- The significand is rounded to a binary64 number, which is then scaled by a power of ten of at
-- most 308 and rounded again; below that range a division by `10 ^ 308` goes first, and what would
-- need two of them is zero. None stands for a number out of range.
def toBinary64? (negative : Bool) (d : Decimal) : Option Binary64 := do
  if d.significand = 0 ∨ d.exponent < -616 then
    some (Binary64.zero negative)
  else
    let x ← Binary64.ofNat? negative d.significand
    if 308 < d.exponent then none
    else if 0 ≤ d.exponent then x.mul? (← power? d.exponent.toNat)
    else if -308 ≤ d.exponent then x.div? (← power? (-d.exponent).toNat)
    else (← x.div? (← power? 308)).div? (← power? (-d.exponent - 308).toNat)

end Decimal

def natural (digits : List Char) : Nat :=
  digits.foldl (fun n c => n * 10 + digitValue c) 0

-- The value of a spelling. Without fraction and exponent it is a whole number if 64 bits hold it,
-- unsigned or signed; minus zero is not one of those.
def value? (t : Numeral) : Option Number :=
  let n := natural t.digits
  let whole? : Option Int :=
    if t.negative then if 0 < n ∧ n ≤ twoTo 63 then some (-n) else none
    else if n < twoTo 64 then some n else none
  match t.fraction, t.exponent, whole? with
  | none, none, some i => some (.whole i)
  | fraction, exponent, _ =>
    let d := (fraction.map (Decimal.ofDigits t.digits).addFraction).getD (Decimal.ofDigits t.digits)
    let shift : Int := match exponent with
      | none => 0
      | some (down, ds) => if down then -natural ds else natural ds
    (Decimal.toBinary64? t.negative ⟨d.significand, d.exponent + shift⟩).map .real

end Numeral

-- Whole numbers print in decimal, the others as their shortest text.
def Number.render : Number → List Char
  | .whole n => (if n < 0 then ['-'] else []) ++ Nat.toDigits 10 n.natAbs
  | .real x => x.render

-- The number as a binary64 number, rounded where it is whole.
def Number.toReal? : Number → Option Binary64
  | .whole n => Binary64.ofNat? (n < 0) n.natAbs
  | .real x => some x

end RoutingPlan.Json
