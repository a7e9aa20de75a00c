import RoutingPlan.Toml.Value
import RoutingPlan.Json.Reader
import RoutingPlan.Instant

-- Numbers, truth values and dates of TOML, each of them the whole of a word without blanks.

namespace RoutingPlan.Toml

open Json.Numeral (natural)

-- Digits with single underscores between them, without the underscores.
def digits? (isDigit : Char → Bool) (cs : List Char) : Option (List Char) :=
  match cs with
  | [] => none
  | [c] => if isDigit c then some [c] else none
  | c :: d :: cs =>
    if !isDigit c then none
    else if d = '_' then
      match cs with
      | [] => none
      | cs => (digits? isDigit cs).map (c :: ·)
    else (digits? isDigit (d :: cs)).map (c :: ·)

-- Digits of which the first is no zero unless it stands alone.
def wholeDigits? (cs : List Char) : Option (List Char) :=
  match digits? Char.isDigit cs with
  | some ('0' :: _ :: _) => none
  | ds => ds

def splitSign : List Char → Option Char × List Char
  | '+' :: cs => (some '+', cs)
  | '-' :: cs => (some '-', cs)
  | cs => (none, cs)

-- Whether 64 bits with a sign hold a number.
def fits (n : Int) : Bool :=
  -twoTo 63 ≤ n && n < twoTo 63

def radixDigits? (radix : Nat) (cs : List Char) : Option Nat :=
  let value? (c : Char) := (Json.hexValue? c).filter (· < radix)
  (digits? (fun c => (value? c).isSome) cs).map fun ds =>
    ds.foldl (fun n c => n * radix + (value? c).getD 0) 0

def integer? (cs : List Char) : Option Int :=
  let n? : Option Int := match cs with
    | '0' :: 'x' :: cs => (radixDigits? 16 cs).map Int.ofNat
    | '0' :: 'o' :: cs => (radixDigits? 8 cs).map Int.ofNat
    | '0' :: 'b' :: cs => (radixDigits? 2 cs).map Int.ofNat
    | cs =>
      let (sign, cs) := splitSign cs
      (wholeDigits? cs).map fun ds => if sign = some '-' then -natural ds else natural ds
  n?.filter fits

-- Whether `digits * 10 ^ exponent` is too large for a binary64 number.
def overflows (digits : List Char) (exponent : Int) : Bool :=
  let ds := digits.dropWhile (· == '0')
  let size : Int := ds.length + exponent
  if ds.isEmpty ∨ size < 300 then false
  else if 320 < size then true
  else
    (Binary64.ofUnits? false (natural ds * tenTo exponent.toNat * twoTo 1074)
      (tenTo (-exponent).toNat)).isNone

-- A number with a fraction, an exponent or both. Only positive numbers are refused for their size.
def isFloat (cs : List Char) : Bool :=
  let (sign, cs) := splitSign cs
  if cs == "inf".toList || cs == "nan".toList then true
  else
    let isMark (c : Char) := c == 'e' || c == 'E'
    let mantissa := cs.takeWhile (!isMark ·)
    let exponent? : Option Int := match cs.dropWhile (!isMark ·) with
      | [] => some 0
      | _ :: e =>
        let (sign, e) := splitSign e
        (digits? Char.isDigit e).map fun ds => if sign = some '-' then -natural ds else natural ds
    let fraction? := match mantissa.dropWhile (· != '.') with
      | [] => some []
      | _ :: f => digits? Char.isDigit f
    match wholeDigits? (mantissa.takeWhile (· != '.')), fraction?, exponent? with
    | some whole, some fraction, some exponent =>
      cs.any (fun c => isMark c || c == '.') &&
        (sign = some '-' || !overflows (whole ++ fraction) (exponent - fraction.length))
    | _, _, _ => false

def isDate : List Char → Bool
  | [a, b, c, d, '-', e, f, '-', g, h] =>
    [a, b, c, d, e, f, g, h].all Char.isDigit &&
      (Instant.Date.mk (natural [a, b, c, d]) (natural [e, f]) (natural [g, h])).isValid
  | _ => false

def isClock (a b c d : Char) : Bool :=
  [a, b, c, d].all Char.isDigit && natural [a, b] < 24 && natural [c, d] < 60

-- A time of day, and the characters after it.
def readTime : List Char → Option (List Char)
  | a :: b :: ':' :: c :: d :: ':' :: e :: f :: cs =>
    if isClock a b c d && e.isDigit && f.isDigit && natural [e, f] ≤ 60 then
      match cs with
      | '.' :: g :: cs => if g.isDigit then some (cs.dropWhile Char.isDigit) else none
      | ['.'] => none
      | cs => some cs
    else none
  | _ => none

def isOffset : List Char → Bool
  | [] => true
  | ['Z'] | ['z'] => true
  | [s, a, b, ':', c, d] => (s == '+' || s == '-') && isClock a b c d
  | _ => false

-- A date, a time of day, or a date and a time with or without an offset.
def isDatetime (cs : List Char) : Bool :=
  isDate cs || readTime cs == some [] ||
    isDate (cs.take 10) &&
      match cs.drop 10 with
      | c :: time => (c == 'T' || c == 't' || c == ' ') && ((readTime time).map isOffset).getD false
      | [] => false

def scalar? (cs : List Char) : Option Value :=
  if cs == "true".toList then some (.boolean true)
  else if cs == "false".toList then some (.boolean false)
  else if isDatetime cs then some .datetime
  else if isFloat cs then some .float
  else (integer? cs).map .integer

def isWordChar (c : Char) : Bool :=
  c.isAlphanum || c == '+' || c == '-' || c == '_' || c == '.' || c == ':'

-- A word, and what comes after it. A date goes on past a blank if a time follows there.
def readScalar (cs : List Char) : Option (Value × List Char) :=
  let word := cs.takeWhile isWordChar
  let rest := cs.dropWhile isWordChar
  let long := word ++ ' ' :: (rest.drop 1).takeWhile isWordChar
  if isDate word && rest.head? == some ' ' && isDatetime long then
    some (.datetime, (rest.drop 1).dropWhile isWordChar)
  else (scalar? word).map (·, rest)

end RoutingPlan.Toml
