import RoutingPlan.Number.Power
import RoutingPlan.Text.Blank

-- Points in time with a resolution of nanoseconds, the calendar date they fall on, and their text.

namespace RoutingPlan

-- Seconds since 1970 began, and nanoseconds past them. A leap second has no number of its own: it
-- prolongs the second before it, whose nanoseconds then go on past `10 ^ 9`.
structure Instant where
  seconds : Int
  nanos : Nat
deriving DecidableEq

namespace Instant

structure Date where
  year : Int
  month : Nat
  day : Nat
deriving DecidableEq

-- The day counted from 1 January 1970. The year is taken to begin in March, so that the leap day
-- ends it.
def Date.toDays (d : Date) : Int :=
  let y := if d.month ≤ 2 then d.year - 1 else d.year
  let m := (d.month + 9) % 12
  let dayOfYear : Int := (153 * m + 2) / 5 + d.day - 1
  365 * y + y.fdiv 4 - y.fdiv 100 + y.fdiv 400 + dayOfYear - 719468

def Date.ofDays (n : Int) : Date :=
  let z := n + 719468
  let era := z.fdiv 146097
  let e := (z - era * 146097).toNat
  let yearOfEra := (e - e / 1460 + e / 36524 - e / 146096) / 365
  let dayOfYear := e - (365 * yearOfEra + yearOfEra / 4 - yearOfEra / 100)
  let m := (5 * dayOfYear + 2) / 153
  let month := if m < 10 then m + 3 else m - 9
  { year := era * 400 + yearOfEra + (if month ≤ 2 then 1 else 0)
    month := month
    day := dayOfYear - (153 * m + 2) / 5 + 1 }

def isLeapYear (y : Int) : Bool :=
  y % 4 = 0 && (y % 100 ≠ 0 || y % 400 = 0)

def daysInMonth (y : Int) (m : Nat) : Nat :=
  if m = 2 then if isLeapYear y then 29 else 28
  else if m = 4 ∨ m = 6 ∨ m = 9 ∨ m = 11 then 30
  else 31

def Date.isValid (d : Date) : Bool :=
  1 ≤ d.month && d.month ≤ 12 && 1 ≤ d.day && d.day ≤ daysInMonth d.year d.month

def day (t : Instant) : Int :=
  t.seconds.fdiv 86400

def secondOfDay (t : Instant) : Nat :=
  (t.seconds - t.day * 86400).toNat

def date (t : Instant) : Date :=
  Date.ofDays t.day

-- Whole milliseconds from one instant to another, rounded toward zero. A leap second that lies
-- between them on the clock counts, whichever of the two is in it.
def millisecondsTo (a b : Instant) : Int :=
  let leap : Int :=
    if a.secondOfDay < b.secondOfDay ∧ 1000000000 ≤ a.nanos then 1
    else if b.secondOfDay < a.secondOfDay ∧ 1000000000 ≤ b.nanos then -1
    else 0
  ((b.seconds - a.seconds + leap) * 1000000000 + (b.nanos - a.nanos : Int)).tdiv 1000000

-- Decimal digits, with zeros in front up to the width.
def padded (width n : Nat) : List Char :=
  let ds := Nat.toDigits 10 n
  List.replicate (width - ds.length) '0' ++ ds

-- Years of four digits are bare, the others carry a sign.
def renderYear (y : Int) : List Char :=
  if 0 ≤ y ∧ y ≤ 9999 then padded 4 y.toNat
  else (if 0 ≤ y then '+' else '-') :: padded 4 y.natAbs

-- The fewest groups of three digits that are exact, none for a whole second.
def renderFraction (nanos : Nat) : List Char :=
  if nanos = 0 then []
  else if nanos % 1000000 = 0 then '.' :: padded 3 (nanos / 1000000)
  else if nanos % 1000 = 0 then '.' :: padded 6 (nanos / 1000)
  else '.' :: padded 9 nanos

-- Date and time of day at the zero offset.
def renderClock (t : Instant) : List Char :=
  let d := t.date
  let s := t.secondOfDay
  renderYear d.year ++ '-' :: padded 2 d.month ++ '-' :: padded 2 d.day ++
    'T' :: padded 2 (s / 3600) ++ ':' :: padded 2 (s / 60 % 60) ++
    ':' :: padded 2 (s % 60 + t.nanos / 1000000000) ++ renderFraction (t.nanos % 1000000000)

-- The text by RFC 3339, with a letter for the zero offset.
def render (t : Instant) : List Char :=
  t.renderClock ++ ['Z']

def text (t : Instant) : String :=
  String.ofList t.render

-- The text by RFC 3339, with the zero offset in digits.
def offsetText (t : Instant) : String :=
  String.ofList (t.renderClock ++ "+00:00".toList)

-- At most `limit` digits and at least one.
def readNumber (limit : Nat) (cs : List Char) : Option (Nat × List Char) :=
  let ds := (cs.take limit).takeWhile Char.isDigit
  if ds.isEmpty then none
  else some (ds.foldl (fun n c => n * 10 + (c.toNat - '0'.toNat)) 0, cs.drop ds.length)

-- Blanks, then one or two digits.
def readPair (cs : List Char) : Option (Nat × List Char) :=
  readNumber 2 (Text.trimStart cs)

def readMark (c : Char) (cs : List Char) : Option (List Char) :=
  match Text.trimStart cs with
  | d :: ds => if d = c then some ds else none
  | [] => none

-- A year with a sign has any number of digits, one without at most four.
def readYear (cs : List Char) : Option (Int × List Char) :=
  match Text.trimStart cs with
  | '-' :: cs => (readNumber cs.length cs).map fun (n, cs) => (-n, cs)
  | '+' :: cs => (readNumber cs.length cs).map fun (n, cs) => (n, cs)
  | cs => (readNumber 4 cs).map fun (n, cs) => (n, cs)

-- Digits past the ninth are dropped.
def readNanos : List Char → Option (Nat × List Char)
  | '.' :: cs =>
    (readNumber 9 cs).map fun (n, rest) =>
      (n * tenTo (9 - (cs.length - rest.length)), rest.dropWhile Char.isDigit)
  | cs => some (0, cs)

-- An offset from the zero meridian in seconds.
def readOffset (cs : List Char) : Option (Int × List Char) :=
  match Text.trimStart cs with
  | [] => none
  | c :: cs =>
    if c = 'Z' ∨ c = 'z' then some (0, cs)
    else if (c = 'U' ∨ c = 'u') ∧ (cs.take 2).map Char.toLower = ['t', 'c'] then
      some (0, cs.drop 2)
    else if c = '+' ∨ c = '-' ∨ c = '−' then
      match cs with
      | h :: h' :: cs =>
        match cs.dropWhile (fun c => c == ':' || Text.isSpace c) with
        | m :: m' :: cs =>
          if h.isDigit ∧ h'.isDigit ∧ m.isDigit ∧ m'.isDigit ∧ m < '6' then
            let pair (a b : Char) : Int := (a.toNat - '0'.toNat) * 10 + (b.toNat - '0'.toNat)
            let s := pair h h' * 3600 + pair m m' * 60
            some (if c = '+' then s else -s, cs)
          else none
        | _ => none
      | _ => none
    else none

-- The days from the first to the last year that a date can have.
def inRange (days : Int) : Bool :=
  (Date.mk (-262143) 1 1).toDays ≤ days && days ≤ (Date.mk 262142 12 31).toDays

-- Reads a text by RFC 3339. Blanks may stand between its parts, date and time may be parted by a
-- blank, and the sixtieth second of any minute is a leap second.
def ofText? (s : String) : Option Instant := do
  let (year, cs) ← readYear s.toList
  let (month, cs) ← readPair (← readMark '-' cs)
  let (day, cs) ← readPair (← readMark '-' cs)
  let cs ← match cs with
    | c :: cs => if c = 't' ∨ c = 'T' ∨ c = ' ' then some cs else none
    | [] => none
  let (hour, cs) ← readPair cs
  let (minute, cs) ← readPair (← readMark ':' cs)
  let (second, cs) ← readPair (← readMark ':' cs)
  let (nanos, cs) ← readNanos cs
  let (offset, cs) ← readOffset cs
  let date : Date := ⟨year, month, day⟩
  if date.isValid ∧ hour < 24 ∧ minute < 60 ∧ second ≤ 60 ∧ offset.natAbs < 86400 ∧
      (Text.trimStart cs).isEmpty ∧ inRange date.toDays then
    let clock : Int := hour * 3600 + minute * 60 + (if second = 60 then 59 else second)
    let t : Instant :=
      ⟨date.toDays * 86400 + clock - offset, if second = 60 then nanos + 1000000000 else nanos⟩
    if inRange t.day then some t else none
  else none

end Instant
end RoutingPlan
