import RoutingPlan.Json.Tree

-- Reading JSON text. Every reader takes the characters that are left and gives back what it read
-- with the characters after it, or none when the text has the wrong form there.

namespace RoutingPlan.Json

def isBlank (c : Char) : Bool :=
  c == ' ' || c == '\n' || c == '\t' || c == '\r'

def skipBlanks (cs : List Char) : List Char :=
  cs.dropWhile isBlank

-- What a quoted text holds: characters and 16-bit units written as escapes.
inductive Piece where
  | char (c : Char)
  | unit (n : Nat)

namespace Piece

def isHigh (n : Nat) : Bool := 0xD800 ≤ n && n < 0xDC00

def isLow (n : Nat) : Bool := 0xDC00 ≤ n && n < 0xE000

-- A high unit needs the low one that makes a character with it, and no low one stands alone.
def decode? : List Piece → Option (List Char)
  | [] => some []
  | char c :: ps => (decode? ps).map (c :: ·)
  | unit n :: ps =>
    if isHigh n then
      match ps with
      | unit m :: ps =>
        if isLow m then
          (decode? ps).map (Char.ofNat (0x10000 + (n - 0xD800) * 0x400 + (m - 0xDC00)) :: ·)
        else none
      | _ => none
    else if isLow n then none
    else (decode? ps).map (Char.ofNat n :: ·)

end Piece

def hexValue? (c : Char) : Option Nat :=
  if '0' ≤ c ∧ c ≤ '9' then some (c.toNat - '0'.toNat)
  else if 'a' ≤ c ∧ c ≤ 'f' then some (c.toNat - 'a'.toNat + 10)
  else if 'A' ≤ c ∧ c ≤ 'F' then some (c.toNat - 'A'.toNat + 10)
  else none

def unescape? (c : Char) : Option Char :=
  if c = '"' ∨ c = '\\' ∨ c = '/' then some c
  else if c = 'b' then some '\x08'
  else if c = 'f' then some '\x0c'
  else if c = 'n' then some '\n'
  else if c = 'r' then some '\r'
  else if c = 't' then some '\t'
  else none

def hexUnit? (a b c d : Char) : Option Nat := do
  let a ← hexValue? a
  let b ← hexValue? b
  let c ← hexValue? c
  let d ← hexValue? d
  some (((a * 16 + b) * 16 + c) * 16 + d)

-- The rest of a quoted text, after its opening quote.
def readPieces : List Char → Option (List Piece × List Char)
  | [] => none
  | '"' :: cs => some ([], cs)
  | '\\' :: 'u' :: a :: b :: c :: d :: cs =>
    match hexUnit? a b c d, readPieces cs with
    | some n, some (ps, cs) => some (.unit n :: ps, cs)
    | _, _ => none
  | '\\' :: c :: cs =>
    match unescape? c, readPieces cs with
    | some c, some (ps, cs) => some (.char c :: ps, cs)
    | _, _ => none
  | c :: cs =>
    if c = '\\' ∨ c.toNat < 0x20 then none
    else
      match readPieces cs with
      | some (ps, cs) => some (.char c :: ps, cs)
      | none => none

def readQuoted (cs : List Char) : Option (Option String × List Char) :=
  (readPieces cs).map fun (ps, cs) => ((Piece.decode? ps).map String.ofList, cs)

-- One digit at least.
def readDigits (cs : List Char) : Option (List Char × List Char) :=
  let ds := cs.takeWhile Char.isDigit
  if ds.isEmpty then none else some (ds, cs.dropWhile Char.isDigit)

-- No digit follows a leading zero.
def readWhole : List Char → Option (List Char × List Char)
  | '0' :: c :: cs => if c.isDigit then none else some (['0'], c :: cs)
  | cs => readDigits cs

def readFraction : List Char → Option (Option (List Char) × List Char)
  | '.' :: cs => (readDigits cs).map fun (ds, cs) => (some ds, cs)
  | cs => some (none, cs)

def readExponent : List Char → Option (Option (Bool × List Char) × List Char)
  | [] => some (none, [])
  | c :: cs =>
    if c = 'e' ∨ c = 'E' then
      match cs with
      | '-' :: cs => (readDigits cs).map fun (ds, cs) => (some (true, ds), cs)
      | '+' :: cs => (readDigits cs).map fun (ds, cs) => (some (false, ds), cs)
      | cs => (readDigits cs).map fun (ds, cs) => (some (false, ds), cs)
    else some (none, c :: cs)

def readMinus : List Char → Bool × List Char
  | '-' :: cs => (true, cs)
  | cs => (false, cs)

def readNumeral (cs : List Char) : Option (Numeral × List Char) := do
  let (negative, cs) := readMinus cs
  let (digits, cs) ← readWhole cs
  let (fraction, cs) ← readFraction cs
  let (exponent, cs) ← readExponent cs
  some (⟨negative, digits, fraction, exponent⟩, cs)

namespace Tree

mutual

-- Reads a value with blanks before it. The bound counts the readers that are entered; twice the
-- length of the text is enough for any text.
def read : Nat → List Char → Option (Tree × List Char)
  | 0, _ => none
  | n + 1, cs =>
    match skipBlanks cs with
    | 'n' :: 'u' :: 'l' :: 'l' :: cs => some (null, cs)
    | 't' :: 'r' :: 'u' :: 'e' :: cs => some (bool true, cs)
    | 'f' :: 'a' :: 'l' :: 's' :: 'e' :: cs => some (bool false, cs)
    | '"' :: cs => (readQuoted cs).map fun (s, cs) => (string s, cs)
    | '[' :: cs =>
      match skipBlanks cs with
      | ']' :: cs => some (array [], cs)
      | cs => (readElements n cs).map fun (ts, cs) => (array ts, cs)
    | '{' :: cs =>
      match skipBlanks cs with
      | '}' :: cs => some (object [], cs)
      | cs => (readMembers n cs).map fun (ms, cs) => (object ms, cs)
    | cs => (readNumeral cs).map fun (t, cs) => (number t.value?, cs)

def readElements : Nat → List Char → Option (List Tree × List Char)
  | 0, _ => none
  | n + 1, cs =>
    match read n cs with
    | none => none
    | some (t, cs) =>
      match skipBlanks cs with
      | ',' :: cs => (readElements n cs).map fun (ts, cs) => (t :: ts, cs)
      | ']' :: cs => some ([t], cs)
      | _ => none

def readMembers : Nat → List Char → Option (List (Option String × Tree) × List Char)
  | 0, _ => none
  | n + 1, cs =>
    match skipBlanks cs with
    | '"' :: cs =>
      match readQuoted cs with
      | none => none
      | some (k, cs) =>
        match skipBlanks cs with
        | ':' :: cs =>
          match read n cs with
          | none => none
          | some (t, cs) =>
            match skipBlanks cs with
            | ',' :: cs => (readMembers n cs).map fun (ms, cs) => ((k, t) :: ms, cs)
            | '}' :: cs => some ([(k, t)], cs)
            | _ => none
        | _ => none
    | _ => none

end

-- The tree of a whole text: nothing but blanks may follow it.
def ofText? (s : String) : Option Tree :=
  let cs := s.toList
  match read (2 * cs.length + 2) cs with
  | some (t, cs) => if (skipBlanks cs).isEmpty then some t else none
  | none => none

end Tree

-- The value of a whole text, however deep it is nested.
def Value.ofText? (s : String) : Option Value :=
  (Tree.ofText? s).bind Tree.value?

end RoutingPlan.Json
