import RoutingPlan.Text.CaseTable

-- Lower and upper case of whole texts. The mappings look at one character at a time, but for the
-- capital sigma, whose lower case depends on whether it ends a word.

namespace RoutingPlan.Text

namespace Shift

def covers (s : Shift) (n : Nat) : Bool :=
  s.first ≤ n && n ≤ s.last && (n - s.first) % s.stride == 0

def apply (s : Shift) (n : Nat) : Nat :=
  (n + s.distance).toNat

end Shift

-- The mapping of one character by a table of shifts and a table of sequences.
def mapChar (shifts : List Shift) (sequences : List (Nat × List Nat)) (c : Char) : List Char :=
  match sequences.find? (·.1 == c.toNat) with
  | some (_, ns) => ns.map Char.ofNat
  | none =>
    match shifts.find? (·.covers c.toNat) with
    | some s => [Char.ofNat (s.apply c.toNat)]
    | none => [c]

def inRanges (ranges : List (Nat × Nat)) (c : Char) : Bool :=
  ranges.any fun (a, b) => a ≤ c.toNat && c.toNat ≤ b

def isCased (c : Char) : Bool :=
  inRanges casedRanges c

def isCaseIgnorable (c : Char) : Bool :=
  inRanges caseIgnorableRanges c

-- Whether the first character that is not case-ignorable is cased.
def meetsCased (cs : List Char) : Bool :=
  match cs.dropWhile isCaseIgnorable with
  | c :: _ => isCased c
  | [] => false

def lowerChar (c : Char) : List Char :=
  if c.toNat < 0x80 then [c.toLower] else mapChar lowerShifts lowerSequences c

def upperChar (c : Char) : List Char :=
  if c.toNat < 0x80 then [c.toUpper] else mapChar upperShifts upperSequences c

-- The lower case of `cs`, which stands after the characters `before`, the nearest of them first. A
-- sigma ends a word when a cased character comes before it and none comes after it.
def lowerFrom (before : List Char) : List Char → List Char
  | [] => []
  | c :: cs =>
    (if c = 'Σ' then [if meetsCased before && !meetsCased cs then 'ς' else 'σ']
      else lowerChar c) ++ lowerFrom (c :: before) cs

def toLower (s : String) : String :=
  String.ofList (lowerFrom [] s.toList)

def toUpper (s : String) : String :=
  String.ofList (s.toList.flatMap upperChar)

end RoutingPlan.Text
