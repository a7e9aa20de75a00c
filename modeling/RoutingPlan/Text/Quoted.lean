import RoutingPlan.Text.Case
import RoutingPlan.Text.UnprintedTable

-- Text in quotes for people to read: what would not show, or would change what stands before it, is
-- written by its number.

namespace RoutingPlan.Text

-- The Hangul fillers, letters that show nothing.
def isFiller (c : Char) : Bool :=
  ['\u115f', '\u1160', '\u3164', '\uffa0'].contains c

-- The half-width sound marks of Katakana, which have a place of their own although they count as
-- extending what stands before them.
def isSoundMark (c : Char) : Bool :=
  ['\uff9e', '\uff9f'].contains c

-- Whether a character changes what stands before it.
def isExtender (c : Char) : Bool :=
  inRanges graphemeExtendRanges c && !isSoundMark c

def isShown (c : Char) : Bool :=
  if c.toNat < 0x7F then 0x20 ≤ c.toNat
  else !isExtender c && !isFiller c && !inRanges unprintedRanges c

def quoteChar (c : Char) : List Char :=
  if c = '\x00' then ['\\', '0']
  else if c = '\t' then ['\\', 't']
  else if c = '\r' then ['\\', 'r']
  else if c = '\n' then ['\\', 'n']
  else if c = '"' ∨ c = '\\' then ['\\', c]
  else if isShown c then [c]
  else '\\' :: 'u' :: '{' :: Nat.toDigits 16 c.toNat ++ ['}']

def quoted (s : String) : String :=
  String.ofList ('"' :: s.toList.flatMap quoteChar ++ ['"'])

end RoutingPlan.Text
