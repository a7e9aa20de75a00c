-- White space as Unicode defines it, and text that holds nothing else.

namespace RoutingPlan.Text

-- The characters with the property White_Space.
def isSpace (c : Char) : Bool :=
  let n := c.toNat
  (9 ≤ n && n ≤ 13) || n == 0x20 || n == 0x85 || n == 0xA0 || n == 0x1680 ||
    (0x2000 ≤ n && n ≤ 0x200A) || n == 0x2028 || n == 0x2029 || n == 0x202F || n == 0x205F ||
    n == 0x3000

def trimStart (cs : List Char) : List Char :=
  cs.dropWhile isSpace

def trimEnd (cs : List Char) : List Char :=
  (cs.reverse.dropWhile isSpace).reverse

-- The text without the white space at its two ends.
def trim (s : String) : String :=
  String.ofList (trimEnd (trimStart s.toList))

-- A text is blank when nothing is left of it once it is trimmed.
def isBlank (s : String) : Bool :=
  s.toList.all isSpace

theorem all_dropWhile_iff (p : Char → Bool) (cs : List Char) :
    (cs.dropWhile p).all p = true ↔ cs.dropWhile p = [] := by
  induction cs with
  | nil => simp
  | cons c cs ih => by_cases h : p c <;> simp_all [List.dropWhile]

-- What trimming leaves is blank only if nothing is left.
theorem isBlank_trim_iff {s : String} : isBlank (trim s) = true ↔ trim s = "" := by
  rw [isBlank, trim, String.toList_ofList, trimEnd, List.all_reverse, all_dropWhile_iff,
    ← List.reverse_eq_nil_iff]
  exact String.ofList_eq_empty_iff.symm

end RoutingPlan.Text
