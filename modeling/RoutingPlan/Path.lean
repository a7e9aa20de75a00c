-- Paths of files as texts with slashes between their parts. Nothing here looks at a file system.

namespace RoutingPlan.Path

def isAbsolute (p : String) : Bool :=
  p.toList.head? == some '/'

-- The path `q` seen from `p`: an absolute `q` stands for itself, and else one slash parts the two,
-- unless `p` is empty or has one already.
def join (p q : String) : String :=
  if isAbsolute q then q
  else if p.isEmpty || p.toList.getLast? == some '/' then p ++ q
  else p ++ "/" ++ q

-- Splits at the slashes.
def segments (p : List Char) : List (List Char) :=
  p.splitOn '/'

-- The parts that name something: neither empty ones nor single points, but for a point that begins
-- the path.
def parts (p : String) : List String :=
  match segments p.toList with
  | [] => []
  | s :: ss =>
    ((if s = [] then [] else [s]) ++ ss.filter fun s => s ≠ [] ∧ s ≠ ['.']).map String.ofList

-- What stands after the last point of the last part. Neither a name that only begins with a point
-- nor the step upwards has an extension.
def extension? (p : String) : Option String :=
  match (parts p).getLast? with
  | none => none
  | some name =>
    let cs := name.toList
    let stem := ((cs.reverse.dropWhile (· != '.')).drop 1).reverse
    if name = ".." ∨ stem = [] then none
    else some (String.ofList (cs.reverse.takeWhile (· != '.')).reverse)

-- Drops slashes and single points from the end of a path, given backwards; the slash and the point
-- that begin a path stay.
def trimBackwards : List Char → List Char
  | ['/'] => ['/']
  | '/' :: cs => trimBackwards cs
  | '.' :: '/' :: cs => trimBackwards ('/' :: cs)
  | cs => cs

theorem length_trimBackwards_le (cs : List Char) : (trimBackwards cs).length ≤ cs.length := by
  fun_induction trimBackwards cs <;> simp_all <;> omega

theorem eq_nil_of_trimBackwards_eq_cons {cs ds : List Char} (h : trimBackwards cs = '/' :: ds) :
    ds = [] := by
  fun_induction trimBackwards cs <;> simp_all

-- The directory of a path, both of them given backwards.
def parentBackwards (cs : List Char) : Option (List Char) :=
  match trimBackwards cs with
  | [] | ['/'] => none
  | c :: cs => some (trimBackwards ((c :: cs).dropWhile (· != '/')))

-- The directory of a path, empty for a bare name. The root and the empty path have none.
def parent? (p : String) : Option String :=
  (parentBackwards p.toList.reverse).map fun cs => String.ofList cs.reverse

theorem length_lt_of_parentBackwards_eq_some {cs ds : List Char}
    (h : parentBackwards cs = some ds) : ds.length < cs.length := by
  unfold parentBackwards at h
  have hcs := length_trimBackwards_le cs
  split at h
  · contradiction
  · contradiction
  · next c rest hr heq =>
    injection h with h
    have hc : c ≠ '/' := by
      intro hc
      subst hc
      exact hr rfl (eq_nil_of_trimBackwards_eq_cons heq)
    have hd := length_trimBackwards_le ((c :: rest).dropWhile (· != '/'))
    have hw := (List.dropWhile_suffix (l := rest) (· != '/')).length_le
    simp_all
    omega

-- A path that has a directory, that directory if it has one itself, and so on, all of them given
-- backwards.
def ascentBackwards (cs : List Char) : List (List Char) :=
  match _h : parentBackwards cs with
  | some ds => cs :: ascentBackwards ds
  | none => []
termination_by cs.length
decreasing_by exact length_lt_of_parentBackwards_eq_some _h

-- A path without what does not matter at its end, its directory, the directory of that one, and so
-- on. Neither the root nor the empty path is among them.
def ascent (p : String) : List String :=
  (ascentBackwards (trimBackwards p.toList.reverse)).map fun cs => String.ofList cs.reverse

-- A path that begins in the home directory begins with a tilde and a slash.
def expandHome (home : Option String) (p : String) : String :=
  match p.toList, home with
  | '~' :: '/' :: rest, some home => join home (String.ofList rest)
  | _, _ => p

end RoutingPlan.Path
