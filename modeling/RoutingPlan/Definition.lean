-- Plan definitions: trees of step keys as people write them down. A definition without children and
-- one with an empty list of children mean the same, but stay apart in what is written.

namespace RoutingPlan

inductive Definition where
  | mk (step : String) (routeKey : Option String) (children : Option (List Definition))

namespace Definition

instance : Inhabited Definition := ⟨mk "" none none⟩

def step : Definition → String
  | mk s _ _ => s

-- The key under which a router above continues here.
def routeKey : Definition → Option String
  | mk _ r _ => r

-- The list of children as it was written.
def children? : Definition → Option (List Definition)
  | mk _ _ cs => cs

def children (d : Definition) : List Definition :=
  d.children?.getD []

-- A definition of one step alone.
def leaf (step : String) : Definition :=
  mk step none none

def withRoute (d : Definition) (key : String) : Definition :=
  mk d.step (some key) d.children?

def withChild (d child : Definition) : Definition :=
  mk d.step d.routeKey (some (d.children ++ [child]))

mutual

def nodeCount : Definition → Nat
  | mk _ _ none => 1
  | mk _ _ (some cs) => 1 + nodeCounts cs

def nodeCounts : List Definition → Nat
  | [] => 0
  | c :: cs => nodeCount c + nodeCounts cs

end

mutual

-- How deep the objects and lists of a definition are nested when it is written as JSON.
def nesting : Definition → Nat
  | mk _ _ none => 1
  | mk _ _ (some cs) => 2 + maxNesting cs

def maxNesting : List Definition → Nat
  | [] => 0
  | c :: cs => max (nesting c) (maxNesting cs)

end

mutual

-- Same steps and route keys at the same places; an empty list of children is as good as none.
def isEquivalent : Definition → Definition → Bool
  | mk s r none, mk s' r' none => s == s' && r == r'
  | mk s r none, mk s' r' (some cs) => s == s' && r == r' && cs.isEmpty
  | mk s r (some cs), mk s' r' none => s == s' && r == r' && cs.isEmpty
  | mk s r (some cs), mk s' r' (some cs') => s == s' && r == r' && areEquivalent cs cs'

def areEquivalent : List Definition → List Definition → Bool
  | [], [] => true
  | c :: cs, c' :: cs' => isEquivalent c c' && areEquivalent cs cs'
  | _, _ => false

end

mutual

def decEq : (a b : Definition) → Decidable (a = b)
  | mk s r none, mk s' r' none => decidable_of_iff (s = s' ∧ r = r') (by simp)
  | mk _ _ none, mk _ _ (some _) => isFalse (by simp)
  | mk _ _ (some _), mk _ _ none => isFalse (by simp)
  | mk s r (some cs), mk s' r' (some cs') =>
    if h : s = s' ∧ r = r' then
      match decEqs cs cs' with
      | isTrue h' => isTrue (by rw [h.1, h.2, h'])
      | isFalse h' => isFalse (by simp [h'])
    else isFalse (fun e => h (by simp_all))

def decEqs : (as bs : List Definition) → Decidable (as = bs)
  | [], [] => isTrue rfl
  | [], _ :: _ | _ :: _, [] => isFalse nofun
  | a :: as, b :: bs =>
    match decEq a b, decEqs as bs with
    | isTrue h, isTrue h' => isTrue (by rw [h, h'])
    | isFalse h, _ => isFalse (by simp [h])
    | _, isFalse h => isFalse (by simp [h])

end

instance : DecidableEq Definition := decEq

end Definition
end RoutingPlan
