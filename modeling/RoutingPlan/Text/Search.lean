-- Whether one text occurs within another.

namespace RoutingPlan.Text

def occursIn (sub : List Char) : List Char → Bool
  | [] => sub.isEmpty
  | c :: cs => sub.isPrefixOf (c :: cs) || occursIn sub cs

def contains (s sub : String) : Bool :=
  occursIn sub.toList s.toList

theorem occursIn_iff {sub cs : List Char} : occursIn sub cs = true ↔ sub <:+: cs := by
  induction cs with
  | nil => cases sub <;> simp [occursIn]
  | cons c cs ih => simp [occursIn, ih, List.infix_cons_iff]

end RoutingPlan.Text
