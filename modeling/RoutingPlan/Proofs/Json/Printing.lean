import RoutingPlan.Proofs.Json.Spelling

-- What is printed for a value spells that value, so that it is read back as it was.

namespace RoutingPlan.Json

theorem hexUnit?_hexDigit : ∀ n < 0x20,
    hexUnit? '0' '0' (hexDigit (n / 16)) (hexDigit (n % 16)) = some n := by
  decide

namespace Piece

theorem decode?_unit {n : Nat} {ps : List Piece} (h : n < 0x20) :
    decode? (unit n :: ps) = (decode? ps).map (Char.ofNat n :: ·) := by
  have high : isHigh n = false := by simp only [isHigh]; grind
  have low : isLow n = false := by simp only [isLow]; grind
  rw [decode?.eq_def]
  simp [high, low]

theorem exists_spells_escape {c : Char} {cs ds : List Char} {ps : List Piece}
    (h : Spells cs ps) (decodes : decode? ps = some ds) :
    ∃ ps, Spells (escape c ++ cs) ps ∧ decode? ps = some (c :: ds) := by
  have escaped {e : Char} (escape : unescape? e = some c) :
      ∃ ps, Spells ('\\' :: e :: cs) ps ∧ decode? ps = some (c :: ds) :=
    ⟨_, .escaped escape h, by simp [decode?, decodes]⟩
  fun_cases escape c
  case case8 control =>
    refine ⟨_, .unit (hexUnit?_hexDigit c.toNat control) h, ?_⟩
    rw [decode?_unit control, decodes]
    simp
  case case9 quote backslash _ _ _ _ _ printed =>
    exact ⟨_, .bare quote backslash (Nat.not_lt.mp printed) h, by simp [decode?, decodes]⟩
  all_goals subst_vars; exact escaped (by decide)

theorem exists_spells_flatMap_escape (cs : List Char) :
    ∃ ps, Spells (cs.flatMap escape) ps ∧ decode? ps = some cs := by
  induction cs with
  | nil          => exact ⟨[], .nil, rfl⟩
  | cons c cs ih =>
    have ⟨_, spells, decodes⟩ := ih
    exact exists_spells_escape spells decodes

end Piece

theorem spellsText_quote (s : String) : SpellsText (quote s) (some s) := by
  have ⟨ps, spells, decodes⟩ := Piece.exists_spells_flatMap_escape s.toList
  have := SpellsText.mk spells
  rwa [decodes, Option.map_some, String.ofList_toList] at this

-- What is printed for the number spells it.
def Number.Legible (n : Number) : Prop :=
  ∃ t, Numeral.Spells n.render t ∧ t.value? = some n

namespace Value

mutual

-- All numbers in the value are legible.
def Legible : Value → Prop
  | null | bool _ | string _ => True
  | number n => n.Legible
  | array vs => AreLegible vs
  | object ms => AreLegibleMembers ms

def AreLegible : List Value → Prop
  | [] => True
  | v :: vs => v.Legible ∧ AreLegible vs

def AreLegibleMembers : List (String × Value) → Prop
  | [] => True
  | (_, v) :: ms => v.Legible ∧ AreLegibleMembers ms

end

theorem blanks_indent (n : Nat) : Blanks (indent n) := by
  simp [Blanks, indent, isBlank]

theorem blanks_space : Blanks [' '] := by
  simp [Blanks, isBlank]

mutual

theorem spells_renderPretty : (n : Nat) → (v : Value) → v.Legible →
    Tree.Spells (v.renderPretty n) (Tree.ofValue v)
  | _, null, _ => .null
  | _, bool _, _ => .bool
  | _, number x, h => by
    have ⟨t, spells, value⟩ := h
    rw [Tree.ofValue, ← value]
    exact .number spells
  | _, string s, _ => .string (spellsText_quote s)
  | _, array [], _ => .array (.none blanks_nil)
  | n, array (v :: vs), h => by
    exact .array (spells_renderPrettyElements (n + 1) n (v :: vs) h)
  | _, object [], _ => .object (.none blanks_nil)
  | n, object (m :: ms), h => by
    exact .object (spells_renderPrettyMembers (n + 1) n (m :: ms) h)

theorem spells_renderPrettyElements : (n i : Nat) → (vs : List Value) → AreLegible vs →
    Tree.SpellsElements (renderPrettyElements n vs ++ indent i) (Tree.ofValues vs)
  | _, i, [], _ => .none (blanks_indent i)
  | n, i, [v], h => .last (blanks_indent n) (spells_renderPretty n v h.left) (blanks_indent i)
  | n, i, v :: w :: vs, h => by
    have := Tree.SpellsElements.more (blanks_indent n) (spells_renderPretty n v h.left) blanks_nil
      (spells_renderPrettyElements n i (w :: vs) h.right)
    simpa [renderPrettyElements, Tree.ofValues] using this

theorem spells_renderPrettyMembers : (n i : Nat) → (ms : List (String × Value)) →
    AreLegibleMembers ms →
      Tree.SpellsMembers (renderPrettyMembers n ms ++ indent i) (Tree.ofMembers ms)
  | _, i, [], _ => .none (blanks_indent i)
  | n, i, [(k, v)], h => by
    have := Tree.SpellsMember.mk (blanks_indent n) (spellsText_quote k) blanks_nil blanks_space
      (spells_renderPretty n v h.left) (blanks_indent i)
    exact .last (by simpa [renderPrettyMembers] using this)
  | n, i, (k, v) :: m :: ms, h => by
    have member := Tree.SpellsMember.mk (blanks_indent n) (spellsText_quote k) blanks_nil
      blanks_space (spells_renderPretty n v h.left) blanks_nil
    have := Tree.SpellsMembers.more member (spells_renderPrettyMembers n i (m :: ms) h.right)
    simpa [renderPrettyMembers, Tree.ofMembers] using this

end

end Value

theorem Tree.ofText?_pretty {v : Value} (h : v.Legible) :
    Tree.ofText? v.pretty = some (Tree.ofValue v) :=
  Tree.ofText?_of_spells (v.spells_renderPretty 0 h)

end RoutingPlan.Json
