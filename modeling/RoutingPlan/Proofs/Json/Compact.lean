import RoutingPlan.Proofs.Json.Number

-- Values on one line: what is printed has no line feed, it is read back as it was, and no two
-- values have the same tree.

namespace RoutingPlan.Json

section LineFeed

theorem Numeral.not_mem_of_digits {ds : List Char} (h : Digits ds) : '\n' ∉ ds :=
  fun mem => absurd (h.digits _ mem) (by decide)

theorem Numeral.not_mem_of_spells {cs : List Char} {t : Numeral} (h : Spells cs t) :
    '\n' ∉ cs := by
  cases h with
  | @mk negative ds fs es _ _ whole _ fraction exponent =>
    have sign : '\n' ∉ (if negative then ['-'] else []) := by cases negative <;> decide
    have fraction : '\n' ∉ fs := by
      cases fraction with
      | absent    => exact List.not_mem_nil
      | present h => simp [not_mem_of_digits h]
    have exponent : '\n' ∉ es := by
      cases exponent with
      | absent => exact List.not_mem_nil
      | bare mark h | plus mark h | minus mark h =>
        cases mark <;> subst_vars <;> simp [not_mem_of_digits h]
    simp [sign, not_mem_of_digits whole, fraction, exponent]

theorem not_mem_escape (c : Char) : '\n' ∉ escape c := by
  fun_cases escape c
  case case8 control =>
    have hex : ∀ n < 0x20, '\n' ≠ hexDigit (n / 16) ∧ '\n' ≠ hexDigit (n % 16) := by decide
    simp [hex c.toNat control]
  case case9 => simp_all [eq_comm]
  all_goals decide

theorem not_mem_quote (s : String) : '\n' ∉ quote s := by
  simp [quote, not_mem_escape]

namespace Value

mutual

theorem not_mem_render : (v : Value) → '\n' ∉ v.render
  | null      => by decide
  | bool b    => by cases b <;> decide
  | number n  => by
    have ⟨_, spells⟩ := n.exists_spells_render
    exact Numeral.not_mem_of_spells spells
  | string s  => not_mem_quote s
  | array vs  => by simp [render, not_mem_renderElements vs]
  | object ms => by simp [render, not_mem_renderMembers ms]

theorem not_mem_renderElements : (vs : List Value) → '\n' ∉ renderElements vs
  | []          => List.not_mem_nil
  | [v]         => not_mem_render v
  | v :: w :: vs => by
    simp [renderElements, not_mem_render v, not_mem_renderElements (w :: vs)]

theorem not_mem_renderMembers : (ms : List (String × Value)) → '\n' ∉ renderMembers ms
  | []               => List.not_mem_nil
  | [(k, v)]         => by simp [renderMembers, not_mem_quote, not_mem_render v]
  | (k, v) :: m :: ms => by
    simp [renderMembers, not_mem_quote, not_mem_render v, not_mem_renderMembers (m :: ms)]

end

end Value

end LineFeed

namespace Value

mutual

-- Every number in the value is exact.
def Exact : Value → Prop
  | null | bool _ | string _ => True
  | number n => n.Exact
  | array vs => AreExact vs
  | object ms => AreExactMembers ms

def AreExact : List Value → Prop
  | [] => True
  | v :: vs => v.Exact ∧ AreExact vs

def AreExactMembers : List (String × Value) → Prop
  | [] => True
  | (_, v) :: ms => v.Exact ∧ AreExactMembers ms

end

mutual

theorem Exact.legible : {v : Value} → v.Exact → v.Legible
  | null, _ | bool _, _ | string _, _ => trivial
  | number _, h => Number.Exact.legible h
  | array vs, h => AreExact.legible vs h
  | object ms, h => AreExactMembers.legible ms h

theorem AreExact.legible : (vs : List Value) → AreExact vs → AreLegible vs
  | [], _      => trivial
  | _ :: vs, h => ⟨h.left.legible, AreExact.legible vs h.right⟩

theorem AreExactMembers.legible : (ms : List (String × Value)) → AreExactMembers ms →
    AreLegibleMembers ms
  | [], _      => trivial
  | _ :: ms, h => ⟨h.left.legible, AreExactMembers.legible ms h.right⟩

end

mutual

theorem spells_render : (v : Value) → v.Legible → Tree.Spells v.render (Tree.ofValue v)
  | null, _ => .null
  | bool _, _ => .bool
  | number x, h => by
    have ⟨t, spells, value⟩ := h
    rw [Tree.ofValue, ← value]
    exact .number spells
  | string s, _ => .string (spellsText_quote s)
  | array vs, h => .array (spells_renderElements vs h)
  | object ms, h => .object (spells_renderMembers ms h)

theorem spells_renderElements : (vs : List Value) → AreLegible vs →
    Tree.SpellsElements (renderElements vs) (Tree.ofValues vs)
  | [], _ => .none blanks_nil
  | [v], h => by
    have := Tree.SpellsElements.last blanks_nil (spells_render v h.left) blanks_nil
    simpa [renderElements, Tree.ofValues] using this
  | v :: w :: vs, h => by
    have := Tree.SpellsElements.more blanks_nil (spells_render v h.left) blanks_nil
      (spells_renderElements (w :: vs) h.right)
    simpa [renderElements, Tree.ofValues] using this

theorem spells_renderMembers : (ms : List (String × Value)) → AreLegibleMembers ms →
    Tree.SpellsMembers (renderMembers ms) (Tree.ofMembers ms)
  | [], _ => .none blanks_nil
  | [(k, v)], h => by
    have := Tree.SpellsMember.mk blanks_nil (spellsText_quote k) blanks_nil blanks_nil
      (spells_render v h.left) blanks_nil
    exact .last (by simpa [renderMembers] using this)
  | (k, v) :: m :: ms, h => by
    have member := Tree.SpellsMember.mk blanks_nil (spellsText_quote k) blanks_nil blanks_nil
      (spells_render v h.left) blanks_nil
    have := Tree.SpellsMembers.more member (spells_renderMembers (m :: ms) h.right)
    simpa [renderMembers, Tree.ofMembers] using this

end

end Value

namespace Tree

mutual

theorem eq_of_ofValue : {v w : Value} → ofValue v = ofValue w → v = w
  | .null, w, h | .bool _, w, h | .number _, w, h | .string _, w, h => by
    cases w <;> simp_all [ofValue]
  | .array vs, w, h => by
    cases w <;> simp only [ofValue, reduceCtorEq, array.injEq] at h
    rw [eq_of_ofValues h]
  | .object ms, w, h => by
    cases w <;> simp only [ofValue, reduceCtorEq, object.injEq] at h
    rw [eq_of_ofMembers h]

theorem eq_of_ofValues : {vs ws : List Value} → ofValues vs = ofValues ws → vs = ws
  | [], ws, h => by cases ws <;> simp_all [ofValues]
  | v :: vs, ws, h => by
    cases ws <;> simp only [ofValues, reduceCtorEq, List.cons.injEq] at h
    rw [eq_of_ofValue h.left, eq_of_ofValues h.right]

theorem eq_of_ofMembers : {ms ns : List (String × Value)} → ofMembers ms = ofMembers ns → ms = ns
  | [], ns, h => by cases ns <;> simp_all [ofMembers]
  | (k, v) :: ms, ns, h => by
    cases ns <;>
      simp only [ofMembers, reduceCtorEq, List.cons.injEq, Prod.mk.injEq, Option.some.injEq] at h
    rw [eq_of_ofMembers h.right, h.left.left, eq_of_ofValue h.left.right]

end

end Tree

end RoutingPlan.Json
