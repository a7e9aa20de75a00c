import Mathlib.Data.List.Infix
import RoutingPlan.Settings.Expansion

-- What becomes of a text when no variable is set that it refers to. Its references are written back
-- as they were, with one exception: a reference that the text never closes is closed.

namespace RoutingPlan.Settings

-- A reference is begun that no brace closes. It need not be the first one: all that comes after a
-- reference that stays open belongs to its name.
def Unclosed (cs : List Char) : Prop :=
  ∃ rest, rest <:+ cs ∧ ['$', '{'] <+: rest ∧ '}' ∉ rest

instance {cs : List Char} : Decidable (Unclosed cs) :=
  decidable_of_iff (∃ rest ∈ cs.tails, ['$', '{'] <+: rest ∧ '}' ∉ rest) <| by
    simp only [List.mem_tails, Unclosed]

-- A part as it is written when it comes to an end.
def Part.source : Part → List Char
  | char c => [c]
  | reference name => '$' :: '{' :: name ++ ['}']

section Unclosed

variable {c : Char} {cs : List Char}

theorem not_unclosed_nil : ¬Unclosed [] := by
  decide

theorem unclosed_cons :
    Unclosed (c :: cs) ↔ (['$', '{'] <+: c :: cs ∧ '}' ∉ c :: cs) ∨ Unclosed cs := by
  simp only [Unclosed, List.suffix_cons_iff, or_and_right, exists_or, exists_eq_left]

theorem unclosed_reference : Unclosed ('$' :: '{' :: cs) ↔ '}' ∉ cs ∨ Unclosed cs := by
  simp [unclosed_cons]

-- What begins no reference makes no difference.
theorem unclosed_char (plain : ∀ name, c = '$' → cs = '{' :: name → False) :
    Unclosed (c :: cs) ↔ Unclosed cs := by
  refine unclosed_cons.trans <| or_iff_right ?_
  rintro ⟨⟨name, begins⟩, _⟩
  cases begins
  exact plain name rfl rfl

-- Neither does a brace that closes one.
theorem unclosed_brace : Unclosed ('}' :: cs) ↔ Unclosed cs :=
  unclosed_char (by simp)

-- Inside a name no character makes a difference but the closing brace.
theorem unclosed_name (inside : c ≠ '}') :
    '}' ∉ c :: cs ∨ Unclosed (c :: cs) ↔ '}' ∉ cs ∨ Unclosed cs := by
  have skip : '}' ∉ c :: cs ↔ '}' ∉ cs := by
    simp [inside.symm]
  rw [unclosed_cons, skip, ← or_assoc]
  exact or_congr_left <| or_iff_left_of_imp And.right

end Unclosed

-- A text is put together again from its parts, except for the brace that it lacks. In a name that
-- has begun it lacks one just as well if none is left.
theorem flatMap_source_parts (cs : List Char) :
    (parts cs).flatMap Part.source = cs ++ if Unclosed cs then ['}'] else [] := by
  refine parts.induct
    (fun cs => (parts cs).flatMap Part.source = cs ++ if Unclosed cs then ['}'] else [])
    (fun name cs => (nameParts name cs).flatMap Part.source =
      '$' :: '{' :: name.reverse ++ (cs ++ if '}' ∉ cs ∨ Unclosed cs then ['}'] else []))
    ?nil ?reference ?char ?ends ?closes ?inside cs
  case nil =>
    simp [parts, not_unclosed_nil]
  case reference =>
    intro cs ih
    simp [parts, ih, unclosed_reference]
  case char =>
    intro c cs plain ih
    simp [parts, Part.source, ih, unclosed_char plain]
  case ends =>
    intro name
    simp [nameParts, Part.source]
  case closes =>
    intro name cs ih
    simp [nameParts, Part.source, ih, unclosed_brace]
  case inside =>
    intro name c cs inside ih
    simp only [nameParts, if_neg inside, ih, unclosed_name inside]
    simp

variable {env : Environment} {text : String}

-- A reference to a variable that is not set stands for itself.
theorem flatMap_expand_parts (unset : ∀ name ∈ referencedNames text, env name = none) :
    (parts text.toList).flatMap (Part.expand env) = (parts text.toList).flatMap Part.source := by
  apply List.flatMap_congr
  intro part mem
  cases part with
  | char            => rfl
  | reference name =>
    have absent : env (String.ofList name) = none :=
      unset _ <| List.mem_filterMap.mpr ⟨_, mem, rfl⟩
    rw [Part.expand, substitute, absent, Part.source]

theorem expand_of_unset (unset : ∀ name ∈ referencedNames text, env name = none) :
    expand env text = if Unclosed text.toList then text ++ "\x7d" else text := by
  rw [expand, flatMap_expand_parts unset, flatMap_source_parts]
  split
  case isTrue  => simp
  case isFalse => simp

-- A text is left alone if and only if it closes all of its references. One that does not is given
-- the brace that it lacks.
theorem expand_eq_self_iff (unset : ∀ name ∈ referencedNames text, env name = none) :
    (expand env text = text ↔ ¬Unclosed text.toList) ∧
      (Unclosed text.toList → expand env text = text ++ "\x7d") := by
  rw [expand_of_unset unset]
  by_cases opened : Unclosed text.toList
  case pos => simp [opened]
  case neg => simp [opened]

-- Dollar signs, braces and line breaks of every kind around references, of which the last one takes
-- in what looks like another one.
def mixture : String :=
  "\x7d$$\x7bA\x7d$\x7b\x7d\n\x7b$\x7bB\n$\x7bC"

theorem expand_mixture :
    (∀ name ∈ referencedNames mixture, Environment.ofVariables [("C", "c")] name = none) ∧
      expand (.ofVariables [("C", "c")]) mixture = mixture ++ "\x7d" := by
  have unset :
      ∀ name ∈ referencedNames mixture, Environment.ofVariables [("C", "c")] name = none := by
    decide +kernel
  have opened : Unclosed mixture.toList := by
    decide +kernel
  exact ⟨unset, (expand_eq_self_iff unset).right opened⟩

-- A line of settings that ends before its reference does.
theorem expand_unclosed_ne_self :
    (∀ name ∈ referencedNames "prompt = \"$\x7bA\"", Environment.ofVariables [] name = none) ∧
      expand (.ofVariables []) "prompt = \"$\x7bA\"" ≠ "prompt = \"$\x7bA\"" := by
  decide +kernel

end RoutingPlan.Settings
