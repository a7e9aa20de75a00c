import Mathlib.Data.List.Basic
import RoutingPlan.Proofs.Text.Scan
import RoutingPlan.Toml.Text

-- Strings through the quotes that are chosen for them and back. One character after the other is
-- read as it was written; only in a text of several lines the quotes that close it have to be told
-- apart from those that belong to it.

namespace RoutingPlan.Toml

open Text (Stops)

def isQuote (c : Char) : Bool :=
  c == '"' || c == '\''

section Close

variable {q : Char} {cs rest : List Char}

-- How many quotes a text begins with.
def leading (q : Char) (cs : List Char) : Nat :=
  (cs.takeWhile (· == q)).length

-- With at most two quotes in a row, a text of several lines is closed where nothing but quotes is
-- left of it, and not before.
theorem readClose_append (cs : List Char) (few : leading q cs ≤ 2) (stops : Stops (· == q) rest) :
    readClose q (cs ++ q :: q :: q :: rest) =
      if cs.all (· == q) then some (cs, rest) else none := by
  match cs with
  | [] | [a] | [a, b] =>
    match rest with
    | [] =>
      simp only [readClose, List.nil_append, List.cons_append]
      grind
    | [c] | c :: _ :: _ =>
      have := stops c rfl
      simp only [readClose, List.nil_append, List.cons_append]
      grind
  | a :: b :: c :: cs =>
    have : ¬(a = q ∧ b = q ∧ c = q) := by
      rintro ⟨rfl, rfl, rfl⟩
      simp [leading] at few
    simp only [List.cons_append, readClose, this, if_false]
    grind

theorem leading_cons_self : leading q (q :: cs) = leading q cs + 1 := by
  simp [leading]

theorem leading_cons_of_ne {c : Char} (h : c ≠ q) : leading q (c :: cs) = 0 := by
  simp [leading, h]

theorem leading_le_of_hasTriple (h : hasTriple q cs = false) : leading q cs ≤ 2 := by
  match cs with
  | [] | [a] | [a, b] => exact (List.takeWhile_prefix _).length_le.trans (by simp)
  | a :: b :: c :: cs =>
    simp only [hasTriple, Bool.or_eq_false_iff] at h
    simp only [leading, List.takeWhile_cons]
    grind

theorem hasTriple_tail {c : Char} (h : hasTriple q (c :: cs) = false) : hasTriple q cs = false := by
  match cs with
  | [] | [_]    => rfl
  | _ :: _ :: _ => exact (Bool.or_eq_false_iff.mp h).right

end Close

section Literal

variable {cs rest : List Char}

theorem readLiteral_append (plain : ∀ c ∈ cs, c ≠ '\'' ∧ isControl c = false) :
    readLiteral (cs ++ '\'' :: rest) = some (cs, rest) := by
  induction cs with
  | nil => simp [readLiteral]
  | cons c cs ih =>
    have ⟨⟨ne, printed⟩, plain⟩ := List.forall_mem_cons.mp plain
    simp [readLiteral, ne, printed, ih plain]

theorem readNewline_of_ne {c : Char} (feed : c ≠ '\n') (ret : c ≠ '\r') :
    readNewline (c :: cs) = none := by
  rw [readNewline]
  · rintro _ eq
    exact feed (List.cons.inj eq).left
  · rintro _ eq
    exact ret (List.cons.inj eq).left

theorem readNewline_of_not_control {c : Char} (h : isControl c = false) :
    readNewline (c :: cs) = none := by
  refine readNewline_of_ne ?_ ?_ <;> rintro rfl <;> exact absurd h (by decide)

theorem readLiteralLines_append {n : Nat} (triple : hasTriple '\'' cs = false)
    (plain : ∀ c ∈ cs, isControl c = true → c = '\n') (stops : Stops (· == '\'') rest)
    (fuel : cs.length < n) :
    readLiteralLines n (cs ++ '\'' :: '\'' :: '\'' :: rest) = some (cs, rest) := by
  induction cs generalizing n with
  | nil =>
    cases n with
    | zero   => exact absurd fuel (Nat.not_lt_zero _)
    | succ n =>
      have close := readClose_append [] (Nat.zero_le 2) stops
      simp only [List.nil_append] at close ⊢
      simp [readLiteralLines, close]
  | cons c cs ih =>
    cases n with
    | zero   => exact absurd fuel (Nat.not_lt_zero _)
    | succ n =>
      have close := readClose_append (c :: cs) (leading_le_of_hasTriple triple) stops
      have ⟨control, plain⟩ := List.forall_mem_cons.mp plain
      have rest := ih (hasTriple_tail triple) plain (Nat.lt_of_succ_lt_succ fuel)
      rw [List.cons_append] at close ⊢
      rw [readLiteralLines, close]
      by_cases quotes : (c :: cs).all (· == '\'')
      case pos => simp [quotes]
      case neg =>
        simp only [quotes]
        by_cases feed : c = '\n'
        case pos => simp [feed, readNewline, rest]
        case neg =>
          have printed : isControl c = false := Bool.not_eq_true _ ▸ mt control feed
          simp [readNewline_of_not_control printed, printed, rest]

end Literal

-- A way in which a character can stand in a basic string.
inductive Escapes : List Char → Char → Prop
  | bare {c} : c ≠ '"' → c ≠ '\\' → isControl c = false → Escapes [c] c
  | escaped {e es c} : (∀ rest, readEscape (e :: es ++ rest) = some (c, rest)) →
    isBlank e = false → e ≠ '\n' → e ≠ '\r' → Escapes ('\\' :: e :: es) c

section Basic

variable {c : Char} {es cs rest : List Char}

theorem Escapes.length_pos (h : Escapes es c) : 0 < es.length := by
  cases h <;> exact Nat.succ_pos _

theorem hexNumber?_upperHex : ∀ n < 0x80,
    hexNumber? ['0', '0', upperHex (n / 16), upperHex (n % 16)] = some n := by
  decide

theorem toNat_lt_of_isControl (h : isControl c = true) : c.toNat < 0x80 := by
  simp only [isControl, Bool.or_eq_true, Bool.and_eq_true, decide_eq_true_eq, beq_iff_eq] at h
  rcases h with ⟨h, _⟩ | rfl
  · omega
  · decide

theorem readCodePoint_upperHex (h : isControl c = true) :
    readCodePoint 4 ('0' :: '0' :: upperHex (c.toNat / 16) :: upperHex (c.toNat % 16) :: rest) =
      some (c, rest) := by
  have valid : c.toNat.isValidChar := c.valid
  simp [readCodePoint, hexNumber?_upperHex _ (toNat_lt_of_isControl h), valid]

theorem escapes_escapeBasic (quote : c ≠ '"') (feed : c ≠ '\n') : Escapes (escapeBasic c) c := by
  fun_cases escapeBasic c
  case case6 control =>
    exact .escaped (fun _ => readCodePoint_upperHex control) (by decide) (by decide) (by decide)
  case case7 backslash _ _ _ _ printed =>
    exact .bare quote backslash (by simpa using printed)
  all_goals subst_vars; exact .escaped (fun _ => rfl) (by decide) (by decide) (by decide)

theorem escapes_escapeLine (c : Char) : Escapes (escapeLine c) c := by
  fun_cases escapeLine c
  case case3 quote feed => exact escapes_escapeBasic quote feed
  all_goals subst_vars; exact .escaped (fun _ => rfl) (by decide) (by decide) (by decide)

theorem readBasic_escaped {n : Nat} (h : Escapes es c) :
    readBasic (n + 1) (es ++ rest) = (readBasic n rest).map fun (s, rest) => (c :: s, rest) := by
  cases h with
  | bare quote backslash printed => simp [readBasic, quote, backslash, printed]
  | escaped reads =>
    have reads := reads rest
    rw [List.cons_append] at reads
    simp [readBasic, reads]

-- Each character can be written in a way of its own.
theorem readBasic_append {n : Nat} {write : Char → List Char}
    (escapes : ∀ c ∈ cs, Escapes (write c) c) (fuel : (cs.flatMap write).length < n) :
    readBasic n (cs.flatMap write ++ '"' :: rest) = some (cs, rest) := by
  induction cs generalizing n with
  | nil =>
    cases n with
    | zero   => exact absurd fuel (Nat.not_lt_zero _)
    | succ n => simp [readBasic]
  | cons c cs ih =>
    cases n with
    | zero   => exact absurd fuel (Nat.not_lt_zero _)
    | succ n =>
      have ⟨escape, escapes⟩ := List.forall_mem_cons.mp escapes
      have := escape.length_pos
      rw [List.flatMap_cons, List.length_append] at fuel
      rw [List.flatMap_cons, List.append_assoc, readBasic_escaped escape, ih escapes (by omega)]
      rfl

theorem leading_append (h : Escapes es c) (rest : List Char) : leading '"' (es ++ rest) = 0 := by
  cases h with
  | bare quote => exact leading_cons_of_ne quote
  | escaped    => exact leading_cons_of_ne (by decide)

theorem readNewline_escaped (h : Escapes es c) : readNewline (es ++ rest) = none := by
  cases h with
  | bare _ _ printed => exact readNewline_of_not_control printed
  | escaped          => exact readNewline_of_ne (by decide) (by decide)

theorem escapes_quote : Escapes ['\\', '"'] '"' :=
  .escaped (fun _ => rfl) (by decide) (by decide) (by decide)

theorem leading_escapeLines {run : Nat} (h : run ≤ 2) (cs : List Char) :
    run + leading '"' (escapeLines run cs) ≤ 2 := by
  fun_induction escapeLines run cs
  case case1 => exact h
  case case2 cs ih =>
    have escaped := leading_append escapes_quote (escapeLines 0 cs)
    rw [List.cons_append, List.singleton_append] at escaped
    rw [escaped]
  case case3 ih =>
    rw [leading_cons_self]
    have := ih (by omega)
    omega
  case case4 => rwa [leading_cons_of_ne (by decide)]
  case case5 quote feed _ => rwa [leading_append (escapes_escapeBasic quote feed)]

-- Where only quotes are left, none of them is escaped.
theorem escapeLines_of_all {run : Nat} (h : (escapeLines run cs).all (· == '"') = true) :
    escapeLines run cs = cs := by
  fun_induction escapeLines run cs
  case case1 => rfl
  case case3 ih => simp_all
  case case5 quote feed _ =>
    have escapes := escapes_escapeBasic quote feed
    generalize escapeBasic _ = es at h escapes ⊢
    cases escapes <;> simp_all
  all_goals simp_all

theorem readBasicLines_escaped {n : Nat} (h : Escapes es c)
    (inside : readClose '"' (es ++ rest) = none) :
    readBasicLines (n + 1) (es ++ rest) =
      (readBasicLines n rest).map fun (s, rest) => (c :: s, rest) := by
  cases h with
  | bare quote backslash printed =>
    rw [List.singleton_append] at inside ⊢
    simp [readBasicLines, inside, readNewline_of_not_control printed, backslash, printed]
  | @escaped e es _ reads filled feed ret =>
    have line : skipLineEnd (e :: es ++ rest) = none := by
      simp [skipLineEnd, filled, readNewline_of_ne feed ret]
    have reads := reads rest
    simp only [List.cons_append] at inside line reads ⊢
    simp [readBasicLines, inside, readNewline, line, reads]

theorem readBasicLines_of_all {n : Nat} (quotes : cs.all (· == '"') = true)
    (few : leading '"' cs ≤ 2) (stops : Stops (· == '"') rest) :
    readBasicLines (n + 1) (cs ++ '"' :: '"' :: '"' :: rest) = some (cs, rest) := by
  have close := readClose_append cs few stops
  rw [if_pos quotes] at close
  cases cs with
  | nil =>
    rw [List.nil_append] at close ⊢
    rw [readBasicLines, close]
  | cons c cs =>
    rw [List.cons_append] at close ⊢
    rw [readBasicLines, close]

-- What is written for one character of a string of several lines, and how it is read.
theorem exists_escapeLines_cons {run : Nat} (few : run ≤ 2) (c : Char) (cs : List Char) :
    ∃ es run', escapeLines run (c :: cs) = es ++ escapeLines run' cs ∧ run' ≤ 2 ∧ 0 < es.length ∧
      ∀ n rest, readClose '"' (es ++ rest) = none → readBasicLines (n + 1) (es ++ rest) =
        (readBasicLines n rest).map fun (s, rest) => (c :: s, rest) := by
  by_cases quote : c = '"'
  case pos =>
    subst quote
    by_cases two : run = 2
    case pos =>
      refine ⟨['\\', '"'], 0, by simp [escapeLines, two], by decide, by decide, ?_⟩
      exact fun _ _ inside => readBasicLines_escaped escapes_quote inside
    case neg =>
      refine ⟨['"'], run + 1, by simp [escapeLines, two], by omega, by decide, ?_⟩
      intro n rest inside
      rw [List.cons_append, List.nil_append] at inside ⊢
      simp [readBasicLines, inside, readNewline_of_ne, isControl]
  case neg =>
    by_cases feed : c = '\n'
    case pos =>
      refine ⟨['\n'], 0, by simp [escapeLines, feed], by decide, by decide, ?_⟩
      intro n rest inside
      rw [List.cons_append, List.nil_append] at inside ⊢
      simp [readBasicLines, inside, readNewline, feed]
    case neg =>
      have escapes := escapes_escapeBasic quote feed
      have eq : escapeLines run (c :: cs) = escapeBasic c ++ escapeLines 0 cs := by
        simp [escapeLines, quote, feed]
      refine ⟨escapeBasic c, 0, eq, by decide, escapes.length_pos, ?_⟩
      exact fun _ _ inside => readBasicLines_escaped escapes inside

-- The induction is on the string: as long as not all that is left of it are quotes, what is written
-- for its next character does not close the text.
theorem readBasicLines_append {n run : Nat} (few : run ≤ 2) (stops : Stops (· == '"') rest)
    (fuel : (escapeLines run cs).length < n) :
    readBasicLines n (escapeLines run cs ++ '"' :: '"' :: '"' :: rest) = some (cs, rest) := by
  induction cs generalizing n run with
  | nil =>
    cases n with
    | zero   => exact absurd fuel (Nat.not_lt_zero _)
    | succ n => exact readBasicLines_of_all rfl (Nat.zero_le 2) stops
  | cons c cs ih =>
    cases n with
    | zero   => exact absurd fuel (Nat.not_lt_zero _)
    | succ n =>
      have ⟨es, run', eq, few', filled, reads⟩ := exists_escapeLines_cons few c cs
      have leading := Nat.le_of_add_left_le (leading_escapeLines few (c :: cs))
      by_cases quotes : (escapeLines run (c :: cs)).all (· == '"') = true
      case pos => rw [readBasicLines_of_all quotes leading stops, escapeLines_of_all quotes]
      case neg =>
        have inside := (readClose_append _ leading stops).trans (if_neg quotes)
        rw [eq, List.length_append] at fuel
        rw [eq, List.append_assoc] at inside ⊢
        rw [reads _ _ inside, ih few' (by omega), Option.map_some]

end Basic

section String

variable {cs text rest : List Char}

theorem dropFirstNewline_opening {lines : Bool} (h : lines = false → readNewline text = none) :
    dropFirstNewline ((if lines then ['\n'] else []) ++ text) = text := by
  cases lines with
  | true  => rfl
  | false => simp [dropFirstNewline, h]

theorem readString_flatMap {write : Char → List Char} (escapes : ∀ c ∈ cs, Escapes (write c) c)
    (stops : Stops isQuote rest) :
    readString ('"' :: cs.flatMap write ++ ['"'] ++ rest) = some (String.ofList cs, rest) := by
  have single : ∀ x, cs.flatMap write ++ '"' :: rest ≠ '"' :: '"' :: x := by
    rintro x eq
    cases cs with
    | nil =>
      rw [List.flatMap_nil, List.nil_append, List.cons.injEq] at eq
      exact absurd (stops '"' (by simp [eq.right])) (by decide)
    | cons c cs =>
      have escape := escapes c List.mem_cons_self
      have := leading_append escape (cs.flatMap write ++ '"' :: rest)
      rw [← List.append_assoc, ← List.flatMap_cons, eq] at this
      simp [leading] at this
  rw [List.append_assoc, List.cons_append, List.singleton_append, readString]
  · rw [readBasic_append escapes (by simp; omega), Option.map_some]
  · exact single

theorem readString_literal (filled : cs ≠ []) (plain : ∀ c ∈ cs, c ≠ '\'' ∧ isControl c = false) :
    readString ('\'' :: cs ++ ['\''] ++ rest) = some (String.ofList cs, rest) := by
  have single : ∀ x, cs ++ '\'' :: rest ≠ '\'' :: '\'' :: x := by
    rintro x eq
    cases cs with
    | nil       => exact filled rfl
    | cons c cs => exact (plain c List.mem_cons_self).left (List.cons.inj eq).left
  rw [List.append_assoc, List.cons_append, List.singleton_append, readString]
  · rw [readLiteral_append plain, Option.map_some]
  · exact single

theorem readNewline_escapeLines (h : '\n' ∉ cs) :
    readNewline (escapeLines 0 cs ++ '"' :: rest) = none := by
  cases cs with
  | nil       => exact readNewline_of_ne (by decide) (by decide)
  | cons c cs =>
    have ⟨feed, _⟩ := not_or.mp <| mt List.mem_cons.mpr h
    by_cases quote : c = '"'
    case pos =>
      rw [quote, escapeLines]
      exact readNewline_of_ne (by decide) (by decide)
    case neg =>
      have escapes := escapes_escapeBasic quote (Ne.symm feed)
      simp only [escapeLines, quote, Ne.symm feed, if_false, List.append_assoc]
      exact readNewline_escaped escapes

theorem readString_escapeLines {lines : Bool} (h : lines = false → '\n' ∉ cs)
    (stops : Stops isQuote rest) :
    readString ('"' :: '"' :: '"' :: (if lines then ['\n'] else []) ++ escapeLines 0 cs ++
      ['"', '"', '"'] ++ rest) = some (String.ofList cs, rest) := by
  have stops : Stops (· == '"') rest := fun c hc => (Bool.or_eq_false_iff.mp (stops c hc)).left
  simp only [List.append_assoc, List.cons_append, List.nil_append, readString]
  rw [dropFirstNewline_opening fun single => readNewline_escapeLines (h single),
    readBasicLines_append (by decide) stops (by simp; omega), Option.map_some]

theorem readString_literalLines {lines : Bool} (h : lines = false → '\n' ∉ cs)
    (triple : hasTriple '\'' cs = false) (plain : ∀ c ∈ cs, isControl c = true → c = '\n')
    (stops : Stops isQuote rest) :
    readString ('\'' :: '\'' :: '\'' :: (if lines then ['\n'] else []) ++ cs ++
      ['\'', '\'', '\''] ++ rest) = some (String.ofList cs, rest) := by
  have stops : Stops (· == '\'') rest := fun c hc => (Bool.or_eq_false_iff.mp (stops c hc)).right
  have opening (single : lines = false) :
      readNewline (cs ++ '\'' :: '\'' :: '\'' :: rest) = none := by
    cases cs with
    | nil       => exact readNewline_of_ne (by decide) (by decide)
    | cons c cs =>
      refine readNewline_of_not_control <| Bool.not_eq_true _ ▸ fun control => h single ?_
      exact plain c List.mem_cons_self control ▸ List.mem_cons_self
  simp only [List.append_assoc, List.cons_append, List.nil_append, readString]
  rw [dropFirstNewline_opening opening,
    readLiteralLines_append triple plain stops (by simp; omega), Option.map_some]

-- Every string, whichever form is taken for it.
theorem readString_renderString (s : String) (stops : Stops isQuote rest) :
    readString (renderString s ++ rest) = some (s, rest) := by
  have whole : some (String.ofList s.toList, rest) = some (s, rest) := by
    rw [String.ofList_toList]
  fun_cases renderString s
  case case1 | case6 =>
    exact (readString_flatMap (fun c _ => escapes_escapeLine c) stops).trans whole
  case case2 cs lines controls special literal =>
    refine (readString_literal ?_ ?_).trans whole
    case refine_1 =>
      intro empty
      simp_all [cs, lines, controls]
    case refine_2 =>
      simp only [Bool.and_eq_true, Bool.not_eq_true', List.any_eq_false, bne_iff_ne, ne_eq, not_and,
        Decidable.not_not, List.contains_eq_mem, decide_eq_false_iff_not, cs, lines,
        controls] at literal
      grind
  case case3 cs lines controls opening _ _ _ =>
    exact (readString_escapeLines (by simp [lines]) stops).trans whole
  case case4 cs lines controls opening _ _ _ literal =>
    simp only [Bool.and_eq_true, Bool.not_eq_true', List.any_eq_false, bne_iff_ne, ne_eq, not_and,
      Decidable.not_not, controls] at literal
    exact (readString_literalLines (by simp [lines]) literal.right literal.left stops).trans whole
  case case5 cs lines controls opening _ _ _ _ _ =>
    exact (readString_escapeLines (by simp [lines]) stops).trans whole

end String

end RoutingPlan.Toml
