import RoutingPlan.Json.Printer
import RoutingPlan.Json.Reader
import RoutingPlan.Proofs.Text.Scan

-- The texts of JSON, said apart from the way in which they are read: `Spells` relates a text to the
-- tree that it spells. The reader reads every such text as that tree, whatever comes after it.

namespace RoutingPlan.Json

open Text (Stops)

def continuesNumeral (c : Char) : Bool :=
  c.isDigit || c == '.' || c == 'e' || c == 'E'

def Blanks (cs : List Char) : Prop :=
  ∀ c ∈ cs, isBlank c = true

namespace Numeral

structure Digits (ds : List Char) : Prop where
  nonempty : ds ≠ []
  digits   : ∀ c ∈ ds, c.isDigit = true

inductive SpellsFraction : List Char → Option (List Char) → Prop
  | absent : SpellsFraction [] none
  | present {ds} : Digits ds → SpellsFraction ('.' :: ds) (some ds)

inductive SpellsExponent : List Char → Option (Bool × List Char) → Prop
  | absent : SpellsExponent [] none
  | bare {e ds} : e = 'e' ∨ e = 'E' → Digits ds → SpellsExponent (e :: ds) (some (false, ds))
  | plus {e ds} : e = 'e' ∨ e = 'E' → Digits ds → SpellsExponent (e :: '+' :: ds) (some (false, ds))
  | minus {e ds} : e = 'e' ∨ e = 'E' → Digits ds → SpellsExponent (e :: '-' :: ds) (some (true, ds))

inductive Spells : List Char → Numeral → Prop
  | mk {negative ds fs es fraction exponent} : Digits ds →
    (ds.head? = some '0' → ds = ['0']) → SpellsFraction fs fraction → SpellsExponent es exponent →
    Spells ((if negative then ['-'] else []) ++ ds ++ fs ++ es) ⟨negative, ds, fraction, exponent⟩

end Numeral

-- What stands between quotes.
inductive Piece.Spells : List Char → List Piece → Prop
  | nil : Spells [] []
  | bare {c cs ps} : c ≠ '"' → c ≠ '\\' → 0x20 ≤ c.toNat → Spells cs ps →
    Spells (c :: cs) (.char c :: ps)
  | escaped {e c cs ps} : unescape? e = some c → Spells cs ps →
    Spells ('\\' :: e :: cs) (.char c :: ps)
  | unit {a b c d n cs ps} : hexUnit? a b c d = some n → Spells cs ps →
    Spells ('\\' :: 'u' :: a :: b :: c :: d :: cs) (.unit n :: ps)

inductive SpellsText : List Char → Option String → Prop
  | mk {cs ps} : Piece.Spells cs ps →
    SpellsText ('"' :: cs ++ ['"']) ((Piece.decode? ps).map String.ofList)

namespace Tree

mutual

inductive Spells : List Char → Tree → Prop
  | null : Spells "null".toList null
  | bool {b} : Spells (renderBool b) (bool b)
  | number {cs t} : Numeral.Spells cs t → Spells cs (number t.value?)
  | string {cs s} : SpellsText cs s → Spells cs (string s)
  | array {cs ts} : SpellsElements cs ts → Spells ('[' :: cs ++ [']']) (array ts)
  | object {cs ms} : SpellsMembers cs ms → Spells ('{' :: cs ++ ['}']) (object ms)

-- What stands between brackets.
inductive SpellsElements : List Char → List Tree → Prop
  | none {b} : Blanks b → SpellsElements b []
  | last {b cs b' t} : Blanks b → Spells cs t → Blanks b' → SpellsElements (b ++ cs ++ b') [t]
  | more {b cs b' cs' t t' ts} : Blanks b → Spells cs t → Blanks b' →
    SpellsElements cs' (t' :: ts) → SpellsElements (b ++ cs ++ b' ++ ',' :: cs') (t :: t' :: ts)

-- What stands between braces.
inductive SpellsMembers : List Char → List (Option String × Tree) → Prop
  | none {b} : Blanks b → SpellsMembers b []
  | last {cs m} : SpellsMember cs m → SpellsMembers cs [m]
  | more {cs cs' m m' ms} : SpellsMember cs m → SpellsMembers cs' (m' :: ms) →
    SpellsMembers (cs ++ ',' :: cs') (m :: m' :: ms)

inductive SpellsMember : List Char → Option String × Tree → Prop
  | mk {b₁ ks b₂ b₃ cs b₄ k t} : Blanks b₁ → SpellsText ks k → Blanks b₂ → Blanks b₃ →
    Spells cs t → Blanks b₄ → SpellsMember (b₁ ++ ks ++ b₂ ++ ':' :: b₃ ++ cs ++ b₄) (k, t)

end

-- A whole text, with blanks around its value.
inductive Written : String → Tree → Prop
  | mk {b cs b' t} : Blanks b → Spells cs t → Blanks b' → Written (String.ofList (b ++ cs ++ b')) t

end Tree

section Blanks

variable {b cs : List Char}

theorem blanks_nil : Blanks [] :=
  nofun

theorem skipBlanks_append (h : Blanks b) : skipBlanks (b ++ cs) = skipBlanks cs :=
  List.dropWhile_append_of_pos h

theorem skipBlanks_cons {c : Char} (h : isBlank c = false) : skipBlanks (c :: cs) = c :: cs := by
  simp [skipBlanks, h]

theorem skipBlanks_skipBlanks : skipBlanks (skipBlanks cs) = skipBlanks cs :=
  List.dropWhile_idempotent ..

end Blanks

namespace Numeral

variable {ds rest : List Char}

theorem isDigit_of_stops (h : Stops continuesNumeral rest) : Stops Char.isDigit rest := by
  intro c hc
  have := h c hc
  simp only [continuesNumeral, Bool.or_eq_false_iff] at this
  exact this.left.left.left

theorem readDigits_append (h : Digits ds) (stops : Stops Char.isDigit rest) :
    readDigits (ds ++ rest) = some (ds, rest) := by
  rw [readDigits, Text.takeWhile_append h.digits stops, Text.dropWhile_append h.digits stops]
  simp [h.nonempty]

theorem readWhole_append (h : Digits ds) (leading : ds.head? = some '0' → ds = ['0'])
    (stops : Stops Char.isDigit rest) : readWhole (ds ++ rest) = some (ds, rest) := by
  have digits := readDigits_append h stops
  by_cases zero : ds.head? = some '0'
  case pos =>
    cases leading zero
    cases rest with
    | nil         => exact digits
    | cons c rest => simp [readWhole, stops c rfl]
  case neg =>
    rw [readWhole, digits]
    rintro c cs eq
    cases ds with
    | nil       => exact h.nonempty rfl
    | cons d ds => exact zero <| congrArg some (List.cons.inj eq).left

theorem readFraction_append {fs : List Char} {fraction : Option (List Char)}
    (h : SpellsFraction fs fraction) (stops : Stops Char.isDigit rest)
    (undotted : rest.head? ≠ some '.') : readFraction (fs ++ rest) = some (fraction, rest) := by
  cases h with
  | absent =>
    rw [List.nil_append, readFraction]
    rintro cs rfl
    exact undotted rfl
  | present h =>
    rw [List.cons_append, readFraction, readDigits_append h stops]
    rfl

theorem readExponent_append {es : List Char} {exponent : Option (Bool × List Char)}
    (h : SpellsExponent es exponent) (stops : Stops continuesNumeral rest) :
    readExponent (es ++ rest) = some (exponent, rest) := by
  have digits {ds : List Char} (h : Digits ds) : readDigits (ds ++ rest) = some (ds, rest) :=
    readDigits_append h (isDigit_of_stops stops)
  cases h with
  | absent =>
    cases rest with
    | nil         => rfl
    | cons c rest =>
      have := stops c rfl
      simp_all [readExponent, continuesNumeral]
  | bare mark h =>
    have unsigned {sign : Char} {cs ds : List Char} (h : Digits ds) (eq : ds ++ rest = sign :: cs) :
        sign.isDigit = true := by
      cases ds with
      | nil       => exact absurd rfl h.nonempty
      | cons d ds => exact (List.cons.inj eq).left ▸ h.digits d List.mem_cons_self
    simp only [List.cons_append, readExponent, mark, if_true]
    split
    case h_1 eq => exact absurd (unsigned h eq) (by decide)
    case h_2 eq => exact absurd (unsigned h eq) (by decide)
    case h_3    => simp [digits h]
  | plus mark h  => simp [readExponent, mark, digits h]
  | minus mark h => simp [readExponent, mark, digits h]

theorem readMinus_append {negative : Bool} (h : Digits ds) :
    readMinus ((if negative then ['-'] else []) ++ (ds ++ rest)) = (negative, ds ++ rest) := by
  cases negative with
  | true  => rfl
  | false =>
    cases ds with
    | nil       => exact absurd rfl h.nonempty
    | cons d ds =>
      have digit := h.digits d List.mem_cons_self
      refine readMinus.eq_2 _ ?_
      rintro cs eq
      exact absurd ((List.cons.inj eq).left ▸ digit) (by decide)

-- What follows the digits of a fraction, or of a whole number without one.
theorem head_exponent {es : List Char} {exponent : Option (Bool × List Char)} {c : Char}
    (h : SpellsExponent es exponent) (stops : Stops continuesNumeral rest)
    (head : (es ++ rest).head? = some c) : c.isDigit = false ∧ c ≠ '.' := by
  have marks {e : Char} (mark : e = 'e' ∨ e = 'E') : e.isDigit = false ∧ e ≠ '.' := by
    cases mark <;> subst e <;> decide
  cases h with
  | absent =>
    have := stops c head
    simp_all [continuesNumeral]
  | bare mark | plus mark | minus mark => exact Option.some.inj head ▸ marks mark

theorem readNumeral_append {cs : List Char} {t : Numeral} (h : Spells cs t)
    (stops : Stops continuesNumeral rest) : readNumeral (cs ++ rest) = some (t, rest) := by
  cases h with
  | @mk negative ds fs es fraction exponent whole leading hf he =>
    have stops_exponent : Stops Char.isDigit (es ++ rest) :=
      fun c head => (head_exponent he stops head).left
    have undotted : (es ++ rest).head? ≠ some '.' :=
      fun head => (head_exponent he stops head).right rfl
    have stops_fraction : Stops Char.isDigit (fs ++ (es ++ rest)) := by
      cases hf with
      | absent  => exact stops_exponent
      | present => exact Text.stops_cons (by decide)
    simp only [List.append_assoc]
    rw [readNumeral, readMinus_append whole]
    simp only [readWhole_append whole leading stops_fraction,
      readFraction_append hf stops_exponent undotted, readExponent_append he stops,
      Option.bind_some, bind]

theorem isBlank_of_numeral {c : Char} (h : c.isDigit = true ∨ c = '-') : isBlank c = false := by
  cases blank : isBlank c with
  | false => rfl
  | true  =>
    simp only [isBlank, Bool.or_eq_true, beq_iff_eq] at blank
    rcases blank with ((rfl | rfl) | rfl) | rfl <;> exact absurd h (by decide)

theorem exists_head {cs : List Char} {t : Numeral} (h : Spells cs t) :
    ∃ c cs', cs = c :: cs' ∧ (c.isDigit = true ∨ c = '-') := by
  cases h with
  | @mk negative ds _ _ _ _ whole =>
    cases negative with
    | true  => exact ⟨'-', _, rfl, .inr rfl⟩
    | false =>
      cases ds with
      | nil       => exact absurd rfl whole.nonempty
      | cons d ds => exact ⟨d, _, rfl, .inl <| whole.digits d List.mem_cons_self⟩

end Numeral

theorem readPieces_append {cs rest : List Char} {ps : List Piece} (h : Piece.Spells cs ps) :
    readPieces (cs ++ '"' :: rest) = some (ps, rest) := by
  induction h with
  | nil => rw [List.nil_append, readPieces]
  | bare quote backslash printed _ ih =>
    rw [List.cons_append, readPieces]
    · simp [ih, backslash, Nat.not_lt.mpr printed]
    · exact quote
    · exact fun _ _ _ _ _ eq _ => backslash eq
    · exact fun _ _ eq _ => backslash eq
  | escaped h _ ih =>
    rw [List.cons_append, List.cons_append, readPieces]
    · simp [ih, h]
    · rintro _ _ _ _ _ rfl
      simp [unescape?] at h
  | unit h _ ih => simp [readPieces, h, ih]

theorem readQuoted_append {cs rest : List Char} {ps : List Piece} (h : Piece.Spells cs ps) :
    readQuoted (cs ++ '"' :: rest) = some ((Piece.decode? ps).map String.ofList, rest) := by
  rw [readQuoted, readPieces_append h]
  rfl

namespace Tree

variable {n : Nat} {cs rest : List Char}

theorem read_skipBlanks : read n (skipBlanks cs) = read n cs := by
  cases n with
  | zero   => rfl
  | succ n => rw [read, read, skipBlanks_skipBlanks]

theorem readElements_skipBlanks : readElements n (skipBlanks cs) = readElements n cs := by
  cases n with
  | zero   => rfl
  | succ n => rw [readElements, readElements, read_skipBlanks]

theorem readMembers_skipBlanks : readMembers n (skipBlanks cs) = readMembers n cs := by
  cases n with
  | zero   => rfl
  | succ n => rw [readMembers, readMembers, skipBlanks_skipBlanks]

theorem read_numeral {t : Numeral} (h : Numeral.Spells cs t) (stops : Stops continuesNumeral rest) :
    read (n + 1) (cs ++ rest) = some (number t.value?, rest) := by
  have ⟨c, cs', eq, head⟩ := Numeral.exists_head h
  have numeral := Numeral.readNumeral_append h stops
  rw [eq, List.cons_append] at numeral ⊢
  rw [read, skipBlanks_cons (Numeral.isBlank_of_numeral head)]
  split
  case h_1 eq | h_2 eq | h_3 eq | h_4 eq | h_5 eq | h_6 eq =>
    rw [(List.cons.inj eq).left] at head
    exact absurd head (by decide)
  case h_7 => simp [numeral]

theorem exists_head {t : Tree} (h : Spells cs t) :
    ∃ c cs', cs = c :: cs' ∧ isBlank c = false ∧ c ≠ ']' := by
  cases h with
  | null => exact ⟨'n', _, rfl, by decide⟩
  | @bool b => cases b <;> exact ⟨_, _, rfl, by decide⟩
  | number h =>
    have ⟨c, cs', eq, head⟩ := Numeral.exists_head h
    refine ⟨c, cs', eq, Numeral.isBlank_of_numeral head, ?_⟩
    rintro rfl
    exact absurd head (by decide)
  | string h => cases h; exact ⟨'"', _, rfl, by decide⟩
  | array => exact ⟨'[', _, rfl, by decide⟩
  | object => exact ⟨'{', _, rfl, by decide⟩

theorem exists_head_elements {t : Tree} {ts : List Tree} (h : SpellsElements cs (t :: ts)) :
    ∃ c cs', skipBlanks (cs ++ rest) = c :: cs' ∧ c ≠ ']' := by
  have filled {b cs x : List Char} {t : Tree} (blank : Blanks b) (h : Spells cs t) :
      ∃ c cs', skipBlanks (b ++ (cs ++ x)) = c :: cs' ∧ c ≠ ']' := by
    have ⟨c, cs', eq, filled, open'⟩ := exists_head h
    refine ⟨c, cs' ++ x, ?_, open'⟩
    rw [skipBlanks_append blank, eq, List.cons_append, skipBlanks_cons filled]
  cases h with
  | last blank h | more blank h =>
    simp only [List.append_assoc]
    exact filled blank h

theorem exists_head_members {m : Option String × Tree} {ms : List (Option String × Tree)}
    (h : SpellsMembers cs (m :: ms)) : ∃ cs', skipBlanks (cs ++ rest) = '"' :: cs' := by
  have filled {cs x : List Char} {m : Option String × Tree} (h : SpellsMember cs m) :
      ∃ cs', skipBlanks (cs ++ x) = '"' :: cs' := by
    cases h with
    | mk blank key =>
      cases key
      simp only [List.append_assoc, List.cons_append, skipBlanks_append blank]
      exact ⟨_, skipBlanks_cons (by decide)⟩
  cases h with
  | last h => exact filled h
  | more h =>
    rw [List.append_assoc]
    exact filled h

theorem read_array (h : ∃ c cs', skipBlanks cs = c :: cs' ∧ c ≠ ']') :
    read (n + 1) ('[' :: cs) = (readElements n cs).map fun (ts, cs) => (array ts, cs) := by
  have ⟨c, cs', eq, filled⟩ := h
  rw [read, skipBlanks_cons (by decide), ← readElements_skipBlanks]
  simp only [eq]
  split
  case h_1 close => exact absurd (List.cons.inj close).left filled
  case h_2 => rfl

theorem read_object (h : ∃ cs', skipBlanks cs = '"' :: cs') :
    read (n + 1) ('{' :: cs) = (readMembers n cs).map fun (ms, cs) => (object ms, cs) := by
  have ⟨cs', eq⟩ := h
  rw [read, skipBlanks_cons (by decide), ← readMembers_skipBlanks]
  simp only [eq]
  rfl

theorem continues_of_isBlank {c : Char} (h : isBlank c = true) : continuesNumeral c = false := by
  simp only [isBlank, Bool.or_eq_true, beq_iff_eq] at h
  rcases h with ((rfl | rfl) | rfl) | rfl <;> decide

-- After a value in an array or an object.
theorem stops_after {b : List Char} {c : Char} (blank : Blanks b) (h : continuesNumeral c = false) :
    Stops continuesNumeral (b ++ c :: rest) := by
  cases b with
  | nil      => exact Text.stops_cons h
  | cons d b => exact Text.stops_cons <| continues_of_isBlank <| blank d List.mem_cons_self

theorem read_of_blanks {b : List Char} (blank : Blanks b) : read n (b ++ cs) = read n cs := by
  rw [← read_skipBlanks, skipBlanks_append blank, read_skipBlanks]

theorem readElements_of_blanks {b : List Char} (blank : Blanks b) :
    readElements n (b ++ cs) = readElements n cs := by
  rw [← readElements_skipBlanks, skipBlanks_append blank, readElements_skipBlanks]

theorem skipBlanks_key {ks : List Char} {k : Option String} {b x : List Char} (blank : Blanks b)
    (key : SpellsText ks k) :
    ∃ x', skipBlanks (b ++ (ks ++ x)) = '"' :: x' ∧ readQuoted x' = some (k, x) := by
  cases key with
  | mk h =>
    simp only [List.cons_append, List.append_assoc, skipBlanks_append blank]
    exact ⟨_, skipBlanks_cons (by decide), readQuoted_append h⟩

mutual

-- The bound on the readers that are entered goes down with each of them, so the induction is on it.
theorem read_append : (n : Nat) → ∀ {t : Tree} {cs rest : List Char},
    Spells cs t → Stops continuesNumeral rest → cs.length ≤ n →
      read n (cs ++ rest) = some (t, rest)
  | 0, t, cs, rest, h, _, fuel => by
    have ⟨_, _, eq, _⟩ := exists_head h
    simp [eq] at fuel
  | n + 1, t, cs, rest, h, stops, fuel => by
    cases h with
    | null => rfl
    | @bool b => cases b <;> rfl
    | number h => exact read_numeral h stops
    | string h =>
      have ⟨cs', skip, quoted⟩ := skipBlanks_key (x := rest) blanks_nil h
      rw [List.nil_append] at skip
      rw [read, skip]
      simp [quoted]
    | @array cs ts h =>
      simp only [List.cons_append, List.length_cons, List.length_append] at fuel
      simp only [List.cons_append, List.append_assoc]
      cases ts with
      | nil =>
        cases h with
        | none blank =>
          rw [read, skipBlanks_cons (by decide)]
          simp only [skipBlanks_append blank]
          rfl
      | cons t ts =>
        rw [read_array (exists_head_elements h)]
        simp [readElements_append n h (by omega)]
    | @object cs ms h =>
      simp only [List.cons_append, List.length_cons, List.length_append] at fuel
      simp only [List.cons_append, List.append_assoc]
      cases ms with
      | nil =>
        cases h with
        | none blank =>
          rw [read, skipBlanks_cons (by decide)]
          simp only [skipBlanks_append blank]
          rfl
      | cons m ms =>
        rw [read_object (exists_head_members h)]
        simp [readMembers_append n h (by omega)]

theorem readElements_append : (n : Nat) → ∀ {t : Tree} {ts : List Tree} {cs rest : List Char},
    SpellsElements cs (t :: ts) → cs.length < n →
      readElements n (cs ++ ']' :: rest) = some (t :: ts, rest)
  | 0, _, _, _, _, _, fuel => absurd fuel (Nat.not_lt_zero _)
  | n + 1, t, ts, cs, rest, h, fuel => by
    cases h with
    | @last b cs b' _ blank h blank' =>
      simp only [List.length_append] at fuel
      simp only [List.append_assoc, readElements_of_blanks blank]
      rw [readElements, read_append n h (stops_after blank' (by decide)) (by omega)]
      simp only [skipBlanks_append blank']
      rfl
    | @more b cs b' cs' _ _ _ blank h blank' hs =>
      simp only [List.length_append, List.length_cons] at fuel
      simp only [List.append_assoc, List.cons_append, readElements_of_blanks blank]
      rw [readElements, read_append n h (stops_after blank' (by decide)) (by omega)]
      simp only [skipBlanks_append blank', skipBlanks_cons (show isBlank ',' = false by decide)]
      simp [readElements_append n hs (by omega)]

theorem readMembers_append : (n : Nat) → ∀ {m : Option String × Tree}
    {ms : List (Option String × Tree)} {cs rest : List Char},
    SpellsMembers cs (m :: ms) → cs.length < n →
      readMembers n (cs ++ '}' :: rest) = some (m :: ms, rest)
  | 0, _, _, _, _, _, fuel => absurd fuel (Nat.not_lt_zero _)
  | n + 1, m, ms, cs, rest, h, fuel => by
    have member {cs x : List Char} {c : Char} (h : SpellsMember cs m) (fuel : cs.length ≤ n)
        (filled : isBlank c = false) (stop : continuesNumeral c = false) :
        (c = ',' → readMembers (n + 1) (cs ++ c :: x) =
            (readMembers n x).map fun (ms, cs) => (m :: ms, cs)) ∧
          (c = '}' → readMembers (n + 1) (cs ++ c :: x) = some ([m], x)) := by
      cases h with
      | @mk b₁ ks b₂ b₃ cs b₄ _ _ blank₁ key blank₂ blank₃ value blank₄ =>
        simp only [List.length_append, List.length_cons] at fuel
        simp only [List.append_assoc, List.cons_append]
        have ⟨x', skip, quoted⟩ := skipBlanks_key
          (x := b₂ ++ ':' :: (b₃ ++ (cs ++ (b₄ ++ c :: x)))) blank₁ key
        rw [readMembers, skip]
        simp only [quoted, skipBlanks_append blank₂,
          skipBlanks_cons (show isBlank ':' = false by decide), read_of_blanks blank₃,
          read_append n value (stops_after blank₄ stop) (by omega), skipBlanks_append blank₄,
          skipBlanks_cons filled]
        constructor <;> rintro rfl <;> rfl
    cases h with
    | last h => exact (member h (Nat.lt_succ_iff.mp fuel) (by decide) (by decide)).right rfl
    | @more cs cs' _ _ _ h hs =>
      simp only [List.length_append, List.length_cons] at fuel
      rw [List.append_assoc, List.cons_append,
        (member h (by omega) (by decide) (by decide)).left rfl]
      simp [readMembers_append n hs (by omega)]

end

theorem stops_of_blanks {b : List Char} (blank : Blanks b) : Stops continuesNumeral b := by
  cases b with
  | nil      => exact Text.stops_nil
  | cons c b => exact Text.stops_cons <| continues_of_isBlank <| blank c List.mem_cons_self

theorem ofText?_of_written {text : String} {t : Tree} (h : Written text t) :
    ofText? text = some t := by
  cases h with
  | @mk b cs b' _ blank h blank' =>
    rw [ofText?, String.toList_ofList, List.append_assoc, read_of_blanks blank,
      read_append _ h (stops_of_blanks blank') (by simp only [List.length_append]; omega)]
    have rest := @skipBlanks_append b' [] blank'
    rw [List.append_nil] at rest
    simp only [rest]
    rfl

theorem ofText?_of_spells {t : Tree} (h : Spells cs t) : ofText? (String.ofList cs) = some t := by
  have := ofText?_of_written (.mk blanks_nil h blanks_nil)
  rwa [List.nil_append, List.append_nil] at this

end Tree

end RoutingPlan.Json
