import RoutingPlan.Proofs.Toml.Lines

-- What can be set into a basic string as it is. Reading never makes a string longer than its text,
-- and it keeps the length only where each character stands for itself.

namespace RoutingPlan.Toml

def Verbatim (c : Char) : Prop :=
  c ≠ '"' ∧ c ≠ '\\' ∧ isControl c = false

instance : DecidablePred Verbatim :=
  fun _ => inferInstanceAs (Decidable (_ ∧ _ ∧ _))

variable {n : Nat} {c e : Char} {cs s rest : List Char}

theorem readCodePoint_suffix (h : readCodePoint n cs = some (e, rest)) : rest <:+ cs := by
  have ⟨_, _, h⟩ := Option.bind_eq_some_iff.mp h
  split at h
  case isTrue  => cases h; exact List.drop_suffix _ _
  case isFalse => cases h

theorem readEscape_spends (h : readEscape cs = some (e, rest)) :
    ∃ raw, cs = raw ++ rest ∧ 0 < raw.length := by
  cases cs with
  | nil => cases h
  | cons c cs =>
    have point {n} (h : readCodePoint n cs = some (e, rest)) : rest <:+ cs :=
      readCodePoint_suffix h
    have ⟨raw, eq⟩ : rest <:+ cs := by
      have := List.suffix_refl cs
      grind [readEscape]
    exact ⟨c :: raw, by rw [← eq]; rfl, Nat.succ_pos _⟩

-- A string is shorter than its text, or it is its text.
theorem readBasic_spends (h : readBasic n cs = some (s, rest)) :
    ∃ raw, cs = raw ++ '"' :: rest ∧
      (s.length < raw.length ∨ s = raw ∧ ∀ c ∈ raw, Verbatim c) := by
  induction n generalizing cs s with
  | zero => cases h
  | succ n ih =>
    cases cs with
    | nil => cases h
    | cons c cs =>
      rw [readBasic] at h
      split at h
      case isTrue quote =>
        cases h
        exact ⟨[], by rw [quote]; rfl, .inr ⟨rfl, List.forall_mem_nil _⟩⟩
      case isFalse quote =>
        split at h
        case isTrue =>
          split at h
          case h_2 => cases h
          case h_1 escape =>
            obtain ⟨⟨s, _⟩, read, eq⟩ := Option.map_eq_some_iff.mp h
            cases eq
            obtain ⟨escaped, spent, longer⟩ := readEscape_spends escape
            obtain ⟨raw, text, kind⟩ := ih read
            have le : s.length ≤ raw.length := kind.elim Nat.le_of_lt fun same => same.left ▸ le_rfl
            refine ⟨c :: escaped ++ raw, by simp [spent, text], .inl ?_⟩
            simp only [List.cons_append, List.length_cons, List.length_append]
            omega
        case isFalse backslash =>
          split at h
          case isTrue => cases h
          case isFalse printed =>
            obtain ⟨⟨s, _⟩, read, eq⟩ := Option.map_eq_some_iff.mp h
            cases eq
            obtain ⟨raw, text, kind⟩ := ih read
            refine ⟨c :: raw, by rw [text]; rfl, kind.imp Nat.succ_lt_succ ?_⟩
            rintro ⟨rfl, plain⟩
            have verbatim : Verbatim c := ⟨quote, backslash, Bool.not_eq_true _ ▸ printed⟩
            exact ⟨rfl, List.forall_mem_cons.mpr ⟨verbatim, plain⟩⟩

section Lines

variable {q : Char}

theorem readClose_length (h : readClose q cs = some (s, rest)) :
    s.length + rest.length < cs.length := by
  unfold readClose at h
  grind

theorem readNewline_length (h : readNewline cs = some rest) : rest.length < cs.length := by
  unfold readNewline at h
  grind

theorem skipBlankLines_length : (skipBlankLines cs).length ≤ cs.length := by
  fun_induction skipBlankLines cs <;> grind

theorem skipLineEnd_length (h : skipLineEnd cs = some rest) : rest.length < cs.length := by
  have ⟨_, feed, eq⟩ := Option.map_eq_some_iff.mp h
  cases eq
  exact (skipBlankLines_length.trans_lt (readNewline_length feed)).trans_le
    (List.dropWhile_suffix _).length_le

-- Three quotes are more than the one at the end of a string on one line.
theorem readBasicLines_length (h : readBasicLines n cs = some (s, rest)) :
    s.length + rest.length < cs.length := by
  induction n generalizing cs s with
  | zero => cases h
  | succ n ih =>
    cases cs with
    | nil => cases h
    | cons c cs =>
      have inside {e more} (skipped : more.length < (c :: cs).length)
          (h : (readBasicLines n more).map (fun read => (e :: read.1, read.2)) = some (s, rest)) :
          s.length + rest.length < (c :: cs).length := by
        obtain ⟨_, read, eq⟩ := Option.map_eq_some_iff.mp h
        cases eq
        have := ih read
        simp only [List.length_cons] at skipped ⊢
        omega
      rw [readBasicLines] at h
      split at h
      case h_1 close   => cases h; exact readClose_length close
      case h_2 feed    => exact inside (readNewline_length feed) h
      case h_3 =>
        split at h
        case isTrue =>
          split at h
          case h_1 skip =>
            exact (ih h).trans ((skipLineEnd_length skip).trans (Nat.lt_succ_self _))
          case h_2 =>
            split at h
            case h_1 escape =>
              obtain ⟨escaped, spent, longer⟩ := readEscape_spends escape
              have skipped := congrArg List.length spent
              rw [List.length_append] at skipped
              exact inside (by rw [List.length_cons]; omega) h
            case h_2 => cases h
        case isFalse =>
          split at h
          case isTrue  => cases h
          case isFalse => exact inside (Nat.lt_succ_self _) h

end Lines

-- A line that ends with a string gives what stands between its quotes only if it can stand there.
theorem verbatim_of_readString {text : List Char}
    (h : readString ('"' :: (text ++ ['"', '\n'])) = some (String.ofList text, rest)) :
    ∀ c ∈ text, Verbatim c := by
  have ⟨⟨s, after⟩, read, eq⟩ := Option.map_eq_some_iff.mp h
  have same : s = text := String.ofList_injective (Prod.ext_iff.mp eq).left
  subst same
  split at read
  case h_1 cs opening =>
    have short := readBasicLines_length read
    have drop : (dropFirstNewline cs).length ≤ cs.length := by
      cases feed : readNewline cs with
      | none   => simp [dropFirstNewline, feed]
      | some _ => simpa [dropFirstNewline, feed] using (readNewline_length feed).le
    have length := congrArg List.length opening
    simp only [List.length_cons, List.length_append, List.length_nil] at length
    omega
  case h_3 opening =>
    cases opening
    obtain ⟨raw, text, kind⟩ := readBasic_spends read
    rcases kind with short | ⟨rfl, plain⟩
    case inr => exact plain
    case inl =>
      -- A string that ends later ends with the text, and the text does not end with a quote.
      have length := congrArg List.length text
      simp only [List.length_cons, List.length_append, List.length_nil] at length
      have nothing : after = [] := List.eq_nil_of_length_eq_zero (by omega)
      have last := congrArg List.getLast? text
      rw [nothing] at last
      simp at last
  case h_2 opening => cases opening
  case h_4 opening => cases opening
  case h_5 => cases read

theorem verbatim_of_readValue {depth : Nat} {text : List Char} {v : Value}
    (h : readValue n depth ('"' :: (text ++ ['"']) ++ ['\n']) = some (v, rest))
    (string : v.string? = some (String.ofList text)) : ∀ c ∈ text, Verbatim c := by
  cases n with
  | zero   => cases h
  | succ n =>
    rw [List.cons_append, List.append_assoc, readValue, if_pos (.inl rfl)] at h
    · obtain ⟨⟨_, _⟩, read, eq⟩ := Option.map_eq_some_iff.mp h
      cases eq
      cases string
      exact verbatim_of_readString read
    · decide
    · decide

theorem spellsValue_verbatim {text : List Char} (h : ∀ c ∈ text, Verbatim c) :
    SpellsValue ('"' :: (text ++ ['"'])) (.string (String.ofList text)) := by
  refine spellsValue_string (.inl rfl) fun rest => ?_
  have bare : ∀ c ∈ text, Escapes [c] c := fun c hc =>
    have ⟨quote, backslash, printed⟩ := h c hc
    .bare quote backslash printed
  have stops : Text.Stops isQuote ('\n' :: rest) := Text.stops_cons (by decide)
  have read := readString_flatMap bare stops
  rwa [List.flatMap_singleton'] at read

end RoutingPlan.Toml
