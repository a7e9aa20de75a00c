import RoutingPlan.Proofs.Json.Printing

-- The texts of numbers. Every number prints as a numeral of JSON, and a whole number that 64 bits
-- hold is read back as it was. A binary64 number has a shortest text, since a grid that is fine
-- enough goes through the number itself; it has no leading zero, since no such text is zero.

namespace RoutingPlan

namespace Binary64

namespace Neighbourhood

variable {b : Neighbourhood} {c n : Nat} {k : Int}

theorem holds_centre {d : Nat} (low : b.low < b.centre) (high : b.centre < b.high) (pos : 0 < d) :
    b.holds (b.centre * d) d = true := by
  have below := Nat.mul_lt_mul_of_pos_right low pos
  have above := Nat.mul_lt_mul_of_pos_right high pos
  unfold holds
  split <;> simp only [Bool.and_eq_true, decide_eq_true_eq] <;> omega

theorem not_holds_zero {d : Nat} (low : 0 < b.low) (pos : 0 < d) : b.holds 0 d = false := by
  have := Nat.mul_pos low pos
  unfold holds
  split <;> simp only [Bool.and_eq_false_iff, decide_eq_false_iff_not] <;> omega

theorem holds_of_multiple? (h : b.multiple? k = some c) :
    b.holds (c * (twoTo 1076 * tenTo k.toNat)) (tenTo (-k).toNat) = true := by
  simp only [multiple?] at h
  generalize twoTo 1076 * tenTo k.toNat = unit, tenTo (-k).toNat = d at *
  grind

theorem multiple?_ne_none
    (dvd : twoTo 1076 * tenTo k.toNat ∣ b.centre * tenTo (-k).toNat)
    (low : b.low < b.centre) (high : b.centre < b.high) : b.multiple? k ≠ none := by
  have pos : 0 < tenTo (-k).toNat := Nat.pow_pos (by decide)
  simp only [multiple?]
  generalize twoTo 1076 * tenTo k.toNat = unit, tenTo (-k).toNat = d at *
  have down := holds_centre low high pos
  rw [← Nat.div_mul_cancel dvd] at down
  grind

-- The search ends at a grid with a point inside if it comes to such a grid at all.
theorem multiple?_coarsest {i : Nat} (within : i < n) (h : b.multiple? (k - i) ≠ none) :
    b.multiple? (b.coarsest n k).2 = some (b.coarsest n k).1 := by
  induction n generalizing k i with
  | zero => exact absurd within (Nat.not_lt_zero i)
  | succ n ih =>
    rw [coarsest]
    cases found : b.multiple? k with
    | some c => exact found
    | none   =>
      cases i with
      | zero   => exact absurd (by simpa using found) h
      | succ i => exact ih (Nat.lt_of_succ_lt_succ within) (by grind)

end Neighbourhood

variable {x : Binary64}

theorem neighbourhood_bounds (h : x.isZero = false) :
    0 < x.neighbourhood.low ∧ x.neighbourhood.low < x.neighbourhood.centre ∧
      x.neighbourhood.centre < x.neighbourhood.high := by
  have step : 0 < twoTo x.scale := Nat.pow_pos (by decide)
  have units : twoTo x.scale ≤ x.units :=
    Nat.le_mul_of_pos_left _ <| Nat.pos_of_ne_zero <| by simpa [isZero] using h
  simp only [neighbourhood]
  split <;> omega

-- The finest grid goes through every number.
theorem dvd_centre (x : Binary64) (j : Nat) :
    twoTo (j + 2) ∣ x.neighbourhood.centre * tenTo j := by
  have tens : tenTo j = 2 ^ j * 5 ^ j := Nat.mul_pow 2 5 j
  have twos : twoTo (j + 2) = 2 ^ j * 4 := Nat.pow_add 2 j 2
  refine ⟨x.units * 5 ^ j, ?_⟩
  rw [tens, twos, neighbourhood]
  grind

theorem multiple?_finest {j : Nat} (h : x.isZero = false) (finest : j + 2 = 1076) :
    x.neighbourhood.multiple? (-j) ≠ none := by
  have ⟨_, below, above⟩ := neighbourhood_bounds h
  refine Neighbourhood.multiple?_ne_none ?_ below above
  rw [← finest, show (-(j : Int)).toNat = 0 by omega, show (- -(j : Int)).toNat = j by omega,
    show tenTo 0 = 1 from rfl, Nat.mul_one]
  exact dvd_centre x j

-- The shortest text of a number has digits other than zero.
theorem shortest_pos (h : x.isZero = false) : 0 < x.shortest.1 := by
  generalize whole : (Nat.toDigits 10 (x.units / twoTo 1074)).length = n
  have found : x.neighbourhood.multiple? x.shortest.2 = some x.shortest.1 := by
    have : (n : Int) - (n + 1074 : Nat) = -(1074 : Nat) := by omega
    simp only [shortest, whole]
    exact Neighbourhood.multiple?_coarsest (Nat.lt_succ_self (n + 1074))
      (this ▸ multiple?_finest h rfl)
  refine Nat.pos_of_ne_zero fun zero => ?_
  have pos : 0 < tenTo (-x.shortest.2).toNat := Nat.pow_pos (by decide)
  have holds := Neighbourhood.holds_of_multiple? found
  rw [zero, Nat.zero_mul,
    Neighbourhood.not_holds_zero (neighbourhood_bounds h).left pos] at holds
  exact nomatch holds

end Binary64

theorem head_toDigits {n : Nat} (h : 0 < n) : (Nat.toDigits 10 n).head? ≠ some '0' := by
  induction n using Nat.strongRecOn with
  | ind n ih =>
    by_cases small : n < 10
    case pos =>
      rw [Nat.toDigits_of_lt_base small]
      exact (by decide : ∀ n < 10, 0 < n → [n.digitChar].head? ≠ some '0') n small h
    case neg =>
      have := ih (n / 10) (by omega) (by omega)
      rw [Nat.toDigits_of_base_le (by decide) (Nat.not_lt.mp small)]
      rwa [List.head?_append_of_ne_nil _ Nat.toDigits_ne_nil]

namespace Json

namespace Numeral

variable {ds : List Char}

theorem digits_toDigits (n : Nat) : Digits (Nat.toDigits 10 n) where
  nonempty := Nat.toDigits_ne_nil
  digits _ mem := Nat.isDigit_of_mem_toDigits (by decide) (by decide) mem

theorem digits_of_mem {ds' : List Char} (h : Digits ds) (nonempty : ds' ≠ [])
    (mem : ∀ c ∈ ds', c ∈ ds ∨ c = '0') : Digits ds' where
  nonempty := nonempty
  digits c inside := (mem c inside).elim (h.digits c) fun eq => eq ▸ rfl

-- Digits with a point or an exponent are a numeral as long as no zero leads them.
theorem exists_spells_layout {negative : Bool} (h : Digits ds) (leading : ds.head? ≠ some '0')
    (k : Int) : ∃ t, Spells ((if negative then ['-'] else []) ++ Binary64.layout ds k) t := by
  have zero : Digits ['0'] := digits_toDigits 0
  have spells {ds fs es : List Char} {fraction : Option (List Char)}
      {exponent : Option (Bool × List Char)} (whole : Digits ds)
      (leading : ds.head? = some '0' → ds = ['0']) (hf : SpellsFraction fs fraction)
      (he : SpellsExponent es exponent) :
      ∃ t, Spells ((if negative then ['-'] else []) ++ (ds ++ fs ++ es)) t := by
    have := @Spells.mk negative _ _ _ _ _ whole leading hf he
    simp only [List.append_assoc] at this ⊢
    exact ⟨_, this⟩
  fun_cases Binary64.layout ds k
  case case1 =>
    have digits : Digits (ds ++ List.replicate k.toNat '0') :=
      digits_of_mem h (by simp [h.nonempty]) (by grind)
    have head : (ds ++ List.replicate k.toNat '0').head? ≠ some '0' := by
      rwa [List.head?_append_of_ne_nil _ h.nonempty]
    have := spells digits (absurd · head) (.present zero) .absent
    rwa [List.append_nil] at this
  case case2 e _ negative' _ =>
    have length : e.toNat + 1 < ds.length := by omega
    have before : Digits (ds.take (e.toNat + 1)) :=
      digits_of_mem h (by simp [h.nonempty]) fun c mem => .inl <| List.mem_of_mem_take mem
    have after : Digits (ds.drop (e.toNat + 1)) :=
      digits_of_mem h (by simpa using length) fun c mem => .inl <| List.mem_of_mem_drop mem
    have head : (ds.take (e.toNat + 1)).head? ≠ some '0' := by
      rwa [List.head?_take, if_neg (Nat.succ_ne_zero _)]
    have := spells before (absurd · head) (.present after) .absent
    rwa [List.append_nil] at this
  case case3 e _ _ _ =>
    have digits : Digits (List.replicate (-e - 1).toNat '0' ++ ds) :=
      digits_of_mem h (by simp [h.nonempty]) (by grind)
    have := spells zero (fun _ => rfl) (.present digits) .absent
    rwa [List.append_nil] at this
  case case4 e _ mantissa =>
    have exponent : ∃ exponent, SpellsExponent
        ('e' :: (if 0 ≤ e then '+' else '-') :: Nat.toDigits 10 e.natAbs) exponent := by
      split
      case isTrue  => exact ⟨_, .plus (.inl rfl) (digits_toDigits _)⟩
      case isFalse => exact ⟨_, .minus (.inl rfl) (digits_toDigits _)⟩
    have ⟨_, exponent⟩ := exponent
    cases ds with
    | nil       => exact absurd rfl h.nonempty
    | cons d ds =>
      cases ds with
      | nil         => exact spells h (absurd · leading) .absent exponent
      | cons d' ds =>
        have first : Digits [d] := digits_of_mem h nofun (by simp)
        have others : Digits (d' :: ds) := digits_of_mem h nofun (by grind)
        exact spells first (absurd · leading) (.present others) exponent

theorem leading_toDigits (n : Nat) (h : (Nat.toDigits 10 n).head? = some '0') :
    Nat.toDigits 10 n = ['0'] := by
  cases n with
  | zero   => rfl
  | succ n => exact absurd h (head_toDigits (Nat.succ_pos n))

theorem natural_toDigits (n : Nat) : natural (Nat.toDigits 10 n) = n := by
  have := Nat.ofDigitChars_toDigits (b := 10) (n := n) (by decide) (by decide)
  simpa only [natural, digitValue, Nat.ofDigitChars, Nat.mul_comm] using this

-- The numeral of a whole number.
def ofInt (n : Int) : Numeral :=
  ⟨n < 0, Nat.toDigits 10 n.natAbs, none, none⟩

theorem spells_ofInt (n : Int) : Spells (Number.whole n).render (ofInt n) := by
  have := @Spells.mk (n < 0) _ _ _ _ _ (digits_toDigits n.natAbs) (leading_toDigits _) .absent
    .absent
  simp only [List.append_nil, decide_eq_true_eq] at this
  exact this

theorem value?_ofInt {n : Int} (low : -(twoTo 63 : Int) ≤ n) (high : n < twoTo 64) :
    (ofInt n).value? = some (.whole n) := by
  simp only [value?, ofInt, natural_toDigits]
  by_cases negative : n < 0
  case pos =>
    have : 0 < n.natAbs ∧ n.natAbs ≤ twoTo 63 := by omega
    simp only [negative, decide_true, if_true, this, and_self]
    grind
  case neg =>
    have : n.natAbs < twoTo 64 := by omega
    simp only [negative, decide_false, this, if_true]
    grind

end Numeral

namespace Number

-- Every number prints as a numeral.
theorem exists_spells_render (n : Number) : ∃ t, Numeral.Spells n.render t := by
  cases n with
  | whole n => exact ⟨_, Numeral.spells_ofInt n⟩
  | real x  =>
    rw [render, Binary64.render]
    cases zero : x.isZero with
    | true  =>
      have digits : Numeral.Digits ['0'] := Numeral.digits_toDigits 0
      have := @Numeral.Spells.mk x.negative _ _ _ _ _ digits (fun _ => rfl) (.present digits)
        .absent
      simp only [List.append_nil, List.append_assoc] at this
      exact ⟨_, this⟩
    | false =>
      exact Numeral.exists_spells_layout (Numeral.digits_toDigits _)
        (head_toDigits (Binary64.shortest_pos zero)) _

-- A whole number that 64 bits hold, signed or not, or one of the others that its text stands for.
def Exact : Number → Prop
  | whole n => -(twoTo 63 : Int) ≤ n ∧ n < twoTo 64
  | real x  => Value.ofText? (Value.number (real x)).compact = some (.number (real x))

theorem Exact.legible {n : Number} (h : n.Exact) : n.Legible := by
  cases n with
  | whole n => exact ⟨_, Numeral.spells_ofInt n, Numeral.value?_ofInt h.left h.right⟩
  | real x  =>
    have ⟨t, spells⟩ := exists_spells_render (real x)
    refine ⟨t, spells, ?_⟩
    have read : Value.ofText? (String.ofList (real x).render) = some (.number (real x)) := h
    rw [Value.ofText?, Tree.ofText?_of_spells (.number spells), Option.bind_some, Tree.value?]
      at read
    simpa using read

end Number

end Json

end RoutingPlan
