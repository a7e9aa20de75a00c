import Mathlib.Data.List.Basic

-- The order of texts is the order of their bytes in UTF-8: the first byte of a character says how
-- many bytes follow and holds its highest bits, and each of the others has six bits more.

namespace RoutingPlan.Text

variable {s t : String} {c d : Char} {cs ds : List Char} {x y : List UInt8} {a b n v w : Nat}

-- A text in UTF-8.
def bytes (s : String) : List UInt8 :=
  s.toUTF8.data.toList

-- How many bytes of a character come after its first one.
def following (v : Nat) : Nat :=
  if v ≤ 0x7f then 0 else if v ≤ 0x7ff then 1 else if v ≤ 0xffff then 2 else 3

-- The bits of a character that `n` bytes have no room for.
def above : Nat → Nat → Nat
  | 0, v     => v
  | n + 1, v => above n (v / 64)

-- The lowest bits of a character, six in each of `n` bytes.
def sixes : Nat → Nat → List UInt8
  | 0, _     => []
  | n + 1, v => sixes n (v / 64) ++ [UInt8.ofNat (v % 64 + 128)]

def firstByte (v : Nat) : Nat :=
  above (following v) v +
    if v ≤ 0x7f then 0 else if v ≤ 0x7ff then 192 else if v ≤ 0xffff then 224 else 240

theorem toNat_lt : c.toNat < 0x110000 := by
  have valid : c.toNat < 0xd800 ∨ 0xdfff < c.toNat ∧ c.toNat < 0x110000 := c.valid
  omega

theorem firstByte_lt (h : v < 0x110000) : firstByte v < 256 := by
  unfold firstByte following
  split_ifs <;> simp only [above] <;> omega

theorem utf8EncodeChar_eq : String.utf8EncodeChar c =
    UInt8.ofNat (firstByte c.toNat) :: sixes (following c.toNat) c.toNat := by
  have lt : c.toNat < 0x110000 := toNat_lt
  have val : c.val.toNat = c.toNat := rfl
  -- The first of several bytes has room for what is left of a character of that size.
  have two (h : c.toNat ≤ 0x7ff) : c.toNat / 64 % 32 = c.toNat / 64 :=
    Nat.mod_eq_of_lt (by omega)
  have three (h : c.toNat ≤ 0xffff) : c.toNat / 4096 % 16 = c.toNat / 64 / 64 := by omega
  have four : c.toNat / 262144 % 8 = c.toNat / 64 / 64 / 64 := by omega
  have middle : c.toNat / 4096 = c.toNat / 64 / 64 := by omega
  simp only [String.utf8EncodeChar, firstByte, following, val]
  split_ifs with h₁ h₂ h₃
  · rfl
  · rw [two h₂]
    rfl
  · rw [three h₃]
    rfl
  · rw [four, middle]
    rfl

theorem ofNat_cons_lt (hb : b < 256) (h : a < b) : UInt8.ofNat a :: x < UInt8.ofNat b :: y :=
  List.cons_lt_cons_iff.mpr <| .inl <| (UInt8.ofNat_lt_iff_lt (Nat.lt_trans h hb) hb).mpr h

-- Where the bits above are the same, the first of the bytes that differ decides.
theorem sixes_append_lt (same : above n v = above n w) (h : v < w) :
    sixes n v ++ x < sixes n w ++ y := by
  induction n generalizing v w x y with
  | zero => exact absurd same (Nat.ne_of_lt h)
  | succ n ih =>
    simp only [sixes, List.append_assoc, List.singleton_append]
    by_cases highest : v / 64 = w / 64
    case pos =>
      rw [highest]
      exact List.append_left_lt <| ofNat_cons_lt (by omega) (by omega)
    case neg => exact ih same (by omega)

-- Of two characters the greater has the greater first byte, unless it differs in the others only.
theorem firstByte_lt_or (h : v < w) :
    firstByte v < firstByte w ∨
      firstByte v = firstByte w ∧ following v = following w ∧
        above (following v) v = above (following v) w := by
  unfold firstByte following
  split_ifs <;> simp only [above, true_and] <;> omega

theorem utf8EncodeChar_append_lt (h : c < d) :
    String.utf8EncodeChar c ++ x < String.utf8EncodeChar d ++ y := by
  have lt : c.toNat < d.toNat := h
  rw [utf8EncodeChar_eq, utf8EncodeChar_eq, List.cons_append, List.cons_append]
  cases firstByte_lt_or lt with
  | inl first => exact ofNat_cons_lt (firstByte_lt toNat_lt) first
  | inr same =>
    have ⟨first, size, above⟩ := same
    rw [first, ← size, List.cons_lt_cons_self]
    exact sixes_append_lt above lt

theorem flatMap_utf8EncodeChar_lt (h : cs < ds) :
    cs.flatMap String.utf8EncodeChar < ds.flatMap String.utf8EncodeChar := by
  induction h with
  | @nil d ds =>
    rw [List.flatMap_nil, List.flatMap_cons, utf8EncodeChar_eq]
    exact List.nil_lt_cons ..
  | rel h     => exact utf8EncodeChar_append_lt h
  | cons _ ih => exact List.append_left_lt ih

theorem bytes_eq : bytes s = s.toList.flatMap String.utf8EncodeChar := by
  rw [bytes, String.toUTF8, ← String.utf8Encode_toList, List.utf8Encode, List.data_toByteArray]

theorem bytes_lt_bytes_iff : bytes s < bytes t ↔ s < t := by
  have mono {s t : String} (h : s < t) : bytes s < bytes t := by
    rw [bytes_eq, bytes_eq]
    exact flatMap_utf8EncodeChar_lt h
  refine ⟨fun h => String.not_le.mp fun le => ?_, mono⟩
  by_cases lt : t < s
  case pos => exact List.lt_asymm h (mono lt)
  case neg => exact List.lt_irrefl _ (String.le_antisymm le lt ▸ h)

end RoutingPlan.Text
