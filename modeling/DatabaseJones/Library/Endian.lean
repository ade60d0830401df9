import Mathlib.Data.Nat.Bitwise
import Mathlib.Data.Nat.ModEq
import Mathlib.Tactic

/-!
# Integers as bytes

Byte strings of a fixed length, with the least significant byte first or last.  A
number is read back modulo `256` to the length, and the two orders are the reverse of
each other.
-/

namespace DatabaseJones.Library

/-- The last `length` bytes of a number, least significant byte first. -/
def littleEndian : ℕ → ℕ → List UInt8
  | 0, _ => []
  | length + 1, value => UInt8.ofNat value :: littleEndian length (value / 256)

/-- The number that bytes stand for, least significant byte first. -/
def fromLittleEndian : List UInt8 → ℕ
  | [] => 0
  | byte :: bytes => byte.toNat + 256 * fromLittleEndian bytes

/-- The last `length` bytes of a number, most significant byte first. -/
def bigEndian (length value : ℕ) : List UInt8 := (littleEndian length value).reverse

/-- The number that bytes stand for, most significant byte first. -/
def fromBigEndian (bytes : List UInt8) : ℕ := fromLittleEndian bytes.reverse

@[simp] theorem length_littleEndian (length value : ℕ) :
    (littleEndian length value).length = length := by
  induction length generalizing value with
  | zero => rfl
  | succ length ih => rw [littleEndian, List.length_cons, ih]

@[simp] theorem length_bigEndian (length value : ℕ) : (bigEndian length value).length = length := by
  rw [bigEndian, List.length_reverse, length_littleEndian]

theorem fromLittleEndian_littleEndian (length value : ℕ) :
    fromLittleEndian (littleEndian length value) = value % 256 ^ length := by
  induction length generalizing value with
  | zero => simp [littleEndian, fromLittleEndian, Nat.mod_one]
  | succ length ih =>
      have hbyte : (UInt8.ofNat value).toNat = value % 256 := by simp
      rw [littleEndian, fromLittleEndian, ih, hbyte, Nat.pow_succ', Nat.mod_mul]

theorem fromBigEndian_bigEndian (length value : ℕ) :
    fromBigEndian (bigEndian length value) = value % 256 ^ length := by
  rw [fromBigEndian, bigEndian, List.reverse_reverse, fromLittleEndian_littleEndian]

theorem fromLittleEndian_lt (bytes : List UInt8) :
    fromLittleEndian bytes < 256 ^ bytes.length := by
  induction bytes with
  | nil => simp [fromLittleEndian]
  | cons byte bytes ih =>
      have hbyte := byte.toNat_lt
      rw [fromLittleEndian, List.length_cons, Nat.pow_succ]
      omega

/-! ## Bit fields -/

/-- Put a field of `width` bits behind a number. -/
theorem shiftLeft_or_field (width : ℕ) {field : ℕ} (hfield : field < 2 ^ width) (value : ℕ) :
    value <<< width ||| field = value * 2 ^ width + field := by
  rw [← Nat.shiftLeft_add_eq_or_of_lt hfield, Nat.shiftLeft_eq]

/-- A field that was put behind a number is read with a mask. -/
theorem field_and_mask (mask width : ℕ) {field : ℕ} (hmask : mask = 2 ^ width - 1)
    (hfield : field < 2 ^ width) (value : ℕ) : (value * 2 ^ width + field) &&& mask = field := by
  rw [hmask, Nat.and_two_pow_sub_one_eq_mod, Nat.mul_comm, Nat.mul_add_mod, Nat.mod_eq_of_lt hfield]

/-- The number in front of a field is read with a shift. -/
theorem field_shiftRight (width : ℕ) {field : ℕ} (hfield : field < 2 ^ width) (value : ℕ) :
    (value * 2 ^ width + field) >>> width = value := by
  rw [Nat.shiftRight_eq_div_pow, Nat.mul_comm, Nat.mul_add_div (Nat.two_pow_pos width),
    Nat.div_eq_of_lt hfield, Nat.add_zero]

/-- Whether the highest bit of a number is set. -/
theorem and_highest_bit_iff {value bit : ℕ} (h : value < 2 ^ (bit + 1)) :
    value &&& 1 <<< bit = 1 <<< bit ↔ 2 ^ bit ≤ value := by
  have hquotient : value / 2 ^ bit < 2 := by
    rw [Nat.div_lt_iff_lt_mul (Nat.two_pow_pos bit), ← Nat.pow_succ']
    exact h
  have hbit : value.testBit bit = decide (2 ^ bit ≤ value) := by
    rw [Nat.testBit_eq_decide_div_mod_eq, Nat.mod_eq_of_lt hquotient, decide_eq_decide,
      ← Nat.one_le_div_iff (Nat.two_pow_pos bit)]
    omega
  rw [Nat.one_shiftLeft, Nat.and_comm, Nat.two_pow_and, hbit]
  by_cases hle : 2 ^ bit ≤ value
  · simp [hle]
  · simp only [hle, decide_false, Bool.toNat_false, Nat.mul_zero, iff_false]
    exact (Nat.two_pow_pos bit).ne

end DatabaseJones.Library

/-!
## The order of byte strings

Byte strings of one length are in the order of the numbers that they stand for with the most
significant byte first.  So a key that is made of digits, each with its own base, is in the
order of its digits.
-/

namespace DatabaseJones.Library

theorem fromLittleEndian_append (bytes others : List UInt8) :
    fromLittleEndian (bytes ++ others) =
      fromLittleEndian bytes + 256 ^ bytes.length * fromLittleEndian others := by
  induction bytes with
  | nil => simp [fromLittleEndian]
  | cons byte bytes ih =>
      rw [List.cons_append, fromLittleEndian, ih, fromLittleEndian, List.length_cons, Nat.pow_succ]
      ring

theorem fromBigEndian_append (bytes others : List UInt8) :
    fromBigEndian (bytes ++ others) =
      fromBigEndian bytes * 256 ^ others.length + fromBigEndian others := by
  rw [fromBigEndian, List.reverse_append, fromLittleEndian_append, List.length_reverse]
  unfold fromBigEndian
  ring

theorem fromBigEndian_lt (bytes : List UInt8) : fromBigEndian bytes < 256 ^ bytes.length := by
  have hlt := fromLittleEndian_lt bytes.reverse
  rwa [List.length_reverse] at hlt

/-- Numbers with a last digit are compared by what is before it, and then by the digit. -/
theorem digit_lt_iff {base digit other : ℕ} (hdigit : digit < base) (hother : other < base)
    (front back : ℕ) :
    front * base + digit < back * base + other ↔ front < back ∨ front = back ∧ digit < other := by
  rcases lt_trichotomy front back with h | rfl | h
  · have hle : (front + 1) * base ≤ back * base := Nat.mul_le_mul_right base h
    rw [Nat.succ_mul] at hle
    exact iff_of_true (by omega) (Or.inl h)
  · omega
  · have hle : (back + 1) * base ≤ front * base := Nat.mul_le_mul_right base h
    rw [Nat.succ_mul] at hle
    exact iff_of_false (by omega) (by omega)

/-- The order of byte strings is that of numbers. -/
theorem lt_iff_fromBigEndian_lt {bytes others : List UInt8}
    (hlength : bytes.length = others.length) :
    bytes < others ↔ fromBigEndian bytes < fromBigEndian others := by
  induction bytes generalizing others with
  | nil =>
      rw [List.eq_nil_of_length_eq_zero hlength.symm]
      exact iff_of_false (List.lt_irrefl _) (Nat.lt_irrefl _)
  | cons byte bytes ih =>
      cases others with
      | nil => exact nomatch hlength
      | cons other others =>
          have hlength : bytes.length = others.length := Nat.succ.inj hlength
          have hcons : ∀ (byte : UInt8) (bytes : List UInt8), fromBigEndian (byte :: bytes) =
              byte.toNat * 256 ^ bytes.length + fromBigEndian bytes := by
            intro byte bytes
            have happend := fromBigEndian_append [byte] bytes
            rwa [show fromBigEndian [byte] = byte.toNat by simp [fromBigEndian, fromLittleEndian],
              List.singleton_append] at happend
          have hlt := fromBigEndian_lt bytes
          rw [hlength] at hlt
          rw [List.cons_lt_cons_iff, ih hlength, hcons, hcons, hlength,
            digit_lt_iff hlt (fromBigEndian_lt others), UInt8.lt_iff_toNat_lt, UInt8.toNat_inj]

/-- Numbers of one length are in the order of their bytes. -/
theorem bigEndian_lt_iff {length value other : ℕ} (hvalue : value < 256 ^ length)
    (hother : other < 256 ^ length) : bigEndian length value < bigEndian length other ↔ value < other := by
  rw [lt_iff_fromBigEndian_lt (by rw [length_bigEndian, length_bigEndian]), fromBigEndian_bigEndian,
    fromBigEndian_bigEndian, Nat.mod_eq_of_lt hvalue, Nat.mod_eq_of_lt hother]

/-- Two numbers, one after the other. -/
theorem bigEndian_append_lt_iff {length value other : ℕ} (hvalue : value < 256 ^ length)
    (hother : other < 256 ^ length) {length' value' other' : ℕ} (hvalue' : value' < 256 ^ length')
    (hother' : other' < 256 ^ length') :
    bigEndian length value ++ bigEndian length' value' <
        bigEndian length other ++ bigEndian length' other' ↔
      value < other ∨ value = other ∧ value' < other' := by
  rw [lt_iff_fromBigEndian_lt (by simp only [List.length_append, length_bigEndian]),
    fromBigEndian_append, fromBigEndian_append]
  simp only [fromBigEndian_bigEndian, length_bigEndian, Nat.mod_eq_of_lt hvalue,
    Nat.mod_eq_of_lt hother, Nat.mod_eq_of_lt hvalue', Nat.mod_eq_of_lt hother']
  exact digit_lt_iff hvalue' hother' value other

end DatabaseJones.Library
