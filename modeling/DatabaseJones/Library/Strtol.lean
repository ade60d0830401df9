import Mathlib.Data.List.Basic
import Mathlib.Tactic

/-!
# Conversions of strings to integers in C

`strtoll` and `strtoull` in base 10.  They skip blanks, take a sign and as many digits as there
are, and tell where they stopped.  Memory is a list of bytes; behind its end there are zeros.
-/

namespace DatabaseJones.Library

/-- `isspace(byte)`. -/
def isspace (byte : UInt8) : Bool := byte == 0x20 || 0x09 ≤ byte && byte ≤ 0x0D

/-- `isdigit(byte)`. -/
def isdigit (byte : UInt8) : Bool := 0x30 ≤ byte && byte ≤ 0x39

/-- The number that digits stand for. -/
def decimal (digits : List UInt8) : ℕ :=
  digits.foldl (fun value digit => value * 10 + (digit.toNat - 0x30)) 0

/-- A number with its sign. -/
def signedDecimal (negative : Bool) (digits : List UInt8) : ℤ :=
  if negative then -(decimal digits : ℤ) else decimal digits

/-- The sign of a string, and what follows it. -/
def takeSign (str : List UInt8) : Bool × List UInt8 :=
  if str.head? = some 0x2D then (true, str.tail)
  else if str.head? = some 0x2B then (false, str.tail)
  else (false, str)

/-- The number that a string begins with, after blanks: its sign and digits, and what follows
them. -/
def number? (str : List UInt8) : Option (Bool × List UInt8 × List UInt8) :=
  let (negative, str) := takeSign (str.dropWhile isspace)
  if str.takeWhile isdigit = [] then none
  else some (negative, str.takeWhile isdigit, str.dropWhile isdigit)

/-- What a conversion does: the value that it returns, whether it sets `errno` to `ERANGE`, and
`endptr`, which is different from the beginning of the string if there is a number. -/
structure Strtol (V : Type) where
  value : V
  erange : Bool
  endptr : List UInt8
  moved : Bool

/-- `strtoll(str, &endptr, 10)`. -/
def strtoll (str : List UInt8) : Strtol ℤ :=
  match number? str with
  | none => { value := 0, erange := false, endptr := str, moved := false }
  | some (negative, digits, rest) =>
      let value := signedDecimal negative digits
      if value < -2 ^ 63 then { value := -2 ^ 63, erange := true, endptr := rest, moved := true }
      else if 2 ^ 63 ≤ value then
        { value := 2 ^ 63 - 1, erange := true, endptr := rest, moved := true }
      else { value, erange := false, endptr := rest, moved := true }

/-- `strtoull(str, &endptr, 10)`.  A number with a minus sign is negated modulo `2 ^ 64`. -/
def strtoull (str : List UInt8) : Strtol ℕ :=
  match number? str with
  | none => { value := 0, erange := false, endptr := str, moved := false }
  | some (negative, digits, rest) =>
      if 2 ^ 64 ≤ decimal digits then
        { value := 2 ^ 64 - 1, erange := true, endptr := rest, moved := true }
      else
        { value := if negative then (2 ^ 64 - decimal digits) % 2 ^ 64 else decimal digits
          erange := false, endptr := rest, moved := true }

/-- `*str`. -/
def deref (str : List UInt8) : UInt8 := str.headD 0

/-- `strchr(str, byte) != NULL`: the byte is in front of the terminator. -/
def strchr (str : List UInt8) (byte : UInt8) : Bool := (str.takeWhile (· != 0)).contains byte

/-! ## Literals -/

theorem isspace_eq_false_of_isdigit {byte : UInt8} (h : isdigit byte = true) : isspace byte = false := by
  simp only [isdigit, Bool.and_eq_true, decide_eq_true_eq, UInt8.le_iff_toNat_le] at h
  simp only [isspace, Bool.or_eq_false_iff, Bool.and_eq_false_iff, beq_eq_false_iff_ne, ne_eq,
    decide_eq_false_iff_not, UInt8.le_iff_toNat_le, ← UInt8.toNat_inj]
  simp only [UInt8.toNat_ofNat] at h ⊢
  omega

theorem takeWhile_digits {digits rest : List UInt8} (hdigits : ∀ digit ∈ digits, isdigit digit = true)
    (hrest : isdigit (deref rest) = false) :
    (digits ++ rest).takeWhile isdigit = digits ∧ (digits ++ rest).dropWhile isdigit = rest := by
  have hnone : rest.takeWhile isdigit = [] ∧ rest.dropWhile isdigit = rest := by
    cases rest with
    | nil => exact ⟨rfl, rfl⟩
    | cons byte rest =>
        have hbyte : isdigit byte = false := hrest
        simp [hbyte]
  rw [List.takeWhile_append_of_pos hdigits, List.dropWhile_append_of_pos hdigits, hnone.1, hnone.2,
    List.append_nil]
  exact ⟨rfl, rfl⟩

/-- Digits in front of anything else. -/
theorem number?_digits {digits rest : List UInt8} (hne : digits ≠ [])
    (hdigits : ∀ digit ∈ digits, isdigit digit = true) (hrest : isdigit (deref rest) = false) :
    number? (digits ++ rest) = some (false, digits, rest) := by
  obtain ⟨digit, others, rfl⟩ := List.exists_cons_of_ne_nil hne
  have hdigit : isdigit digit = true := hdigits digit List.mem_cons_self
  have hskip : (digit :: others ++ rest).dropWhile isspace = digit :: others ++ rest := by
    rw [List.cons_append, List.dropWhile_cons, isspace_eq_false_of_isdigit hdigit]
    rfl
  have hsign : takeSign (digit :: others ++ rest) = (false, digit :: others ++ rest) := by
    have hminus : digit ≠ 0x2D := by
      rintro rfl
      exact absurd hdigit (by decide)
    have hplus : digit ≠ 0x2B := by
      rintro rfl
      exact absurd hdigit (by decide)
    simp [takeSign, hminus, hplus]
  obtain ⟨htake, hdrop⟩ := takeWhile_digits hdigits hrest
  simp only [number?, hskip, hsign, htake, hdrop, if_neg hne]

/-- A sign and digits. -/
theorem number?_sign_digits {sign : UInt8} (hsign : sign = 0x2D ∨ sign = 0x2B)
    {digits rest : List UInt8} (hne : digits ≠ [])
    (hdigits : ∀ digit ∈ digits, isdigit digit = true) (hrest : isdigit (deref rest) = false) :
    number? (sign :: (digits ++ rest)) = some (sign == 0x2D, digits, rest) := by
  have hskip : (sign :: (digits ++ rest)).dropWhile isspace = sign :: (digits ++ rest) := by
    have hspace : isspace sign = false := by
      rcases hsign with rfl | rfl <;> decide
    rw [List.dropWhile_cons, hspace]
    rfl
  have htakeSign : takeSign (sign :: (digits ++ rest)) = (sign == 0x2D, digits ++ rest) := by
    rcases hsign with rfl | rfl <;> rfl
  obtain ⟨htake, hdrop⟩ := takeWhile_digits hdigits hrest
  simp only [number?, hskip, htakeSign, htake, hdrop, if_neg hne]

end DatabaseJones.Library
