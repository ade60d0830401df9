import Mathlib.Data.List.Basic
import Mathlib.Tactic

/-!
# Strings of UTF-16 code units

A string of code units, in which surrogates may be on their own, and its UTF-8 form.  In
UTF-8 a lone surrogate becomes the replacement character, so that exactly the strings
without lone surrogates can be read back.
-/

namespace DatabaseJones.Library

-- a statement about the units of a text is decided along the text, not by trying all units
attribute [instance (high)] List.decidableBAll

/-- A string as its UTF-16 code units. -/
abbrev CodeUnits : Type := List UInt16

def isHighSurrogate (unit : UInt16) : Bool := 0xD800 ≤ unit.toNat && unit.toNat < 0xDC00

def isLowSurrogate (unit : UInt16) : Bool := 0xDC00 ≤ unit.toNat && unit.toNat < 0xE000

def isSurrogate (unit : UInt16) : Bool := isHighSurrogate unit || isLowSurrogate unit

/-! ## Characters -/

/-- The code units of a character. -/
def unitsOfChar (char : Char) : CodeUnits :=
  if char.toNat < 0x10000 then [UInt16.ofNat char.toNat]
  else
    [UInt16.ofNat (0xD800 + (char.toNat - 0x10000) / 0x400),
      UInt16.ofNat (0xDC00 + (char.toNat - 0x10000) % 0x400)]

def unitsOfChars (chars : List Char) : CodeUnits := chars.flatMap unitsOfChar

/-- U+FFFD. -/
def replacementCharacter : Char := Char.ofNat 0xFFFD

/-- The character of a code unit that is not part of a pair. -/
def charOfUnit (unit : UInt16) : Char :=
  if isSurrogate unit then replacementCharacter else Char.ofNat unit.toNat

/-- The character of a surrogate pair. -/
def charOfPair (high low : UInt16) : Char :=
  Char.ofNat (0x10000 + (high.toNat - 0xD800) * 0x400 + (low.toNat - 0xDC00))

/-- The characters of a string, with the replacement character for lone surrogates. -/
def charsOfUnits : CodeUnits → List Char
  | [] => []
  | [unit] => [charOfUnit unit]
  | high :: low :: units =>
      if isHighSurrogate high && isLowSurrogate low then charOfPair high low :: charsOfUnits units
      else charOfUnit high :: charsOfUnits (low :: units)

/-- A string without lone surrogates. -/
def Paired : CodeUnits → Prop
  | [] => True
  | [unit] => isSurrogate unit = false
  | high :: low :: units =>
      if isHighSurrogate high && isLowSurrogate low then Paired units
      else isSurrogate high = false ∧ Paired (low :: units)

theorem toNat_charOfNat {value : ℕ} (hvalid : value.isValidChar) :
    (Char.ofNat value).toNat = value := by
  rw [Char.ofNat, dif_pos hvalid]
  rfl

theorem unitsOfChar_charOfUnit {unit : UInt16} (h : isSurrogate unit = false) :
    unitsOfChar (charOfUnit unit) = [unit] := by
  have hlt := unit.toNat_lt
  have hvalid : unit.toNat.isValidChar := by
    simp only [isSurrogate, isHighSurrogate, isLowSurrogate, Bool.or_eq_false_iff,
      Bool.and_eq_false_iff, decide_eq_false_iff_not] at h
    unfold Nat.isValidChar
    omega
  rw [charOfUnit, if_neg (by simp [h]), unitsOfChar, toNat_charOfNat hvalid,
    if_pos (by omega), UInt16.ofNat_toNat]

theorem unitsOfChar_charOfPair {high low : UInt16} (hhigh : isHighSurrogate high = true)
    (hlow : isLowSurrogate low = true) : unitsOfChar (charOfPair high low) = [high, low] := by
  simp only [isHighSurrogate, isLowSurrogate, Bool.and_eq_true, decide_eq_true_eq] at hhigh hlow
  have hvalid : (0x10000 + (high.toNat - 0xD800) * 0x400 + (low.toNat - 0xDC00)).isValidChar := by
    unfold Nat.isValidChar
    omega
  have htoNat : (charOfPair high low).toNat =
      0x10000 + (high.toNat - 0xD800) * 0x400 + (low.toNat - 0xDC00) :=
    toNat_charOfNat hvalid
  have hquotient : 0xD800 + ((charOfPair high low).toNat - 0x10000) / 0x400 = high.toNat := by omega
  have hremainder : 0xDC00 + ((charOfPair high low).toNat - 0x10000) % 0x400 = low.toNat := by omega
  rw [unitsOfChar, if_neg (by omega), hquotient, hremainder, UInt16.ofNat_toNat, UInt16.ofNat_toNat]

/-- A lone surrogate is not what its replacement stands for. -/
theorem unitsOfChar_charOfUnit_of_isSurrogate {unit : UInt16} (h : isSurrogate unit = true) :
    ∃ other, unitsOfChar (charOfUnit unit) = [other] ∧ other ≠ unit := by
  refine ⟨0xFFFD, ?_, ?_⟩
  · rw [charOfUnit, if_pos h]
    rfl
  · rintro rfl
    exact absurd h (by decide)

/-- Exactly the strings without lone surrogates are those of their characters. -/
theorem unitsOfChars_charsOfUnits_iff (units : CodeUnits) :
    unitsOfChars (charsOfUnits units) = units ↔ Paired units := by
  induction units using charsOfUnits.induct with
  | case1 => simp [charsOfUnits, unitsOfChars, Paired]
  | case2 unit =>
      rw [charsOfUnits, Paired, unitsOfChars, List.flatMap_singleton]
      constructor
      · intro h
        by_contra hsurrogate
        obtain ⟨other, hother, hne⟩ := unitsOfChar_charOfUnit_of_isSurrogate (by simpa using hsurrogate)
        rw [hother] at h
        exact hne (List.cons.inj h).1
      · exact unitsOfChar_charOfUnit
  | case3 high low units hpair ih =>
      rw [charsOfUnits, if_pos hpair, Paired, if_pos hpair, ← ih, unitsOfChars, List.flatMap_cons]
      rw [Bool.and_eq_true] at hpair
      rw [unitsOfChar_charOfPair hpair.1 hpair.2]
      simp [unitsOfChars]
  | case4 high low units hpair ih =>
      rw [charsOfUnits, if_neg hpair, Paired, if_neg hpair, ← ih, unitsOfChars, List.flatMap_cons]
      constructor
      · intro h
        cases hsurrogate : isSurrogate high with
        | true =>
            obtain ⟨other, hother, hne⟩ := unitsOfChar_charOfUnit_of_isSurrogate hsurrogate
            rw [hother] at h
            exact absurd (List.cons.inj h).1 hne
        | false =>
            rw [unitsOfChar_charOfUnit hsurrogate] at h
            exact ⟨rfl, (List.cons.inj h).2⟩
      · rintro ⟨hsurrogate, h⟩
        rw [unitsOfChar_charOfUnit hsurrogate]
        exact congrArg (high :: ·) h

/-- The units of a character are one that is no surrogate, or a pair. -/
theorem unitsOfChar_cases (char : Char) :
    (∃ unit, unitsOfChar char = [unit] ∧ isSurrogate unit = false ∧ charOfUnit unit = char) ∨
      ∃ high low, unitsOfChar char = [high, low] ∧ isHighSurrogate high = true ∧
        isLowSurrogate low = true ∧ charOfPair high low = char := by
  have hvalid : char.toNat.isValidChar := char.valid
  have hmax : char.toNat < 0x110000 := by
    unfold Nat.isValidChar at hvalid
    omega
  rw [unitsOfChar]
  split_ifs with hsmall
  · have hunit : (UInt16.ofNat char.toNat).toNat = char.toNat := by
      rw [UInt16.toNat_ofNat']
      omega
    have hsurrogate : isSurrogate (UInt16.ofNat char.toNat) = false := by
      unfold Nat.isValidChar at hvalid
      simp only [isSurrogate, isHighSurrogate, isLowSurrogate, hunit, Bool.or_eq_false_iff,
        Bool.and_eq_false_iff, decide_eq_false_iff_not]
      omega
    refine Or.inl ⟨_, rfl, hsurrogate, ?_⟩
    rw [charOfUnit, if_neg (by simp [hsurrogate]), hunit, Char.ofNat_toNat]
  · have hhigh : (UInt16.ofNat (0xD800 + (char.toNat - 0x10000) / 0x400)).toNat =
        0xD800 + (char.toNat - 0x10000) / 0x400 := by
      rw [UInt16.toNat_ofNat']
      omega
    have hlow : (UInt16.ofNat (0xDC00 + (char.toNat - 0x10000) % 0x400)).toNat =
        0xDC00 + (char.toNat - 0x10000) % 0x400 := by
      rw [UInt16.toNat_ofNat']
      omega
    refine Or.inr ⟨_, _, rfl, ?_, ?_, ?_⟩
    · simp only [isHighSurrogate, hhigh, Bool.and_eq_true, decide_eq_true_eq]
      omega
    · simp only [isLowSurrogate, hlow, Bool.and_eq_true, decide_eq_true_eq]
      omega
    · rw [charOfPair, hhigh, hlow, show 0x10000 + (0xD800 + (char.toNat - 0x10000) / 0x400 - 0xD800) *
        0x400 + (0xDC00 + (char.toNat - 0x10000) % 0x400 - 0xDC00) = char.toNat by omega,
        Char.ofNat_toNat]

theorem paired_cons {unit : UInt16} {units : CodeUnits} (hunit : isSurrogate unit = false)
    (hunits : Paired units) : Paired (unit :: units) := by
  cases units with
  | nil => exact hunit
  | cons low units =>
      have hhigh : isHighSurrogate unit = false := (Bool.or_eq_false_iff.mp hunit).1
      rw [Paired, if_neg (by simp [hhigh])]
      exact ⟨hunit, hunits⟩

/-- The units of characters have no lone surrogates. -/
theorem paired_unitsOfChars (chars : List Char) : Paired (unitsOfChars chars) := by
  induction chars with
  | nil => trivial
  | cons char chars ih =>
      rw [unitsOfChars, List.flatMap_cons]
      rcases unitsOfChar_cases char with ⟨unit, hunits, hsurrogate, _⟩ |
        ⟨high, low, hunits, hhigh, hlow, _⟩
      · rw [hunits]
        exact paired_cons hsurrogate ih
      · rw [hunits]
        show Paired (high :: low :: unitsOfChars chars)
        rw [Paired, if_pos (by simp [hhigh, hlow])]
        exact ih

/-! ## UTF-8 -/

/-- The bytes of a string in UTF-8. -/
def utf8 (units : CodeUnits) : List UInt8 := (charsOfUnits units).flatMap String.utf8EncodeChar

/-- The string that bytes in UTF-8 stand for. -/
def utf8Text (bytes : List UInt8) : Option CodeUnits :=
  bytes.toByteArray.utf8Decode?.map fun chars => unitsOfChars chars.toList

theorem utf8Text_utf8 (units : CodeUnits) :
    utf8Text (utf8 units) = some (unitsOfChars (charsOfUnits units)) := by
  have hencode : (utf8 units).toByteArray = (charsOfUnits units).utf8Encode := rfl
  rw [utf8Text, hencode, List.utf8Decode?_utf8Encode]
  rfl

/-- Exactly the strings without lone surrogates can be read back. -/
theorem utf8Text_utf8_eq_self_iff (units : CodeUnits) :
    utf8Text (utf8 units) = some units ↔ Paired units := by
  rw [utf8Text_utf8, Option.some_inj, unitsOfChars_charsOfUnits_iff]

/-- What is read has no lone surrogates. -/
theorem paired_of_utf8Text {bytes : List UInt8} {units : CodeUnits}
    (h : utf8Text bytes = some units) : Paired units := by
  obtain ⟨chars, _, rfl⟩ := Option.map_eq_some_iff.mp h
  exact paired_unitsOfChars chars.toList

end DatabaseJones.Library
