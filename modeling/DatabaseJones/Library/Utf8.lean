import DatabaseJones.Library.Trailing
import DatabaseJones.Library.Utf16

/-!
# UTF-8 of characters

Lists of characters, their code units and their bytes.  Both forms tell the characters, blanks
are blanks in both, and bytes below 128 are ASCII characters of their own.
-/

namespace DatabaseJones.Library

/-- The bytes of characters. -/
def utf8OfChars (chars : List Char) : List UInt8 := chars.flatMap String.utf8EncodeChar

@[simp] theorem utf8OfChars_nil : utf8OfChars [] = [] := rfl

theorem utf8OfChars_cons (char : Char) (chars : List Char) :
    utf8OfChars (char :: chars) = String.utf8EncodeChar char ++ utf8OfChars chars :=
  List.flatMap_cons

theorem utf8OfChars_append (chars others : List Char) :
    utf8OfChars (chars ++ others) = utf8OfChars chars ++ utf8OfChars others :=
  List.flatMap_append

theorem unitsOfChars_cons (char : Char) (chars : List Char) :
    unitsOfChars (char :: chars) = unitsOfChar char ++ unitsOfChars chars := List.flatMap_cons

theorem unitsOfChars_append (chars others : List Char) :
    unitsOfChars (chars ++ others) = unitsOfChars chars ++ unitsOfChars others :=
  List.flatMap_append

/-! ## Units -/

/-- Characters are found again in their units. -/
theorem charsOfUnits_unitsOfChars (chars : List Char) : charsOfUnits (unitsOfChars chars) = chars := by
  induction chars with
  | nil => rfl
  | cons char chars ih =>
      rw [unitsOfChars_cons]
      rcases unitsOfChar_cases char with ⟨unit, hunits, hsurrogate, hchar⟩ |
        ⟨high, low, hunits, hhigh, hlow, hchar⟩
      · rw [hunits, List.singleton_append]
        cases hrest : unitsOfChars chars with
        | nil =>
            rw [hrest] at ih
            rw [charsOfUnits, hchar, ← ih, charsOfUnits]
        | cons low units =>
            have hnot : ¬(isHighSurrogate unit && isLowSurrogate low) = true := by
              rw [(Bool.or_eq_false_iff.mp hsurrogate).1, Bool.false_and]
              exact Bool.false_ne_true
            rw [charsOfUnits, if_neg hnot, hchar, ← hrest, ih]
      · rw [hunits]
        change charsOfUnits (high :: low :: unitsOfChars chars) = _
        rw [charsOfUnits, if_pos (by rw [hhigh, hlow]; rfl), hchar, ih]

theorem unitsOfChars_injective {chars others : List Char}
    (h : unitsOfChars chars = unitsOfChars others) : chars = others := by
  rw [← charsOfUnits_unitsOfChars chars, h, charsOfUnits_unitsOfChars]

/-- A string without lone surrogates is one of characters. -/
theorem exists_chars_of_paired {units : CodeUnits} (h : Paired units) :
    ∃ chars, units = unitsOfChars chars :=
  ⟨charsOfUnits units, ((unitsOfChars_charsOfUnits_iff units).mpr h).symm⟩

/-! ## Bytes -/

theorem length_utf8EncodeChar_pos (char : Char) : 0 < (String.utf8EncodeChar char).length :=
  List.length_pos_iff.mpr String.utf8EncodeChar_ne_nil

theorem utf8OfChars_injective {chars others : List Char} (h : utf8OfChars chars = utf8OfChars others) :
    chars = others := by
  have hdecode : ∀ chars : List Char, (utf8OfChars chars).toByteArray.utf8Decode? =
      some chars.toArray := by
    intro chars
    have hencode : (utf8OfChars chars).toByteArray = chars.utf8Encode := rfl
    rw [hencode, List.utf8Decode?_utf8Encode]
  have hsome := hdecode chars
  rw [h, hdecode others] at hsome
  have hsame : others = chars := by simpa using Option.some.inj hsome
  exact hsame.symm

/-- An ASCII character is one byte. -/
theorem utf8EncodeChar_of_lt {char : Char} (h : char.toNat < 128) :
    String.utf8EncodeChar char = [UInt8.ofNat char.toNat] := by
  unfold String.utf8EncodeChar
  exact if_pos (by have : char.val.toNat = char.toNat := rfl; omega)

/-- The bytes of other characters are not ASCII. -/
theorem le_of_mem_utf8EncodeChar {char : Char} (h : 128 ≤ char.toNat) {byte : UInt8}
    (hbyte : byte ∈ String.utf8EncodeChar char) : 128 ≤ byte.toNat := by
  have hval : char.val.toNat = char.toNat := rfl
  have hlow : ∀ n, 128 ≤ n → n < 256 → 128 ≤ (UInt8.ofNat n).toNat := by
    intro n hge hlt
    rw [UInt8.toNat_ofNat']
    omega
  unfold String.utf8EncodeChar at hbyte
  rw [if_neg (by omega)] at hbyte
  split at hbyte
  · simp only [List.mem_cons, List.not_mem_nil, or_false] at hbyte
    rcases hbyte with rfl | rfl <;> exact hlow _ (by omega) (by omega)
  · split at hbyte
    · simp only [List.mem_cons, List.not_mem_nil, or_false] at hbyte
      rcases hbyte with rfl | rfl | rfl <;> exact hlow _ (by omega) (by omega)
    · simp only [List.mem_cons, List.not_mem_nil, or_false] at hbyte
      rcases hbyte with rfl | rfl | rfl | rfl <;> exact hlow _ (by omega) (by omega)

/-- A character is ASCII if one of its bytes is. -/
theorem utf8EncodeChar_of_mem {char : Char} {byte : UInt8}
    (hbyte : byte ∈ String.utf8EncodeChar char) (hlt : byte.toNat < 128) :
    String.utf8EncodeChar char = [byte] ∧ unitsOfChar char = [UInt16.ofNat byte.toNat] := by
  have hchar : char.toNat < 128 := by
    by_contra hge
    have := le_of_mem_utf8EncodeChar (Nat.le_of_not_lt hge) hbyte
    omega
  rw [utf8EncodeChar_of_lt hchar] at hbyte ⊢
  rw [List.mem_singleton.mp hbyte]
  refine ⟨rfl, ?_⟩
  rw [unitsOfChar, if_pos (by omega), UInt8.toNat_ofNat', Nat.mod_eq_of_lt (by omega)]

/-- Bytes that are all ASCII are the units of their characters. -/
theorem unitsOfChars_of_ascii {chars : List Char} (h : ∀ byte ∈ utf8OfChars chars, byte.toNat < 128) :
    unitsOfChars chars = (utf8OfChars chars).map fun byte => UInt16.ofNat byte.toNat := by
  induction chars with
  | nil => rfl
  | cons char chars ih =>
      rw [utf8OfChars_cons] at h ⊢
      obtain ⟨byte, hbyte⟩ := List.exists_mem_of_length_pos (length_utf8EncodeChar_pos char)
      obtain ⟨hbytes, hunits⟩ := utf8EncodeChar_of_mem hbyte (h byte (List.mem_append_left _ hbyte))
      rw [unitsOfChars_cons, hunits, hbytes, List.map_append, List.map_singleton,
        ih fun other hother => h other (List.mem_append_right _ hother)]

/-- Four bytes are needed for a character that is a pair of units. -/
theorem length_utf8EncodeChar_of_ge {char : Char} (h : 0x10000 ≤ char.toNat) :
    (String.utf8EncodeChar char).length = 4 := by
  have hval : char.val.toNat = char.toNat := rfl
  unfold String.utf8EncodeChar
  rw [if_neg (by omega), if_neg (by omega), if_neg (by omega)]
  rfl

/-! ## Blanks -/

theorem utf8OfChars_blanks (count : ℕ) :
    utf8OfChars (List.replicate count ' ') = List.replicate count 0x20 := by
  induction count with
  | zero => rfl
  | succ count ih =>
      rw [List.replicate_succ, utf8OfChars_cons, ih]
      rfl

theorem unitsOfChars_blanks (count : ℕ) :
    unitsOfChars (List.replicate count ' ') = List.replicate count 0x20 := by
  induction count with
  | zero => rfl
  | succ count ih =>
      rw [List.replicate_succ, unitsOfChars_cons, ih]
      rfl

/-- The bytes end in a blank exactly if the characters do. -/
theorem unpadded_utf8OfChars {chars : List Char} (h : Unpadded ' ' chars) :
    Unpadded 0x20 (utf8OfChars chars) := by
  induction chars using List.reverseRecOn with
  | nil => simp [Unpadded]
  | append_singleton chars char _ =>
      intro hlast
      unfold Unpadded at h
      rw [List.getLast?_concat] at h
      rw [utf8OfChars_append, show utf8OfChars [char] = String.utf8EncodeChar char by
        simp [utf8OfChars], List.getLast?_append_of_ne_nil _ String.utf8EncodeChar_ne_nil] at hlast
      obtain ⟨hbytes, hunits⟩ := utf8EncodeChar_of_mem (List.mem_of_getLast? hlast) (by decide)
      have hblank : unitsOfChars [char] = unitsOfChars [' '] := by
        simp only [unitsOfChars, List.flatMap_singleton, hunits]
        rfl
      exact h (congrArg some (List.cons.inj (unitsOfChars_injective hblank)).1)

theorem unpadded_unitsOfChars {chars : List Char} (h : Unpadded ' ' chars) :
    Unpadded 0x20 (unitsOfChars chars) := by
  induction chars using List.reverseRecOn with
  | nil => simp [Unpadded, unitsOfChars]
  | append_singleton chars char _ =>
      intro hlast
      unfold Unpadded at h
      rw [List.getLast?_concat] at h
      rw [unitsOfChars_append] at hlast
      rcases unitsOfChar_cases char with ⟨unit, hunits, -, -⟩ | ⟨high, low, hunits, -, hlow, -⟩
      · have hone : unitsOfChars [char] = [unit] := by simp [unitsOfChars, hunits]
        rw [hone, List.getLast?_concat] at hlast
        rw [Option.some.inj hlast] at hone
        exact h (congrArg some (List.cons.inj (@unitsOfChars_injective [char] [' '] hone)).1)
      · have htwo : unitsOfChars [char] = [high] ++ [low] := by simp [unitsOfChars, hunits]
        rw [htwo, ← List.append_assoc, List.getLast?_concat] at hlast
        rw [Option.some.inj hlast] at hlow
        exact absurd hlow (by decide)

/-- The blanks at the end of a string of characters. -/
theorem trimEnd_unitsOfChars (chars : List Char) :
    trimEnd 0x20 (unitsOfChars chars) = unitsOfChars (trimEnd ' ' chars) := by
  obtain ⟨count, hcount⟩ := exists_trimEnd_append ' ' chars
  have hchars : unitsOfChars chars = unitsOfChars (trimEnd ' ' chars) ++ List.replicate count 0x20 := by
    rw [← unitsOfChars_blanks, ← unitsOfChars_append, ← hcount]
  exact trimEnd_eq hchars (unpadded_unitsOfChars (unpadded_trimEnd ' ' chars))

theorem trimEnd_utf8OfChars (chars : List Char) :
    trimEnd 0x20 (utf8OfChars chars) = utf8OfChars (trimEnd ' ' chars) := by
  obtain ⟨count, hcount⟩ := exists_trimEnd_append ' ' chars
  have hchars : utf8OfChars chars = utf8OfChars (trimEnd ' ' chars) ++ List.replicate count 0x20 := by
    rw [← utf8OfChars_blanks, ← utf8OfChars_append, ← hcount]
  exact trimEnd_eq hchars (unpadded_utf8OfChars (unpadded_trimEnd ' ' chars))

end DatabaseJones.Library
