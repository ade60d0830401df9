import DatabaseJones.Library.Utf8
import DatabaseJones.Ndb.StringEncoders

/-!
# Writing UTF-8 into a buffer

`WriteUtf8` writes the characters of a string as long as they fit.  A string of characters is
written whole if it fits; otherwise the first character that does not fit is left out, but for its
first surrogate where that alone fits.
-/

namespace DatabaseJones.Ndb

open DatabaseJones.Library

/-! ## Units -/

theorem unitBytes_of_unitsOfChar {char : Char} {unit : UInt16} (h : unitsOfChar char = [unit]) :
    unitBytes unit = String.utf8EncodeChar char := by
  have hval : char.val.toNat = char.toNat := rfl
  unfold unitsOfChar at h
  split at h
  · next hsmall =>
      have hunit : unit.toNat = char.toNat := by
        rw [← (List.cons.inj h).1, UInt16.toNat_ofNat']
        omega
      unfold unitBytes String.utf8EncodeChar
      rw [hunit, hval]
      dsimp only
      by_cases hone : char.toNat < 0x80
      · rw [if_pos hone, if_pos (show char.toNat ≤ 0x7f by omega)]
      · rw [if_neg hone, if_neg (show ¬char.toNat ≤ 0x7f by omega)]
        by_cases htwo : char.toNat < 0x800
        · rw [if_pos htwo, if_pos (show char.toNat ≤ 0x7ff by omega), Nat.add_comm 0xC0,
            Nat.add_comm 0x80, Nat.mod_eq_of_lt (show char.toNat / 64 < 0x20 by omega)]
        · rw [if_neg htwo, if_neg (show ¬char.toNat ≤ 0x7ff by omega),
            if_pos (show char.toNat ≤ 0xffff by omega), Nat.add_comm 0xE0, Nat.add_comm 0x80,
            Nat.add_comm 0x80, Nat.mod_eq_of_lt (show char.toNat / 4096 < 0x10 by omega)]
  · cases h

/-- The three bytes of a surrogate. -/
theorem length_unitBytes_of_isSurrogate {unit : UInt16} (h : isSurrogate unit = true) :
    (unitBytes unit).length = 3 ∧ ∀ byte ∈ unitBytes unit, 128 ≤ byte.toNat := by
  have hrange : 0xD800 ≤ unit.toNat ∧ unit.toNat < 0xE000 := by
    unfold isSurrogate isHighSurrogate isLowSurrogate at h
    simp only [Bool.or_eq_true, Bool.and_eq_true, decide_eq_true_eq] at h
    omega
  unfold unitBytes
  rw [if_neg (by omega), if_neg (by omega)]
  refine ⟨rfl, ?_⟩
  intro byte hbyte
  simp only [List.mem_cons, List.not_mem_nil, or_false] at hbyte
  rcases hbyte with rfl | rfl | rfl <;> rw [UInt8.toNat_ofNat'] <;> omega

theorem length_unitBytes_pos (unit : UInt16) : 0 < (unitBytes unit).length := by
  unfold unitBytes
  split
  · simp
  · split <;> simp

/-- One byte is enough for ASCII only. -/
theorem length_unitBytes_eq_one_iff (unit : UInt16) :
    (unitBytes unit).length = 1 ↔ unit.toNat < 128 := by
  unfold unitBytes
  split
  · next h => exact iff_of_true rfl h
  · next h =>
      refine iff_of_false ?_ (by omega)
      split <;> simp

theorem utf8Bytes_cons {unit : UInt16} (h : isSurrogate unit = false) (units : CodeUnits) :
    utf8Bytes (unit :: units) = unitBytes unit ++ utf8Bytes units := by
  cases units with
  | nil => simp [utf8Bytes]
  | cons low units =>
      have hhigh : isHighSurrogate unit = false := (Bool.or_eq_false_iff.mp h).1
      rw [utf8Bytes, if_neg (by simp [hhigh])]

/-- The bytes of a string of characters. -/
theorem utf8Bytes_unitsOfChars (chars : List Char) :
    utf8Bytes (unitsOfChars chars) = utf8OfChars chars := by
  induction chars with
  | nil => rfl
  | cons char chars ih =>
      rw [unitsOfChars_cons, utf8OfChars_cons]
      rcases unitsOfChar_cases char with ⟨unit, hunits, hsurrogate, -⟩ |
        ⟨high, low, hunits, hhigh, hlow, hchar⟩
      · rw [← unitBytes_of_unitsOfChar hunits, hunits, List.singleton_append,
          utf8Bytes_cons hsurrogate, ih]
      · rw [hunits]
        change utf8Bytes (high :: low :: unitsOfChars chars) = _
        rw [utf8Bytes, if_pos (by rw [hhigh, hlow]; rfl), hchar, ih]

/-- As many bytes as units mean that all units are ASCII. -/
theorem utf8Length_eq_length_iff (strval : CodeUnits) :
    utf8Length strval = strval.length ↔ ∀ unit ∈ strval, unit.toNat < 128 := by
  have hspec : strval.length ≤ utf8Length strval ∧
      (utf8Length strval = strval.length ↔ ∀ unit ∈ strval, unit.toNat < 128) := by
    unfold utf8Length
    induction strval using utf8Bytes.induct with
    | case1 => simp [utf8Bytes]
    | case2 unit =>
        rw [utf8Bytes]
        have hpos := length_unitBytes_pos unit
        have hone := length_unitBytes_eq_one_iff unit
        simp only [List.length_singleton, List.mem_singleton, forall_eq]
        exact ⟨by omega, hone⟩
    | case3 high low units hpair ih =>
        rw [utf8Bytes, if_pos hpair, List.length_append]
        have hhigh : 0xD800 ≤ high.toNat := by
          rw [Bool.and_eq_true] at hpair
          have := hpair.1
          unfold isHighSurrogate at this
          simp only [Bool.and_eq_true, decide_eq_true_eq] at this
          omega
        have hlow : 0xDC00 ≤ low.toNat := by
          rw [Bool.and_eq_true] at hpair
          have := hpair.2
          unfold isLowSurrogate at this
          simp only [Bool.and_eq_true, decide_eq_true_eq] at this
          omega
        have hlength : (String.utf8EncodeChar (charOfPair high low)).length = 4 := by
          rw [Bool.and_eq_true] at hpair
          refine length_utf8EncodeChar_of_ge ?_
          obtain ⟨char, hchar⟩ : ∃ char, charOfPair high low = char := ⟨_, rfl⟩
          have hunits := unitsOfChar_charOfPair hpair.1 hpair.2
          by_contra hsmall
          rw [unitsOfChar, if_pos (by omega)] at hunits
          simp at hunits
        simp only [List.length_cons, List.mem_cons, forall_eq_or_imp]
        refine ⟨by omega, iff_of_false (by omega) fun h => ?_⟩
        have := h.1
        omega
    | case4 high low units hpair ih =>
        rw [utf8Bytes, if_neg hpair, List.length_append]
        have hpos := length_unitBytes_pos high
        have hone := length_unitBytes_eq_one_iff high
        rw [List.length_cons, List.forall_mem_cons, ← ih.2, ← hone]
        exact ⟨by omega, by omega⟩
  exact hspec.2

/-! ## Writing -/

theorem writeUtf8Chars_cons {unit : UInt16} (h : isSurrogate unit = false) (capacity : ℕ)
    (units : CodeUnits) : writeUtf8Chars capacity (unit :: units) =
      if (unitBytes unit).length ≤ capacity then
        unitBytes unit ++ writeUtf8Chars (capacity - (unitBytes unit).length) units
      else [] := by
  cases units with
  | nil => simp [writeUtf8Chars]
  | cons low units =>
      have hhigh : isHighSurrogate unit = false := (Bool.or_eq_false_iff.mp h).1
      rw [writeUtf8Chars, if_neg (by simp [hhigh])]

/-- A character that fits is written. -/
theorem writeUtf8Chars_char {char : Char} {capacity : ℕ}
    (h : (String.utf8EncodeChar char).length ≤ capacity) (units : CodeUnits) :
    writeUtf8Chars capacity (unitsOfChar char ++ units) = String.utf8EncodeChar char ++
      writeUtf8Chars (capacity - (String.utf8EncodeChar char).length) units := by
  rcases unitsOfChar_cases char with ⟨unit, hunits, hsurrogate, -⟩ |
    ⟨high, low, hunits, hhigh, hlow, hchar⟩
  · rw [← unitBytes_of_unitsOfChar hunits] at h ⊢
    rw [hunits, List.singleton_append, writeUtf8Chars_cons hsurrogate, if_pos h]
  · rw [hunits]
    change writeUtf8Chars capacity (high :: low :: units) = _
    rw [writeUtf8Chars, if_pos (by rw [hhigh, hlow]; rfl)]
    dsimp only
    rw [hchar, if_pos h]

/-- Characters that fit are written. -/
theorem writeUtf8Chars_append {chars : List Char} {capacity : ℕ}
    (h : (utf8OfChars chars).length ≤ capacity) (units : CodeUnits) :
    writeUtf8Chars capacity (unitsOfChars chars ++ units) = utf8OfChars chars ++
      writeUtf8Chars (capacity - (utf8OfChars chars).length) units := by
  induction chars generalizing capacity with
  | nil => rfl
  | cons char chars ih =>
      rw [utf8OfChars_cons, List.length_append] at h
      rw [unitsOfChars_cons, utf8OfChars_cons, List.append_assoc, writeUtf8Chars_char (by omega),
        ih (by omega), List.append_assoc, List.length_append, Nat.sub_sub]

theorem writeUtf8Chars_nil (capacity : ℕ) : writeUtf8Chars capacity [] = [] := rfl

/-- A string of characters that fits is written whole. -/
theorem writeUtf8Chars_of_le {chars : List Char} {capacity : ℕ}
    (h : (utf8OfChars chars).length ≤ capacity) :
    writeUtf8Chars capacity (unitsOfChars chars) = utf8OfChars chars := by
  have happend := writeUtf8Chars_append h []
  rwa [List.append_nil, writeUtf8Chars_nil, List.append_nil] at happend

theorem writeUtf8Chars_blanks (count : ℕ) : ∀ capacity : ℕ,
    writeUtf8Chars capacity (List.replicate count 0x20) =
      List.replicate (min count capacity) 0x20 := by
  induction count with
  | zero => simp [writeUtf8Chars]
  | succ count ih =>
      intro capacity
      have hbytes : unitBytes 0x20 = [0x20] := rfl
      rw [List.replicate_succ, writeUtf8Chars_cons (by rfl), hbytes, List.length_singleton, ih]
      cases capacity with
      | zero => simp
      | succ capacity =>
          rw [if_pos (by omega), Nat.add_sub_cancel, Nat.succ_min_succ, List.replicate_succ]
          rfl

/-- What is written of a string that does not fit: whole characters, and possibly the first
surrogate of the next one. -/
theorem exists_writeUtf8Chars (chars : List Char) : ∀ {capacity : ℕ},
    capacity < (utf8OfChars chars).length →
      ∃ kept char rest tail, chars = kept ++ char :: rest ∧
        writeUtf8Chars capacity (unitsOfChars chars) = utf8OfChars kept ++ tail ∧
        (tail = [] ∨ ∃ high, isHighSurrogate high = true ∧ tail = unitBytes high ∧
          0x10000 ≤ char.toNat) := by
  induction chars with
  | nil => exact fun h => absurd h (Nat.not_lt_zero _)
  | cons char chars ih =>
      intro capacity h
      by_cases hfits : (String.utf8EncodeChar char).length ≤ capacity
      · rw [utf8OfChars_cons, List.length_append] at h
        obtain ⟨kept, next, rest, tail, rfl, hwritten, htail⟩ := ih (show
          capacity - (String.utf8EncodeChar char).length < (utf8OfChars chars).length by omega)
        refine ⟨char :: kept, next, rest, tail, rfl, ?_, htail⟩
        rw [unitsOfChars_cons, writeUtf8Chars_char hfits, hwritten, utf8OfChars_cons,
          List.append_assoc]
      · rcases unitsOfChar_cases char with ⟨unit, hunits, hsurrogate, -⟩ |
          ⟨high, low, hunits, hhigh, hlow, hchar⟩
        · refine ⟨[], char, chars, [], rfl, ?_, .inl rfl⟩
          rw [← unitBytes_of_unitsOfChar hunits] at hfits
          rw [unitsOfChars_cons, hunits, List.singleton_append, writeUtf8Chars_cons hsurrogate,
            if_neg hfits]
          rfl
        · have hlarge : 0x10000 ≤ char.toNat := by
            by_contra hsmall
            rw [unitsOfChar, if_pos (by omega)] at hunits
            cases hunits
          have hwritten : writeUtf8Chars capacity (unitsOfChars (char :: chars)) =
              if (unitBytes high).length ≤ capacity then unitBytes high else [] := by
            rw [unitsOfChars_cons, hunits]
            change writeUtf8Chars capacity (high :: low :: unitsOfChars chars) = _
            rw [writeUtf8Chars, if_pos (by rw [hhigh, hlow]; rfl)]
            dsimp only
            rw [hchar, if_neg hfits]
          rw [hwritten]
          split
          · exact ⟨[], char, chars, unitBytes high, rfl, rfl, .inr ⟨high, hhigh, rfl, hlarge⟩⟩
          · exact ⟨[], char, chars, [], rfl, rfl, .inl rfl⟩

end DatabaseJones.Ndb

/-!
## Recoding between UTF-8 and the character set of a column

A character set as the bytes that it has for characters, and what the adapter relies on in the
conversions: `recode` converts one character after the other until one cannot be converted or does
not fit, and `NewFromUtf8` puts replacement characters where bytes are no characters.
-/

namespace DatabaseJones.Ndb

open DatabaseJones.Library

/-- A character set: the bytes of the characters that it has. -/
structure Charset where
  encodeChar : Char → Option (List UInt8)

namespace Charset

variable (charset : Charset)

/-- The bytes of a string, if the character set has all of its characters. -/
def encode : List Char → Option (List UInt8)
  | [] => some []
  | char :: chars => do
      let bytes ← charset.encodeChar char
      let others ← encode chars
      pure (bytes ++ others)

/-- The bytes of the longest beginning of a string that has bytes and fits. -/
def encodeFitting : ℕ → List Char → List UInt8
  | _, [] => []
  | capacity, char :: chars =>
      match charset.encodeChar char with
      | some bytes =>
          if bytes.length ≤ capacity then bytes ++ encodeFitting (capacity - bytes.length) chars
          else []
      | none => []

/-- The sizes of characters are multiples of the smallest, and a blank has the smallest size. -/
structure Lawful (csinfo : EncoderCharset) : Prop where
  dvd : ∀ char bytes, charset.encodeChar char = some bytes → csinfo.minlen ∣ bytes.length
  blank : ∃ bytes, charset.encodeChar ' ' = some bytes ∧ bytes.length = csinfo.minlen ∧
    (csinfo.minlen = 1 → bytes = [Ndb.blank])

variable {charset}

theorem encode_cons_eq_some {char : Char} {chars : List Char} {bytes : List UInt8} :
    charset.encode (char :: chars) = some bytes ↔ ∃ first others,
      charset.encodeChar char = some first ∧ charset.encode chars = some others ∧
        bytes = first ++ others := by
  rw [encode]
  constructor
  · intro h
    obtain ⟨first, hfirst, h⟩ := Option.bind_eq_some_iff.mp h
    obtain ⟨others, hothers, h⟩ := Option.bind_eq_some_iff.mp h
    exact ⟨first, others, hfirst, hothers, (Option.some.inj h).symm⟩
  · rintro ⟨first, others, hfirst, hothers, rfl⟩
    rw [hfirst, hothers]
    rfl

theorem encode_append_eq_some {chars others : List Char} {bytes : List UInt8} :
    charset.encode (chars ++ others) = some bytes ↔ ∃ first second,
      charset.encode chars = some first ∧ charset.encode others = some second ∧
        bytes = first ++ second := by
  induction chars generalizing bytes with
  | nil => simp [encode]
  | cons char chars ih =>
      rw [List.cons_append, encode_cons_eq_some]
      constructor
      · rintro ⟨first, rest, hfirst, hrest, rfl⟩
        obtain ⟨second, third, hsecond, hthird, rfl⟩ := ih.mp hrest
        exact ⟨first ++ second, third, encode_cons_eq_some.mpr ⟨first, second, hfirst, hsecond, rfl⟩,
          hthird, (List.append_assoc _ _ _).symm⟩
      · rintro ⟨first, third, hfirst, hthird, rfl⟩
        obtain ⟨head, second, hhead, hsecond, rfl⟩ := encode_cons_eq_some.mp hfirst
        exact ⟨head, second ++ third, hhead, ih.mpr ⟨second, third, hsecond, hthird, rfl⟩,
          List.append_assoc _ _ _⟩

/-- What is written is the form of a beginning of the string. -/
theorem exists_encodeFitting (chars : List Char) : ∀ capacity : ℕ, ∃ kept, kept <+: chars ∧
    charset.encode kept = some (charset.encodeFitting capacity chars) ∧
      (charset.encodeFitting capacity chars).length ≤ capacity := by
  induction chars with
  | nil => exact fun capacity => ⟨[], List.prefix_refl _, rfl, Nat.zero_le _⟩
  | cons char chars ih =>
      intro capacity
      rw [encodeFitting]
      cases hchar : charset.encodeChar char with
      | none => exact ⟨[], List.nil_prefix, rfl, Nat.zero_le _⟩
      | some bytes =>
          dsimp only
          split
          · next hfits =>
              obtain ⟨kept, hkept, hencode, hlength⟩ := ih (capacity - bytes.length)
              refine ⟨char :: kept, (List.prefix_cons_inj char).mpr hkept,
                encode_cons_eq_some.mpr ⟨bytes, _, hchar, hencode, rfl⟩, ?_⟩
              rw [List.length_append]
              omega
          · exact ⟨[], List.nil_prefix, rfl, Nat.zero_le _⟩

/-- A beginning that fits is written. -/
theorem encodeFitting_append {chars : List Char} {bytes : List UInt8}
    (h : charset.encode chars = some bytes) {capacity : ℕ} (hfits : bytes.length ≤ capacity)
    (others : List Char) : charset.encodeFitting capacity (chars ++ others) =
      bytes ++ charset.encodeFitting (capacity - bytes.length) others := by
  induction chars generalizing bytes capacity with
  | nil =>
      cases Option.some.inj h
      rfl
  | cons char chars ih =>
      obtain ⟨first, rest, hfirst, hrest, rfl⟩ := encode_cons_eq_some.mp h
      rw [List.length_append] at hfits
      rw [List.cons_append, encodeFitting, hfirst]
      dsimp only
      rw [if_pos (by omega), ih hrest (by omega), List.append_assoc, List.length_append, Nat.sub_sub]

theorem encodeFitting_nil (capacity : ℕ) : charset.encodeFitting capacity [] = [] := by
  cases capacity <;> rfl

theorem encodeFitting_of_le {chars : List Char} {bytes : List UInt8}
    (h : charset.encode chars = some bytes) {capacity : ℕ} (hfits : bytes.length ≤ capacity) :
    charset.encodeFitting capacity chars = bytes := by
  have happend := encodeFitting_append h hfits []
  rwa [List.append_nil, encodeFitting_nil, List.append_nil] at happend

theorem encode_replicate {char : Char} {bytes : List UInt8}
    (h : charset.encodeChar char = some bytes) (count : ℕ) :
    charset.encode (List.replicate count char) = some (List.replicate count bytes).flatten := by
  induction count with
  | zero => rfl
  | succ count ih =>
      rw [List.replicate_succ, List.replicate_succ, List.flatten_cons]
      exact encode_cons_eq_some.mpr ⟨bytes, _, h, ih, rfl⟩

/-- Of equal characters, as many are written as fit. -/
theorem encodeFitting_replicate {char : Char} {bytes : List UInt8}
    (h : charset.encodeChar char = some bytes) (hpos : 0 < bytes.length) (count capacity : ℕ) :
    charset.encodeFitting capacity (List.replicate count char) =
      (List.replicate (min count (capacity / bytes.length)) bytes).flatten := by
  have hlength : (List.replicate (min count (capacity / bytes.length)) bytes).flatten.length ≤
      capacity := by
    rw [List.length_flatten, List.map_replicate, List.sum_replicate, smul_eq_mul]
    calc min count (capacity / bytes.length) * bytes.length
        ≤ capacity / bytes.length * bytes.length := by gcongr; exact min_le_right _ _
      _ ≤ capacity := Nat.div_mul_le_self _ _
  have hsplit : List.replicate count char =
      List.replicate (min count (capacity / bytes.length)) char ++
        List.replicate (count - min count (capacity / bytes.length)) char := by
    rw [← List.replicate_add, Nat.add_sub_cancel' (min_le_left _ _)]
  rw [hsplit, encodeFitting_append (encode_replicate h _) hlength]
  by_cases hle : count ≤ capacity / bytes.length
  · rw [Nat.min_eq_left hle, Nat.sub_self, List.replicate_zero, encodeFitting_nil, List.append_nil]
  · have hright : min count (capacity / bytes.length) = capacity / bytes.length :=
      Nat.min_eq_right (by omega)
    have hnone : charset.encodeFitting
        (capacity - (List.replicate (capacity / bytes.length) bytes).flatten.length)
        (List.replicate (count - capacity / bytes.length) char) = [] := by
      obtain ⟨rest, hrest⟩ : ∃ rest, count - capacity / bytes.length = rest + 1 :=
        ⟨count - capacity / bytes.length - 1, by omega⟩
      have hmod := Nat.mod_lt capacity hpos
      have hdiv := Nat.div_add_mod' capacity bytes.length
      rw [hrest, List.replicate_succ, encodeFitting, h]
      dsimp only
      rw [List.length_flatten, List.map_replicate, List.sum_replicate, smul_eq_mul, if_neg (by omega)]
    rw [hright, hnone, List.append_nil]

end Charset

/-- What is relied on in the conversions. -/
structure Conversions.Lawful (conversions : Conversions) (charset : Charset) : Prop where
  newFromUtf8_chars : ∀ chars, conversions.newFromUtf8 (utf8OfChars chars) = unitsOfChars chars
  /-- Bytes that are no characters become replacement characters. -/
  newFromUtf8_paired : ∀ bytes, Paired (conversions.newFromUtf8 bytes)
  /-- The conversion ends at bytes that are no character. -/
  toColumn_chars : ∀ chars tail capacity,
    (tail = [] ∨ ∃ unit, isSurrogate unit = true ∧ tail = unitBytes unit) →
      conversions.toColumn (utf8OfChars chars ++ tail) capacity =
        charset.encodeFitting capacity chars
  exists_fromColumn : ∀ bytes capacity, ∃ chars,
    conversions.fromColumn bytes capacity = utf8OfChars chars ∧
      (utf8OfChars chars).length ≤ capacity
  fromColumn_chars : ∀ chars bytes rest capacity, charset.encode chars = some bytes →
    (utf8OfChars chars).length ≤ capacity → ∃ more,
      conversions.fromColumn (bytes ++ rest) capacity = utf8OfChars chars ++ more ∧
        (rest = [] → more = [])

end DatabaseJones.Ndb
