import DatabaseJones.Ndb.StringEncoders
import DatabaseJones.Ndb.Recoding

/-!
# Strings in VARCHAR columns

A string is stored whole if whatever the writer accepts is read back, and what does not fit is
rejected.  The writer of a VARCHAR rejects a string by the number of its code units only.
-/

namespace DatabaseJones.Ndb

open DatabaseJones.Library

/-! ## What is stored -/

/-- `Length() == Utf8Length()`. -/
def isAsciiText (strval : CodeUnits) : Bool := utf8Length strval = strval.length

/-- The form of a string in the character set of a column. -/
def encodedString (charset : Charset) (csinfo : EncoderCharset) (strval : CodeUnits) :
    Option (List UInt8) :=
  if csinfo.isUtf8 then some (utf8Bytes strval)
  else if csinfo.isUtf16le then some (strval.flatMap fun unit => littleEndian 2 unit.toNat)
  else if csinfo.isAscii || !csinfo.isMultibyte && isAsciiText strval then
    some (strval.map fun unit => UInt8.ofNat unit.toNat)
  else charset.encode (charsOfUnits strval)

/-- The same string; of a CHAR the blanks at the end do not matter. -/
def CharType.Same (type : CharType) (read : Option CodeUnits) (strval : CodeUnits) : Prop :=
  match type with
  | .char => ∃ string ∈ read, trimEnd 0x20 string = trimEnd 0x20 strval
  | _ => read = some strval

namespace CharColumn

/-- The sizes of a column are those of its character set and of its length prefix. -/
structure WellFormed (col : CharColumn) : Prop where
  minlen_pos : 0 < col.csinfo.minlen
  dvd_length : col.csinfo.minlen ∣ col.length
  utf16le : col.csinfo.isUtf16le = true → col.csinfo.isMultibyte = true
  length_lt : col.type ≠ .char → col.length < 256 ^ col.type.prefixSize

def Fits (charset : Charset) (col : CharColumn) (strval : CodeUnits) : Prop :=
  ∃ bytes ∈ encodedString charset col.csinfo strval, bytes.length ≤ col.length

/-- Wherever the string is written: if the writer returns OK, it is read back, and if the string
does not fit, the writer returns an error. -/
def StoresWhole (conversions : Conversions) (charset : Charset) (col : CharColumn)
    (strval : CodeUnits) : Prop :=
  ∀ buffer offset,
    let result := col.write conversions strval buffer offset
    (result.1 = .writerOK → col.type.Same (col.read conversions result.2 offset) strval) ∧
      (¬col.Fits charset strval → result.1 ≠ .writerOK)

/-- The form of a string is told apart from other text and can be recoded, in a buffer of the
given size, to UTF-8. -/
def Recovers (charset : Charset) (col : CharColumn) (bufferSize : ℕ) (strval : CodeUnits) : Prop :=
  if col.csinfo.isUtf8 then Paired strval
  else if col.csinfo.isUtf16le then True
  else if col.csinfo.isAscii then ∀ unit ∈ strval, unit.toNat < 256
  else if !col.csinfo.isMultibyte && isAsciiText strval then True
  else
    Paired strval ∧ utf8Length strval ≤ bufferSize ∧
      (col.csinfo.isMultibyte = true ∨
        ∃ bytes ∈ charset.encode (charsOfUnits strval), stringIsAscii bytes = false)

/-- The size of the buffer that the form of a string is recoded to. -/
def recodeBufferSize (charset : Charset) (col : CharColumn) (strval : CodeUnits) : ℕ :=
  getUtf8BufferSizeForColumn ((encodedString charset col.csinfo strval).elim 0 List.length) col.csinfo

/-- The strings that are stored whole or rejected. -/
def Keeps (charset : Charset) (col : CharColumn) (strval : CodeUnits) : Prop :=
  match col.type with
  | .char =>
      col.Fits charset strval ∧ (∃ unit ∈ strval, unit ≠ 0x20) ∧
        col.Recovers charset (getUtf8BufferSizeForColumn col.length col.csinfo)
          (trimEnd 0x20 strval)
  | _ =>
      col.length < strval.length ∨
        col.Fits charset strval ∧
          col.Recovers charset (col.recodeBufferSize charset strval) strval

end CharColumn

/-! ## Character sets -/

theorem utf8_exclusive {csinfo : EncoderCharset} (h : csinfo.isUtf8 = true) :
    csinfo.isUtf16le = false ∧ csinfo.isAscii = false := by
  unfold EncoderCharset.isUtf8 at h
  obtain ⟨rest, hname⟩ := List.isPrefixOf_iff_prefix.mp h
  unfold EncoderCharset.isUtf16le EncoderCharset.isAscii
  rw [← hname]
  exact ⟨rfl, rfl⟩

theorem utf16le_exclusive {csinfo : EncoderCharset} (h : csinfo.isUtf16le = true) :
    csinfo.isUtf8 = false ∧ csinfo.isAscii = false := by
  unfold EncoderCharset.isUtf16le at h
  obtain ⟨rest, hname⟩ := List.isPrefixOf_iff_prefix.mp h
  unfold EncoderCharset.isUtf8 EncoderCharset.isAscii
  rw [← hname]
  exact ⟨rfl, rfl⟩

/-! ## Bytes of a column -/

/-- 16-bit characters in bytes. -/
def unitsOfBytes : List UInt8 → CodeUnits
  | low :: high :: bytes => UInt16.ofNat (fromLittleEndian [low, high]) :: unitsOfBytes bytes
  | _ => []

theorem unitsOfBytes_flatMap (units : CodeUnits) :
    unitsOfBytes (units.flatMap fun unit => littleEndian 2 unit.toNat) = units := by
  induction units with
  | nil => rfl
  | cons unit units ih =>
      have hunit := fromLittleEndian_littleEndian 2 unit.toNat
      rw [Nat.mod_eq_of_lt (show unit.toNat < 256 ^ 2 from unit.toNat_lt)] at hunit
      obtain ⟨low, high, hbytes⟩ := List.length_eq_two.mp (length_littleEndian 2 unit.toNat)
      rw [List.flatMap_cons, hbytes]
      change UInt16.ofNat (fromLittleEndian [low, high]) ::
        unitsOfBytes (units.flatMap fun unit => littleEndian 2 unit.toNat) = unit :: units
      rw [← hbytes, hunit, ih, UInt16.ofNat_toNat]

/-- The 16-bit characters from an address on. -/
theorem map_unitAt (memory : Memory) (count : ℕ) : ∀ address size, size / 2 = count →
    (List.range count).map (fun i => unitAt memory (address + 2 * i)) =
      unitsOfBytes (readBytes memory address size) := by
  induction count with
  | zero =>
      intro address size hsize
      have hsmall : size = 0 ∨ size = 1 := by omega
      rcases hsmall with rfl | rfl <;> rfl
  | succ count ih =>
      intro address size hsize
      obtain ⟨rest, rfl⟩ : ∃ rest, size = rest + 1 + 1 := ⟨size - 2, by omega⟩
      have hread : readBytes memory address (rest + 1 + 1) =
          memory address :: memory (address + 1) :: readBytes memory (address + 2) rest := by
        unfold readBytes
        rw [List.range_succ_eq_map, List.map_cons, List.range_succ_eq_map, List.map_cons,
          List.map_cons, List.map_map, List.map_map]
        simp only [Nat.add_zero, List.cons.injEq, true_and]
        refine List.map_congr_left fun i _ => ?_
        rw [Function.comp_apply, Function.comp_apply]
        congr 1
        omega
      have hshift : (fun i => unitAt memory (address + 2 * i)) ∘ Nat.succ =
          fun i => unitAt memory (address + 2 + 2 * i) := by
        funext i
        rw [Function.comp_apply]
        congr 1
        omega
      rw [hread, List.range_succ_eq_map, List.map_cons, List.map_map, hshift, unitsOfBytes,
        ih (address + 2) rest (by omega)]
      rfl

/-- The string that a reader makes of bytes without padding. -/
def stringOfBytes (conversions : Conversions) (csinfo : EncoderCharset) (bytes : List UInt8) :
    CodeUnits :=
  match readerPath csinfo bytes with
  | .externalAscii => oneByteString bytes
  | .externalUnicode => unitsOfBytes bytes
  | .fromUtf8 => conversions.newFromUtf8 bytes
  | .recode =>
      conversions.newFromUtf8
        (conversions.fromColumn bytes (getUtf8BufferSizeForColumn bytes.length csinfo))

theorem varcharReader_eq (size : ℕ) (conversions : Conversions) (col : CharColumn) (buffer : Memory)
    (offset : ℕ) : varcharReader size conversions col buffer offset =
      stringOfBytes conversions col.csinfo
        (readBytes buffer (offset + size) (fromLittleEndian (readBytes buffer offset size))) := by
  unfold varcharReader stringOfBytes
  dsimp only
  cases readerPath col.csinfo
    (readBytes buffer (offset + size) (fromLittleEndian (readBytes buffer offset size))) with
  | externalAscii => rfl
  | externalUnicode => exact map_unitAt buffer _ (offset + size) _ rfl
  | fromUtf8 => rfl
  | recode => rw [length_readBytes]

/-- What was written with its length is read. -/
theorem varcharReader_varcharWriter {conversions : Conversions} {col : CharColumn}
    {strval : CodeUnits} {bytes : List UInt8} {size : ℕ}
    (hwritten : charsetWriter conversions col strval false = (bytes, bytes.length))
    (hlt : bytes.length < 256 ^ size) (buffer : Memory) (offset : ℕ) :
    varcharReader size conversions col (varcharWriter size conversions col strval buffer offset).2
      offset = stringOfBytes conversions col.csinfo bytes := by
  let stored := writeBytes (writeBytes buffer (offset + size) bytes) offset
    (littleEndian size bytes.length)
  have hstored : (varcharWriter size conversions col strval buffer offset).2 = stored := by
    unfold varcharWriter
    rw [hwritten]
    dsimp only
    rw [Nat.mod_eq_of_lt hlt]
  have hlength : readBytes stored offset size = littleEndian size bytes.length := by
    have hself := readBytes_writeBytes_self (writeBytes buffer (offset + size) bytes) offset
      (littleEndian size bytes.length)
    rwa [length_littleEndian] at hself
  have hbytes : readBytes stored (offset + size) bytes.length = bytes := by
    have hother := @readBytes_writeBytes (writeBytes buffer (offset + size) bytes) offset
      (offset + size) bytes.length (littleEndian size bytes.length)
      (.inr (by rw [length_littleEndian]))
    rw [hother, readBytes_writeBytes_self]
  rw [hstored, varcharReader_eq, hlength, fromLittleEndian_littleEndian, Nat.mod_eq_of_lt hlt, hbytes]

/-! ## What a reader makes of bytes -/

theorem paired_oneByteString (bytes : List UInt8) : Paired (oneByteString bytes) := by
  induction bytes with
  | nil => trivial
  | cons byte bytes ih =>
      refine paired_cons ?_ ih
      have hlt := byte.toNat_lt
      have hunit : (UInt16.ofNat byte.toNat).toNat = byte.toNat := by
        rw [UInt16.toNat_ofNat']
        omega
      unfold isSurrogate isHighSurrogate isLowSurrogate
      rw [hunit]
      simp only [Bool.or_eq_false_iff, Bool.and_eq_false_iff, decide_eq_false_iff_not]
      omega

/-- A surrogate without its partner is read from 16-bit text only. -/
theorem paired_stringOfBytes {conversions : Conversions} {charset : Charset}
    (hconv : conversions.Lawful charset) {csinfo : EncoderCharset} (h : csinfo.isUtf16le = false)
    (bytes : List UInt8) : Paired (stringOfBytes conversions csinfo bytes) := by
  unfold stringOfBytes
  cases hpath : readerPath csinfo bytes with
  | externalAscii => exact paired_oneByteString bytes
  | externalUnicode =>
      unfold readerPath at hpath
      rw [h] at hpath
      split_ifs at hpath with hascii hnever
      exact hnever.elim
  | fromUtf8 => exact hconv.newFromUtf8_paired _
  | recode => exact hconv.newFromUtf8_paired _

theorem stringIsAscii_iff (bytes : List UInt8) :
    stringIsAscii bytes = true ↔ ∀ byte ∈ bytes, byte.toNat < 128 := by
  unfold stringIsAscii
  rw [List.all_eq_true]
  exact forall₂_congr fun byte _ => by rw [decide_eq_true_eq]; exact Iff.rfl

theorem isAsciiText_iff (strval : CodeUnits) :
    isAsciiText strval = true ↔ ∀ unit ∈ strval, unit.toNat < 128 := by
  unfold isAsciiText
  rw [decide_eq_true_eq, utf8Length_eq_length_iff]

/-- Characters in UTF-8 are read as they are. -/
theorem stringOfBytes_utf8OfChars {conversions : Conversions} {charset : Charset}
    (hconv : conversions.Lawful charset) {csinfo : EncoderCharset} (hutf8 : csinfo.isUtf8 = true)
    (chars : List Char) :
    stringOfBytes conversions csinfo (utf8OfChars chars) = unitsOfChars chars := by
  obtain ⟨hutf16le, hascii⟩ := utf8_exclusive hutf8
  unfold stringOfBytes readerPath
  rw [hutf16le, hascii, hutf8, Bool.false_or]
  by_cases htext : stringIsAscii (utf8OfChars chars) = true
  · cases csinfo.isMultibyte with
    | true => exact hconv.newFromUtf8_chars chars
    | false =>
        rw [htext]
        exact (unitsOfChars_of_ascii ((stringIsAscii_iff _).mp htext)).symm
  · rw [Bool.not_eq_true] at htext
    rw [htext, Bool.and_false]
    exact hconv.newFromUtf8_chars chars

/-- 16-bit text is read as it is. -/
theorem stringOfBytes_utf16le {csinfo : EncoderCharset} (conversions : Conversions)
    (hutf16le : csinfo.isUtf16le = true) (hmultibyte : csinfo.isMultibyte = true)
    (bytes : List UInt8) : stringOfBytes conversions csinfo bytes = unitsOfBytes bytes := by
  unfold stringOfBytes readerPath
  rw [hutf16le, hmultibyte, (utf16le_exclusive hutf16le).2]
  rfl

/-- A byte for each unit. -/
theorem oneByteString_map_iff (strval : CodeUnits) :
    oneByteString (strval.map fun unit => UInt8.ofNat unit.toNat) = strval ↔
      ∀ unit ∈ strval, unit.toNat < 256 := by
  induction strval with
  | nil => exact iff_of_true rfl (List.forall_mem_nil _)
  | cons unit units ih =>
      have hunit : UInt16.ofNat (UInt8.ofNat unit.toNat).toNat = unit ↔ unit.toNat < 256 := by
        rw [← UInt16.toNat_inj, UInt16.toNat_ofNat', UInt8.toNat_ofNat']
        omega
      rw [List.forall_mem_cons, ← hunit, ← ih]
      exact List.cons.injEq .. ▸ Iff.rfl

theorem stringOfBytes_oneByte {csinfo : EncoderCharset} (conversions : Conversions)
    {bytes : List UInt8}
    (h : (csinfo.isAscii || !csinfo.isMultibyte && stringIsAscii bytes) = true) :
    stringOfBytes conversions csinfo bytes = oneByteString bytes := by
  unfold stringOfBytes readerPath
  rw [if_pos h]

theorem stringOfBytes_recode {csinfo : EncoderCharset} (conversions : Conversions)
    (hutf8 : csinfo.isUtf8 = false) (hutf16le : csinfo.isUtf16le = false) {bytes : List UInt8}
    (h : (csinfo.isAscii || !csinfo.isMultibyte && stringIsAscii bytes) = false) :
    stringOfBytes conversions csinfo bytes =
      conversions.newFromUtf8
        (conversions.fromColumn bytes (getUtf8BufferSizeForColumn bytes.length csinfo)) := by
  unfold stringOfBytes readerPath
  rw [h, hutf8, hutf16le]
  rfl

theorem getUtf8BufferSizeForColumn_mono (csinfo : EncoderCharset) {size other : ℕ}
    (h : size ≤ other) :
    getUtf8BufferSizeForColumn size csinfo ≤ getUtf8BufferSizeForColumn other csinfo := by
  unfold getUtf8BufferSizeForColumn
  exact Nat.mul_le_mul_right _ (Nat.div_le_div_right h)

/-! ## The writer of a character set -/

section
variable {conversions : Conversions} {charset : Charset} {col : CharColumn} {strval : CodeUnits}

theorem charsetWriter_utf8 (hutf8 : col.csinfo.isUtf8 = true) (pad : Bool) :
    charsetWriter conversions col strval pad = writeUtf8 col strval pad := if_pos hutf8

theorem charsetWriter_utf16le (hutf8 : col.csinfo.isUtf8 = false)
    (hutf16le : col.csinfo.isUtf16le = true) (pad : Bool) :
    charsetWriter conversions col strval pad = writeUtf16le col strval pad := by
  unfold charsetWriter
  rw [hutf8, hutf16le]
  rfl

theorem charsetWriter_ascii (hutf8 : col.csinfo.isUtf8 = false)
    (hutf16le : col.csinfo.isUtf16le = false)
    (h : (col.csinfo.isAscii || !col.csinfo.isMultibyte && isAsciiText strval) = true) (pad : Bool) :
    charsetWriter conversions col strval pad = writeAscii col strval pad := by
  unfold charsetWriter
  rw [hutf8, hutf16le]
  cases hascii : col.csinfo.isAscii with
  | true => rfl
  | false =>
      rw [hascii, Bool.false_or, Bool.and_eq_true, Bool.not_eq_true'] at h
      rw [h.1]
      exact if_pos (of_decide_eq_true h.2)

theorem charsetWriter_recode (hutf8 : col.csinfo.isUtf8 = false)
    (hutf16le : col.csinfo.isUtf16le = false)
    (h : (col.csinfo.isAscii || !col.csinfo.isMultibyte && isAsciiText strval) = false) (pad : Bool) :
    charsetWriter conversions col strval pad = writeRecode conversions col strval pad := by
  rw [Bool.or_eq_false_iff] at h
  unfold charsetWriter
  rw [hutf8, hutf16le, h.1]
  cases hmultibyte : col.csinfo.isMultibyte with
  | true => rfl
  | false =>
      rw [hmultibyte] at h
      exact if_neg (of_decide_eq_false h.2)

/-! ## Writing and reading a VARCHAR -/

variable {size : ℕ} {buffer : Memory} {offset : ℕ}

theorem varchar_utf8_iff (hconv : conversions.Lawful charset) (hutf8 : col.csinfo.isUtf8 = true)
    (hfits : (utf8Bytes strval).length ≤ col.length) (hlt : col.length < 256 ^ size) :
    varcharReader size conversions col (varcharWriter size conversions col strval buffer offset).2
      offset = strval ↔ Paired strval := by
  constructor
  · intro hread
    rw [varcharReader_eq] at hread
    rw [← hread]
    exact paired_stringOfBytes hconv (utf8_exclusive hutf8).1 _
  · intro hpaired
    obtain ⟨chars, rfl⟩ := exists_chars_of_paired hpaired
    rw [utf8Bytes_unitsOfChars] at hfits
    have hwritten : charsetWriter conversions col (unitsOfChars chars) false =
        (utf8OfChars chars, (utf8OfChars chars).length) := by
      rw [charsetWriter_utf8 hutf8, writeUtf8, padTo, writeUtf8Chars_of_le hfits]
      rfl
    rw [varcharReader_varcharWriter hwritten (lt_of_le_of_lt hfits hlt),
      stringOfBytes_utf8OfChars hconv hutf8]

theorem varchar_utf16le (hutf16le : col.csinfo.isUtf16le = true)
    (hmultibyte : col.csinfo.isMultibyte = true)
    (hfits : (strval.flatMap fun unit => littleEndian 2 unit.toNat).length ≤ col.length)
    (hlt : col.length < 256 ^ size) :
    varcharReader size conversions col (varcharWriter size conversions col strval buffer offset).2
      offset = strval := by
  have hlength : (strval.flatMap fun unit => littleEndian 2 unit.toNat).length =
      strval.length * 2 := by
    simp [List.length_flatMap]
  have hwritten : charsetWriter conversions col strval false =
      (strval.flatMap fun unit => littleEndian 2 unit.toNat,
        (strval.flatMap fun unit => littleEndian 2 unit.toNat).length) := by
    rw [charsetWriter_utf16le (utf16le_exclusive hutf16le).1 hutf16le, writeUtf16le, hlength]
    rw [List.take_of_length_le (by omega)]
    simp
  rw [varcharReader_varcharWriter hwritten (lt_of_le_of_lt hfits hlt),
    stringOfBytes_utf16le conversions hutf16le hmultibyte, unitsOfBytes_flatMap]

/-- Text that is written without a conversion. -/
theorem varchar_ascii_iff (hutf8 : col.csinfo.isUtf8 = false)
    (hutf16le : col.csinfo.isUtf16le = false)
    (htext : (col.csinfo.isAscii || !col.csinfo.isMultibyte && isAsciiText strval) = true)
    (hfits : strval.length ≤ col.length) (hlt : col.length < 256 ^ size) :
    varcharReader size conversions col (varcharWriter size conversions col strval buffer offset).2
      offset = strval ↔ ∀ unit ∈ strval, unit.toNat < 256 := by
  have hwritten : charsetWriter conversions col strval false =
      (strval.map fun unit => UInt8.ofNat unit.toNat,
        (strval.map fun unit => UInt8.ofNat unit.toNat).length) := by
    rw [charsetWriter_ascii hutf8 hutf16le htext, writeAscii, padTo, List.take_of_length_le hfits]
    rfl
  have hpath : (col.csinfo.isAscii || !col.csinfo.isMultibyte &&
      stringIsAscii (strval.map fun unit => UInt8.ofNat unit.toNat)) = true := by
    rw [Bool.or_eq_true, Bool.and_eq_true] at htext ⊢
    refine htext.imp_right fun h => ⟨h.1, (stringIsAscii_iff _).mpr ?_⟩
    intro byte hbyte
    obtain ⟨unit, hunit, rfl⟩ := List.mem_map.mp hbyte
    have hsmall := (isAsciiText_iff strval).mp h.2 unit hunit
    rw [UInt8.toNat_ofNat']
    omega
  rw [varcharReader_varcharWriter hwritten (by rw [List.length_map]; omega),
    stringOfBytes_oneByte conversions hpath, oneByteString_map_iff]

/-- What is recoded is not longer than the form of the string, and equal to it if the string fits
in the buffer. -/
theorem exists_writeRecode (hconv : conversions.Lawful charset) {chars : List Char}
    {bytes : List UInt8} (hencode : charset.encode chars = some bytes)
    (hle : bytes.length ≤ col.length) :
    ∃ written, writeRecode conversions col (unitsOfChars chars) false = (written, written.length) ∧
      written.length ≤ bytes.length ∧
        ((utf8OfChars chars).length ≤ getUtf8BufferSizeForColumn col.length col.csinfo →
          written = bytes) := by
  refine ⟨_, rfl, ?_⟩
  change (conversions.toColumn (writeUtf8Chars (getUtf8BufferSizeForColumn col.length col.csinfo)
    (unitsOfChars chars)) col.length).length ≤ bytes.length ∧ _
  have hwhole : (utf8OfChars chars).length ≤ getUtf8BufferSizeForColumn col.length col.csinfo →
      conversions.toColumn (writeUtf8Chars (getUtf8BufferSizeForColumn col.length col.csinfo)
        (unitsOfChars chars)) col.length = bytes := by
    intro hsmall
    have htail := hconv.toColumn_chars chars [] col.length (.inl rfl)
    rw [List.append_nil] at htail
    rw [writeUtf8Chars_of_le hsmall, htail, Charset.encodeFitting_of_le hencode hle]
  refine ⟨?_, hwhole⟩
  by_cases hsmall : (utf8OfChars chars).length ≤ getUtf8BufferSizeForColumn col.length col.csinfo
  · rw [hwhole hsmall]
  · obtain ⟨kept, char, rest, tail, rfl, hwritten, htail⟩ :=
      exists_writeUtf8Chars chars (Nat.lt_of_not_le hsmall)
    have hcut : tail = [] ∨ ∃ unit, isSurrogate unit = true ∧ tail = unitBytes unit := by
      refine htail.imp_right fun h => ?_
      obtain ⟨high, hhigh, rfl, -⟩ := h
      exact ⟨high, by rw [isSurrogate, hhigh, Bool.true_or], rfl⟩
    rw [hwritten, hconv.toColumn_chars kept tail col.length hcut]
    obtain ⟨first, second, hfirst, -, rfl⟩ := Charset.encode_append_eq_some.mp hencode
    rw [List.length_append] at hle ⊢
    rw [Charset.encodeFitting_of_le hfirst (by omega)]
    omega

/-- Text that is recoded when it is written. -/
theorem varchar_recode_iff (hconv : conversions.Lawful charset) (hutf8 : col.csinfo.isUtf8 = false)
    (hutf16le : col.csinfo.isUtf16le = false)
    (htext : (col.csinfo.isAscii || !col.csinfo.isMultibyte && isAsciiText strval) = false)
    {bytes : List UInt8} (hencode : charset.encode (charsOfUnits strval) = some bytes)
    (hfits : bytes.length ≤ col.length) (hlt : col.length < 256 ^ size) :
    varcharReader size conversions col (varcharWriter size conversions col strval buffer offset).2
      offset = strval ↔
        Paired strval ∧ utf8Length strval ≤ getUtf8BufferSizeForColumn bytes.length col.csinfo ∧
          (col.csinfo.isMultibyte = true ∨ stringIsAscii bytes = false) := by
  by_cases hpaired : Paired strval
  swap
  · refine iff_of_false (fun hread => hpaired ?_) fun h => hpaired h.1
    rw [varcharReader_eq] at hread
    rw [← hread]
    exact paired_stringOfBytes hconv hutf16le _
  obtain ⟨chars, rfl⟩ := exists_chars_of_paired hpaired
  rw [charsOfUnits_unitsOfChars] at hencode
  obtain ⟨written, hwritten, hshorter, hwhole⟩ := exists_writeRecode hconv hencode hfits
  rw [← charsetWriter_recode hutf8 hutf16le htext] at hwritten
  rw [varcharReader_varcharWriter hwritten (by omega), utf8Length, utf8Bytes_unitsOfChars]
  have hmono := getUtf8BufferSizeForColumn_mono col.csinfo hfits
  have hnotAscii := (Bool.or_eq_false_iff.mp htext).1
  constructor
  · intro hread
    have hpath : (col.csinfo.isAscii || !col.csinfo.isMultibyte && stringIsAscii written) = false := by
      rw [← Bool.not_eq_true]
      intro hpath
      rw [stringOfBytes_oneByte conversions hpath] at hread
      rw [hnotAscii, Bool.false_or, Bool.and_eq_true] at hpath
      rw [hnotAscii, hpath.1, Bool.false_or, Bool.true_and, ← Bool.not_eq_true, isAsciiText_iff,
        ← hread] at htext
      refine htext fun unit hunit => ?_
      obtain ⟨byte, hbyte, rfl⟩ := List.mem_map.mp hunit
      have hsmall := (stringIsAscii_iff written).mp hpath.2 byte hbyte
      rw [UInt16.toNat_ofNat']
      omega
    rw [stringOfBytes_recode conversions hutf8 hutf16le hpath] at hread
    obtain ⟨decoded, hdecoded, hlength⟩ := hconv.exists_fromColumn written
      (getUtf8BufferSizeForColumn written.length col.csinfo)
    rw [hdecoded, hconv.newFromUtf8_chars] at hread
    rw [unitsOfChars_injective hread] at hlength
    have hbuffer := le_trans hlength (getUtf8BufferSizeForColumn_mono col.csinfo hshorter)
    rw [hwhole (le_trans hbuffer hmono)] at hpath
    refine ⟨hpaired, hbuffer, ?_⟩
    rw [hnotAscii, Bool.false_or, Bool.and_eq_false_iff, Bool.not_eq_false'] at hpath
    exact hpath
  · rintro ⟨-, hbuffer, hkind⟩
    have hpath : (col.csinfo.isAscii || !col.csinfo.isMultibyte && stringIsAscii bytes) = false := by
      rw [hnotAscii, Bool.false_or, Bool.and_eq_false_iff, Bool.not_eq_false']
      exact hkind
    rw [hwhole (le_trans hbuffer hmono), stringOfBytes_recode conversions hutf8 hutf16le hpath]
    obtain ⟨more, hdecoded, hmore⟩ := hconv.fromColumn_chars chars bytes [] _ hencode hbuffer
    rw [List.append_nil] at hdecoded
    rw [hdecoded, hmore rfl, List.append_nil, hconv.newFromUtf8_chars]

/-- The form of a string in each character set. -/
theorem encodedString_oneByte (hutf8 : col.csinfo.isUtf8 = false)
    (hutf16le : col.csinfo.isUtf16le = false)
    (h : (col.csinfo.isAscii || !col.csinfo.isMultibyte && isAsciiText strval) = true) :
    encodedString charset col.csinfo strval =
      some (strval.map fun unit => UInt8.ofNat unit.toNat) := by
  unfold encodedString
  rw [hutf8, hutf16le, h]
  rfl

theorem encodedString_recode (hutf8 : col.csinfo.isUtf8 = false)
    (hutf16le : col.csinfo.isUtf16le = false)
    (h : (col.csinfo.isAscii || !col.csinfo.isMultibyte && isAsciiText strval) = false) :
    encodedString charset col.csinfo strval = charset.encode (charsOfUnits strval) := by
  unfold encodedString
  rw [hutf8, hutf16le, h]
  rfl

/-- What fits in a VARCHAR is read back if it can be told apart and recoded. -/
theorem varchar_recovers_iff (hcol : col.WellFormed) (hconv : conversions.Lawful charset)
    (hfits : col.Fits charset strval) (hlt : col.length < 256 ^ size) :
    varcharReader size conversions col (varcharWriter size conversions col strval buffer offset).2
      offset = strval ↔ col.Recovers charset (col.recodeBufferSize charset strval) strval := by
  obtain ⟨bytes, hbytes, hle⟩ := hfits
  unfold CharColumn.Recovers
  cases hutf8 : col.csinfo.isUtf8 with
  | true =>
      rw [encodedString, hutf8] at hbytes
      cases Option.some.inj hbytes
      exact varchar_utf8_iff hconv hutf8 hle hlt
  | false =>
      cases hutf16le : col.csinfo.isUtf16le with
      | true =>
          rw [encodedString, hutf8, hutf16le] at hbytes
          cases Option.some.inj hbytes
          exact iff_of_true (varchar_utf16le hutf16le (hcol.utf16le hutf16le) hle hlt) trivial
      | false =>
          cases htext : col.csinfo.isAscii || !col.csinfo.isMultibyte && isAsciiText strval with
          | true =>
              rw [encodedString_oneByte hutf8 hutf16le htext] at hbytes
              cases Option.some.inj hbytes
              rw [List.length_map] at hle
              rw [varchar_ascii_iff hutf8 hutf16le htext hle hlt]
              cases hascii : col.csinfo.isAscii with
              | true => exact Iff.rfl
              | false =>
                  -- Text that is ASCII by chance.
                  rw [hascii, Bool.false_or] at htext
                  rw [htext]
                  rw [Bool.and_eq_true, isAsciiText_iff] at htext
                  exact iff_of_true (fun unit hunit => lt_trans (htext.2 unit hunit) (by decide))
                    trivial
          | false =>
              have hsize : col.recodeBufferSize charset strval =
                  getUtf8BufferSizeForColumn bytes.length col.csinfo := by
                unfold CharColumn.recodeBufferSize
                rw [hbytes]
                rfl
              rw [encodedString_recode hutf8 hutf16le htext] at hbytes
              rw [varchar_recode_iff hconv hutf8 hutf16le htext hbytes hle hlt, hsize]
              obtain ⟨hascii, hkind⟩ := Bool.or_eq_false_iff.mp htext
              rw [hascii, hkind, hbytes]
              simp

end

end DatabaseJones.Ndb
