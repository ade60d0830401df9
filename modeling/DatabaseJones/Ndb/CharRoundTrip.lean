import DatabaseJones.Ndb.VarcharRoundTrip

/-!
# Strings in CHAR columns

The writer of a CHAR never rejects a string.  What it writes is padded with blanks, and the reader
leaves them out; of a column of blanks only, it reads what stands in front of the column.
-/

namespace DatabaseJones.Ndb

open DatabaseJones.Library

/-! ## Reading without the padding -/

section
variable {α : Type} [DecidableEq α] {str : ℕ → α} {space : α}

theorem stop_skipPadding_le {len stop : ℕ} (h : (skipPadding str space len).stop = some stop) :
    stop ≤ len := by
  induction len with
  | zero => cases h
  | succ len ih =>
      rw [skipPadding] at h
      split_ifs at h
      · exact le_trans (ih h) (Nat.le_succ len)
      · exact (Option.some.inj h).ge

theorem trimEnd_characters {start len last : ℕ} (hge : start ≤ last) (hlt : last < start + len)
    (hne : str last ≠ space)
    (hblank : ∀ index, last < index → index < start + len → str index = space) :
    trimEnd space (characters str start len) = characters str start (last + 1 - start) := by
  refine @trimEnd_eq _ _ _ _ _ (start + len - (last + 1)) ?_
    (isUnpadded_characters hge hlt hne hblank).unpadded
  unfold characters
  rw [show len = last + 1 - start + (start + len - (last + 1)) by omega, List.range_add,
    List.map_append, List.map_map]
  congr 1
  refine List.eq_replicate_iff.mpr ⟨by simp; omega, fun item hitem => ?_⟩
  obtain ⟨index, hindex, rfl⟩ := List.mem_map.mp hitem
  have hsmall := List.mem_range.mp hindex
  show str (start + (last + 1 - start + index)) = space
  exact hblank _ (by omega) (by omega)

theorem trimEnd_characters_eq_nil {start len : ℕ} :
    trimEnd space (characters str start len) = [] ↔
      ∀ index, start ≤ index → index < start + len → str index = space := by
  rw [← not_iff_not, ← Ne, trimEnd_ne_nil_iff, exists_mem_characters_iff]
  push Not
  rfl

/-- A column that is not blank is read without the blanks at its end. -/
theorem string_readWithoutPadding (makeString : List α → CodeUnits) {start len : ℕ}
    (h : trimEnd space (characters str start len) ≠ []) :
    (readWithoutPadding str space makeString start len).string =
      some (makeString (trimEnd space (characters str start len))) := by
  rw [trimEnd_ne_nil_iff, exists_mem_characters_iff] at h
  obtain ⟨last, hge, hlt, hne, hblank⟩ := exists_last_ne h
  rw [trimEnd_characters hge hlt hne hblank, readWithoutPadding,
    (skipPadding_of_ne hne hlt hblank).1]
  exact if_pos (by omega)

/-- Whatever is read is the column without the blanks at its end. -/
theorem eq_of_mem_readWithoutPadding {makeString : List α → CodeUnits} {start len : ℕ}
    {string : CodeUnits} (h : string ∈ (readWithoutPadding str space makeString start len).string) :
    string = makeString (trimEnd space (characters str start len)) := by
  by_cases hblank : trimEnd space (characters str start len) = []
  · rw [hblank]
    obtain ⟨hstop, -⟩ := skipPadding_add start len (trimEnd_characters_eq_nil.mp hblank)
    rw [readWithoutPadding, hstop] at h
    obtain ⟨stop, hfound, hstring⟩ := Option.bind_eq_some_iff.mp h
    have hle := stop_skipPadding_le hfound
    split_ifs at hstring with hge
    rw [show stop - start = 0 by omega] at hstring
    exact (Option.some.inj hstring).symm
  · rw [string_readWithoutPadding makeString hblank] at h
    exact (Option.some.inj h).symm

/-- Of blanks at the beginning of the memory nothing can be read. -/
theorem string_readWithoutPadding_blank (makeString : List α → CodeUnits) {len : ℕ}
    (h : trimEnd space (characters str 0 len) = []) :
    (readWithoutPadding str space makeString 0 len).string = none := by
  obtain ⟨hstop, -⟩ := skipPadding_add 0 len (trimEnd_characters_eq_nil.mp h)
  rw [readWithoutPadding, hstop]
  rfl

end

/-! ## What is read of a CHAR -/

section
variable {conversions : Conversions} {charset : Charset} {col : CharColumn} {strval : CodeUnits}
  {buffer : Memory} {offset : ℕ}

/-- Wherever it is written, the string is read back but for the blanks at its end. -/
def ReadsBack (conversions : Conversions) (col : CharColumn) (strval : CodeUnits) : Prop :=
  ∀ buffer offset, CharType.char.Same
    (charReader conversions col (charWriter conversions col strval buffer offset).2 offset).string
    strval

theorem readBytes_charWriter {bytes : List UInt8}
    (hwritten : (charsetWriter conversions col strval true).1 = bytes)
    (hle : bytes.length ≤ col.length) :
    readBytes (charWriter conversions col strval buffer offset).2 offset col.length =
      bytes ++ readBytes buffer (offset + bytes.length) (col.length - bytes.length) := by
  unfold charWriter
  dsimp only
  rw [hwritten]
  exact readBytes_writeBytes_beginning buffer offset hle

theorem readBytes_charWriter_of_eq {bytes : List UInt8}
    (hwritten : (charsetWriter conversions col strval true).1 = bytes)
    (heq : bytes.length = col.length) :
    readBytes (charWriter conversions col strval buffer offset).2 offset col.length = bytes := by
  rw [readBytes_charWriter hwritten heq.le, heq, Nat.sub_self]
  exact List.append_nil bytes

/-- What is read of bytes in the character set of the column. -/
theorem charReader_oneByte
    (h : (col.csinfo.isAscii || !col.csinfo.isMultibyte &&
      stringIsAscii (readBytes buffer offset col.length)) = true) :
    charReader conversions col buffer offset =
      readWithoutPadding buffer blank oneByteString offset col.length := by
  unfold charReader readerPath
  dsimp only
  rw [if_pos h]

theorem charReader_utf8 (hutf8 : col.csinfo.isUtf8 = true)
    (h : (col.csinfo.isAscii || !col.csinfo.isMultibyte &&
      stringIsAscii (readBytes buffer offset col.length)) = false) :
    charReader conversions col buffer offset =
      readWithoutPadding buffer blank conversions.newFromUtf8 offset col.length := by
  unfold charReader readerPath
  dsimp only
  rw [h, (utf8_exclusive hutf8).1, hutf8]
  rfl

theorem charReader_utf16le (hutf16le : col.csinfo.isUtf16le = true)
    (hmultibyte : col.csinfo.isMultibyte = true) :
    charReader conversions col buffer offset =
      readWithoutPadding (fun i => unitAt buffer (offset % 2 + 2 * i)) 0x20 id (offset / 2)
        (col.length / 2) := by
  unfold charReader readerPath
  rw [(utf16le_exclusive hutf16le).2, hmultibyte, hutf16le]
  rfl

theorem charReader_recode (hutf8 : col.csinfo.isUtf8 = false)
    (hutf16le : col.csinfo.isUtf16le = false)
    (h : (col.csinfo.isAscii || !col.csinfo.isMultibyte &&
      stringIsAscii (readBytes buffer offset col.length)) = false) :
    charReader conversions col buffer offset =
      readWithoutPadding
        (fun i => (conversions.fromColumn (readBytes buffer offset col.length)
          (getUtf8BufferSizeForColumn col.length col.csinfo)).getD i 0)
        blank conversions.newFromUtf8 0
        (conversions.fromColumn (readBytes buffer offset col.length)
          (getUtf8BufferSizeForColumn col.length col.csinfo)).length := by
  unfold charReader readerPath
  dsimp only
  rw [h, hutf8, hutf16le]
  rfl

/-- A surrogate without its partner is read from 16-bit text only. -/
theorem paired_of_mem_charReader (hconv : conversions.Lawful charset)
    (hutf16le : col.csinfo.isUtf16le = false) {string : CodeUnits}
    (h : string ∈ (charReader conversions col buffer offset).string) : Paired string := by
  cases htext : col.csinfo.isAscii || !col.csinfo.isMultibyte &&
      stringIsAscii (readBytes buffer offset col.length) with
  | true =>
      rw [charReader_oneByte htext] at h
      rw [eq_of_mem_readWithoutPadding h]
      exact paired_oneByteString _
  | false =>
      cases hutf8 : col.csinfo.isUtf8 with
      | true =>
          rw [charReader_utf8 hutf8 htext] at h
          rw [eq_of_mem_readWithoutPadding h]
          exact hconv.newFromUtf8_paired _
      | false =>
          rw [charReader_recode hutf8 hutf16le htext] at h
          rw [eq_of_mem_readWithoutPadding h]
          exact hconv.newFromUtf8_paired _

theorem paired_trimEnd {units : CodeUnits} (h : Paired units) : Paired (trimEnd 0x20 units) := by
  obtain ⟨chars, rfl⟩ := exists_chars_of_paired h
  rw [trimEnd_unitsOfChars]
  exact paired_unitsOfChars _

theorem ReadsBack.paired (h : ReadsBack conversions col strval) (hconv : conversions.Lawful charset)
    (hutf16le : col.csinfo.isUtf16le = false) : Paired (trimEnd 0x20 strval) := by
  obtain ⟨string, hstring, hsame⟩ := h (fun _ => 0) 0
  rw [← hsame]
  exact paired_trimEnd (paired_of_mem_charReader hconv hutf16le hstring)

/-- A string that is not made of blanks and whose end without blanks is made of characters. -/
theorem exists_chars_of_paired_trimEnd (h : Paired (trimEnd 0x20 strval)) :
    ∃ chars count, strval = unitsOfChars (chars ++ List.replicate count ' ') ∧
      trimEnd 0x20 strval = unitsOfChars chars ∧ Unpadded ' ' chars := by
  obtain ⟨chars, hchars⟩ := exists_chars_of_paired h
  obtain ⟨count, hcount⟩ := exists_trimEnd_append 0x20 strval
  refine ⟨chars, count, ?_, hchars, ?_⟩
  · rw [unitsOfChars_append, unitsOfChars_blanks, ← hchars]
    exact hcount
  · have htrim := trimEnd_unitsOfChars chars
    rw [← hchars, trimEnd_trimEnd, hchars] at htrim
    rw [unitsOfChars_injective htrim]
    exact unpadded_trimEnd ' ' chars

theorem blank_or_exists (strval : CodeUnits) :
    (∃ unit ∈ strval, unit ≠ 0x20) ∨ strval = List.replicate strval.length 0x20 := by
  by_cases h : ∃ unit ∈ strval, unit ≠ 0x20
  · exact .inl h
  · push Not at h
    exact .inr (List.eq_replicate_of_mem h)

/-! ## UTF-8 -/

theorem char_utf8_iff (hconv : conversions.Lawful charset) (hutf8 : col.csinfo.isUtf8 = true)
    (hfits : (utf8Bytes strval).length ≤ col.length) :
    ReadsBack conversions col strval ↔
      (∃ unit ∈ strval, unit ≠ 0x20) ∧ Paired (trimEnd 0x20 strval) := by
  obtain ⟨hutf16le, hascii⟩ := utf8_exclusive hutf8
  have hstored : Paired (trimEnd 0x20 strval) → ∃ chars count,
      trimEnd 0x20 strval = unitsOfChars chars ∧ Unpadded ' ' chars ∧
        (charsetWriter conversions col strval true).1 =
          utf8OfChars chars ++ List.replicate count blank ∧
        (utf8OfChars chars).length + count = col.length := by
    intro hpaired
    obtain ⟨chars, count, rfl, htrim, hunpadded⟩ := exists_chars_of_paired_trimEnd hpaired
    rw [utf8Bytes_unitsOfChars] at hfits
    have hlength : (utf8OfChars (chars ++ List.replicate count ' ')).length =
        (utf8OfChars chars).length + count := by
      rw [utf8OfChars_append, utf8OfChars_blanks, List.length_append, List.length_replicate]
    refine ⟨chars, col.length - (utf8OfChars chars).length, htrim, hunpadded, ?_, by omega⟩
    rw [charsetWriter_utf8 hutf8, writeUtf8, writeUtf8Chars_of_le hfits, padTo, if_pos rfl, hlength,
      utf8OfChars_append, utf8OfChars_blanks, List.append_assoc, blank, List.replicate_append_replicate,
      show count + (col.length - ((utf8OfChars chars).length + count)) =
        col.length - (utf8OfChars chars).length by omega]
  have hread : ∀ buffer offset, ∃ makeString : List UInt8 → CodeUnits,
      charReader conversions col buffer offset =
        readWithoutPadding buffer blank makeString offset col.length ∧
      ∀ chars, (∃ rest, readBytes buffer offset col.length = utf8OfChars chars ++ rest) →
        makeString (utf8OfChars chars) = unitsOfChars chars := by
    intro buffer offset
    cases htext : col.csinfo.isAscii || !col.csinfo.isMultibyte &&
        stringIsAscii (readBytes buffer offset col.length) with
    | true =>
        refine ⟨oneByteString, charReader_oneByte htext, ?_⟩
        rintro chars ⟨rest, hbytes⟩
        rw [hascii, Bool.false_or, Bool.and_eq_true, stringIsAscii_iff, hbytes] at htext
        exact (unitsOfChars_of_ascii fun byte hbyte =>
          htext.2 byte (List.mem_append_left rest hbyte)).symm
    | false =>
        exact ⟨conversions.newFromUtf8, charReader_utf8 hutf8 htext, fun chars _ =>
          hconv.newFromUtf8_chars chars⟩
  constructor
  · intro hback
    have hpaired := hback.paired hconv hutf16le
    refine ⟨(blank_or_exists strval).resolve_right fun hblank => ?_, hpaired⟩
    obtain ⟨chars, count, htrim, -, hwritten, hlength⟩ := hstored hpaired
    -- A column of blanks at the beginning of the memory.
    obtain ⟨string, hstring, -⟩ := hback (fun _ => 0) 0
    obtain ⟨makeString, hreader, -⟩ := hread
      (charWriter conversions col strval (fun _ => 0) 0).2 0
    have hnil : chars = [] := by
      rw [hblank, ← List.nil_append (List.replicate _ _), trimEnd_append_replicate] at htrim
      exact (@unitsOfChars_injective [] chars htrim).symm
    have hbytes := @readBytes_charWriter_of_eq conversions col strval (fun _ => 0) 0 _ hwritten
      (by rw [List.length_append, List.length_replicate, hlength])
    have hcolumn : trimEnd blank (characters
        (charWriter conversions col strval (fun _ => 0) 0).2 0 col.length) = [] := by
      change trimEnd blank (readBytes (charWriter conversions col strval (fun _ => 0) 0).2 0
        col.length) = []
      rw [hbytes, hnil, trimEnd_append_replicate]
      rfl
    rw [hreader, string_readWithoutPadding_blank makeString hcolumn] at hstring
    cases hstring
  · rintro ⟨hexists, hpaired⟩ buffer offset
    obtain ⟨chars, count, htrim, hunpadded, hwritten, hlength⟩ := hstored hpaired
    obtain ⟨makeString, hreader, hmake⟩ := hread
      (charWriter conversions col strval buffer offset).2 offset
    have hbytes := @readBytes_charWriter_of_eq conversions col strval buffer offset _ hwritten
      (by rw [List.length_append, List.length_replicate, hlength])
    have hcolumn : trimEnd blank (characters
        (charWriter conversions col strval buffer offset).2 offset col.length) =
        utf8OfChars chars := by
      change trimEnd blank (readBytes (charWriter conversions col strval buffer offset).2 offset
        col.length) = utf8OfChars chars
      rw [hbytes, trimEnd_append_replicate]
      exact trimEnd_of_unpadded (unpadded_utf8OfChars hunpadded)
    have hne : utf8OfChars chars ≠ [] := by
      intro hnil
      rw [@utf8OfChars_injective chars [] hnil] at htrim
      exact trimEnd_ne_nil_iff.mpr hexists htrim
    refine ⟨unitsOfChars chars, ?_, ?_⟩
    · rw [hreader, string_readWithoutPadding makeString (by rw [hcolumn]; exact hne), hcolumn,
        hmake chars ⟨_, hbytes⟩]
      rfl
    · rw [← htrim, trimEnd_trimEnd]

/-! ## UTF-16 -/

theorem char_utf16le_iff (hutf16le : col.csinfo.isUtf16le = true)
    (hmultibyte : col.csinfo.isMultibyte = true)
    (hfits : (strval.flatMap fun unit => littleEndian 2 unit.toNat).length ≤ col.length) :
    ReadsBack conversions col strval ↔ ∃ unit ∈ strval, unit ≠ 0x20 := by
  have hlength : ∀ units : CodeUnits,
      (units.flatMap fun unit => littleEndian 2 unit.toNat).length = units.length * 2 := by
    simp [List.length_flatMap]
  rw [hlength] at hfits
  have hcolumn : ∀ buffer offset, trimEnd 0x20 (characters
      (fun i => unitAt (charWriter conversions col strval buffer offset).2 (offset % 2 + 2 * i))
      (offset / 2) (col.length / 2)) = trimEnd 0x20 strval := by
    intro buffer offset
    let padded := strval ++ List.replicate (col.length / 2 - strval.length) 0x20
    have hpadded : (padded.flatMap fun unit => littleEndian 2 unit.toNat).length =
        2 * (col.length / 2) := by
      rw [hlength, List.length_append, List.length_replicate]
      omega
    have hwritten : (charWriter conversions col strval buffer offset).2 =
        writeBytes buffer offset (padded.flatMap fun unit => littleEndian 2 unit.toNat) := by
      unfold charWriter
      rw [charsetWriter_utf16le (utf16le_exclusive hutf16le).1 hutf16le, writeUtf16le]
      dsimp only
      rw [List.take_of_length_le (show strval.length ≤ col.length / 2 by omega)]
      rfl
    have hunits : characters (fun i => unitAt (charWriter conversions col strval buffer offset).2
        (offset % 2 + 2 * i)) (offset / 2) (col.length / 2) = padded := by
      unfold characters
      have haddress : ∀ i, offset % 2 + 2 * (offset / 2 + i) = offset + 2 * i := by omega
      simp only [haddress]
      rw [map_unitAt _ _ offset (2 * (col.length / 2)) (by omega), hwritten, ← hpadded,
        readBytes_writeBytes_self, unitsOfBytes_flatMap]
    rw [hunits, trimEnd_append_replicate]
  constructor
  · intro hback
    obtain ⟨string, hstring, -⟩ := hback (fun _ => 0) 0
    by_contra hblank
    rw [← trimEnd_ne_nil_iff, not_not] at hblank
    rw [charReader_utf16le hutf16le hmultibyte,
      string_readWithoutPadding_blank id ((hcolumn _ 0).trans hblank)] at hstring
    cases hstring
  · intro hexists buffer offset
    rw [← trimEnd_ne_nil_iff, ← hcolumn buffer offset] at hexists
    refine ⟨trimEnd 0x20 strval, ?_, trimEnd_trimEnd strval⟩
    rw [charReader_utf16le hutf16le hmultibyte, string_readWithoutPadding id hexists, hcolumn]
    rfl

/-! ## Text without a conversion -/

theorem isAsciiText_trimEnd (strval : CodeUnits) :
    isAsciiText (trimEnd 0x20 strval) = isAsciiText strval := by
  rw [Bool.eq_iff_iff, isAsciiText_iff, isAsciiText_iff]
  constructor
  · intro h unit hunit
    obtain ⟨count, hcount⟩ := exists_trimEnd_append 0x20 strval
    rw [hcount] at hunit
    rcases List.mem_append.mp hunit with hunit | hunit
    · exact h unit hunit
    · rw [List.eq_of_mem_replicate hunit]
      decide
  · exact fun h unit hunit => h unit ((trimEnd_sublist strval).subset hunit)

theorem char_ascii_iff (hutf8 : col.csinfo.isUtf8 = false)
    (hutf16le : col.csinfo.isUtf16le = false)
    (htext : (col.csinfo.isAscii || !col.csinfo.isMultibyte && isAsciiText strval) = true)
    (hfits : strval.length ≤ col.length) :
    ReadsBack conversions col strval ↔
      (∃ unit ∈ strval, unit ≠ 0x20) ∧ ∀ unit ∈ trimEnd 0x20 strval, unit.toNat < 256 := by
  obtain ⟨count, hcount⟩ := exists_trimEnd_append 0x20 strval
  let kept := (trimEnd 0x20 strval).map fun unit : UInt16 => UInt8.ofNat unit.toNat
  have hstored : ∃ blanks, (charsetWriter conversions col strval true).1 =
      kept ++ List.replicate blanks blank ∧ (kept ++ List.replicate blanks blank).length = col.length := by
    refine ⟨count + (col.length - strval.length), ?_, ?_⟩
    · have hmap : (strval.map fun unit => UInt8.ofNat unit.toNat) =
          kept ++ List.replicate count blank := by
        conv_lhs => rw [hcount]
        rw [List.map_append, List.map_replicate]
        rfl
      rw [charsetWriter_ascii hutf8 hutf16le htext, writeAscii, padTo, if_pos rfl,
        List.take_of_length_le hfits, List.length_map, hmap, List.append_assoc,
        List.replicate_append_replicate]
    · have hlength := congrArg List.length hcount
      rw [List.length_append, List.length_replicate] at hlength ⊢
      rw [List.length_map]
      omega
  obtain ⟨blanks, hwritten, hlength⟩ := hstored
  have hreader : ∀ buffer offset,
      charReader conversions col (charWriter conversions col strval buffer offset).2 offset =
        readWithoutPadding (charWriter conversions col strval buffer offset).2 blank oneByteString
          offset col.length := by
    intro buffer offset
    refine charReader_oneByte ?_
    rw [readBytes_charWriter_of_eq hwritten hlength]
    rw [Bool.or_eq_true, Bool.and_eq_true] at htext ⊢
    refine htext.imp_right fun h => ⟨h.1, (stringIsAscii_iff _).mpr fun byte hbyte => ?_⟩
    rcases List.mem_append.mp hbyte with hbyte | hbyte
    · obtain ⟨unit, hunit, rfl⟩ := List.mem_map.mp hbyte
      have hsmall := (isAsciiText_iff strval).mp h.2 unit ((trimEnd_sublist strval).subset hunit)
      rw [UInt8.toNat_ofNat']
      omega
    · rw [List.eq_of_mem_replicate hbyte]
      decide
  have hcolumn : ∀ buffer offset, trimEnd blank (characters
      (charWriter conversions col strval buffer offset).2 offset col.length) =
      trimEnd blank kept := by
    intro buffer offset
    change trimEnd blank (readBytes (charWriter conversions col strval buffer offset).2 offset
      col.length) = _
    rw [readBytes_charWriter_of_eq hwritten hlength, trimEnd_append_replicate]
  constructor
  · intro hback
    obtain ⟨string, hstring, hsame⟩ := hback (fun _ => 0) 0
    rw [hreader] at hstring
    constructor
    · by_contra hblank
      rw [← trimEnd_ne_nil_iff, not_not] at hblank
      have hnil : trimEnd blank (characters
          (charWriter conversions col strval (fun _ => 0) 0).2 0 col.length) = [] := by
        rw [hcolumn]
        change trimEnd blank ((trimEnd 0x20 strval).map _) = []
        rw [hblank]
        rfl
      rw [string_readWithoutPadding_blank oneByteString hnil] at hstring
      cases hstring
    · rw [← hsame, eq_of_mem_readWithoutPadding hstring]
      intro unit hunit
      obtain ⟨byte, -, rfl⟩ := List.mem_map.mp ((trimEnd_sublist _).subset hunit)
      have hlt := byte.toNat_lt
      rw [UInt16.toNat_ofNat']
      omega
  · rintro ⟨hexists, hsmall⟩ buffer offset
    have hunpadded : trimEnd blank kept = kept := by
      refine trimEnd_of_unpadded fun hlast => unpadded_trimEnd 0x20 strval ?_
      rw [List.getLast?_map] at hlast
      obtain ⟨unit, hunit, hbyte⟩ := Option.map_eq_some_iff.mp hlast
      rw [hunit]
      have hvalue := congrArg UInt8.toNat hbyte
      rw [UInt8.toNat_ofNat', Nat.mod_eq_of_lt (hsmall unit (List.mem_of_getLast? hunit))] at hvalue
      exact congrArg some (UInt16.toNat_inj.mp hvalue)
    have hne : trimEnd blank (characters
        (charWriter conversions col strval buffer offset).2 offset col.length) ≠ [] := by
      rw [hcolumn, hunpadded]
      intro hnil
      exact trimEnd_ne_nil_iff.mpr hexists (List.map_eq_nil_iff.mp hnil)
    refine ⟨trimEnd 0x20 strval, ?_, trimEnd_trimEnd strval⟩
    rw [hreader, string_readWithoutPadding oneByteString hne, hcolumn, hunpadded,
      (oneByteString_map_iff _).mpr hsmall]
    rfl

/-! ## Recoding -/

theorem dvd_length_encode {csinfo : EncoderCharset} (hcharset : charset.Lawful csinfo)
    {chars : List Char} {bytes : List UInt8} (h : charset.encode chars = some bytes) :
    csinfo.minlen ∣ bytes.length := by
  induction chars generalizing bytes with
  | nil =>
      cases Option.some.inj h
      exact Nat.dvd_zero _
  | cons char chars ih =>
      obtain ⟨first, rest, hfirst, hrest, rfl⟩ := Charset.encode_cons_eq_some.mp h
      rw [List.length_append]
      exact Nat.dvd_add (hcharset.dvd char first hfirst) (ih hrest)

/-- The buffer is filled with blanks, and as many of them as fit get into the column: either it is
full, or recoding it fills the buffer again. -/
theorem exists_writeRecode_padded (hcol : col.WellFormed) (hcharset : charset.Lawful col.csinfo)
    (hconv : conversions.Lawful charset) {chars : List Char} {bytes : List UInt8} (count : ℕ)
    (hencode : charset.encode chars = some bytes) (hle : bytes.length ≤ col.length)
    (hbuffer : (utf8OfChars chars).length ≤ getUtf8BufferSizeForColumn col.length col.csinfo) :
    ∃ blanks padding, (writeRecode conversions col (unitsOfChars (chars ++ List.replicate count ' '))
        true).1 = bytes ++ padding ∧ (bytes ++ padding).length ≤ col.length ∧
      (col.csinfo.minlen = 1 → ∀ byte ∈ padding, byte = blank) ∧
      ∀ rest, (bytes ++ padding ++ rest).length = col.length →
        conversions.fromColumn (bytes ++ padding ++ rest)
          (getUtf8BufferSizeForColumn col.length col.csinfo) =
            utf8OfChars (chars ++ List.replicate blanks ' ') := by
  obtain ⟨space, hspace, hsize, hone⟩ := hcharset.blank
  have hmin := hcol.minlen_pos
  let bufferSize := getUtf8BufferSizeForColumn col.length col.csinfo
  let filled := bufferSize - (utf8OfChars chars).length
  let blanks := min filled ((col.length - bytes.length) / space.length)
  let padding := (List.replicate blanks space).flatten
  have hstack : padTo bufferSize true
      (writeUtf8Chars bufferSize (unitsOfChars (chars ++ List.replicate count ' '))) =
        utf8OfChars (chars ++ List.replicate filled ' ') := by
    rw [unitsOfChars_append, writeUtf8Chars_append hbuffer, unitsOfChars_blanks,
      writeUtf8Chars_blanks, utf8OfChars_append, utf8OfChars_blanks, padTo, if_pos rfl,
      List.append_assoc, blank, List.replicate_append_replicate, List.length_append,
      List.length_replicate]
    congr 2
    change min count filled + (bufferSize - ((utf8OfChars chars).length + min count filled)) = filled
    omega
  have hwritten : (writeRecode conversions col (unitsOfChars (chars ++ List.replicate count ' '))
      true).1 = bytes ++ padding := by
    change conversions.toColumn (padTo bufferSize true
      (writeUtf8Chars bufferSize (unitsOfChars (chars ++ List.replicate count ' ')))) col.length = _
    have htail := hconv.toColumn_chars (chars ++ List.replicate filled ' ') [] col.length (.inl rfl)
    rw [List.append_nil] at htail
    rw [hstack, htail, Charset.encodeFitting_append hencode hle,
      Charset.encodeFitting_replicate hspace (by omega)]
  have hpadding : padding.length = blanks * space.length := by
    rw [List.length_flatten, List.map_replicate, List.sum_replicate, smul_eq_mul]
  have hmul : (col.length - bytes.length) / space.length * space.length =
      col.length - bytes.length := by
    refine Nat.div_mul_cancel ?_
    rw [hsize]
    exact Nat.dvd_sub hcol.dvd_length (dvd_length_encode hcharset hencode)
  have hlength : padding.length ≤ col.length - bytes.length := by
    rw [hpadding, ← hmul]
    exact Nat.mul_le_mul_right _ (min_le_right _ _)
  refine ⟨blanks, padding, hwritten, ?_, ?_, ?_⟩
  · rw [List.length_append]
    omega
  · intro hsingle byte hbyte
    obtain ⟨part, hpart, hbyte⟩ := List.mem_flatten.mp hbyte
    rw [List.eq_of_mem_replicate hpart, hone hsingle] at hbyte
    exact List.mem_singleton.mp hbyte
  · intro rest hrest
    have hform : charset.encode (chars ++ List.replicate blanks ' ') = some (bytes ++ padding) :=
      Charset.encode_append_eq_some.mpr
        ⟨bytes, padding, hencode, Charset.encode_replicate hspace blanks, rfl⟩
    have hutf8 : (utf8OfChars (chars ++ List.replicate blanks ' ')).length =
        (utf8OfChars chars).length + blanks := by
      rw [utf8OfChars_append, utf8OfChars_blanks, List.length_append, List.length_replicate]
    have hfilled : blanks ≤ filled := min_le_left _ _
    obtain ⟨more, hdecoded, hmore⟩ := hconv.fromColumn_chars _ _ rest bufferSize hform
      (by rw [hutf8]; omega)
    obtain ⟨decoded, hall, hshort⟩ := hconv.exists_fromColumn (bytes ++ padding ++ rest) bufferSize
    have hnil : more = [] := by
      rcases min_choice filled ((col.length - bytes.length) / space.length) with hmin | hmin
      · -- The buffer is full.
        have hfull : blanks = filled := hmin
        rw [← hall, hdecoded, List.length_append, hutf8] at hshort
        exact List.eq_nil_of_length_eq_zero (by omega)
      · -- The column is full.
        have hfull : blanks = (col.length - bytes.length) / space.length := hmin
        rw [hfull, hmul] at hpadding
        rw [List.length_append, List.length_append] at hrest
        exact hmore (List.eq_nil_of_length_eq_zero (by omega))
    change conversions.fromColumn (bytes ++ padding ++ rest) bufferSize = _
    rw [hdecoded, hnil, List.append_nil]

theorem minlen_eq_one (hcol : col.WellFormed) (h : col.csinfo.isMultibyte = false) :
    col.csinfo.minlen = 1 := by
  have hpos := hcol.minlen_pos
  have hsmall : ¬1 < col.csinfo.minlen := of_decide_eq_false h
  omega

/-- Text that is read as ASCII is ASCII. -/
theorem not_oneByte_of_mem_charReader (hascii : col.csinfo.isAscii = false)
    (hkind : (!col.csinfo.isMultibyte && isAsciiText strval) = false) {string : CodeUnits}
    (hstring : string ∈ (charReader conversions col buffer offset).string)
    (hsame : trimEnd 0x20 string = trimEnd 0x20 strval) :
    (col.csinfo.isAscii || !col.csinfo.isMultibyte &&
      stringIsAscii (readBytes buffer offset col.length)) = false := by
  rw [← Bool.not_eq_true]
  intro htext
  rw [charReader_oneByte htext] at hstring
  rw [hascii, Bool.false_or, Bool.and_eq_true, stringIsAscii_iff] at htext
  rw [htext.1, Bool.true_and, ← Bool.not_eq_true, ← isAsciiText_trimEnd, ← hsame, isAsciiText_iff,
    eq_of_mem_readWithoutPadding hstring] at hkind
  refine hkind fun unit hunit => ?_
  obtain ⟨byte, hbyte, rfl⟩ := List.mem_map.mp ((trimEnd_sublist _).subset hunit)
  have hsmall := htext.2 byte ((trimEnd_sublist _).subset hbyte)
  rw [UInt16.toNat_ofNat']
  omega

/-- What is read of a column that is recoded. -/
theorem trimEnd_recoded {decoded : List UInt8} {chars : List Char} {blanks : ℕ}
    (h : decoded = utf8OfChars (chars ++ List.replicate blanks ' ')) (hunpadded : Unpadded ' ' chars) :
    trimEnd blank (characters (fun i => decoded.getD i 0) 0 decoded.length) = utf8OfChars chars := by
  rw [characters_getD, h, utf8OfChars_append, utf8OfChars_blanks, blank, trimEnd_append_replicate]
  exact trimEnd_of_unpadded (unpadded_utf8OfChars hunpadded)

theorem char_recode_iff (hcol : col.WellFormed) (hcharset : charset.Lawful col.csinfo)
    (hconv : conversions.Lawful charset) (hutf8 : col.csinfo.isUtf8 = false)
    (hutf16le : col.csinfo.isUtf16le = false)
    (htext : (col.csinfo.isAscii || !col.csinfo.isMultibyte && isAsciiText strval) = false)
    {bytes : List UInt8} (hencode : charset.encode (charsOfUnits strval) = some bytes)
    (hfits : bytes.length ≤ col.length) :
    ReadsBack conversions col strval ↔
      (∃ unit ∈ strval, unit ≠ 0x20) ∧ Paired (trimEnd 0x20 strval) ∧
        utf8Length (trimEnd 0x20 strval) ≤ getUtf8BufferSizeForColumn col.length col.csinfo ∧
          (col.csinfo.isMultibyte = true ∨
            ∃ bytes ∈ charset.encode (charsOfUnits (trimEnd 0x20 strval)),
              stringIsAscii bytes = false) := by
  obtain ⟨hascii, hkind⟩ := Bool.or_eq_false_iff.mp htext
  by_cases hpaired : Paired (trimEnd 0x20 strval)
  swap
  · exact iff_of_false (fun hback => hpaired (hback.paired hconv hutf16le)) fun h => hpaired h.2.1
  obtain ⟨chars, count, rfl, htrim, hunpadded⟩ := exists_chars_of_paired_trimEnd hpaired
  rw [charsOfUnits_unitsOfChars] at hencode
  obtain ⟨form, others, hform, -, rfl⟩ := Charset.encode_append_eq_some.mp hencode
  rw [List.length_append] at hfits
  rw [htrim, charsOfUnits_unitsOfChars, utf8Length, utf8Bytes_unitsOfChars, hform]
  have hwriter := @charsetWriter_recode conversions _ _ hutf8 hutf16le htext true
  have hrest : ∀ {written : List UInt8} (buffer address), written.length ≤ col.length →
      (written ++ readBytes buffer address (col.length - written.length)).length = col.length := by
    intro written buffer address hle
    rw [List.length_append, length_readBytes]
    omega
  constructor
  · intro hback
    -- The buffer is large enough for what is read.
    have hbuffer : (utf8OfChars chars).length ≤
        getUtf8BufferSizeForColumn col.length col.csinfo := by
      obtain ⟨string, hstring, hsame⟩ := hback (fun _ => 0) 0
      rw [charReader_recode hutf8 hutf16le
        (not_oneByte_of_mem_charReader hascii hkind hstring hsame)] at hstring
      obtain ⟨decoded, hdecoded, hlength⟩ := hconv.exists_fromColumn
        (readBytes (charWriter conversions col _ (fun _ => 0) 0).2 0 col.length)
        (getUtf8BufferSizeForColumn col.length col.csinfo)
      have hread := eq_of_mem_readWithoutPadding hstring
      rw [hdecoded, characters_getD, blank, trimEnd_utf8OfChars, hconv.newFromUtf8_chars] at hread
      rw [hread, htrim, trimEnd_unitsOfChars, trimEnd_trimEnd] at hsame
      obtain ⟨more, hmore⟩ := exists_trimEnd_append ' ' decoded
      rw [hmore, unitsOfChars_injective hsame, utf8OfChars_append, List.length_append] at hlength
      omega
    obtain ⟨blanks, padding, hwritten, hshort, hblank, hdecoded⟩ := exists_writeRecode_padded
      hcol hcharset hconv count hform (by omega) hbuffer
    rw [← hwriter] at hwritten
    refine ⟨(blank_or_exists _).resolve_right fun hall => ?_, paired_unitsOfChars _, hbuffer, ?_⟩
    · have hnil : chars = [] := by
        rw [hall, ← List.nil_append (List.replicate _ _), trimEnd_append_replicate] at htrim
        exact (@unitsOfChars_injective [] chars htrim).symm
      obtain ⟨string, hstring, hsame⟩ := hback (fun _ => 0) 0
      rw [charReader_recode hutf8 hutf16le
        (not_oneByte_of_mem_charReader hascii hkind hstring hsame)] at hstring
      have hcolumn := trimEnd_recoded (hdecoded _ (hrest (fun _ => 0)
        (0 + (form ++ padding).length) hshort)) hunpadded
      rw [readBytes_charWriter hwritten hshort] at hstring
      rw [string_readWithoutPadding_blank _ (hcolumn.trans (by rw [hnil]; rfl))] at hstring
      cases hstring
    · by_contra hnone
      push Not at hnone
      obtain ⟨hmultibyte, hform⟩ := hnone
      have hmultibyte := Bool.eq_false_of_not_eq_true hmultibyte
      have hasciiForm := hform form rfl
      replace hasciiForm := (stringIsAscii_iff form).mp (Bool.eq_true_of_not_eq_false hasciiForm)
      obtain ⟨string, hstring, hsame⟩ := hback (fun _ => 0) 0
      have hpath := not_oneByte_of_mem_charReader hascii hkind hstring hsame
      rw [hascii, hmultibyte, Bool.false_or, Bool.not_false, Bool.true_and, ← Bool.not_eq_true,
        stringIsAscii_iff, readBytes_charWriter hwritten hshort] at hpath
      refine hpath fun byte hbyte => ?_
      rcases List.mem_append.mp hbyte with hbyte | hbyte
      · rcases List.mem_append.mp hbyte with hbyte | hbyte
        · exact hasciiForm byte hbyte
        · rw [hblank (minlen_eq_one hcol hmultibyte) byte hbyte]
          decide
      · obtain ⟨_, -, rfl⟩ := List.mem_map.mp hbyte
        exact Nat.zero_lt_succ 127
  · rintro ⟨hexists, -, hbuffer, hform'⟩ buffer offset
    obtain ⟨blanks, padding, hwritten, hshort, hblank, hdecoded⟩ := exists_writeRecode_padded
      hcol hcharset hconv count hform (by omega) hbuffer
    rw [← hwriter] at hwritten
    have hbytes := @readBytes_charWriter conversions col _ buffer offset _ hwritten hshort
    have hpath : (col.csinfo.isAscii || !col.csinfo.isMultibyte && stringIsAscii
        (readBytes (charWriter conversions col (unitsOfChars (chars ++ List.replicate count ' '))
          buffer offset).2 offset col.length)) = false := by
      rw [hascii, Bool.false_or, Bool.and_eq_false_iff, Bool.not_eq_false', hbytes]
      refine hform'.imp_right fun h => ?_
      obtain ⟨_, hsome, hnot⟩ := h
      cases Option.some.inj hsome
      rw [← Bool.not_eq_true, stringIsAscii_iff] at hnot ⊢
      exact fun hall => hnot fun byte hbyte =>
        hall byte (List.mem_append_left _ (List.mem_append_left _ hbyte))
    have hcolumn := trimEnd_recoded (hdecoded _ (hrest buffer (offset + (form ++ padding).length)
      hshort)) hunpadded
    rw [← hbytes] at hcolumn
    have hne : utf8OfChars chars ≠ [] := by
      intro hnil
      have hempty := @utf8OfChars_injective chars [] hnil
      rw [← trimEnd_ne_nil_iff, htrim, hempty] at hexists
      exact hexists rfl
    refine ⟨unitsOfChars chars, ?_, ?_⟩
    · rw [charReader_recode hutf8 hutf16le hpath,
        string_readWithoutPadding _ (by rw [hcolumn]; exact hne), hcolumn,
        hconv.newFromUtf8_chars]
      rfl
    · rw [← htrim, trimEnd_trimEnd]

/-! ## Every column -/

/-- What fits in a CHAR is read back if it is not blank, and can be told apart and recoded. -/
theorem char_recovers_iff (hcol : col.WellFormed) (hcharset : charset.Lawful col.csinfo)
    (hconv : conversions.Lawful charset) (hfits : col.Fits charset strval) :
    ReadsBack conversions col strval ↔ (∃ unit ∈ strval, unit ≠ 0x20) ∧
      col.Recovers charset (getUtf8BufferSizeForColumn col.length col.csinfo)
        (trimEnd 0x20 strval) := by
  obtain ⟨bytes, hbytes, hle⟩ := hfits
  unfold CharColumn.Recovers
  cases hutf8 : col.csinfo.isUtf8 with
  | true =>
      rw [encodedString, hutf8] at hbytes
      cases Option.some.inj hbytes
      exact char_utf8_iff hconv hutf8 hle
  | false =>
      cases hutf16le : col.csinfo.isUtf16le with
      | true =>
          rw [encodedString, hutf8, hutf16le] at hbytes
          cases Option.some.inj hbytes
          rw [char_utf16le_iff hutf16le (hcol.utf16le hutf16le) hle]
          exact (and_iff_left trivial).symm
      | false =>
          cases htext : col.csinfo.isAscii || !col.csinfo.isMultibyte && isAsciiText strval with
          | true =>
              rw [encodedString_oneByte hutf8 hutf16le htext] at hbytes
              cases Option.some.inj hbytes
              rw [List.length_map] at hle
              rw [char_ascii_iff hutf8 hutf16le htext hle]
              refine and_congr_right fun _ => ?_
              cases hascii : col.csinfo.isAscii with
              | true => exact Iff.rfl
              | false =>
                  -- Text that is ASCII by chance.
                  rw [hascii, Bool.false_or, ← isAsciiText_trimEnd] at htext
                  rw [htext]
                  rw [Bool.and_eq_true, isAsciiText_iff] at htext
                  exact iff_of_true (fun unit hunit => lt_trans (htext.2 unit hunit) (by decide))
                    trivial
          | false =>
              rw [encodedString_recode hutf8 hutf16le htext] at hbytes
              rw [char_recode_iff hcol hcharset hconv hutf8 hutf16le htext hbytes hle,
                isAsciiText_trimEnd]
              obtain ⟨hascii, hkind⟩ := Bool.or_eq_false_iff.mp htext
              rw [hascii, hkind]
              rfl

/-- A VARCHAR rejects what has more units than it has bytes, and stores the other strings. -/
theorem storesWhole_varchar_iff (hcol : col.WellFormed) (hconv : conversions.Lawful charset)
    (htype : col.type ≠ .char) :
    col.StoresWhole conversions charset strval ↔
      col.length < strval.length ∨ col.Fits charset strval ∧
        col.Recovers charset (col.recodeBufferSize charset strval) strval := by
  obtain ⟨size, hsize⟩ : ∃ size, col.type.prefixSize = size := ⟨_, rfl⟩
  have hlt : col.length < 256 ^ size := hsize ▸ hcol.length_lt htype
  have hwrite : ∀ buffer offset, col.write conversions strval buffer offset =
      varcharWriter size conversions col strval buffer offset := by
    intro buffer offset
    unfold CharColumn.write
    cases hkind : col.type with
    | char => exact absurd hkind htype
    | varchar => rw [← hsize, hkind]; rfl
    | longVarchar => rw [← hsize, hkind]; rfl
  have hsame : ∀ buffer offset, col.type.Same (col.read conversions buffer offset) strval ↔
      varcharReader size conversions col buffer offset = strval := by
    intro buffer offset
    unfold CharColumn.read
    cases hkind : col.type with
    | char => exact absurd hkind htype
    | varchar => rw [← hsize, hkind]; exact Option.some_inj
    | longVarchar => rw [← hsize, hkind]; exact Option.some_inj
  unfold CharColumn.StoresWhole
  simp only [hwrite, hsame]
  by_cases hlong : col.length < strval.length
  · refine iff_of_true (fun buffer offset => ?_) (.inl hlong)
    have hstatus : (varcharWriter size conversions col strval buffer offset).1 = .stringTooLong :=
      if_pos hlong
    rw [hstatus]
    exact ⟨nofun, fun _ => nofun⟩
  · have hstatus : ∀ buffer offset,
        (varcharWriter size conversions col strval buffer offset).1 = .writerOK :=
      fun _ _ => if_neg hlong
    rw [or_iff_right hlong]
    constructor
    · intro h
      have hfits : col.Fits charset strval :=
        by_contra fun hfits => (h (fun _ => 0) 0).2 hfits (hstatus _ _)
      exact ⟨hfits, (varchar_recovers_iff hcol hconv hfits hlt).mp
        ((h (fun _ => 0) 0).1 (hstatus _ _))⟩
    · rintro ⟨hfits, hrecovers⟩ buffer offset
      exact ⟨fun _ => (varchar_recovers_iff hcol hconv hfits hlt).mpr hrecovers,
        fun hnot => absurd hfits hnot⟩

/-- A CHAR rejects nothing. -/
theorem storesWhole_char_iff (hcol : col.WellFormed) (hcharset : charset.Lawful col.csinfo)
    (hconv : conversions.Lawful charset) (htype : col.type = .char) :
    col.StoresWhole conversions charset strval ↔
      col.Fits charset strval ∧ (∃ unit ∈ strval, unit ≠ 0x20) ∧
        col.Recovers charset (getUtf8BufferSizeForColumn col.length col.csinfo)
          (trimEnd 0x20 strval) := by
  have hboth : col.StoresWhole conversions charset strval ↔
      col.Fits charset strval ∧ ReadsBack conversions col strval := by
    unfold CharColumn.StoresWhole CharColumn.write CharColumn.read ReadsBack
    rw [htype]
    constructor
    · intro h
      exact ⟨by_contra fun hfits => (h (fun _ => 0) 0).2 hfits rfl,
        fun buffer offset => (h buffer offset).1 rfl⟩
    · rintro ⟨hfits, hback⟩ buffer offset
      exact ⟨fun _ => hback buffer offset, fun hnot => absurd hfits hnot⟩
  rw [hboth]
  exact and_congr_right fun hfits => char_recovers_iff hcol hcharset hconv hfits

theorem storesWhole_iff (hcol : col.WellFormed) (hcharset : charset.Lawful col.csinfo)
    (hconv : conversions.Lawful charset) :
    col.StoresWhole conversions charset strval ↔ col.Keeps charset strval := by
  unfold CharColumn.Keeps
  cases htype : col.type with
  | char => exact storesWhole_char_iff hcol hcharset hconv htype
  | varchar => exact storesWhole_varchar_iff hcol hconv (by rw [htype]; nofun)
  | longVarchar => exact storesWhole_varchar_iff hcol hconv (by rw [htype]; nofun)

end

/-! ## ISO 8859-1 -/

/-- The first 256 characters. -/
def latin1 : Charset where
  encodeChar char := if char.toNat < 256 then some [UInt8.ofNat char.toNat] else none

def utf8Charset : Charset where
  encodeChar char := some (String.utf8EncodeChar char)

/-- Characters of one or two bytes, up to the first other one. -/
def latin1OfUtf8 : List UInt8 → List UInt8
  | [] => []
  | [byte] => if byte.toNat < 128 then [byte] else []
  | first :: second :: bytes =>
      if first.toNat < 128 then first :: latin1OfUtf8 (second :: bytes)
      else if first = 0xC2 then second :: latin1OfUtf8 bytes
      else if first = 0xC3 then (second + 0x40) :: latin1OfUtf8 bytes
      else []

def latin1Conversions : Conversions where
  newFromUtf8 bytes := (utf8Text bytes).getD [0xFFFD]
  toColumn bytes capacity := (latin1OfUtf8 bytes).take capacity
  fromColumn bytes capacity :=
    utf8Charset.encodeFitting capacity (bytes.map fun byte => Char.ofNat byte.toNat)

theorem latin1OfUtf8_cons {byte : UInt8} (h : byte.toNat < 128) (bytes : List UInt8) :
    latin1OfUtf8 (byte :: bytes) = byte :: latin1OfUtf8 bytes := by
  cases bytes with
  | nil => exact if_pos h
  | cons second bytes => exact if_pos h

theorem latin1OfUtf8_of_ge {bytes : List UInt8} {first : UInt8} (hfirst : bytes.head? = some first)
    (h : 0xC4 ≤ first.toNat) : latin1OfUtf8 bytes = [] := by
  have hne : ∀ other : UInt8, other.toNat < 0xC4 → first ≠ other := by
    rintro other hlt rfl
    omega
  match bytes, hfirst with
  | [_], rfl => exact if_neg (by omega)
  | _ :: _ :: _, rfl =>
      rw [latin1OfUtf8, if_neg (by omega), if_neg (hne _ (by decide)), if_neg (hne _ (by decide))]

theorem latin1OfUtf8_char (char : Char) (bytes : List UInt8) :
    latin1OfUtf8 (String.utf8EncodeChar char ++ bytes) =
      if char.toNat < 256 then UInt8.ofNat char.toNat :: latin1OfUtf8 bytes else [] := by
  have hval : char.val.toNat = char.toNat := rfl
  by_cases hone : char.toNat < 128
  · rw [utf8EncodeChar_of_lt hone, List.singleton_append, if_pos (by omega)]
    exact latin1OfUtf8_cons (by rw [UInt8.toNat_ofNat']; omega) bytes
  · unfold String.utf8EncodeChar
    dsimp only
    rw [hval, if_neg (show ¬char.toNat ≤ 0x7f by omega)]
    have hge : ∀ n, 0xC4 ≤ n → n < 256 → 0xC4 ≤ (UInt8.ofNat n).toNat := by
      intro n hlow hhigh
      rw [UInt8.toNat_ofNat']
      omega
    split_ifs with htwo hsmall hsmall hthree hthree
    · obtain hdiv | hdiv : char.toNat / 64 = 2 ∨ char.toNat / 64 = 3 := by omega
      · rw [hdiv]
        change UInt8.ofNat (char.toNat % 64 + 0x80) :: latin1OfUtf8 bytes = _
        rw [show char.toNat % 64 + 0x80 = char.toNat by omega]
      · rw [hdiv]
        change (UInt8.ofNat (char.toNat % 64 + 0x80) + 0x40) :: latin1OfUtf8 bytes = _
        rw [← UInt8.toNat_inj.mp (show (UInt8.ofNat char.toNat).toNat =
          (UInt8.ofNat (char.toNat % 64 + 0x80) + 0x40).toNat by
            rw [UInt8.toNat_add, UInt8.toNat_ofNat', UInt8.toNat_ofNat']
            change _ = (_ + 64) % 256
            omega)]
    · exact latin1OfUtf8_of_ge rfl (hge _ (by omega) (by omega))
    · omega
    · exact latin1OfUtf8_of_ge rfl (hge _ (by omega) (by omega))
    · omega
    · exact latin1OfUtf8_of_ge rfl (hge _ (by omega) (by omega))

theorem latin1_lawful {csinfo : EncoderCharset} (h : csinfo.minlen = 1) : latin1.Lawful csinfo where
  dvd _ _ _ := h ▸ Nat.one_dvd _
  blank := ⟨[blank], rfl, h.symm, fun _ => rfl⟩

theorem encode_utf8Charset (chars : List Char) :
    utf8Charset.encode chars = some (utf8OfChars chars) := by
  induction chars with
  | nil => rfl
  | cons char chars ih => exact Charset.encode_cons_eq_some.mpr ⟨_, _, rfl, ih, rfl⟩

theorem latin1_toColumn (chars : List Char) {tail : List UInt8} (htail : latin1OfUtf8 tail = []) :
    ∀ capacity, (latin1OfUtf8 (utf8OfChars chars ++ tail)).take capacity =
      latin1.encodeFitting capacity chars := by
  induction chars with
  | nil =>
      intro capacity
      rw [utf8OfChars_nil, List.nil_append, htail, Charset.encodeFitting_nil, List.take_nil]
  | cons char chars ih =>
      intro capacity
      rw [utf8OfChars_cons, List.append_assoc, latin1OfUtf8_char, Charset.encodeFitting]
      have hchar : latin1.encodeChar char =
          if char.toNat < 256 then some [UInt8.ofNat char.toNat] else none := rfl
      rw [hchar]
      split_ifs
      · cases capacity with
        | zero => rfl
        | succ capacity => exact congrArg _ (ih capacity)
      · exact List.take_nil

theorem chars_of_latin1 {chars : List Char} {bytes : List UInt8}
    (h : latin1.encode chars = some bytes) : (bytes.map fun byte => Char.ofNat byte.toNat) = chars := by
  induction chars generalizing bytes with
  | nil =>
      cases Option.some.inj h
      rfl
  | cons char chars ih =>
      obtain ⟨first, rest, hfirst, hrest, rfl⟩ := Charset.encode_cons_eq_some.mp h
      change (if char.toNat < 256 then some [UInt8.ofNat char.toNat] else none) = some first at hfirst
      split_ifs at hfirst with hsmall
      cases Option.some.inj hfirst
      rw [List.map_append, ih hrest]
      simp [Nat.mod_eq_of_lt hsmall]

theorem latin1Conversions_lawful : latin1Conversions.Lawful latin1 where
  newFromUtf8_chars chars := by
    change (utf8Text (utf8OfChars chars)).getD [0xFFFD] = unitsOfChars chars
    have htext := utf8Text_utf8 (unitsOfChars chars)
    rw [charsOfUnits_unitsOfChars] at htext
    change utf8Text ((charsOfUnits (unitsOfChars chars)).flatMap String.utf8EncodeChar) = _ at htext
    rw [charsOfUnits_unitsOfChars] at htext
    exact congrArg (fun text => text.getD [0xFFFD]) htext
  newFromUtf8_paired bytes := by
    change Paired ((utf8Text bytes).getD [0xFFFD])
    cases htext : utf8Text bytes with
    | none => exact (by decide : isSurrogate 0xFFFD = false)
    | some units => exact paired_of_utf8Text htext
  toColumn_chars chars tail capacity htail := by
    refine latin1_toColumn chars ?_ capacity
    rcases htail with rfl | ⟨unit, hsurrogate, rfl⟩
    · rfl
    · have hrange : 0xD800 ≤ unit.toNat ∧ unit.toNat < 0xE000 := by
        unfold isSurrogate isHighSurrogate isLowSurrogate at hsurrogate
        simp only [Bool.or_eq_true, Bool.and_eq_true, decide_eq_true_eq] at hsurrogate
        omega
      unfold unitBytes
      rw [if_neg (by omega), if_neg (by omega)]
      exact latin1OfUtf8_of_ge rfl (by rw [UInt8.toNat_ofNat']; omega)
  exists_fromColumn bytes capacity := by
    obtain ⟨kept, -, hkept, hlength⟩ := @Charset.exists_encodeFitting utf8Charset
      (bytes.map fun byte => Char.ofNat byte.toNat) capacity
    rw [encode_utf8Charset] at hkept
    have hsame := Option.some.inj hkept
    exact ⟨kept, hsame.symm, hsame ▸ hlength⟩
  fromColumn_chars chars bytes rest capacity hencode hfits := by
    refine ⟨utf8Charset.encodeFitting (capacity - (utf8OfChars chars).length)
      (rest.map fun byte => Char.ofNat byte.toNat), ?_, fun hrest => ?_⟩
    · change utf8Charset.encodeFitting capacity _ = _
      rw [List.map_append, chars_of_latin1 hencode,
        Charset.encodeFitting_append (encode_utf8Charset chars) hfits]
    · rw [hrest]
      exact Charset.encodeFitting_nil _

/-- An accented letter has one byte in the column and two in UTF-8. -/
theorem storesWhole_accented :
    (⟨.varchar, 1, ⟨['l', 'a', 't', 'i', 'n', '1'], 1, 1⟩⟩ : CharColumn).StoresWhole
      latin1Conversions latin1 [0xE9] :=
  (storesWhole_iff ⟨by decide, by decide, by decide, by decide⟩ (latin1_lawful rfl)
    latin1Conversions_lawful).mpr
    (.inr ⟨⟨[0xE9], rfl, by decide⟩, (by decide : isSurrogate 0xE9 = false), by decide,
      .inr ⟨[0xE9], rfl, by decide⟩⟩)

/-- Of three letters a CHAR(2) keeps two, without an error. -/
theorem not_storesWhole_abc :
    ¬ ∀ (conversions : Conversions) (charset : Charset) (col : CharColumn) (strval : CodeUnits),
      col.WellFormed → charset.Lawful col.csinfo → conversions.Lawful charset →
        col.StoresWhole conversions charset strval := by
  intro hclaim
  have hstores := hclaim latin1Conversions latin1
    ⟨.char, 2, ⟨['l', 'a', 't', 'i', 'n', '1'], 1, 1⟩⟩ [0x61, 0x62, 0x63]
    ⟨by decide, by decide, by decide, by decide⟩ (latin1_lawful rfl) latin1Conversions_lawful
  refine (hstores (fun _ => 0) 0).2 ?_ rfl
  rintro ⟨bytes, hbytes, hfits⟩
  have hform : encodedString latin1 ⟨['l', 'a', 't', 'i', 'n', '1'], 1, 1⟩ [0x61, 0x62, 0x63] =
      some [0x61, 0x62, 0x63] := rfl
  rw [hform] at hbytes
  cases Option.some.inj hbytes
  exact absurd hfits (by decide)

end DatabaseJones.Ndb
