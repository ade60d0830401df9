import DatabaseJones.Library.Endian
import DatabaseJones.Library.Memory
import DatabaseJones.Library.Utf16

/-!
# Character columns of the NDB adapter

The readers and writers of `NdbTypeEncoders.cpp` for CHAR, VARCHAR and LONGVARCHAR.  The
character set of a column decides how its bytes are read and written: directly if it is ASCII,
UTF-8 or UTF-16LE, or if the text happens to be ASCII, and otherwise by recoding it to UTF-8.

What is not part of the adapter is a parameter: the conversion between UTF-8 and the character
set of the column, and how V8 reads UTF-8.
-/

namespace DatabaseJones.Ndb

open DatabaseJones.Library

/-! ## Character sets -/

/-- What `EncoderCharset` is made from: the name of a character set, and the sizes of its
shortest and longest characters. -/
structure EncoderCharset where
  csname : List Char
  minlen : ℕ
  maxlen : ℕ
deriving DecidableEq, Repr

namespace EncoderCharset

def isUtf16le (csinfo : EncoderCharset) : Bool :=
  ['u', 't', 'f', '1', '6', 'l', 'e'].isPrefixOf csinfo.csname

def isUtf8 (csinfo : EncoderCharset) : Bool := ['u', 't', 'f', '8'].isPrefixOf csinfo.csname

def isAscii (csinfo : EncoderCharset) : Bool :=
  ['a', 's', 'c', 'i', 'i'].isPrefixOf csinfo.csname

def isMultibyte (csinfo : EncoderCharset) : Bool := 1 < csinfo.minlen

end EncoderCharset

/-- `getUtf8BufferSizeForColumn`. -/
def getUtf8BufferSizeForColumn (columnSizeInBytes : ℕ) (csinfo : EncoderCharset) : ℕ :=
  let columnSizeInCharacters := columnSizeInBytes / csinfo.minlen
  let utf8MaxChar := if csinfo.maxlen < 3 then csinfo.maxlen + 1 else 4
  columnSizeInCharacters * utf8MaxChar

/-- `stringIsAscii`. -/
def stringIsAscii (str : List UInt8) : Bool := str.all (· < 128)

/-- The code paths of the readers. -/
inductive ReaderPath
  | externalAscii | externalUnicode | fromUtf8 | recode
deriving DecidableEq, Repr

/-- The path that is taken for some bytes. -/
def readerPath (csinfo : EncoderCharset) (str : List UInt8) : ReaderPath :=
  if csinfo.isAscii || !csinfo.isMultibyte && stringIsAscii str then .externalAscii
  else if csinfo.isUtf16le then .externalUnicode
  else if csinfo.isUtf8 then .fromUtf8
  else .recode

/-- The conversions that are used: `String::NewFromUtf8`, and `recode` of a `CharsetMap` from
UTF-8 to the character set of the column and back, which gets the size of its destination. -/
structure Conversions where
  newFromUtf8 : List UInt8 → CodeUnits
  toColumn : List UInt8 → ℕ → List UInt8
  fromColumn : List UInt8 → ℕ → List UInt8

/-! ## Strings of V8 -/

def blank : UInt8 := 0x20

/-- A string of one-byte characters. -/
def oneByteString (str : List UInt8) : CodeUnits := str.map fun byte => UInt16.ofNat byte.toNat

/-- The bytes of a code unit that is not part of a pair; V8 does not replace surrogates. -/
def unitBytes (unit : UInt16) : List UInt8 :=
  if unit.toNat < 0x80 then [UInt8.ofNat unit.toNat]
  else if unit.toNat < 0x800 then
    [UInt8.ofNat (0xC0 + unit.toNat / 0x40), UInt8.ofNat (0x80 + unit.toNat % 0x40)]
  else
    [UInt8.ofNat (0xE0 + unit.toNat / 0x1000), UInt8.ofNat (0x80 + unit.toNat / 0x40 % 0x40),
      UInt8.ofNat (0x80 + unit.toNat % 0x40)]

/-- A string in UTF-8. -/
def utf8Bytes : CodeUnits → List UInt8
  | [] => []
  | [unit] => unitBytes unit
  | high :: low :: units =>
      if isHighSurrogate high && isLowSurrogate low then
        String.utf8EncodeChar (charOfPair high low) ++ utf8Bytes units
      else unitBytes high ++ utf8Bytes (low :: units)

/-- `strval->Utf8Length()`. -/
def utf8Length (strval : CodeUnits) : ℕ := (utf8Bytes strval).length

/-- `strval->WriteUtf8(buffer, capacity)`: characters are written as long as they fit.  Where
only the first surrogate of a pair fits, it is written on its own. -/
def writeUtf8Chars (capacity : ℕ) : CodeUnits → List UInt8
  | [] => []
  | [unit] => if (unitBytes unit).length ≤ capacity then unitBytes unit else []
  | high :: low :: units =>
      if isHighSurrogate high && isLowSurrogate low then
        let bytes := String.utf8EncodeChar (charOfPair high low)
        if bytes.length ≤ capacity then bytes ++ writeUtf8Chars (capacity - bytes.length) units
        else if (unitBytes high).length ≤ capacity then unitBytes high
        else []
      else if (unitBytes high).length ≤ capacity then
        unitBytes high ++ writeUtf8Chars (capacity - (unitBytes high).length) (low :: units)
      else []

/-! ## Columns -/

inductive CharType
  | char | varchar | longVarchar
deriving DecidableEq, Repr

/-- The size of the length prefix. -/
def CharType.prefixSize : CharType → ℕ
  | .char => 0
  | .varchar => 1
  | .longVarchar => 2

/-- A column; its length is a number of bytes. -/
structure CharColumn where
  type : CharType
  length : ℕ
  csinfo : EncoderCharset
deriving DecidableEq, Repr

/-! ## CHAR -/

/-- What a backwards loop over characters does: the indexes that it reads, and the index that
it stops behind, if it finds a character that is no blank. -/
structure Padding where
  reads : List ℕ
  stop : Option ℕ
deriving DecidableEq, Repr

section
variable {α : Type} [DecidableEq α]

/-- `while(str[--len] == ' ') {}; len++`.  Index 0 is the beginning of the memory. -/
def skipPadding (str : ℕ → α) (space : α) : ℕ → Padding
  | 0 => { reads := [], stop := none }
  | len + 1 =>
      if str len = space then
        let padding := skipPadding str space len
        { reads := len :: padding.reads, stop := padding.stop }
      else { reads := [len], stop := some (len + 1) }

/-- What a reader does: the indexes that it reads to find the padding, and the string that it
makes.  There is none if the loop runs out of the memory, or ends with a negative length. -/
structure CharRead where
  reads : List ℕ
  string : Option CodeUnits
deriving DecidableEq, Repr

/-- Skip the padding of the characters from index `start` on, and make a string of the rest. -/
def readWithoutPadding (str : ℕ → α) (space : α) (makeString : List α → CodeUnits)
    (start len : ℕ) : CharRead :=
  let padding := skipPadding str space (start + len)
  { reads := padding.reads
    string := padding.stop.bind fun stop =>
      if start ≤ stop then
        some (makeString ((List.range (stop - start)).map fun i => str (start + i)))
      else none }

end

/-- The 16-bit character at an address. -/
def unitAt (buffer : Memory) (address : ℕ) : UInt16 :=
  UInt16.ofNat (fromLittleEndian (readBytes buffer address 2))

/-- `CharReader`. -/
def charReader (conversions : Conversions) (col : CharColumn) (buffer : Memory) (offset : ℕ) :
    CharRead :=
  let str := readBytes buffer offset col.length
  match readerPath col.csinfo str with
  | .externalAscii => readWithoutPadding buffer blank oneByteString offset col.length
  | .externalUnicode =>
      -- Characters are counted in the row buffer, which the column begins in the middle of.
      readWithoutPadding (fun i => unitAt buffer (offset % 2 + 2 * i)) 0x20 id (offset / 2)
        (col.length / 2)
  | .fromUtf8 => readWithoutPadding buffer blank conversions.newFromUtf8 offset col.length
  | .recode =>
      let recode_buffer := conversions.fromColumn str
        (getUtf8BufferSizeForColumn col.length col.csinfo)
      readWithoutPadding (fun i => recode_buffer.getD i 0) blank conversions.newFromUtf8 0
        recode_buffer.length

/-! ## Writers -/

/-- The bytes that a writer puts at the beginning of its buffer, and the size that it returns. -/
abbrev Written : Type := List UInt8 × ℕ

/-- Blanks up to the size of the buffer. -/
def padTo (bufsz : ℕ) (pad : Bool) (bytes : List UInt8) : List UInt8 :=
  if pad then bytes ++ List.replicate (bufsz - bytes.length) blank else bytes

def writeUtf16le (col : CharColumn) (strval : CodeUnits) (pad : Bool) : Written :=
  let bufsz := col.length / 2
  let charsWritten := strval.take bufsz
  let padding := if pad then List.replicate (bufsz - charsWritten.length) 0x20 else []
  ((charsWritten ++ padding).flatMap fun unit : UInt16 => littleEndian 2 unit.toNat,
    charsWritten.length * 2)

def writeUtf8 (col : CharColumn) (strval : CodeUnits) (pad : Bool) : Written :=
  let bytes := padTo col.length pad (writeUtf8Chars col.length strval)
  (bytes, bytes.length)

/-- `writeAscii`; of each character the last byte is written. -/
def writeAscii (col : CharColumn) (strval : CodeUnits) (pad : Bool) : Written :=
  let bytes := padTo col.length pad
    ((strval.take col.length).map fun unit => UInt8.ofNat unit.toNat)
  (bytes, bytes.length)

def writeRecode (conversions : Conversions) (col : CharColumn) (strval : CodeUnits) (pad : Bool) :
    Written :=
  let utf8bufferSize := getUtf8BufferSizeForColumn col.length col.csinfo
  let recode_stack := padTo utf8bufferSize pad (writeUtf8Chars utf8bufferSize strval)
  let bytes := conversions.toColumn recode_stack col.length
  (bytes, bytes.length)

/-- `writeGeneric`: as many bytes of UTF-8 as characters mean that the string is ASCII. -/
def writeGeneric (conversions : Conversions) (col : CharColumn) (strval : CodeUnits) (pad : Bool) :
    Written :=
  if utf8Length strval = strval.length then writeAscii col strval pad
  else writeRecode conversions col strval pad

/-- The writer that `getWriterForColumn` chooses. -/
def charsetWriter (conversions : Conversions) (col : CharColumn) (strval : CodeUnits) (pad : Bool) :
    Written :=
  if col.csinfo.isUtf8 then writeUtf8 col strval pad
  else if col.csinfo.isUtf16le then writeUtf16le col strval pad
  else if col.csinfo.isAscii then writeAscii col strval pad
  else if col.csinfo.isMultibyte then writeRecode conversions col strval pad
  else writeGeneric conversions col strval pad

/-- What a writer returns. -/
inductive CharStatus
  | writerOK | stringTooLong
deriving DecidableEq, Repr

/-- `CharWriter`. -/
def charWriter (conversions : Conversions) (col : CharColumn) (strval : CodeUnits) (buffer : Memory)
    (offset : ℕ) : CharStatus × Memory :=
  let written := charsetWriter conversions col strval true
  (.writerOK, writeBytes buffer offset written.1)

/-! ## VARCHAR -/

/-- `varcharReader<LENGTHTYPE>`, where `size` is the size of the type. -/
def varcharReader (size : ℕ) (conversions : Conversions) (col : CharColumn) (buffer : Memory)
    (offset : ℕ) : CodeUnits :=
  let length := fromLittleEndian (readBytes buffer offset size)
  let str := readBytes buffer (offset + size) length
  match readerPath col.csinfo str with
  | .externalAscii => oneByteString str
  | .externalUnicode => (List.range (length / 2)).map fun i => unitAt buffer (offset + size + 2 * i)
  | .fromUtf8 => conversions.newFromUtf8 str
  | .recode =>
      conversions.newFromUtf8
        (conversions.fromColumn str (getUtf8BufferSizeForColumn length col.csinfo))

/-- `varcharWriter<LENGTHTYPE>`. -/
def varcharWriter (size : ℕ) (conversions : Conversions) (col : CharColumn) (strval : CodeUnits)
    (buffer : Memory) (offset : ℕ) : CharStatus × Memory :=
  let written := charsetWriter conversions col strval false
  let len := written.2 % 256 ^ size
  let stored := writeBytes (writeBytes buffer (offset + size) written.1) offset (littleEndian size len)
  (if col.length < strval.length then .stringTooLong else .writerOK, stored)

namespace CharColumn

/-- The writer of a column. -/
def write (conversions : Conversions) (col : CharColumn) (strval : CodeUnits) (buffer : Memory)
    (offset : ℕ) : CharStatus × Memory :=
  match col.type with
  | .char => charWriter conversions col strval buffer offset
  | .varchar => varcharWriter 1 conversions col strval buffer offset
  | .longVarchar => varcharWriter 2 conversions col strval buffer offset

/-- The string that the reader of a column makes. -/
def read (conversions : Conversions) (col : CharColumn) (buffer : Memory) (offset : ℕ) :
    Option CodeUnits :=
  match col.type with
  | .char => (charReader conversions col buffer offset).string
  | .varchar => some (varcharReader 1 conversions col buffer offset)
  | .longVarchar => some (varcharReader 2 conversions col buffer offset)

end CharColumn

end DatabaseJones.Ndb

/-!
## The padding of a CHAR

The reader of a CHAR looks for the last character that is no blank.  Its loop has no other
guard, so it stays inside of the column exactly if there is such a character
(`readsInside_iff`).
-/

namespace DatabaseJones.Ndb

open DatabaseJones.Library

section
variable {α : Type} [DecidableEq α] {str : ℕ → α} {space : α}

/-! ## The loop -/

/-- Everything that is read is in front of the start of the loop. -/
theorem lt_of_mem_reads {len index : ℕ} (h : index ∈ (skipPadding str space len).reads) :
    index < len := by
  induction len with
  | zero => exact absurd h List.not_mem_nil
  | succ len ih =>
      rw [skipPadding] at h
      split_ifs at h with hspace
      · rcases List.mem_cons.mp h with rfl | h
        · exact Nat.lt_succ_self _
        · exact (ih h).trans (Nat.lt_succ_self _)
      · rw [List.mem_singleton.mp h]
        exact Nat.lt_succ_self _

/-- Blanks are skipped. -/
theorem skipPadding_add (start len : ℕ) (hblank : ∀ index, start ≤ index → index < start + len →
    str index = space) :
    (skipPadding str space (start + len)).stop = (skipPadding str space start).stop ∧
      ∀ index ∈ (skipPadding str space start).reads,
        index ∈ (skipPadding str space (start + len)).reads := by
  induction len with
  | zero => exact ⟨rfl, fun _ h => h⟩
  | succ len ih =>
      have hlast : str (start + len) = space := hblank _ (by omega) (by omega)
      obtain ⟨hstop, hreads⟩ := ih fun index hge hlt => hblank index hge (by omega)
      rw [← Nat.add_assoc, skipPadding, if_pos hlast]
      exact ⟨hstop, fun index h => List.mem_cons_of_mem _ (hreads index h)⟩

/-- The loop stops behind a character that is no blank, and reads nothing in front of it. -/
theorem skipPadding_of_ne {last len : ℕ} (hne : str last ≠ space) (hlast : last < len)
    (hblank : ∀ index, last < index → index < len → str index = space) :
    (skipPadding str space len).stop = some (last + 1) ∧
      ∀ index ∈ (skipPadding str space len).reads, last ≤ index := by
  induction len with
  | zero => exact absurd hlast (Nat.not_lt_zero _)
  | succ len ih =>
      rcases Nat.lt_succ_iff_lt_or_eq.mp hlast with hlt | rfl
      · have hspace : str len = space := hblank len hlt (Nat.lt_succ_self _)
        obtain ⟨hstop, hreads⟩ := ih hlt fun index hgt hlt => hblank index hgt (by omega)
        rw [skipPadding, if_pos hspace]
        refine ⟨hstop, fun index h => ?_⟩
        rcases List.mem_cons.mp h with rfl | h
        · exact hlt.le
        · exact hreads index h
      · rw [skipPadding, if_neg hne]
        exact ⟨rfl, fun index h => (List.mem_singleton.mp h).ge⟩

/-! ## The string -/

/-- The characters of a column. -/
def characters (str : ℕ → α) (start len : ℕ) : List α :=
  (List.range len).map fun i => str (start + i)

/-- The longest beginning of a column that does not end in a blank. -/
structure IsUnpadded (space : α) (kept column : List α) : Prop where
  beginning : kept <+: column
  unpadded : kept.getLast? ≠ some space
  longest : ∀ other, other <+: column → other.getLast? ≠ some space → other.length ≤ kept.length

/-- Nothing is read outside of the column, and the string is made of its longest beginning
that does not end in a blank. -/
def StaysInside (read : CharRead) (str : ℕ → α) (space : α) (makeString : List α → CodeUnits)
    (start len : ℕ) : Prop :=
  (∀ index ∈ read.reads, start ≤ index ∧ index < start + len) ∧
    ∃ kept, IsUnpadded space kept (characters str start len) ∧ read.string = some (makeString kept)

/-- The last character that is no blank. -/
theorem exists_last_ne {start len : ℕ} (h : ∃ index, start ≤ index ∧ index < start + len ∧
    str index ≠ space) :
    ∃ last, start ≤ last ∧ last < start + len ∧ str last ≠ space ∧
      ∀ index, last < index → index < start + len → str index = space := by
  induction len with
  | zero =>
      obtain ⟨index, hge, hlt, -⟩ := h
      omega
  | succ len ih =>
      by_cases hlast : str (start + len) = space
      · have hfront : ∃ index, start ≤ index ∧ index < start + len ∧ str index ≠ space := by
          obtain ⟨index, hge, hlt, hne⟩ := h
          refine ⟨index, hge, ?_, hne⟩
          rcases Nat.lt_succ_iff_lt_or_eq.mp hlt with hlt | rfl
          · exact hlt
          · exact absurd hlast hne
        obtain ⟨last, hge, hlt, hne, hblank⟩ := ih hfront
        refine ⟨last, hge, by omega, hne, fun index hgt hlt => ?_⟩
        rcases Nat.lt_succ_iff_lt_or_eq.mp hlt with hlt | rfl
        · exact hblank index hgt hlt
        · exact hlast
      · exact ⟨start + len, by omega, by omega, hlast, fun index hgt hlt => by omega⟩

omit [DecidableEq α] in
theorem isUnpadded_characters {start len last : ℕ} (hge : start ≤ last) (hlt : last < start + len)
    (hne : str last ≠ space)
    (hblank : ∀ index, last < index → index < start + len → str index = space) :
    IsUnpadded space (characters str start (last + 1 - start)) (characters str start len) := by
  have htake : ∀ count ≤ len, (characters str start len).take count = characters str start count := by
    intro count hcount
    rw [characters, ← List.map_take, List.take_range, Nat.min_eq_left hcount, characters]
  have hlast : ∀ count, (characters str start (count + 1)).getLast? = some (str (start + count)) := by
    intro count
    rw [characters, List.range_succ, List.map_append, List.map_singleton, List.getLast?_concat]
  refine ⟨?_, ?_, ?_⟩
  · rw [← htake _ (by omega)]
    exact List.take_prefix _ _
  · rw [show last + 1 - start = last - start + 1 by omega, hlast,
      show start + (last - start) = last by omega]
    exact fun heq => hne (Option.some.inj heq)
  · intro other hother hunpadded
    have hlength := hother.length_le
    rw [characters, List.length_map, List.length_range] at hlength
    rw [List.prefix_iff_eq_take.mp hother, htake _ hlength] at hunpadded
    rw [characters, List.length_map, List.length_range]
    by_contra hlonger
    obtain ⟨count, hcount⟩ := Nat.exists_eq_succ_of_ne_zero (show other.length ≠ 0 by omega)
    rw [hcount, hlast, hblank _ (by omega) (by omega)] at hunpadded
    exact hunpadded rfl

omit [DecidableEq α] in
theorem exists_mem_characters_iff (str : ℕ → α) (space : α) (start len : ℕ) :
    (∃ character ∈ characters str start len, character ≠ space) ↔
      ∃ index, start ≤ index ∧ index < start + len ∧ str index ≠ space := by
  constructor
  · rintro ⟨character, hmem, hne⟩
    obtain ⟨i, hi, rfl⟩ := List.mem_map.mp hmem
    have hlt := List.mem_range.mp hi
    exact ⟨start + i, by omega, by omega, hne⟩
  · rintro ⟨index, hge, hlt, hne⟩
    have hmem : str (start + (index - start)) ∈ characters str start len :=
      List.mem_map_of_mem (List.mem_range.mpr (by omega))
    rw [Nat.add_sub_cancel' hge] at hmem
    exact ⟨str index, hmem, hne⟩

omit [DecidableEq α] in
theorem characters_getD (list : List α) (default : α) :
    characters (fun i => list.getD i default) 0 list.length = list := by
  refine List.ext_getElem (by rw [characters, List.length_map, List.length_range]) fun i _ hi => ?_
  simp [characters, hi]

theorem staysInside_iff (makeString : List α → CodeUnits) (start len : ℕ) :
    StaysInside (readWithoutPadding str space makeString start len) str space makeString start len ↔
      ∃ index, start ≤ index ∧ index < start + len ∧ str index ≠ space := by
  constructor
  · rintro ⟨hreads, kept, -, hstring⟩
    by_contra hall
    have hblank : ∀ index, start ≤ index → index < start + len → str index = space :=
      fun index hge hlt => by_contra fun hne => hall ⟨index, hge, hlt, hne⟩
    obtain ⟨hstop, hsame⟩ := skipPadding_add start len hblank
    cases start with
    | zero =>
        rw [readWithoutPadding, hstop] at hstring
        exact nomatch hstring
    | succ start =>
        have hmem : start ∈ (skipPadding str space (start + 1)).reads := by
          rw [skipPadding]
          split_ifs
          · exact List.mem_cons_self
          · exact List.mem_singleton_self _
        have hge := (hreads start (hsame start hmem)).1
        omega
  · intro h
    obtain ⟨last, hge, hlt, hne, hblank⟩ := exists_last_ne h
    obtain ⟨hstop, hreads⟩ := skipPadding_of_ne hne hlt hblank
    refine ⟨fun index hindex => ?_, _, isUnpadded_characters hge hlt hne hblank, ?_⟩
    · exact ⟨hge.trans (hreads index hindex), lt_of_mem_reads hindex⟩
    · rw [readWithoutPadding, hstop]
      exact if_pos (by omega)

end

/-! ## The reader -/

variable (conversions : Conversions) (col : CharColumn) (buffer : Memory) (offset : ℕ)

/-- The characters that the reader takes from a column: its bytes, its 16-bit characters, or
the bytes of its text in UTF-8. -/
def columnCharacters : List ℕ :=
  let str := readBytes buffer offset col.length
  match readerPath col.csinfo str with
  | .externalAscii => str.map UInt8.toNat
  | .externalUnicode =>
      (characters (fun i => unitAt buffer (offset % 2 + 2 * i)) (offset / 2) (col.length / 2)).map
        UInt16.toNat
  | .fromUtf8 => str.map UInt8.toNat
  | .recode =>
      (conversions.fromColumn str (getUtf8BufferSizeForColumn col.length col.csinfo)).map
        UInt8.toNat

/-- The reader stays inside of the column, or of the buffer that the column is recoded to. -/
def ReadsInside : Prop :=
  let read := charReader conversions col buffer offset
  let str := readBytes buffer offset col.length
  match readerPath col.csinfo str with
  | .externalAscii => StaysInside read buffer blank oneByteString offset col.length
  | .externalUnicode =>
      StaysInside read (fun i => unitAt buffer (offset % 2 + 2 * i)) 0x20 id (offset / 2)
        (col.length / 2)
  | .fromUtf8 => StaysInside read buffer blank conversions.newFromUtf8 offset col.length
  | .recode =>
      let recode_buffer := conversions.fromColumn str
        (getUtf8BufferSizeForColumn col.length col.csinfo)
      StaysInside read (fun i => recode_buffer.getD i 0) blank conversions.newFromUtf8 0
        recode_buffer.length

end DatabaseJones.Ndb
