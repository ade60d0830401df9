import DatabaseJones.Library.Endian
import DatabaseJones.Library.Memory

/-!
# Binary columns of the NDB adapter

The readers and writers of `NdbTypeEncoders.cpp` for BINARY, VARBINARY and LONGVARBINARY.  The
writer of a VARBINARY converts the length of the value and that of the column to the type of
the length prefix before it compares them.  So it stores the beginning of a value exactly if
both fit (`storesBeginning_iff`).
-/

namespace DatabaseJones.Ndb

open DatabaseJones.Library

/-! ## Readers and writers -/

/-- A value from JavaScript: a `Buffer`, or anything else. -/
inductive BinaryValue
  | buffer (data : List UInt8)
  | other
deriving DecidableEq, Repr

/-- What a writer returns. -/
inductive BinaryStatus
  | writerOK
  | badBlob
  | dataError
deriving DecidableEq, Repr

/-- `BinaryReader`. -/
def binaryReader (length : ℕ) (buffer : Memory) (offset : ℕ) : List UInt8 :=
  readBytes buffer offset length

/-- `BinaryWriter`.  Lengths are converted to `uint32_t`. -/
def binaryWriter (length : ℕ) (value : BinaryValue) (buffer : Memory) (offset : ℕ) :
    BinaryStatus × Memory :=
  match value with
  | .buffer data =>
      let col_len := length % 2 ^ 32
      let data_len := data.length % 2 ^ 32
      let ncopied := if data_len < col_len then data_len else col_len
      let copied := writeBytes buffer offset (data.take ncopied)
      if ncopied < col_len then
        (.writerOK, writeBytes copied (offset + ncopied) (List.replicate (col_len - ncopied) 0))
      else (.writerOK, copied)
  | .other => (.badBlob, buffer)

/-- `varbinaryReader<LENGTHTYPE>`, where `size` is the size of the type. -/
def varbinaryReader (size : ℕ) (buffer : Memory) (offset : ℕ) : List UInt8 :=
  let length := fromLittleEndian (readBytes buffer offset size)
  readBytes buffer (offset + size) length

/-- `varbinaryWriter<LENGTHTYPE>`.  Lengths are converted to the type. -/
def varbinaryWriter (size length : ℕ) (value : BinaryValue) (buffer : Memory) (offset : ℕ) :
    BinaryStatus × Memory :=
  match value with
  | .buffer data =>
      let col_len := length % 256 ^ size
      let data_len := data.length % 256 ^ size
      let data_len := if col_len < data_len then col_len else data_len
      let stored := writeBytes buffer offset (littleEndian size data_len)
      (.writerOK, writeBytes stored (offset + size) (data.take data_len))
  | .other => (.dataError, buffer)

/-! ## Column types -/

inductive BinaryColumn
  | binary
  | varbinary
  | longVarbinary
deriving DecidableEq, Repr

namespace BinaryColumn

/-- The size of the length prefix. -/
def prefixSize : BinaryColumn → ℕ
  | .binary => 0
  | .varbinary => 1
  | .longVarbinary => 2

def read (type : BinaryColumn) (length : ℕ) (buffer : Memory) (offset : ℕ) : List UInt8 :=
  match type with
  | .binary => binaryReader length buffer offset
  | .varbinary => varbinaryReader 1 buffer offset
  | .longVarbinary => varbinaryReader 2 buffer offset

def write (type : BinaryColumn) (length : ℕ) (value : BinaryValue) (buffer : Memory) (offset : ℕ) :
    BinaryStatus × Memory :=
  match type with
  | .binary => binaryWriter length value buffer offset
  | .varbinary => varbinaryWriter 1 length value buffer offset
  | .longVarbinary => varbinaryWriter 2 length value buffer offset

/-- The size of the type that lengths are converted to. -/
def lengthSize : BinaryColumn → ℕ
  | .binary => 4
  | .varbinary => 1
  | .longVarbinary => 2

/-- What a column of the type makes of the beginning of a value that it keeps. -/
def padded (type : BinaryColumn) (length : ℕ) (kept : List UInt8) : List UInt8 :=
  match type with
  | .binary => kept ++ List.replicate (length - kept.length) 0
  | .varbinary => kept
  | .longVarbinary => kept

/-- The beginning of the value is stored with its length, nothing outside of the column is
written, and the reader gives the beginning back. -/
structure Keeps (type : BinaryColumn) (length : ℕ) (data : List UInt8) (buffer written : Memory)
    (offset : ℕ) : Prop where
  stored : readBytes written (offset + type.prefixSize) (data.take length).length = data.take length
  lengthPrefix : readBytes written offset type.prefixSize =
    littleEndian type.prefixSize (data.take length).length
  read : type.read length written offset = type.padded length (data.take length)
  outside : ∀ address, address < offset ∨ offset + type.prefixSize + length ≤ address →
    written address = buffer address

/-- The conversion of a length keeps it. -/
def ConvertsLength (type : BinaryColumn) (length : ℕ) : Prop :=
  length % 256 ^ type.lengthSize = length

/-- A write that is accepted stores the first bytes of the buffer, as many as the column has,
and no conversion of a length wraps. -/
def StoresBeginning (type : BinaryColumn) (length : ℕ) (value : BinaryValue) : Prop :=
  ∀ (buffer : Memory) (offset : ℕ), (type.write length value buffer offset).1 = .writerOK →
    ∃ data, value = .buffer data ∧
      type.Keeps length data buffer (type.write length value buffer offset).2 offset ∧
      type.ConvertsLength data.length ∧ type.ConvertsLength length

end BinaryColumn

/-! ## What is stored -/

variable {length offset : ℕ} {data : List UInt8} {buffer : Memory}

theorem keeps_varbinary {type : BinaryColumn} {size : ℕ} (hsize : type.prefixSize = size)
    (hread : ∀ buffer offset, type.read length buffer offset = varbinaryReader size buffer offset)
    (hpadded : ∀ kept, type.padded length kept = kept) (hdata : data.length < 256 ^ size)
    (hlength : length < 256 ^ size) :
    type.Keeps length data buffer (varbinaryWriter size length (.buffer data) buffer offset).2
      offset := by
  have hkept : (data.take length).length = if length < data.length then length else data.length := by
    rw [List.length_take]
    split_ifs <;> omega
  have hwritten : (varbinaryWriter size length (.buffer data) buffer offset).2 =
      writeBytes (writeBytes buffer offset (littleEndian size (data.take length).length))
        (offset + size) (data.take length) := by
    have htake : data.take (if length < data.length then length else data.length) =
        data.take length := by
      split_ifs with hlt
      · rfl
      · rw [List.take_length, List.take_of_length_le (Nat.le_of_not_lt hlt)]
    simp only [varbinaryWriter, Nat.mod_eq_of_lt hdata, Nat.mod_eq_of_lt hlength, htake, hkept]
  have hstored := readBytes_writeBytes_self
    (writeBytes buffer offset (littleEndian size (data.take length).length)) (offset + size)
    (data.take length)
  have hlengthBytes : readBytes (writeBytes (writeBytes buffer offset
      (littleEndian size (data.take length).length)) (offset + size) (data.take length)) offset size =
        littleEndian size (data.take length).length := by
    rw [readBytes_writeBytes (.inl le_rfl)]
    have hself := readBytes_writeBytes_self buffer offset
      (littleEndian size (data.take length).length)
    rwa [length_littleEndian] at hself
  have hsmall : (data.take length).length < 256 ^ size :=
    (List.length_take_le length data).trans_lt hlength
  refine ⟨?_, ?_, ?_, ?_⟩
  · rw [hwritten, hsize, hstored]
  · rw [hwritten, hsize, hlengthBytes]
  · rw [hread, hpadded, varbinaryReader, hwritten, hlengthBytes, fromLittleEndian_littleEndian,
      Nat.mod_eq_of_lt hsmall, hstored]
  · intro address haddress
    have hle := List.length_take_le length data
    rw [hwritten]
    rw [hsize] at haddress
    rcases haddress with hbefore | hbehind
    · rw [writeBytes_of_lt _ (by omega), writeBytes_of_lt _ hbefore]
    · rw [writeBytes_of_ge (by omega), writeBytes_of_ge (by rw [length_littleEndian]; omega)]

theorem keeps_binary (hdata : data.length < 2 ^ 32) (hlength : length < 2 ^ 32) :
    BinaryColumn.Keeps .binary length data buffer
      (binaryWriter length (.buffer data) buffer offset).2 offset := by
  have hle := List.length_take_le length data
  have hkept : (data.take length).length = if data.length < length then data.length else length := by
    rw [List.length_take]
    split_ifs <;> omega
  have htake : data.take (data.take length).length = data.take length := by
    rw [hkept]
    split_ifs with hlt
    · rw [List.take_length, List.take_of_length_le hlt.le]
    · rfl
  have hwritten : (binaryWriter length (.buffer data) buffer offset).2 =
      writeBytes (writeBytes buffer offset (data.take length)) (offset + (data.take length).length)
        (List.replicate (length - (data.take length).length) 0) := by
    simp only [binaryWriter, Nat.mod_eq_of_lt hdata, Nat.mod_eq_of_lt hlength, ← hkept, htake]
    split_ifs with hlt
    · rfl
    · rw [Nat.sub_eq_zero_of_le (Nat.le_of_not_lt hlt), List.replicate_zero, writeBytes_nil]
  refine ⟨?_, ?_, ?_, ?_⟩
  · rw [hwritten]
    exact (readBytes_writeBytes (.inl le_rfl)).trans (readBytes_writeBytes_self _ _ _)
  · rfl
  · rw [hwritten, writeBytes_writeBytes]
    have hself := readBytes_writeBytes_self buffer offset
      (BinaryColumn.padded .binary length (data.take length))
    have hpadded : (BinaryColumn.padded .binary length (data.take length)).length = length := by
      rw [BinaryColumn.padded, List.length_append, List.length_replicate]
      omega
    rwa [hpadded] at hself
  · intro address haddress
    rw [hwritten, writeBytes_writeBytes]
    rcases haddress with hbefore | hbehind
    · exact writeBytes_of_lt _ hbefore
    · refine writeBytes_of_ge ?_
      rw [List.length_append, List.length_replicate]
      rw [BinaryColumn.prefixSize] at hbehind
      omega

/-! ## Which values are stored -/

/-- The status is that of a `Buffer`. -/
theorem write_status (type : BinaryColumn) (length : ℕ) (value : BinaryValue) (buffer : Memory)
    (offset : ℕ) :
    (type.write length value buffer offset).1 = .writerOK ↔ ∃ data, value = .buffer data := by
  cases value with
  | buffer data =>
      refine iff_of_true ?_ ⟨data, rfl⟩
      cases type with
      | binary =>
          simp only [BinaryColumn.write, binaryWriter]
          split_ifs <;> rfl
      | varbinary => rfl
      | longVarbinary => rfl
  | other => cases type <;> simp [BinaryColumn.write, binaryWriter, varbinaryWriter]

theorem keeps_of_fits {type : BinaryColumn} (hdata : data.length < 256 ^ type.lengthSize)
    (hlength : length < 256 ^ type.lengthSize) :
    type.Keeps length data buffer (type.write length (.buffer data) buffer offset).2 offset := by
  cases type with
  | binary => exact keeps_binary hdata hlength
  | varbinary => exact keeps_varbinary rfl (fun _ _ => rfl) (fun _ => rfl) hdata hlength
  | longVarbinary => exact keeps_varbinary rfl (fun _ _ => rfl) (fun _ => rfl) hdata hlength

theorem convertsLength_iff (type : BinaryColumn) (length : ℕ) :
    type.ConvertsLength length ↔ length < 256 ^ type.lengthSize := by
  have hpos : 0 < 256 ^ type.lengthSize := Nat.pow_pos (by decide)
  constructor
  · intro hconverts
    rw [← hconverts]
    exact Nat.mod_lt _ hpos
  · exact Nat.mod_eq_of_lt

/-- The beginning of a value is stored with its length if the value is no `Buffer`, or its
length and that of the column fit the length prefix, or 32 bits if there is none. -/
theorem storesBeginning_iff (type : BinaryColumn) (length : ℕ) (value : BinaryValue) :
    type.StoresBeginning length value ↔ ∀ data, value = .buffer data →
      data.length < 256 ^ type.lengthSize ∧ length < 256 ^ type.lengthSize := by
  constructor
  · rintro hstores data rfl
    obtain ⟨data', hvalue, -, hdata, hlength⟩ :=
      hstores (fun _ => 0) 0 ((write_status type length _ _ _).mpr ⟨data, rfl⟩)
    obtain rfl := BinaryValue.buffer.inj hvalue
    exact ⟨(convertsLength_iff type _).mp hdata, (convertsLength_iff type _).mp hlength⟩
  · intro hfits buffer offset hstatus
    obtain ⟨data, rfl⟩ := (write_status type length value buffer offset).mp hstatus
    obtain ⟨hdata, hlength⟩ := hfits data rfl
    exact ⟨data, rfl, keeps_of_fits hdata hlength, (convertsLength_iff type _).mpr hdata,
      (convertsLength_iff type _).mpr hlength⟩

/-- A VARBINARY of ten bytes keeps nothing of a buffer of 256 bytes. -/
theorem not_storesBeginning_varbinary :
    ¬ ∀ (type : BinaryColumn) (length : ℕ) (value : BinaryValue), type.StoresBeginning length value := by
  intro hclaim
  obtain ⟨data, hvalue, hkeeps, -⟩ :=
    hclaim .varbinary 10 (.buffer (List.replicate 256 7)) (fun _ => 0) 0 rfl
  obtain rfl := BinaryValue.buffer.inj hvalue
  exact absurd hkeeps.read (by decide +kernel)

end DatabaseJones.Ndb
