import DatabaseJones.Library.Utf16
import DatabaseJones.Library.Endian

/-!
# The values of JSON documents

The JavaScript values that `JSON.stringify` accepts, and what `JSON.parse` makes of the
text.  Numbers are doubles: integers by value, other finite numbers by their bits.
-/

namespace DatabaseJones.MySQLSerialize

open DatabaseJones.Library

/-! ## Numbers -/

/-- The exponent and mantissa fields of a double. -/
def exponentBits (bits : UInt64) : ℕ := bits.toNat / 2 ^ 52 % 2048

def mantissaBits (bits : UInt64) : ℕ := bits.toNat % 2 ^ 52

def signBit (bits : UInt64) : Bool := 2 ^ 63 ≤ bits.toNat

/-- The bits of a finite number that is not an integer: below one only zero is an integer,
and from `2 ^ 52` on all numbers are. -/
def IsFraction (bits : UInt64) : Prop :=
  if exponentBits bits < 1023 then ¬ (exponentBits bits = 0 ∧ mantissaBits bits = 0)
  else exponentBits bits < 1075 ∧ mantissaBits bits % 2 ^ (1075 - exponentBits bits) ≠ 0

instance (bits : UInt64) : Decidable (IsFraction bits) := by
  unfold IsFraction
  exact inferInstance

/-- A number of JavaScript. -/
inductive JsNumber
  | integer (value : ℤ)
  | negativeZero
  | fraction (bits : UInt64) (isFraction : IsFraction bits)
  | nan
  | infinity (negative : Bool)
deriving DecidableEq

/-- `Number.isInteger(value)`. -/
def JsNumber.isInteger : JsNumber → Bool
  | .integer _ => true
  | .negativeZero => true
  | _ => false

/-- The bits of a number that is not an integer. -/
def JsNumber.doubleBits : JsNumber → UInt64
  | .integer _ => 0
  | .negativeZero => 0x8000000000000000
  | .fraction bits _ => bits
  | .nan => 0x7FF8000000000000
  | .infinity false => 0x7FF0000000000000
  | .infinity true => 0xFFF0000000000000

/-- The magnitude of a double that is an integer. -/
def integerMagnitude (bits : UInt64) : ℕ :=
  if exponentBits bits < 1023 then 0
  else (2 ^ 52 + mantissaBits bits) * 2 ^ (exponentBits bits - 1023) / 2 ^ 52

/-- The number with the given bits. -/
def JsNumber.ofBits (bits : UInt64) : JsNumber :=
  if h : IsFraction bits then .fraction bits h
  else if exponentBits bits = 2047 then
    if mantissaBits bits = 0 then .infinity (signBit bits) else .nan
  else if integerMagnitude bits = 0 ∧ signBit bits then .negativeZero
  else .integer (if signBit bits then -(integerMagnitude bits : ℤ) else integerMagnitude bits)

/-! ## Values -/

/-- The values that `JSON.stringify` accepts, and `undefined`, for which functions stand as
well.  An array may have elements that were never set, and read as `undefined`; the
elements from `length` on are not part of it.  An object has a member for each of its keys. -/
inductive JsValue
  | undefined
  | hole
  | null
  | boolean (value : Bool)
  | number (value : JsNumber)
  | string (value : CodeUnits)
  | array (length : ℕ) (element : ℕ → JsValue)
  | object (keys : List CodeUnits) (nodup : keys.Nodup) (member : CodeUnits → JsValue)

/-- The values that `JSON.parse` returns; objects are equal if they have the same members,
in whatever order. -/
inductive Json
  | null
  | boolean (value : Bool)
  | number (value : JsNumber)
  | string (value : CodeUnits)
  | array (elements : List Json)
  | object (member : CodeUnits → Option Json)

/-- A number that is not finite becomes `null`, and the zeros are the same. -/
def JsNumber.throughJson : JsNumber → Json
  | .integer value => .number (.integer value)
  | .negativeZero => .number (.integer 0)
  | .fraction bits h => .number (.fraction bits h)
  | .nan => .null
  | .infinity _ => .null

/-- `JSON.parse(JSON.stringify(value))`.  There is no text for `undefined`; in an array it
becomes `null`, and in an object it is left out. -/
def JsValue.throughJson : JsValue → Option Json
  | .undefined => none
  | .hole => none
  | .null => some .null
  | .boolean value => some (.boolean value)
  | .number value => some value.throughJson
  | .string value => some (.string value)
  | .array length element =>
      some (.array ((List.range length).map fun i => (element i).throughJson.getD .null))
  | .object keys _ member =>
      some (.object fun key => if key ∈ keys then (member key).throughJson else none)

theorem JsNumber.ofBits_doubleBits {value : JsNumber} (h : value.isInteger = false) :
    JsNumber.ofBits value.doubleBits = value := by
  cases value with
  | integer value => exact absurd h (by simp [isInteger])
  | negativeZero => exact absurd h (by simp [isInteger])
  | fraction bits hfraction => rw [doubleBits, ofBits, dif_pos hfraction]
  | nan => decide
  | infinity negative => cases negative <;> decide

end DatabaseJones.MySQLSerialize

/-!
## The serializer of binary JSON

`serialize` of `MySQLSerialize.js`.  A container has a small form with 16-bit sizes and
offsets, and a large form with 32-bit ones, which is used when the small form would take
more than 65535 bytes.  Where the code throws there is no result.
-/

namespace DatabaseJones.MySQLSerialize

open DatabaseJones.Library

/-! ## Buffers -/

/-- The largest size of a buffer. -/
def kMaxLength : ℕ := 2147483647

/-- `Buffer.concat(buffers)`. -/
def concat (buffers : List (List UInt8)) : Option (List UInt8) :=
  if buffers.flatten.length ≤ kMaxLength then some buffers.flatten else none

/-- `writeUInt16LE(value)` for `width` 2, and `writeUInt32LE(value)` for `width` 4. -/
def writeUIntLE (width value : ℕ) : Option (List UInt8) :=
  if value < 256 ^ width then some (littleEndian width value) else none

/-- `writeInt16LE(value)` for `width` 2, and `writeInt32LE(value)` for `width` 4. -/
def writeIntLE (width : ℕ) (value : ℤ) : Option (List UInt8) :=
  if -256 ^ width ≤ 2 * value ∧ 2 * value < 256 ^ width then
    some (littleEndian width (value % 256 ^ width).toNat)
  else none

/-- `Buffer.from(string, 'utf8')`. -/
def bufferFromString (jsString : CodeUnits) : Option (List UInt8) := concat [utf8 jsString]

/-! ## Binary -/

/-- The types of binary values. -/
inductive BinaryType
  | smallObject | largeObject | smallArray | largeArray | literal
  | int16 | uint16 | int32 | uint32 | int64 | uint64 | double | string
deriving DecidableEq, Repr

/-- The code of a type. -/
def BinaryType.code : BinaryType → UInt8
  | .smallObject => 0x00
  | .largeObject => 0x01
  | .smallArray => 0x02
  | .largeArray => 0x03
  | .literal => 0x04
  | .int16 => 0x05
  | .uint16 => 0x06
  | .int32 => 0x07
  | .uint32 => 0x08
  | .int64 => 0x09
  | .uint64 => 0x0A
  | .double => 0x0B
  | .string => 0x0C

/-- `Binary`.  What is kept of the other properties depends on the type. -/
structure Binary where
  type : BinaryType
  buffer : List UInt8
deriving DecidableEq, Repr

/-- `inlineBufsize`. -/
def inlineBufsize : BinaryType → Option ℕ
  | .literal => some 1
  | .int16 => some 2
  | .uint16 => some 2
  | .int32 => some 4
  | .uint32 => some 4
  | _ => none

/-- `isInline(isLarge)`, with the size of the inline value. -/
def inlineSize (isLarge : Bool) (type : BinaryType) : Option ℕ :=
  (inlineBufsize type).filter fun size => isLarge || size < 4

/-- The width of sizes and offsets. -/
def offsetSize (isLarge : Bool) : ℕ := if isLarge then 4 else 2

def keyEntrySize (isLarge : Bool) : ℕ := if isLarge then 6 else 4

def valueEntrySize (isLarge : Bool) : ℕ := if isLarge then 5 else 3

def headerSize (isLarge : Bool) : ℕ := if isLarge then 8 else 4

/-- `writeHeader(count, size)`. -/
def writeHeader (isLarge : Bool) (count size : ℕ) : Option (List UInt8) := do
  let countBytes ← writeUIntLE (offsetSize isLarge) count
  let sizeBytes ← writeUIntLE (offsetSize isLarge) size
  pure (countBytes ++ sizeBytes)

/-! ## Scalars -/

/-- `VariableLength.serialize()`: seven bits in a byte, the least significant first.  The
length of a buffer is below `2 ^ 31`, so that `>>` divides it. -/
def serializeLength (length : ℕ) : List UInt8 :=
  if length < 128 then [UInt8.ofNat length]
  else UInt8.ofNat (length % 128 ||| 0x80) :: serializeLength (length / 128)
termination_by length
decreasing_by omega

def serializeString (jsString : CodeUnits) : Option Binary := do
  let stringBuffer ← bufferFromString jsString
  let buffer ← concat [serializeLength stringBuffer.length, stringBuffer]
  pure { type := .string, buffer }

def serializeDouble (jsNumber : JsNumber) : Binary :=
  { type := .double, buffer := littleEndian 8 jsNumber.doubleBits.toNat }

/-- `serializeInt16(jsNumber)` and `serializeInt32(jsNumber)`. -/
def serializeInt (width : ℕ) (limit : ℤ) (signed unsigned : BinaryType) (jsNumber : ℤ) :
    Option Binary :=
  if jsNumber < limit then
    (writeIntLE width jsNumber).map fun buffer => { type := signed, buffer }
  else (writeUIntLE width jsNumber.toNat).map fun buffer => { type := unsigned, buffer }

def serializeInt16 : ℤ → Option Binary := serializeInt 2 32768 .int16 .uint16

def serializeInt32 : ℤ → Option Binary := serializeInt 4 2147483648 .int32 .uint32

/-- `assert.ifError` throws for any message. -/
def serializeInt64 (jsNumber : ℤ) : Option Binary :=
  if jsNumber < 0 then none
  else (writeUIntLE 6 jsNumber.toNat).map fun bytes =>
    { type := .uint64, buffer := [0, 0] ++ bytes }

/-- The branches of `serializeNumber` for an integer. -/
def serializeInteger (jsNumber : ℤ) : Option Binary :=
  if jsNumber < 0 then
    if -32768 ≤ jsNumber then serializeInt16 jsNumber
    else if -2147483648 ≤ jsNumber then serializeInt32 jsNumber
    else serializeInt64 jsNumber
  else if jsNumber ≤ 65535 then serializeInt16 jsNumber
  else if jsNumber ≤ 4294967295 then serializeInt32 jsNumber
  else serializeInt64 jsNumber

def serializeNumber (jsNumber : JsNumber) : Option Binary :=
  match jsNumber with
  | .integer value => serializeInteger value
  | .negativeZero => serializeInteger 0
  | jsNumber => some (serializeDouble jsNumber)

def binaryNull : Binary := { type := .literal, buffer := [0x00] }

def binaryTrue : Binary := { type := .literal, buffer := [0x01] }

def binaryFalse : Binary := { type := .literal, buffer := [0x02] }

/-! ## Lists -/

/-- `List`: the items with their offsets, and the data of all items.  An item of a list of
keys is the buffer of the key. -/
structure EntryList (α : Type) where
  entries : List (α × ℕ) := []
  data : List UInt8 := []

variable {α : Type}

/-- `push(binaryForm)`, where `bufferOf` is `binaryForm.buffer`. -/
def EntryList.push (bufferOf : α → List UInt8) (list : EntryList α) (item : α) :
    Option (EntryList α) := do
  let data ← concat [list.data, bufferOf item]
  pure { entries := list.entries ++ [(item, list.data.length)], data }

/-- A list to which the items have been pushed. -/
def EntryList.ofItems (bufferOf : α → List UInt8) (items : List α) : Option (EntryList α) :=
  items.foldlM (EntryList.push bufferOf) {}

/-- `getSizeOfEntries()`. -/
def EntryList.sizeOfEntries (entrySize : ℕ) (list : EntryList α) : ℕ :=
  entrySize * list.entries.length

/-- `getTotalSize()`. -/
def EntryList.totalSize (entrySize : ℕ) (list : EntryList α) : ℕ :=
  list.sizeOfEntries entrySize + list.data.length

/-- `writeEntries(dataStartPos)`, where `writeEntry` writes an item with its position. -/
def EntryList.writeEntries (writeEntry : α → ℕ → Option (List UInt8)) (dataStartPos : ℕ)
    (list : EntryList α) : Option (List UInt8) := do
  let entries ← list.entries.mapM fun (item, offset) => writeEntry item (dataStartPos + offset)
  concat entries

/-- `write` of a `ValueEntry`; what an inline value leaves of its entry is zero. -/
def writeValueEntry (isLarge : Bool) (binary : Binary) (position : ℕ) : Option (List UInt8) :=
  match inlineSize isLarge binary.type with
  | some _ =>
      some (binary.type.code ::
        binary.buffer ++ List.replicate (offsetSize isLarge - binary.buffer.length) 0)
  | none => (writeUIntLE (offsetSize isLarge) position).map (binary.type.code :: ·)

/-- `write` of a `KeyEntry`. -/
def writeKeyEntry (isLarge : Bool) (key : List UInt8) (position : ℕ) : Option (List UInt8) := do
  let positionBytes ← writeUIntLE (offsetSize isLarge) position
  let lengthBytes ← writeUIntLE 2 key.length
  pure (positionBytes ++ lengthBytes)

/-! ## Containers -/

/-- `serializeArray`, from the binary values of its elements on. -/
def serializeArray (binaries : List Binary) : Option Binary := do
  let valueList ← EntryList.ofItems Binary.buffer binaries
  let isLarge := decide (65535 < headerSize false + valueList.totalSize (valueEntrySize false))
  let size := headerSize isLarge + valueList.totalSize (valueEntrySize isLarge)
  let header ← writeHeader isLarge valueList.entries.length size
  let valueEntries ← valueList.writeEntries (writeValueEntry isLarge)
    (headerSize isLarge + valueList.sizeOfEntries (valueEntrySize isLarge))
  let buffer ← concat [header, valueEntries, valueList.data]
  pure { type := if isLarge then .largeArray else .smallArray, buffer }

/-- `sortKeys(a, b)`: by length, then by code units. -/
def sortKeys (a b : CodeUnits) : ℤ :=
  if b.length < a.length then 1
  else if a.length = b.length then if a < b then -1 else 1
  else -1

/-- `Object.keys(jsObject).sort(sortKeys)`. -/
def sortedKeys (keys : List CodeUnits) : List CodeUnits :=
  keys.mergeSort fun a b => sortKeys a b < 0

/-- `serializeKey(jsString)`. -/
def serializeKey (jsString : CodeUnits) : Option (List UInt8) := bufferFromString jsString

/-- `serializeObject`, from the sorted keys with their binary values on; those that cannot be
serialized have been skipped. -/
def serializeObject (members : List (CodeUnits × Binary)) : Option Binary := do
  let valueList ← EntryList.ofItems Binary.buffer (members.map Prod.snd)
  let keys ← members.mapM fun member => serializeKey member.1
  let keyList ← EntryList.ofItems id keys
  let isLarge := decide (65535 < headerSize false + valueList.totalSize (valueEntrySize false) +
    keyList.totalSize (keyEntrySize false))
  let size := headerSize isLarge + valueList.totalSize (valueEntrySize isLarge) +
    keyList.totalSize (keyEntrySize isLarge)
  let valueEntryStartPos := headerSize isLarge + keyList.sizeOfEntries (keyEntrySize isLarge)
  let keyDataStartPos := valueEntryStartPos + valueList.sizeOfEntries (valueEntrySize isLarge)
  let valueDataStartPos := keyDataStartPos + keyList.data.length
  let header ← writeHeader isLarge valueList.entries.length size
  let keyEntries ← keyList.writeEntries (writeKeyEntry isLarge) keyDataStartPos
  let valueEntries ← valueList.writeEntries (writeValueEntry isLarge) valueDataStartPos
  let buffer ← concat [header, keyEntries, valueEntries, keyList.data, valueList.data]
  -- assert.equal(binary.buffer.length, size)
  if buffer.length = size then
    pure { type := if isLarge then .largeObject else .smallObject, buffer }
  else none

/-! ## Values -/

/-- An element that was never set is skipped by `forEach`. -/
def JsValue.isHole : JsValue → Bool
  | .hole => true
  | _ => false

/-- The keys and values of an object without those that cannot be serialized. -/
def validMembers (values : List (CodeUnits × Option Binary)) : List (CodeUnits × Binary) :=
  values.filterMap fun (key, binary) => binary.map (key, ·)

/-- `serialize(jsValue)`; the inner option is empty for `binaryUndefined`. -/
def serialize : JsValue → Option (Option Binary)
  | .undefined => some none
  | .hole => some none
  | .null => some (some binaryNull)
  | .boolean value => some (some (if value then binaryTrue else binaryFalse))
  | .number value => (serializeNumber value).map some
  | .string value => (serializeString value).map some
  | .array length element => do
      let binaries ← ((List.range length).filter fun i => !(element i).isHole).mapM fun i =>
        (serialize (element i)).map fun binary => binary.getD binaryNull
      (serializeArray binaries).map some
  | .object keys _ member => do
      let values ← (sortedKeys keys).mapM fun key =>
        (serialize (member key)).map fun binary => (key, binary)
      (serializeObject (validMembers values)).map some

/-- `write()` of a binary value. -/
def Binary.write (binary : Binary) : Option (List UInt8) :=
  concat [[binary.type.code], binary.buffer]

/-- `exports.serialize(jsValue)`; the result is `null` for `undefined`. -/
def publicSerialize (jsValue : JsValue) : Option (Option (List UInt8)) :=
  (serialize jsValue).bind fun
    | none => some none
    | some binary => binary.write.map some

end DatabaseJones.MySQLSerialize

/-!
## The parser of binary JSON

`parse` of `MySQLSerialize.js`.  The parser of a container reads all of its values.  A
buffer whose containers refer to themselves would exhaust the stack; the parser here is
given the depth to which it may go.
-/

namespace DatabaseJones.MySQLSerialize

open DatabaseJones.Library

/-! ## Buffers -/

/-- `readUInt16LE(offset)` for `width` 2, and `readUInt32LE(offset)` for `width` 4. -/
def readUIntLE (width : ℕ) (buffer : List UInt8) (offset : ℕ) : Option ℕ :=
  if offset + width ≤ buffer.length then
    some (fromLittleEndian ((buffer.drop offset).take width))
  else none

/-- `readInt16LE(offset)` for `width` 2, and `readInt32LE(offset)` for `width` 4. -/
def readIntLE (width : ℕ) (buffer : List UInt8) (offset : ℕ) : Option ℤ :=
  (readUIntLE width buffer offset).map fun (value : ℕ) => (value : ℤ).bmod (256 ^ width)

/-- `buffer.toString('utf8', start, end)`, for bytes that are UTF-8. -/
def bufferToString (buffer : List UInt8) (start stop : ℤ) : Option CodeUnits :=
  utf8Text ((buffer.take stop.toNat).drop start.toNat)

/-! ## Scalars -/

/-- The type with a code; the constructor of `Binary` asserts that there is one. -/
def BinaryType.ofCode? (code : UInt8) : Option BinaryType :=
  [.smallObject, .largeObject, .smallArray, .largeArray, .literal, .int16, .uint16, .int32,
    .uint32, .int64, .uint64, .double, .string].find? fun type => type.code == code

/-- The loop of `VariableLength.parse`, with at most `count` more bytes.  A byte behind the
end of the buffer reads as zero, and the length is a signed number of 32 bits. -/
def parseLengthFrom : ℕ → ℕ → ℕ → List UInt8 → ℤ × ℕ
  | 0, _, _, _ => (0, 0)
  | count + 1, i, length, buffer =>
      let n := (buffer.headD 0).toNat
      let length := length ||| (n &&& 0x7f) <<< (7 * i)
      if n &&& 0x80 = 0 then ((length : ℤ).bmod (2 ^ 32), i + 1)
      else parseLengthFrom count (i + 1) length buffer.tail

/-- `VariableLength.parse(buffer, 0)`: the length, and the number of bytes that it takes. -/
def parseLength (buffer : List UInt8) : ℤ × ℕ := parseLengthFrom 5 0 0 buffer

def parseString (buffer : List UInt8) : Option Json :=
  let (length, nBytes) := parseLength buffer
  (bufferToString buffer nBytes (nBytes + length)).map .string

def parseLiteral (buffer : List UInt8) : Option Json :=
  match buffer.head? with
  | some 0x00 => some .null
  | some 0x01 => some (.boolean true)
  | some 0x02 => some (.boolean false)
  | _ => none

def parseUInt (width : ℕ) (buffer : List UInt8) : Option Json :=
  (readUIntLE width buffer 0).map fun (value : ℕ) => .number (.integer value)

def parseInt (width : ℕ) (buffer : List UInt8) : Option Json :=
  (readIntLE width buffer 0).map fun (value : ℤ) => .number (.integer value)

def parseDouble (buffer : List UInt8) : Option Json :=
  (readUIntLE 8 buffer 0).map fun bits => .number (.ofBits (UInt64.ofNat bits))

/-! ## Containers -/

/-- `readHeader()`: the number of elements, and the buffer of the container. -/
def readHeader (isLarge : Bool) (buffer : List UInt8) : Option (ℕ × List UInt8) := do
  let elementCount ← readUIntLE (offsetSize isLarge) buffer 0
  let recSize ← readUIntLE (offsetSize isLarge) buffer (offsetSize isLarge)
  pure (elementCount, buffer.take recSize)

/-- `read` of a `ValueEntry`. -/
def readValueEntry (isLarge : Bool) (buffer : List UInt8) (cursor : ℕ) : Option Binary := do
  let code ← buffer[cursor]?
  let type ← BinaryType.ofCode? code
  match inlineSize isLarge type with
  | some size => pure { type, buffer := (buffer.drop (cursor + 1)).take size }
  | none =>
      let offset ← readUIntLE (offsetSize isLarge) buffer (cursor + 1)
      pure { type, buffer := buffer.drop offset }

/-- `read` of a `KeyEntry`. -/
def readKeyEntry (isLarge : Bool) (buffer : List UInt8) (cursor : ℕ) : Option CodeUnits := do
  let offset ← readUIntLE (offsetSize isLarge) buffer cursor
  let length ← readUIntLE 2 buffer (cursor + offsetSize isLarge)
  bufferToString buffer offset (offset + length)

/-- `readEntries(offset, count)`. -/
def readEntries {α : Type} (readEntry : List UInt8 → ℕ → Option α) (entrySize : ℕ)
    (buffer : List UInt8) (offset count : ℕ) : Option (List α) :=
  (List.range count).mapM fun index => readEntry buffer (offset + index * entrySize)

/-- The setter of `Object.prototype.__proto__` takes the place of a property. -/
def protoKey : CodeUnits := "__proto__".toList.map fun char => UInt16.ofNat char.toNat

/-- `result[key] = value`. -/
def setMember (result : CodeUnits → Option Json) (member : CodeUnits × Json) :
    CodeUnits → Option Json :=
  if member.1 = protoKey then result else Function.update result member.1 (some member.2)

section
variable (parseValue : Binary → Option Json)

/-- `parseArray()`. -/
def parseArray (isLarge : Bool) (buffer : List UInt8) : Option Json := do
  let (elementCount, buffer) ← readHeader isLarge buffer
  let entries ← readEntries (readValueEntry isLarge) (valueEntrySize isLarge) buffer
    (headerSize isLarge) elementCount
  let elements ← entries.mapM parseValue
  pure (.array elements)

/-- `parseObject()`. -/
def parseObject (isLarge : Bool) (buffer : List UInt8) : Option Json := do
  let (elementCount, buffer) ← readHeader isLarge buffer
  let keys ← readEntries (readKeyEntry isLarge) (keyEntrySize isLarge) buffer
    (headerSize isLarge) elementCount
  let entries ← readEntries (readValueEntry isLarge) (valueEntrySize isLarge) buffer
    (headerSize isLarge + keyEntrySize isLarge * elementCount) elementCount
  let values ← entries.mapM parseValue
  pure (.object ((keys.zip values).foldl setMember fun _ => none))

end

/-- `parse()` of a scalar. -/
def parseScalar (binary : Binary) : Option Json :=
  match binary.type with
  | .literal => parseLiteral binary.buffer
  | .int16 => parseInt 2 binary.buffer
  | .uint16 => parseUInt 2 binary.buffer
  | .int32 => parseInt 4 binary.buffer
  | .uint32 => parseUInt 4 binary.buffer
  | .double => parseDouble binary.buffer
  | .string => parseString binary.buffer
  | _ => none

/-- `parse()` of a binary value. -/
def parse : ℕ → Binary → Option Json
  | 0, binary => parseScalar binary
  | depth + 1, binary =>
      match binary.type with
      | .smallArray => parseArray (parse depth) false binary.buffer
      | .largeArray => parseArray (parse depth) true binary.buffer
      | .smallObject => parseObject (parse depth) false binary.buffer
      | .largeObject => parseObject (parse depth) true binary.buffer
      | _ => parseScalar binary

/-- `exports.parse(sourceBuffer)`; the result is `undefined` for a buffer of one byte. -/
def publicParse (sourceBuffer : Option (List UInt8)) : Option (Option Json) :=
  match sourceBuffer with
  | none => some (some .null)
  | some (code :: byte :: buffer) =>
      (BinaryType.ofCode? code).bind fun type =>
        (parse (buffer.length + 2) { type, buffer := byte :: buffer }).map some
  | some _ => some none

end DatabaseJones.MySQLSerialize
