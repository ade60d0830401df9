import DatabaseJones.Library.Endian

/-!
# Integer columns of the NDB adapter

The readers and writers of `NdbTypeEncoders.cpp` for TINYINT, SMALLINT, MEDIUMINT
and INT, signed and unsigned.  A value that V8 holds as a 32-bit integer takes the
fast path; every other value is converted to a double.

In C++ the conversion of a double that does not fit the integer type is undefined.
The model takes what it gives as a parameter, `undefinedInt`.
-/

namespace DatabaseJones.Ndb

open DatabaseJones.Library

/-! ## Values and statuses -/

/-- What a writer returns. -/
inductive Status
  | writerOK
  | outOfRange
  | generalError
deriving DecidableEq, Repr

/-- An integer supplied from JavaScript: a number, the number `-0`, or a decimal numeric
string. -/
inductive Supplied
  | number (value : ℤ)
  | negativeZero
  | string (value : ℤ)
deriving DecidableEq, Repr

/-- The integer that was supplied. -/
def Supplied.integer : Supplied → ℤ
  | .number value => value
  | .negativeZero => 0
  | .string value => value

/-- The numbers from here on are rounded to infinity. -/
@[irreducible] def doubleLimit : ℕ := 2 ^ 53 * 2 ^ 971

/-- A number without its last `shift` bits, rounded with ties to even. -/
def significand (value shift : ℕ) : ℕ :=
  let quotient := value / 2 ^ shift
  let remainder := value % 2 ^ shift
  if 2 ^ shift < 2 * remainder ∨ 2 * remainder = 2 ^ shift ∧ quotient % 2 = 1 then quotient + 1
  else quotient

/-- The double nearest to a number: 53 bits are kept.  `none` is infinity. -/
def roundToDouble (value : ℕ) : Option ℕ :=
  let shift := Nat.log2 value - 52
  let rounded := significand value shift * 2 ^ shift
  if rounded < doubleLimit then some rounded else none

/-- `value->ToNumber()`: numbers are doubles already, and strings are rounded. -/
def Supplied.toNumber : Supplied → Option ℤ
  | .number value => some value
  | .negativeZero => some 0
  | .string value => 
      (roundToDouble value.natAbs).map fun magnitude : ℕ => value.sign * (magnitude : ℤ)

/-- `value->IsInt32()`. -/
def Supplied.isInt32 : Supplied → Bool
  | .number value => -2147483648 ≤ value && value < 2147483648
  | _ => false

/-- `value->IsUint32()`. -/
def Supplied.isUint32 : Supplied → Bool
  | .number value => 0 ≤ value && value < 4294967296
  | _ => false

/-! ## Bytes -/

/-- Conversion to an unsigned byte. -/
def toByte (value : ℤ) : UInt8 := UInt8.ofNat (value % 256).toNat

/-- Store an integer of `length` bytes, in the host's byte order. -/
def storeInt (length : ℕ) (value : ℤ) : List UInt8 :=
  littleEndian length (value % 256 ^ length).toNat

/-- Load an unsigned integer. -/
def loadUnsigned (bytes : List UInt8) : ℤ := fromLittleEndian bytes

/-- Load a signed integer. -/
def loadSigned (bytes : List UInt8) : ℤ := Int.bmod (fromLittleEndian bytes) (256 ^ bytes.length)

/-- `sint3korr`. -/
def sint3korr (bytes : List UInt8) : ℤ :=
  let byte (i : ℕ) : ℕ := (bytes.getD i 0).toNat
  let value := byte 2 <<< 16 ||| byte 1 <<< 8 ||| byte 0
  if byte 2 &&& 128 ≠ 0 then Int.bmod (255 <<< 24 ||| value : ℕ) (2 ^ 32) else value

/-- `uint3korr`. -/
def uint3korr (bytes : List UInt8) : ℤ :=
  let byte (i : ℕ) : ℕ := (bytes.getD i 0).toNat
  (byte 0 + byte 1 <<< 8 + byte 2 <<< 16 : ℕ)

/-- `writeSignedMedium`. -/
def writeSignedMedium (mval : ℤ) : List UInt8 :=
  [toByte mval, toByte (mval >>> (8 : ℕ)), toByte (mval >>> (16 : ℕ))]

/-- `writeUnsignedMedium`; the argument is converted to `uint32_t`. -/
def writeUnsignedMedium (mval : ℤ) : List UInt8 :=
  let mval := mval % 2 ^ 32
  [toByte mval, toByte (mval >>> (8 : ℕ)), toByte (mval >>> (16 : ℕ))]

/-! ## Range checks -/

/-- The checks report values out of range. -/
def rangeStatus (inRange : Bool) : Status := if inRange then .writerOK else .outOfRange

/-- `checkNumber<int>`. -/
def checkNumberInt : Option ℤ → Status
  | some d => rangeStatus (-2147483648 ≤ d && d ≤ 2147483648)
  | none => .generalError

/-- `checkNumber<uint32_t>`. -/
def checkNumberUint32 : Option ℤ → Status
  | some d => rangeStatus (0 ≤ d && d < 4294967296)
  | none => .generalError

/-- The types of the template `smallint`. -/
inductive SmallType
  | int8 | uint8 | int16 | uint16
deriving DecidableEq, Repr

def SmallType.isSigned : SmallType → Bool
  | .int8 => true
  | .uint8 => false
  | .int16 => true
  | .uint16 => false

/-- The size of the type in bytes. -/
def SmallType.size : SmallType → ℕ
  | .int8 => 1
  | .uint8 => 1
  | .int16 => 2
  | .uint16 => 2

/-- `checkIntValue<INTSZ>`. -/
def checkIntValue (type : SmallType) (r : ℤ) : Bool :=
  match type with
  | .int8 => -128 ≤ r && r < 128
  | .uint8 => 0 ≤ r && r < 256
  | .int16 => -32768 ≤ r && r < 32768
  | .uint16 => 0 ≤ r && r < 65536

/-- `checkMedium`. -/
def checkMedium (r : ℤ) : Status := rangeStatus (-8338608 ≤ r && r < 8338608)

/-- `checkUnsignedMedium`. -/
def checkUnsignedMedium (r : ℤ) : Status := rangeStatus (0 ≤ r && r < 16277216)

/-- Conversion of an integer to a small type: the bits that do not fit are dropped. -/
def wrap (type : SmallType) (value : ℤ) : ℤ :=
  if type.isSigned then value.bmod (256 ^ type.size) else value % 256 ^ type.size

section
variable (undefinedInt : Option ℤ → ℤ)

/-- `static_cast<INTSZ>` of a double. -/
def castSmall (type : SmallType) (d : Option ℤ) : ℤ :=
  match d with
  | some value => if checkIntValue type value then value else wrap type (undefinedInt d)
  | none => wrap type (undefinedInt d)

/-- `static_cast<int>` of a double. -/
def castInt (d : Option ℤ) : ℤ :=
  match d with
  | some value =>
      if -2147483648 ≤ value ∧ value < 2147483648 then value else (undefinedInt d).bmod (2 ^ 32)
  | none => (undefinedInt d).bmod (2 ^ 32)

/-- `static_cast<uint32_t>` of a double. -/
def castUint32 (d : Option ℤ) : ℤ :=
  match d with
  | some value => if 0 ≤ value ∧ value < 4294967296 then value else undefinedInt d % 2 ^ 32
  | none => undefinedInt d % 2 ^ 32

/-- `getStatusForValue<INTSZ>`: the double is converted before it is checked. -/
def getStatusForValue (type : SmallType) (d : Option ℤ) : Status :=
  if d.isSome then rangeStatus (checkIntValue type (castSmall undefinedInt type d))
  else .generalError

/-- `getStatusForMedium`. -/
def getStatusForMedium (d : Option ℤ) : Status :=
  if d.isSome then checkMedium (castInt undefinedInt d) else .generalError

/-- `getStatusForUnsignedMedium`. -/
def getStatusForUnsignedMedium (d : Option ℤ) : Status :=
  if d.isSome then checkUnsignedMedium (castInt undefinedInt d) else .generalError

/-! ## Writers -/

/-- `IntWriter`. -/
def intWriter (value : Supplied) : Status × List UInt8 :=
  if value.isInt32 then (.writerOK, storeInt 4 value.integer)
  else
    let dval := value.toNumber
    (checkNumberInt dval, storeInt 4 (castInt undefinedInt dval))

/-- `UnsignedIntWriter`. -/
def unsignedIntWriter (value : Supplied) : Status × List UInt8 :=
  if value.isUint32 then (.writerOK, storeInt 4 value.integer)
  else
    let dval := value.toNumber
    (checkNumberUint32 dval, storeInt 4 (castUint32 undefinedInt dval))

/-- `smallintWriter<INTSZ>`. -/
def smallintWriter (type : SmallType) (value : Supplied) : Status × List UInt8 :=
  if value.isInt32 then
    (rangeStatus (checkIntValue type value.integer), storeInt type.size value.integer)
  else
    let dval := value.toNumber
    (getStatusForValue undefinedInt type dval,
      storeInt type.size (castSmall undefinedInt type dval))

/-- `MediumWriter`. -/
def mediumWriter (value : Supplied) : Status × List UInt8 :=
  if value.isInt32 then (checkMedium value.integer, writeSignedMedium value.integer)
  else
    let dval := value.toNumber
    (getStatusForMedium undefinedInt dval, writeSignedMedium (castInt undefinedInt dval))

/-- `MediumUnsignedWriter`. -/
def mediumUnsignedWriter (value : Supplied) : Status × List UInt8 :=
  if value.isInt32 then (checkUnsignedMedium value.integer, writeUnsignedMedium value.integer)
  else
    let dval := value.toNumber
    (getStatusForUnsignedMedium undefinedInt dval,
      writeUnsignedMedium (castInt undefinedInt dval))

/-! ## Column types -/

inductive IntegerType
  | small (type : SmallType)
  | medium
  | mediumUnsigned
  | int
  | unsignedInt
deriving DecidableEq, Repr

/-- The writer of a column type. -/
def IntegerType.write (value : Supplied) : IntegerType → Status × List UInt8
  | .small type => smallintWriter undefinedInt type value
  | .medium => mediumWriter undefinedInt value
  | .mediumUnsigned => mediumUnsignedWriter undefinedInt value
  | .int => intWriter undefinedInt value
  | .unsignedInt => unsignedIntWriter undefinedInt value

end

/-- The reader of a column type. -/
def IntegerType.read (bytes : List UInt8) : IntegerType → ℤ
  | .small type => if type.isSigned then loadSigned bytes else loadUnsigned bytes
  | .medium => sint3korr bytes
  | .mediumUnsigned => uint3korr bytes
  | .int => loadSigned bytes
  | .unsignedInt => loadUnsigned bytes

end DatabaseJones.Ndb
