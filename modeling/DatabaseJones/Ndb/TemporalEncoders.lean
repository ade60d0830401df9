import DatabaseJones.Ndb.IntegerEncoders

/-!
# Temporal columns of the NDB adapter

The readers and writers of `NdbTypeEncoders.cpp` for the temporal types.  Most of them
exchange a time structure with JavaScript, a plain object of integers; the TIMESTAMP
types use a JavaScript date and YEAR a number.

A writer gives the bytes it stores, or `none` for the error `22007`.
-/

namespace DatabaseJones.Ndb

open DatabaseJones.Library

/-! ## Values -/

/-- A time structure in JavaScript: the properties it has, and `valid` if it has that. -/
structure TimeObject where
  valid : Option Bool
  sign : Option ℤ
  year : Option ℤ
  month : Option ℤ
  day : Option ℤ
  hour : Option ℤ
  minute : Option ℤ
  second : Option ℤ
  microsec : Option ℤ
deriving DecidableEq, Repr

/-- A value from or for JavaScript.  A date is a number of milliseconds, or invalid. -/
inductive JsValue
  | time (time : TimeObject)
  | date (milliseconds : Option ℤ)
  | number (value : ℤ)
deriving DecidableEq, Repr

/-- `Int32Value()` of an integer, and the conversion to `int`. -/
def int32Value (value : ℤ) : ℤ := value.bmod (2 ^ 32)

/-- Conversion to `unsigned int`. -/
def toUnsigned (value : ℤ) : ℕ := (value % 2 ^ 32).toNat

/-- `TimeHelper`: the parts of a temporal value.  All but the sign are unsigned. -/
structure TimeHelper where
  sign : ℤ := 1
  valid : Bool := true
  fsp : ℕ := 0
  year : ℕ := 0
  month : ℕ := 0
  day : ℕ := 0
  hour : ℕ := 0
  minute : ℕ := 0
  second : ℕ := 0
  microsec : ℕ := 0
deriving DecidableEq, Repr

namespace TimeHelper

/-- `factor_HHMMSS`. -/
def factor_HHMMSS (tm : TimeHelper) (int_time : ℤ) : TimeHelper :=
  let sign := if int_time < 0 then -1 else tm.sign
  let int_time := int_time.natAbs
  { tm with
    sign := sign
    hour := int_time / 10000
    minute := int_time / 100 % 100
    second := int_time % 100 }

/-- `factor_YYYYMMDD`. -/
def factor_YYYYMMDD (tm : TimeHelper) (int_date : ℤ) : TimeHelper :=
  { tm with
    year := toUnsigned ((int_date.tdiv 10000).tmod 10000)
    month := toUnsigned ((int_date.tdiv 100).tmod 100)
    day := toUnsigned (int_date.tmod 100) }

/-- `toJs()`; the property `fsp` is left out, which no writer reads. -/
def toJs (tm : TimeHelper) : TimeObject where
  valid := none
  sign := some tm.sign
  year := some (int32Value tm.year)
  month := some (int32Value tm.month)
  day := some (int32Value tm.day)
  hour := some (int32Value tm.hour)
  minute := some (int32Value tm.minute)
  second := some (int32Value tm.second)
  microsec := some (int32Value tm.microsec)

/-- A property of an object, converted to `unsigned int`. -/
def field (property : Option ℤ) : ℕ := (property.map toUnsigned).getD 0

/-- The properties that are counted as keys. -/
def keys (time : TimeObject) : List (Option ℤ) :=
  [time.sign, time.year, time.month, time.day, time.hour, time.minute, time.second, time.microsec]

/-- The constructor from a JavaScript value.  A date is an object without any of the
properties. -/
def ofJs : JsValue → TimeHelper
  | .time time =>
      if time.valid = some false then { valid := false }
      else
        { sign := (time.sign.map int32Value).getD 1
          valid := (keys time).any Option.isSome
          year := field time.year
          month := field time.month
          day := field time.day
          hour := field time.hour
          minute := field time.minute
          second := field time.second
          microsec := field time.microsec }
  | .date _ => { valid := false }
  | .number _ => { valid := false }

end TimeHelper

/-! ## Fractions -/

/-- The bytes that the fraction takes for a precision. -/
def fractionSize (prec : ℕ) : ℕ := (1 + prec) / 2

/-- The loop `while(prec < 5) usec *= 100, prec += 2`. -/
def scaleUp (prec usec : ℕ) : ℕ :=
  if prec < 1 then usec * 100 * 100 * 100
  else if prec < 3 then usec * 100 * 100
  else if prec < 5 then usec * 100
  else usec

/-- The loop `while(prec < 5) usec /= 100, prec += 2`, and then a forced loss of precision
if the precision is odd. -/
def scaleDown (prec : ℕ) (usec : ℤ) : ℤ :=
  let scaled :=
    if prec < 1 then ((usec.tdiv 100).tdiv 100).tdiv 100
    else if prec < 3 then (usec.tdiv 100).tdiv 100
    else if prec < 5 then usec.tdiv 100
    else usec
  if prec % 2 = 1 then scaled - scaled.tmod 10 else scaled

/-- `pack_bigendian` of a value that is converted to `uint64_t`. -/
def packBigendian (val : ℤ) (len : ℕ) : List UInt8 := bigEndian len (val % 2 ^ 64).toNat

/-- `unpack_bigendian`. -/
def unpackBigendian (buf : List UInt8) (len : ℕ) : ℕ := fromBigEndian (buf.take len) % 2 ^ 64

/-- `readFraction`. -/
def readFraction (prec : ℕ) (buf : List UInt8) : ℕ :=
  if 0 < prec then scaleUp prec (unpackBigendian buf (fractionSize prec)) else 0

/-- `writeFraction`. -/
def writeFraction (prec : ℕ) (usec : ℤ) : List UInt8 :=
  if 0 < prec then packBigendian (scaleDown prec usec) (fractionSize prec) else []

/-! ## TIMESTAMP -/

/-- `TimestampReader`: the product is one of 32-bit integers. -/
def timestampReader (buffer : List UInt8) : JsValue :=
  let timestamp := fromLittleEndian (buffer.take 4)
  .date (some (timestamp * 1000 % 2 ^ 32 : ℕ))

/-- `TimestampWriter`.  The quotient is a double, which loses its fraction when it is
converted. -/
def timestampWriter (undefinedInt : Option ℤ → ℤ) : JsValue → Option (List UInt8)
  | .date (some milliseconds) =>
      let stored := castUint32 undefinedInt (some (milliseconds.tdiv 1000))
      if 0 ≤ milliseconds then some (storeInt 4 stored) else none
  | _ => none

/-- `Timestamp2Reader`. -/
def timestamp2Reader (prec : ℕ) (buffer : List UInt8) : JsValue :=
  let timeSeconds := unpackBigendian buffer 4 % 2 ^ 32
  let timeMilliseconds := readFraction prec (buffer.drop 4) / 1000
  .date (some (timeSeconds * 1000 + timeMilliseconds : ℕ))

/-- `Timestamp2Writer`.  `invalidAsInt64` is what the conversion of NaN to `int64_t`, which
is undefined in C++, gives. -/
def timestamp2Writer (invalidAsInt64 : ℤ) (prec : ℕ) : JsValue → Option (List UInt8)
  | .date jsdate =>
      let timeMilliseconds := jsdate.getD invalidAsInt64
      let timeSeconds := timeMilliseconds.tdiv 1000
      let timeMilliseconds := timeMilliseconds.tmod 1000
      if 0 ≤ timeSeconds then
        some (packBigendian timeSeconds 4 ++ writeFraction prec (timeMilliseconds * 1000))
      else none
  | _ => none

/-! ## DATETIME -/

/-- `DatetimeReader`: the product is one of 32-bit integers, and so is what remains of the
difference.  `none` means that the assertion fails. -/
def datetimeReader (buffer : List UInt8) : Option JsValue :=
  let int_datetime := fromLittleEndian (buffer.take 8)
  let int_date := int32Value (int_datetime / 1000000 : ℕ)
  let tm := ({} : TimeHelper).factor_YYYYMMDD int_date
  let int_time := int32Value (int_datetime - int32Value (int_date * 1000000))
  if 0 ≤ int_time then some (.time (tm.factor_HHMMSS int_time).toJs) else none

/-- `DatetimeWriter`. -/
def datetimeWriter (value : JsValue) : Option (List UInt8) :=
  let tm := TimeHelper.ofJs value
  let dtval := ((((tm.year * 100 + tm.month) * 100 + tm.day) * 100 + tm.hour) * 100 +
    tm.minute) * 100 + tm.second
  if tm.valid then some (littleEndian 8 dtval) else none

/-- `Datetime2Reader`. -/
def datetime2Reader (prec : ℕ) (buffer : List UInt8) : JsValue :=
  let packedValue := unpackBigendian buffer 5
  let yrMo := packedValue >>> 6 >>> 6 >>> 5 >>> 5 &&& 0x01FFFF
  .time (TimeHelper.toJs
    { microsec := readFraction prec (buffer.drop 5)
      fsp := prec
      second := packedValue &&& 0x3F
      minute := packedValue >>> 6 &&& 0x3F
      hour := packedValue >>> 6 >>> 6 &&& 0x1F
      day := packedValue >>> 6 >>> 6 >>> 5 &&& 0x1F
      year := yrMo / 13
      month := yrMo % 13 })

/-- `Datetime2Writer`. -/
def datetime2Writer (prec : ℕ) (value : JsValue) : Option (List UInt8) :=
  let tm := TimeHelper.ofJs value
  let packedValue := 1 <<< 17 ||| (tm.year * 13 + tm.month) % 2 ^ 32
  let packedValue := packedValue <<< 5 ||| tm.day
  let packedValue := packedValue <<< 5 ||| tm.hour
  let packedValue := packedValue <<< 6 ||| tm.minute
  let packedValue := packedValue <<< 6 ||| tm.second
  if tm.valid then
    some (packBigendian packedValue 5 ++ writeFraction prec (int32Value tm.microsec))
  else none

/-! ## YEAR -/

/-- `YearReader`. -/
def yearReader (buffer : List UInt8) : JsValue :=
  .number (1900 + fromLittleEndian (buffer.take 1))

/-- The `int` that a value is converted to; `undefinedInt` is what the conversion of a
number that does not fit, or of NaN, gives. -/
def toInt (undefinedInt : Option ℤ → ℤ) : JsValue → ℤ
  | .number value => castInt undefinedInt (some value)
  | .date milliseconds => castInt undefinedInt milliseconds
  | .time _ => castInt undefinedInt none

/-- `YearWriter`. -/
def yearWriter (undefinedInt : Option ℤ → ℤ) (value : JsValue) : Option (List UInt8) :=
  let chkv := int32Value (toInt undefinedInt value - 1900)
  if checkIntValue .uint8 chkv then some (storeInt 1 chkv) else none

/-! ## TIME -/

/-- `TimeReader`. -/
def timeReader (buffer : List UInt8) : JsValue :=
  .time ((({} : TimeHelper).factor_HHMMSS (sint3korr buffer)).toJs)

/-- `TimeWriter`. -/
def timeWriter (value : JsValue) : Option (List UInt8) :=
  let tm := TimeHelper.ofJs value
  let dtval := int32Value (((tm.hour * 100 + tm.minute) * 100 + tm.second : ℕ) * tm.sign)
  if tm.valid then some (writeSignedMedium dtval) else none

/-- `Time2Reader`. -/
def time2Reader (prec : ℕ) (buffer : List UInt8) : JsValue :=
  let fsp_size := fractionSize prec
  let fsp_bits := fsp_size * 8
  let sign_pos := fsp_bits + 23
  let fsp_mask := 1 <<< fsp_bits - 1
  let sign_val := 1 <<< sign_pos
  let packedValue := unpackBigendian buffer (3 + fsp_size)
  let nonNegative := packedValue &&& sign_val = sign_val
  let packedValue :=
    if nonNegative then packedValue else ((sign_val - packedValue : ℤ) % 2 ^ 64).toNat
  .time (TimeHelper.toJs
    { sign := if nonNegative then 1 else -1
      fsp := prec
      microsec := scaleUp prec (packedValue &&& fsp_mask)
      second := packedValue >>> fsp_bits &&& 0x3F
      minute := packedValue >>> fsp_bits >>> 6 &&& 0x3F
      hour := packedValue >>> fsp_bits >>> 6 >>> 6 &&& 0x03FF })

/-- `Time2Writer`.  Bits above the eight bytes of `packedValue` are not kept apart, since
at most the last six bytes are stored. -/
def time2Writer (prec : ℕ) (value : JsValue) : Option (List UInt8) :=
  let tm := TimeHelper.ofJs value
  let fsp_size := fractionSize prec
  let fsp_bits := fsp_size * 8
  let sign_val := 1 <<< (23 + fsp_bits)
  let fsec := (scaleDown prec (int32Value tm.microsec) % 2 ^ 64).toNat
  let is_neg := tm.sign < 0
  let packedValue := if is_neg then 0 else 1
  let packedValue := packedValue <<< 11 ||| tm.hour
  let packedValue := packedValue <<< 6 ||| tm.minute
  let packedValue := packedValue <<< 6 ||| tm.second
  let packedValue := packedValue <<< fsp_bits ||| fsec
  let packedValue : ℤ := if is_neg then sign_val - packedValue else packedValue
  if tm.valid then some (packBigendian packedValue (3 + fsp_size)) else none

/-! ## DATE -/

/-- `DateReader`. -/
def dateReader (buffer : List UInt8) : JsValue :=
  let encodedDate := (uint3korr buffer).toNat
  .time (TimeHelper.toJs
    { day := encodedDate &&& 31
      month := encodedDate >>> 5 &&& 15
      year := encodedDate >>> 9 })

/-- `DateWriter`. -/
def dateWriter (value : JsValue) : Option (List UInt8) :=
  let tm := TimeHelper.ofJs value
  let encodedDate := tm.year <<< 9 ||| tm.month <<< 5 ||| tm.day
  if tm.valid then some (writeUnsignedMedium encodedDate) else none

/-! ## Column types -/

/-- The temporal column types; those of MySQL 5.6 have a precision of at most six digits. -/
inductive TemporalType
  | date
  | time
  | datetime
  | timestamp
  | year
  | time2 (prec : Fin 7)
  | datetime2 (prec : Fin 7)
  | timestamp2 (prec : Fin 7)
deriving DecidableEq, Repr

/-- The writer of a type. -/
def TemporalType.write (undefinedInt : Option ℤ → ℤ) (invalidAsInt64 : ℤ) :
    TemporalType → JsValue → Option (List UInt8)
  | .date => dateWriter
  | .time => timeWriter
  | .datetime => datetimeWriter
  | .timestamp => timestampWriter undefinedInt
  | .year => yearWriter undefinedInt
  | .time2 prec => time2Writer prec
  | .datetime2 prec => datetime2Writer prec
  | .timestamp2 prec => timestamp2Writer invalidAsInt64 prec

/-- The reader of a type. -/
def TemporalType.read : TemporalType → List UInt8 → Option JsValue
  | .date, buffer => some (dateReader buffer)
  | .time, buffer => some (timeReader buffer)
  | .datetime, buffer => datetimeReader buffer
  | .timestamp, buffer => some (timestampReader buffer)
  | .year, buffer => some (yearReader buffer)
  | .time2 prec, buffer => some (time2Reader prec buffer)
  | .datetime2 prec, buffer => some (datetime2Reader prec buffer)
  | .timestamp2 prec, buffer => some (timestamp2Reader prec buffer)

end DatabaseJones.Ndb
