import DatabaseJones.Ndb.TemporalEncoders
import DatabaseJones.Ndb.IntegerRoundTrip

/-!
# Which temporal values the NDB adapter gives back

The values of the temporal types, and what is left of one at the precision of a column.
The types of MySQL 5.6 give back every value (`read_write_fractional`).  Of the older
types TIMESTAMP does not: its reader multiplies seconds by a thousand in 32 bits
(`roundTrips_iff`).
-/

namespace DatabaseJones.Ndb

open DatabaseJones.Library

/-! ## Values -/

/-- The parts of a temporal value. -/
structure TimeValue where
  sign : ℤ
  year : ℤ
  month : ℤ
  day : ℤ
  hour : ℤ
  minute : ℤ
  second : ℤ
  microsec : ℤ
deriving DecidableEq, Repr

/-- The value that an object stands for: what it leaves out is zero, or positive. -/
def TimeObject.value (time : TimeObject) : TimeValue where
  sign := time.sign.getD 1
  year := time.year.getD 0
  month := time.month.getD 0
  day := time.day.getD 0
  hour := time.hour.getD 0
  minute := time.minute.getD 0
  second := time.second.getD 0
  microsec := time.microsec.getD 0

/-- Some part is given, and the object is not marked as invalid. -/
def TimeObject.IsSupplied (time : TimeObject) : Prop :=
  time.valid ≠ some false ∧ (TimeHelper.keys time).any Option.isSome = true

instance (time : TimeObject) : Decidable time.IsSupplied := inferInstanceAs (Decidable (_ ∧ _))

namespace TimeValue

/-- The object with all parts of a value. -/
def toObject (value : TimeValue) : TimeObject where
  valid := none
  sign := some value.sign
  year := some value.year
  month := some value.month
  day := some value.day
  hour := some value.hour
  minute := some value.minute
  second := some value.second
  microsec := some value.microsec

/-- The days of a month; any day goes with month zero, an unknown one. -/
def daysInMonth (year : ℤ) (month : ℤ) : ℤ :=
  if month = 2 then if year % 4 = 0 ∧ (year % 100 ≠ 0 ∨ year % 400 = 0) then 29 else 28
  else if month = 4 ∨ month = 6 ∨ month = 9 ∨ month = 11 then 30
  else 31

/-- A day of the calendar, or one with unknown parts. -/
def IsCalendarDay (value : TimeValue) : Prop :=
  (0 ≤ value.year ∧ value.year ≤ 9999) ∧ (0 ≤ value.month ∧ value.month ≤ 12) ∧
    0 ≤ value.day ∧ value.day ≤ daysInMonth value.year value.month

/-- A time of at most `hours` hours, and less than one more. -/
def IsClockTime (value : TimeValue) (hours : ℤ) : Prop :=
  (0 ≤ value.hour ∧ value.hour ≤ hours) ∧ (0 ≤ value.minute ∧ value.minute ≤ 59) ∧
    (0 ≤ value.second ∧ value.second ≤ 59) ∧ 0 ≤ value.microsec ∧ value.microsec ≤ 999999

/-- A value of DATE. -/
def IsDate (value : TimeValue) : Prop :=
  value.sign = 1 ∧ value.IsCalendarDay ∧
    value.hour = 0 ∧ value.minute = 0 ∧ value.second = 0 ∧ value.microsec = 0

/-- A value of DATETIME. -/
def IsDatetime (value : TimeValue) : Prop :=
  value.sign = 1 ∧ value.IsCalendarDay ∧ value.IsClockTime 23

/-- A value of TIME. -/
def IsTime (value : TimeValue) : Prop :=
  (value.sign = 1 ∨ value.sign = -1) ∧ value.year = 0 ∧ value.month = 0 ∧ value.day = 0 ∧
    value.IsClockTime 838

/-- What is left of a value at a precision.  Zero has no sign. -/
def truncate (value : TimeValue) (prec : ℕ) : TimeValue :=
  let microsec := value.microsec - value.microsec % 10 ^ (6 - prec)
  { value with
    microsec := microsec
    sign :=
      if value.hour = 0 ∧ value.minute = 0 ∧ value.second = 0 ∧ microsec = 0 then 1
      else value.sign }

end TimeValue

namespace TemporalType

/-- The digits of a second's fraction that a type keeps. -/
def precision : TemporalType → ℕ
  | .time2 prec => prec
  | .datetime2 prec => prec
  | .timestamp2 prec => prec
  | .date => 0
  | .time => 0
  | .datetime => 0
  | .timestamp => 0
  | .year => 0

/-- The values of a type.  A timestamp is a 32-bit number of seconds, and a fraction. -/
def InRange : TemporalType → JsValue → Prop
  | .date, .time object => object.IsSupplied ∧ object.value.IsDate
  | .time, .time object => object.IsSupplied ∧ object.value.IsTime
  | .time2 _, .time object => object.IsSupplied ∧ object.value.IsTime
  | .datetime, .time object => object.IsSupplied ∧ object.value.IsDatetime
  | .datetime2 _, .time object => object.IsSupplied ∧ object.value.IsDatetime
  | .timestamp, .date (some milliseconds) => 0 ≤ milliseconds ∧ milliseconds < 2 ^ 32 * 1000
  | .timestamp2 _, .date (some milliseconds) => 0 ≤ milliseconds ∧ milliseconds < 2 ^ 32 * 1000
  | .year, .number value => 1900 ≤ value ∧ value ≤ 2155
  | _, _ => False

/-- What is left of a value at the precision of a type. -/
def truncate (type : TemporalType) : JsValue → JsValue
  | .time object => .time (object.value.truncate type.precision).toObject
  | .date milliseconds =>
      .date (milliseconds.map fun value => value - value % 10 ^ (3 - type.precision))
  | .number value => .number value

/-- The writer stores the value, and the reader gives back what the precision leaves of it. -/
def RoundTrips (undefinedInt : Option ℤ → ℤ) (invalidAsInt64 : ℤ) (type : TemporalType)
    (value : JsValue) : Prop :=
  ∃ bytes, type.write undefinedInt invalidAsInt64 value = some bytes ∧
    type.read bytes = some (type.truncate value)

end TemporalType

/-! ## Parts -/

theorem toUnsigned_natCast {value : ℕ} (h : value < 2 ^ 32) : toUnsigned value = value := by
  simp only [toUnsigned]
  omega

theorem int32Value_natCast {value : ℕ} (h : value < 2 ^ 31) : int32Value value = value := by
  simp only [int32Value, Int.bmod_def]
  omega

/-- The parts that a writer sees of a value. -/
def TimeValue.helper (value : TimeValue) : TimeHelper where
  sign := int32Value value.sign
  year := toUnsigned value.year
  month := toUnsigned value.month
  day := toUnsigned value.day
  hour := toUnsigned value.hour
  minute := toUnsigned value.minute
  second := toUnsigned value.second
  microsec := toUnsigned value.microsec

theorem field_eq_toUnsigned (property : Option ℤ) :
    TimeHelper.field property = toUnsigned (property.getD 0) := by
  cases property <;> rfl

theorem ofJs_of_isSupplied {time : TimeObject} (h : time.IsSupplied) :
    TimeHelper.ofJs (.time time) = time.value.helper := by
  have hsign : (time.sign.map int32Value).getD 1 = int32Value (time.sign.getD 1) := by
    cases time.sign <;> rfl
  simp only [TimeHelper.ofJs, if_neg h.1, h.2, hsign, field_eq_toUnsigned, TimeValue.helper,
    TimeObject.value]

theorem valid_ofJs_of_not_isSupplied {time : TimeObject} (h : ¬ time.IsSupplied) :
    (TimeHelper.ofJs (.time time)).valid = false := by
  simp only [TimeHelper.ofJs]
  split_ifs with hvalid
  · rfl
  · simpa [TimeObject.IsSupplied, hvalid] using h

theorem toJs_eq {tm : TimeHelper} (hyear : tm.year < 2 ^ 31) (hmonth : tm.month < 2 ^ 31)
    (hday : tm.day < 2 ^ 31) (hhour : tm.hour < 2 ^ 31) (hminute : tm.minute < 2 ^ 31)
    (hsecond : tm.second < 2 ^ 31) (hmicrosec : tm.microsec < 2 ^ 31) :
    tm.toJs = TimeValue.toObject ⟨tm.sign, tm.year, tm.month, tm.day, tm.hour, tm.minute,
      tm.second, tm.microsec⟩ := by
  simp only [TimeHelper.toJs, TimeValue.toObject, int32Value_natCast, hyear, hmonth, hday, hhour,
    hminute, hsecond, hmicrosec]

/-! ## Fractions -/

theorem unpackBigendian_packBigendian {value len : ℕ} (hlen : len ≤ 8) (h : value < 256 ^ len)
    (rest : List UInt8) : unpackBigendian (packBigendian value len ++ rest) len = value := by
  have hpow : 256 ^ len ≤ 2 ^ 64 :=
    (Nat.pow_le_pow_right (by norm_num) hlen).trans (by norm_num)
  have hvalue : ((value : ℤ) % 2 ^ 64).toNat = value := by omega
  rw [unpackBigendian, packBigendian, hvalue, List.take_left' (length_bigEndian _ _),
    fromBigEndian_bigEndian, Nat.mod_eq_of_lt h, Nat.mod_eq_of_lt (h.trans_le hpow)]

theorem unpackBigendian_packBigendian_nil {value len : ℕ} (hlen : len ≤ 8) (h : value < 256 ^ len) :
    unpackBigendian (packBigendian value len) len = value := by
  have hunpack := unpackBigendian_packBigendian hlen h []
  rwa [List.append_nil] at hunpack

theorem drop_packBigendian (value : ℤ) (len : ℕ) (rest : List UInt8) :
    (packBigendian value len ++ rest).drop len = rest :=
  List.drop_left' (length_bigEndian _ _)

variable {prec : ℕ}

/-- The stored digits of a fraction. -/
theorem scaleDown_natCast (hprec : prec ≤ 6) {usec : ℕ} (husec : usec < 1000000) :
    ∃ scaled : ℕ, scaleDown prec usec = scaled ∧ scaled < 256 ^ fractionSize prec ∧
      scaleUp prec scaled = usec - usec % 10 ^ (6 - prec) := by
  refine ⟨(scaleDown prec usec).toNat, ?_⟩
  interval_cases prec <;>
    simp only [scaleDown, scaleUp, fractionSize, Int.tdiv_eq_ediv, Int.tmod_eq_emod] <;>
    norm_num <;> omega

theorem scaleUp_eq_zero_iff {scaled : ℕ} : scaleUp prec scaled = 0 ↔ scaled = 0 := by
  simp only [scaleUp]
  split_ifs <;> omega

theorem readFraction_writeFraction (hprec : prec ≤ 6) {usec : ℕ} (husec : usec < 1000000) :
    readFraction prec (writeFraction prec usec) = usec - usec % 10 ^ (6 - prec) := by
  rcases Nat.eq_zero_or_pos prec with rfl | hpos
  · simp only [readFraction, Nat.lt_irrefl, if_false]
    omega
  · obtain ⟨scaled, hscaled, hlt, hup⟩ := scaleDown_natCast hprec husec
    have hunpack := unpackBigendian_packBigendian_nil (by simp only [fractionSize]; omega) hlt
    rw [readFraction, writeFraction, if_pos hpos, if_pos hpos, hscaled, hunpack, hup]

/-! ## Values in range -/

/-- The parts of a value as natural numbers. -/
theorem exists_parts {value : TimeValue} (hyear : 0 ≤ value.year) (hmonth : 0 ≤ value.month)
    (hday : 0 ≤ value.day) (hhour : 0 ≤ value.hour) (hminute : 0 ≤ value.minute)
    (hsecond : 0 ≤ value.second) (hmicrosec : 0 ≤ value.microsec) :
    ∃ year month day hour minute second microsec : ℕ,
      value = ⟨value.sign, year, month, day, hour, minute, second, microsec⟩ := by
  obtain ⟨sign, year, month, day, hour, minute, second, microsec⟩ := value
  lift year to ℕ using hyear
  lift month to ℕ using hmonth
  lift day to ℕ using hday
  lift hour to ℕ using hhour
  lift minute to ℕ using hminute
  lift second to ℕ using hsecond
  lift microsec to ℕ using hmicrosec
  exact ⟨year, month, day, hour, minute, second, microsec, rfl⟩

theorem daysInMonth_le (year month : ℤ) : TimeValue.daysInMonth year month ≤ 31 := by
  simp only [TimeValue.daysInMonth]
  split_ifs <;> omega

section Parts

variable {year month day hour minute second microsec : ℕ} {sign : ℤ}

theorem helper_natCast (hsign : sign = 1 ∨ sign = -1) (hyear : year < 2 ^ 31)
    (hmonth : month < 2 ^ 31) (hday : day < 2 ^ 31) (hhour : hour < 2 ^ 31)
    (hminute : minute < 2 ^ 31) (hsecond : second < 2 ^ 31) (hmicrosec : microsec < 2 ^ 31) :
    TimeValue.helper ⟨sign, year, month, day, hour, minute, second, microsec⟩ =
      { sign := sign, year := year, month := month, day := day, hour := hour, minute := minute,
        second := second, microsec := microsec } := by
  have hsigned : int32Value sign = sign := by
    rcases hsign with rfl | rfl <;> rfl
  simp only [TimeValue.helper, hsigned]
  congr 1 <;> exact toUnsigned_natCast (by omega)

/-- The bits of a DATETIME of MySQL 5.6 before its fraction. -/
def datetimeBits (year month day hour minute second : ℕ) : ℕ :=
  ((((1 * 2 ^ 17 + (year * 13 + month)) * 2 ^ 5 + day) * 2 ^ 5 + hour) * 2 ^ 6 + minute) * 2 ^ 6 +
    second

theorem datetime2Writer_eq {object : TimeObject}
    (hvalue : TimeHelper.ofJs (.time object) =
      { sign := 1, year := year, month := month, day := day, hour := hour, minute := minute,
        second := second, microsec := microsec })
    (hyear : year ≤ 9999) (hmonth : month ≤ 12) (hday : day < 32) (hhour : hour < 32)
    (hminute : minute < 64) (hsecond : second < 64) (hmicrosec : microsec < 1000000) :
    datetime2Writer prec (.time object) =
      some (packBigendian (datetimeBits year month day hour minute second) 5 ++
        writeFraction prec microsec) := by
  have hyrMo : year * 13 + month < 2 ^ 17 := by omega
  simp only [datetime2Writer, hvalue, if_true, int32Value_natCast (show microsec < 2 ^ 31 by omega),
    Nat.mod_eq_of_lt (show year * 13 + month < 2 ^ 32 by omega), shiftLeft_or_field _ hyrMo,
    shiftLeft_or_field 5 hday, shiftLeft_or_field 5 hhour,
    shiftLeft_or_field 6 hminute, shiftLeft_or_field 6 hsecond, datetimeBits]

theorem datetimeBits_lt (hyear : year ≤ 9999) (hmonth : month ≤ 12) (hday : day < 32)
    (hhour : hour < 32) (hminute : minute < 64) (hsecond : second < 64) :
    datetimeBits year month day hour minute second < 256 ^ 5 := by
  unfold datetimeBits
  omega

theorem datetime2Reader_datetime2Writer (hprec : prec ≤ 6) {object : TimeObject}
    (hvalue : TimeHelper.ofJs (.time object) =
      { sign := 1, year := year, month := month, day := day, hour := hour, minute := minute,
        second := second, microsec := microsec })
    (hyear : year ≤ 9999) (hmonth : month ≤ 12) (hday : day < 32) (hhour : hour < 32)
    (hminute : minute < 64) (hsecond : second < 64) (hmicrosec : microsec < 1000000) :
    ∃ bytes, datetime2Writer prec (.time object) = some bytes ∧
      datetime2Reader prec bytes = .time (TimeValue.toObject ⟨1, year, month, day, hour, minute,
        second, (microsec - microsec % 10 ^ (6 - prec) : ℕ)⟩) := by
  have hyrMo : year * 13 + month < 2 ^ 17 := by omega
  have hlt := datetimeBits_lt hyear hmonth hday hhour hminute hsecond
  refine ⟨_, datetime2Writer_eq hvalue hyear hmonth hday hhour hminute hsecond hmicrosec, ?_⟩
  have hmonth' : (year * 13 + month) % 13 = month := by omega
  have hyear' : (year * 13 + month) / 13 = year := by omega
  have hyrMoField : (1 * 2 ^ 17 + (year * 13 + month)) &&& 0x01FFFF = year * 13 + month :=
    field_and_mask _ _ rfl hyrMo 1
  simp only [datetime2Reader, unpackBigendian_packBigendian (by norm_num) hlt, drop_packBigendian,
    readFraction_writeFraction hprec hmicrosec]
  simp only [datetimeBits, field_and_mask 0x3F 6 rfl hsecond,
    field_shiftRight 6 hsecond, field_and_mask 0x3F 6 rfl hminute,
    field_shiftRight 6 hminute, field_and_mask 0x1F 5 rfl hhour,
    field_shiftRight 5 hhour, field_and_mask 0x1F 5 rfl hday,
    field_shiftRight 5 hday, hyrMoField, hmonth', hyear']
  rw [toJs_eq] <;> dsimp only <;> omega

/-- The bits of a TIME of MySQL 5.6 after its sign, with a fraction of `width` bits. -/
def timeBits (width hour minute second scaled : ℕ) : ℕ :=
  ((hour * 2 ^ 6 + minute) * 2 ^ 6 + second) * 2 ^ width + scaled

theorem timeBits_lt {width scaled : ℕ} (hhour : hour < 1024) (hminute : minute < 64)
    (hsecond : second < 64) (hscaled : scaled < 2 ^ width) :
    timeBits width hour minute second scaled < 2 ^ (23 + width) := by
  calc timeBits width hour minute second scaled
      < ((hour * 2 ^ 6 + minute) * 2 ^ 6 + second) * 2 ^ width + 2 ^ width :=
        Nat.add_lt_add_left hscaled _
    _ = ((hour * 2 ^ 6 + minute) * 2 ^ 6 + second + 1) * 2 ^ width := by ring
    _ ≤ 2 ^ 23 * 2 ^ width := Nat.mul_le_mul_right _ (by omega)
    _ = 2 ^ (23 + width) := (Nat.pow_add _ _ _).symm

theorem timeBits_eq_zero_iff (hour minute second width scaled : ℕ) : timeBits width hour minute second scaled = 0 ↔
    hour = 0 ∧ minute = 0 ∧ second = 0 ∧ scaled = 0 := by
  have hpow := (Nat.two_pow_pos width).ne'
  simp only [timeBits, Nat.add_eq_zero_iff, Nat.mul_eq_zero, hpow, or_false]
  omega

/-- Truncation in natural numbers. -/
theorem truncate_natCast (prec : ℕ) :
    TimeValue.truncate ⟨sign, year, month, day, hour, minute, second, microsec⟩ prec =
      ⟨if hour = 0 ∧ minute = 0 ∧ second = 0 ∧ microsec - microsec % 10 ^ (6 - prec) = 0 then 1
        else sign, year, month, day, hour, minute, second,
        (microsec - microsec % 10 ^ (6 - prec) : ℕ)⟩ := by
  have hmicrosec : (microsec : ℤ) - microsec % 10 ^ (6 - prec) =
      (microsec - microsec % 10 ^ (6 - prec) : ℕ) := by
    rw [Nat.cast_sub (Nat.mod_le _ _)]
    push_cast
    rfl
  simp only [TimeValue.truncate, hmicrosec, Int.natCast_eq_zero]

/-- The reader takes the same parts from the bits with and without the sign bit. -/
theorem time2_fields {width scaled : ℕ} (hhour : hour < 1024) (hminute : minute < 64)
    (hsecond : second < 64) (hscaled : scaled < 2 ^ width) {packed : ℕ} {lead : ℕ}
    (hpacked : packed = lead * 2 ^ (23 + width) + timeBits width hour minute second scaled) :
    packed &&& (1 <<< width - 1) = scaled ∧ packed >>> width &&& 0x3F = second ∧
      packed >>> width >>> 6 &&& 0x3F = minute ∧ packed >>> width >>> 6 >>> 6 &&& 0x03FF = hour := by
  have hfields : packed = ((((lead * 2) * 2 ^ 10 + hour) * 2 ^ 6 + minute) * 2 ^ 6 + second) *
      2 ^ width + scaled := by
    rw [hpacked, timeBits, Nat.pow_add]
    ring
  have hmask : 1 <<< width - 1 = 2 ^ width - 1 := by rw [Nat.one_shiftLeft]
  rw [hfields]
  refine ⟨field_and_mask _ _ hmask hscaled _, ?_⟩
  rw [field_shiftRight _ hscaled, field_shiftRight 6 hsecond,
    field_shiftRight 6 hminute]
  exact ⟨field_and_mask _ 6 rfl hsecond _, field_and_mask _ 6 rfl hminute _,
    field_and_mask _ 10 rfl hhour _⟩

theorem time2Reader_signed (hprec : prec ≤ 6) (negative : Bool) {scaled : ℕ}
    (hhour : hour < 1024) (hminute : minute < 64) (hsecond : second < 64)
    (hscaled : scaled < 256 ^ fractionSize prec) {width packed : ℕ}
    (hwidth : width = fractionSize prec * 8)
    (hpacked : packed = if negative then 2 ^ (23 + width) - timeBits width hour minute second scaled
      else 2 ^ (23 + width) + timeBits width hour minute second scaled) :
    time2Reader prec (packBigendian packed (3 + fractionSize prec)) =
      .time (TimeHelper.toJs
        { sign := if negative ∧ ¬ (hour = 0 ∧ minute = 0 ∧ second = 0 ∧ scaled = 0) then -1 else 1
          fsp := prec
          microsec := scaleUp prec scaled
          second := second
          minute := minute
          hour := hour }) := by
  have hsize : fractionSize prec ≤ 3 := by
    simp only [fractionSize]
    omega
  have hbytes : ∀ length, 256 ^ length = 2 ^ (length * 8) := fun length => by
    rw [show 256 = 2 ^ 8 by rfl, ← Nat.pow_mul, Nat.mul_comm]
  rw [hbytes, ← hwidth] at hscaled
  have hlt := timeBits_lt hhour hminute hsecond hscaled
  have hzero := timeBits_eq_zero_iff hour minute second width scaled
  have hpow : 2 ^ (23 + width + 1) = 2 * 2 ^ (23 + width) := Nat.pow_succ'
  have hpackedLt : packed < 2 ^ (23 + width + 1) := by
    rw [hpacked, hpow]
    split_ifs <;> omega
  have hunpack : unpackBigendian (packBigendian packed (3 + fractionSize prec))
      (3 + fractionSize prec) = packed :=
    unpackBigendian_packBigendian_nil (by omega) (by rw [hbytes]; convert hpackedLt using 2; omega)
  simp only [time2Reader, hunpack, ← hwidth, Nat.add_comm width 23, and_highest_bit_iff hpackedLt]
  by_cases hneg : negative ∧ ¬ (hour = 0 ∧ minute = 0 ∧ second = 0 ∧ scaled = 0)
  · have hless : ¬ 2 ^ (23 + width) ≤ packed := by
      rw [← hzero] at hneg
      rw [hpacked, if_pos hneg.1]
      omega
    have hsmall : 2 ^ (23 + width) ≤ 2 ^ 47 := Nat.pow_le_pow_right two_pos (by omega)
    have hdifference : ((((1 <<< (23 + width) : ℕ) : ℤ) - packed) % 2 ^ 64).toNat =
        timeBits width hour minute second scaled := by
      rw [Nat.one_shiftLeft, hpacked, if_pos hneg.1]
      omega
    obtain ⟨hmicrosec, hsecond', hminute', hhour'⟩ := time2_fields hhour hminute hsecond hscaled
      (show timeBits width hour minute second scaled = 0 * 2 ^ (23 + width) + _ by omega)
    simp only [if_neg hless, hdifference, hmicrosec, hsecond', hminute', hhour', if_pos hneg]
  · have hpositive : packed = 1 * 2 ^ (23 + width) + timeBits width hour minute second scaled := by
      rw [hpacked, Nat.one_mul]
      split_ifs with hnegative
      · have hbits := hzero.mpr (not_not.mp fun h => hneg ⟨hnegative, h⟩)
        omega
      · rfl
    obtain ⟨hmicrosec, hsecond', hminute', hhour'⟩ :=
      time2_fields hhour hminute hsecond hscaled hpositive
    simp only [if_pos (show 2 ^ (23 + width) ≤ packed by omega), hmicrosec, hsecond', hminute',
      hhour', if_neg hneg]

theorem time2Writer_eq (hprec : prec ≤ 6) {object : TimeObject} {sign : ℤ}
    (hsign : sign = 1 ∨ sign = -1)
    (hvalue : TimeHelper.ofJs (.time object) =
      { sign := sign, year := year, month := month, day := day, hour := hour, minute := minute,
        second := second, microsec := microsec })
    (hhour : hour < 1024) (hminute : minute < 64) (hsecond : second < 64)
    (hmicrosec : microsec < 1000000) {scaled width : ℕ} (hscaled : scaleDown prec microsec = scaled)
    (hscaledLt : scaled < 256 ^ fractionSize prec) (hwidth : width = fractionSize prec * 8) :
    time2Writer prec (.time object) = some (packBigendian
      (if decide (sign < 0) = true then 2 ^ (23 + width) - timeBits width hour minute second scaled
        else 2 ^ (23 + width) + timeBits width hour minute second scaled : ℕ)
      (3 + fractionSize prec)) := by
  have hmicrosec' : int32Value microsec = microsec := int32Value_natCast (by omega)
  have hscaledBits : scaled < 2 ^ width := by
    rwa [hwidth, Nat.mul_comm, Nat.pow_mul]
  have hscaledSmall : scaled < 2 ^ 64 :=
    hscaledBits.trans_le (Nat.pow_le_pow_right two_pos (by simp only [hwidth, fractionSize]; omega))
  have hfsec : (scaleDown prec (int32Value microsec) % 2 ^ 64).toNat = scaled := by
    rw [hmicrosec', hscaled]
    omega
  have hlt := timeBits_lt hhour hminute hsecond hscaledBits
  have hbits : ∀ lead : ℕ, (((lead <<< 11 ||| hour) <<< 6 ||| minute) <<< 6 ||| second) <<< width |||
      scaled = lead * 2 ^ (23 + width) + timeBits width hour minute second scaled := by
    intro lead
    rw [shiftLeft_or_field 11 (by omega), shiftLeft_or_field 6 hminute,
      shiftLeft_or_field 6 hsecond, shiftLeft_or_field _ hscaledBits, timeBits, Nat.pow_add]
    ring
  simp only [time2Writer, hvalue, if_true, ← hwidth, hfsec, hbits, Nat.one_shiftLeft]
  rcases hsign with rfl | rfl
  · simp
  · simp [Nat.cast_sub hlt.le]

theorem time2Reader_time2Writer (hprec : prec ≤ 6) {object : TimeObject} {sign : ℤ}
    (hsign : sign = 1 ∨ sign = -1)
    (hvalue : TimeHelper.ofJs (.time object) =
      { sign := sign, year := year, month := month, day := day, hour := hour, minute := minute,
        second := second, microsec := microsec })
    (hyear : year = 0) (hmonth : month = 0) (hday : day = 0) (hhour : hour < 1024)
    (hminute : minute < 64) (hsecond : second < 64) (hmicrosec : microsec < 1000000) :
    ∃ bytes, time2Writer prec (.time object) = some bytes ∧
      time2Reader prec bytes = .time (TimeValue.truncate ⟨sign, year, month, day, hour, minute,
        second, microsec⟩ prec).toObject := by
  obtain ⟨scaled, hscaled, hscaledLt, hup⟩ := scaleDown_natCast hprec hmicrosec
  set width := fractionSize prec * 8 with hwidth
  set negative := decide (sign < 0) with hnegative
  refine ⟨_, time2Writer_eq hprec hsign hvalue hhour hminute hsecond hmicrosec hscaled hscaledLt hwidth,
    ?_⟩
  have hsigns : (if negative ∧ ¬ (hour = 0 ∧ minute = 0 ∧ second = 0 ∧ scaled = 0) then -1 else 1) =
      if hour = 0 ∧ minute = 0 ∧ second = 0 ∧ microsec - microsec % 10 ^ (6 - prec) = 0 then 1
        else sign := by
    simp only [← hup, scaleUp_eq_zero_iff, hnegative]
    by_cases hzero : hour = 0 ∧ minute = 0 ∧ second = 0 ∧ scaled = 0
    · simp only [hzero, not_true_eq_false, and_false, if_false, and_self, if_true]
    · rcases hsign with rfl | rfl <;> simp only [hzero] <;> decide
  have hmicrosecLt : scaleUp prec scaled < 2 ^ 31 := by
    rw [hup]
    exact (Nat.sub_le _ _).trans_lt (hmicrosec.trans (by norm_num))
  rw [time2Reader_signed hprec negative hhour hminute hsecond hscaledLt hwidth rfl, truncate_natCast,
    hsigns, toJs_eq (Nat.two_pow_pos 31) (Nat.two_pow_pos 31) (Nat.two_pow_pos 31)
      (by dsimp only; omega) (by dsimp only; omega) (by dsimp only; omega) hmicrosecLt]
  dsimp only
  rw [hup, hyear, hmonth, hday]

theorem dateReader_dateWriter {object : TimeObject}
    (hvalue : TimeHelper.ofJs (.time object) =
      { sign := 1, year := year, month := month, day := day, hour := hour, minute := minute,
        second := second, microsec := microsec })
    (hyear : year ≤ 9999) (hmonth : month < 16) (hday : day < 32) :
    ∃ bytes, dateWriter (.time object) = some bytes ∧
      dateReader bytes = .time (TimeValue.toObject ⟨1, year, month, day, 0, 0, 0, 0⟩) := by
  have hencoded : year <<< 9 ||| month <<< 5 ||| day = year * 2 ^ 9 + (month * 2 ^ 5 + day) := by
    rw [Nat.or_assoc, shiftLeft_or_field 5 hday, shiftLeft_or_field _ (by omega)]
  have hwrite : dateWriter (.time object) =
      some (writeUnsignedMedium (year * 2 ^ 9 + (month * 2 ^ 5 + day) : ℕ)) := by
    simp only [dateWriter, hvalue, if_true, hencoded]
  refine ⟨_, hwrite, ?_⟩
  have hload := uint3korr_writeUnsignedMedium
    (year * 2 ^ 9 + (month * 2 ^ 5 + day) : ℕ) (by omega) (by omega)
  have hmonthField : (year * 2 ^ 9 + (month * 2 ^ 5 + day)) >>> 5 &&& 15 = month := by
    rw [show year * 2 ^ 9 + (month * 2 ^ 5 + day) = (year * 2 ^ 4 + month) * 2 ^ 5 + day by ring,
      field_shiftRight 5 hday]
    exact field_and_mask _ 4 rfl hmonth _
  have hdayField : (year * 2 ^ 9 + (month * 2 ^ 5 + day)) &&& 31 = day := by
    rw [show year * 2 ^ 9 + (month * 2 ^ 5 + day) = (year * 2 ^ 4 + month) * 2 ^ 5 + day by ring]
    exact field_and_mask _ 5 rfl hday _
  have hyearField : (year * 2 ^ 9 + (month * 2 ^ 5 + day)) >>> 9 = year :=
    field_shiftRight _ (by omega) _
  simp only [dateReader, hload, Int.toNat_natCast, hmonthField, hdayField, hyearField]
  rw [toJs_eq] <;> dsimp only <;> first | omega | rfl

theorem timeReader_timeWriter {object : TimeObject} (hsign : sign = 1 ∨ sign = -1)
    (hvalue : TimeHelper.ofJs (.time object) =
      { sign := sign, year := year, month := month, day := day, hour := hour, minute := minute,
        second := second, microsec := microsec })
    (hyear : year = 0) (hmonth : month = 0) (hday : day = 0) (hhour : hour ≤ 838)
    (hminute : minute < 60) (hsecond : second < 60) (hmicrosec : microsec < 1000000) :
    ∃ bytes, timeWriter (.time object) = some bytes ∧
      timeReader bytes = .time (TimeValue.truncate ⟨sign, year, month, day, hour, minute, second,
        microsec⟩ 0).toObject := by
  set clock := (hour * 100 + minute) * 100 + second with hclock
  have hclockLt : clock < 8388608 := by omega
  have hwrite : timeWriter (.time object) = some (writeSignedMedium (clock * sign)) := by
    have hsmall : int32Value ((clock : ℤ) * sign) = clock * sign :=
      Int.bmod_eq_of_le_mul_two (by rcases hsign with rfl | rfl <;> norm_num <;> omega)
        (by rcases hsign with rfl | rfl <;> norm_num <;> omega)
    simp only [timeWriter, hvalue, if_true, ← hclock, hsmall]
  have hload : sint3korr (writeSignedMedium (clock * sign)) = clock * sign :=
    sint3korr_writeSignedMedium (by rcases hsign with rfl | rfl <;> omega)
      (by rcases hsign with rfl | rfl <;> norm_num <;> omega)
  have habs : ((clock : ℤ) * sign).natAbs = clock := by
    rcases hsign with rfl | rfl <;> simp
  have hmicrosec' : microsec - microsec % 10 ^ (6 - 0) = 0 := by
    rw [Nat.mod_eq_of_lt (by omega), Nat.sub_self]
  have hsigns : (if (clock : ℤ) * sign < 0 then -1 else 1) =
      if hour = 0 ∧ minute = 0 ∧ second = 0 ∧ microsec - microsec % 10 ^ (6 - 0) = 0 then 1
        else sign := by
    simp only [hmicrosec', and_true]
    rcases hsign with rfl | rfl <;> split_ifs <;> omega
  refine ⟨_, hwrite, ?_⟩
  rw [timeReader, hload, TimeHelper.factor_HHMMSS, habs, hsigns, truncate_natCast, hmicrosec',
    show clock / 10000 = hour by omega, show clock / 100 % 100 = minute by omega,
    show clock % 100 = second by omega, toJs_eq] <;> dsimp only
  · rw [hyear, hmonth, hday]
  all_goals omega

theorem datetimeReader_datetimeWriter {object : TimeObject}
    (hvalue : TimeHelper.ofJs (.time object) =
      { sign := 1, year := year, month := month, day := day, hour := hour, minute := minute,
        second := second, microsec := microsec })
    (hyear : year ≤ 9999) (hmonth : month < 100) (hday : day < 100) (hhour : hour < 100)
    (hminute : minute < 100) (hsecond : second < 100) :
    ∃ bytes, datetimeWriter (.time object) = some bytes ∧
      datetimeReader bytes = some (.time (TimeValue.toObject ⟨1, year, month, day, hour, minute,
        second, 0⟩)) := by
  obtain ⟨date, hdate⟩ : ∃ date, date = (year * 100 + month) * 100 + day := ⟨_, rfl⟩
  obtain ⟨clock, hclock⟩ : ∃ clock, clock = (hour * 100 + minute) * 100 + second := ⟨_, rfl⟩
  have hdtval : ((((year * 100 + month) * 100 + day) * 100 + hour) * 100 + minute) * 100 + second =
      date * 1000000 + clock := by omega
  have hquotient : (date * 1000000 + clock) / 1000000 = date := by omega
  have hdateParts : date / 10000 % 10000 = year ∧ date / 100 % 100 = month ∧ date % 100 = day := by
    omega
  have hclockParts : clock / 10000 = hour ∧ clock / 100 % 100 = minute ∧ clock % 100 = second := by
    omega
  have hdateLt : date < 2 ^ 31 := by omega
  have hclockLt : clock < 1000000 := by omega
  have hwrite : datetimeWriter (.time object) =
      some (littleEndian 8 (date * 1000000 + clock)) := by
    simp only [datetimeWriter, hvalue, hdtval, if_true]
  refine ⟨_, hwrite, ?_⟩
  have hload : fromLittleEndian ((littleEndian 8 (date * 1000000 + clock)).take 8) =
      date * 1000000 + clock := by
    have hlt : date * 1000000 + clock < 256 ^ 8 := by
      norm_num
      omega
    rw [List.take_of_length_le (length_littleEndian _ _).le, fromLittleEndian_littleEndian,
      Nat.mod_eq_of_lt hlt]
  have hint_date : int32Value ((date * 1000000 + clock) / 1000000 : ℕ) = date := by
    rw [hquotient, int32Value_natCast hdateLt]
  have hint_time : int32Value ((date * 1000000 + clock : ℕ) - int32Value ((date : ℤ) * 1000000)) =
      clock := by
    have hdifference : ((date * 1000000 + clock : ℕ) : ℤ) - (date : ℤ) * 1000000 = clock := by
      push_cast
      ring
    rw [int32Value, int32Value, Int.sub_bmod_bmod, hdifference]
    exact int32Value_natCast (hclockLt.trans (by norm_num))
  have hdateFields : toUnsigned (((date : ℤ).tdiv 10000).tmod 10000) = year ∧
      toUnsigned (((date : ℤ).tdiv 100).tmod 100) = month ∧
      toUnsigned ((date : ℤ).tmod 100) = day := by
    obtain ⟨hyear', hmonth', hday'⟩ := hdateParts
    have hunsigned : ∀ {part limit : ℕ}, part < limit → limit ≤ 10000 → toUnsigned part = part :=
      fun hpart hlimit => toUnsigned_natCast (hpart.trans (hlimit.trans_lt (by norm_num)))
    refine ⟨(hunsigned (Nat.mod_lt _ (by norm_num)) le_rfl).trans hyear',
      (hunsigned (Nat.mod_lt _ (by norm_num)) (by norm_num)).trans hmonth',
      (hunsigned (Nat.mod_lt _ (by norm_num)) (by norm_num)).trans hday'⟩
  have hsmall : ∀ {part : ℕ}, part ≤ 9999 → part < 2 ^ 31 := fun h => h.trans_lt (by norm_num)
  simp only [datetimeReader, hload, hint_date, hint_time, Int.natCast_nonneg, if_true,
    TimeHelper.factor_HHMMSS, TimeHelper.factor_YYYYMMDD, hdateFields, Int.natAbs_natCast,
    hclockParts, if_neg (Int.natCast_nonneg clock).not_gt]
  rw [toJs_eq (hsmall hyear) (hsmall (hmonth.le.trans (by norm_num)))
    (hsmall (hday.le.trans (by norm_num))) (hsmall (hhour.le.trans (by norm_num)))
    (hsmall (hminute.le.trans (by norm_num))) (hsmall (hsecond.le.trans (by norm_num)))
    (Nat.two_pow_pos 31)]
  rfl

end Parts

theorem timestamp2Writer_eq (prec : ℕ) (invalidAsInt64 : ℤ) (milliseconds : ℕ) :
    timestamp2Writer invalidAsInt64 prec (.date (some milliseconds)) =
      some (packBigendian (milliseconds / 1000 : ℕ) 4 ++
        writeFraction prec (milliseconds % 1000 * 1000 : ℕ)) := by
  have hparts : (milliseconds : ℤ).tdiv 1000 = (milliseconds / 1000 : ℕ) ∧
      (milliseconds : ℤ).tmod 1000 = (milliseconds % 1000 : ℕ) := ⟨rfl, rfl⟩
  simp only [timestamp2Writer, Option.getD_some, hparts.1, hparts.2, Int.natCast_nonneg, if_true]
  push_cast
  rfl

/-- The milliseconds of a date, truncated with its microseconds. -/
theorem milliseconds_truncate (hprec : prec ≤ 6) (milliseconds : ℕ) :
    milliseconds / 1000 * 1000 + (milliseconds % 1000 * 1000 -
        milliseconds % 1000 * 1000 % 10 ^ (6 - prec)) / 1000 =
      milliseconds - milliseconds % 10 ^ (3 - prec) := by
  interval_cases prec <;> norm_num <;> omega

theorem timestamp2Reader_timestamp2Writer (hprec : prec ≤ 6) (invalidAsInt64 : ℤ) {milliseconds : ℕ}
    (h : milliseconds < 2 ^ 32 * 1000) :
    ∃ bytes, timestamp2Writer invalidAsInt64 prec (.date (some milliseconds)) = some bytes ∧
      timestamp2Reader prec bytes =
        .date (some (milliseconds - milliseconds % 10 ^ (3 - prec) : ℕ)) := by
  have hseconds : milliseconds / 1000 < 256 ^ 4 := by omega
  have hfraction : milliseconds % 1000 * 1000 < 1000000 := by omega
  refine ⟨_, timestamp2Writer_eq prec invalidAsInt64 milliseconds, ?_⟩
  simp only [timestamp2Reader, unpackBigendian_packBigendian (by norm_num) hseconds,
    drop_packBigendian, readFraction_writeFraction hprec hfraction]
  rw [← milliseconds_truncate hprec, Nat.mod_eq_of_lt (show milliseconds / 1000 < 2 ^ 32 by omega)]

theorem timestampReader_timestampWriter (undefinedInt : Option ℤ → ℤ) {milliseconds : ℕ}
    (h : milliseconds < 2 ^ 32 * 1000) :
    ∃ bytes, timestampWriter undefinedInt (.date (some milliseconds)) = some bytes ∧
      timestampReader bytes = .date (some (milliseconds / 1000 * 1000 % 2 ^ 32 : ℕ)) := by
  have hstored : castUint32 undefinedInt (some ((milliseconds : ℤ).tdiv 1000)) =
      (milliseconds / 1000 : ℕ) := by
    rw [castUint32, if_pos (by rw [Int.tdiv_eq_ediv]; omega)]
    rfl
  have hwrite : timestampWriter undefinedInt (.date (some milliseconds)) =
      some (storeInt 4 (milliseconds / 1000 : ℕ)) := by
    simp only [timestampWriter, hstored, Int.natCast_nonneg, if_true]
  refine ⟨_, hwrite, ?_⟩
  have hload : fromLittleEndian ((storeInt 4 (milliseconds / 1000 : ℕ)).take 4) =
      milliseconds / 1000 := by
    rw [storeInt, List.take_of_length_le (length_littleEndian _ _).le, fromLittleEndian_littleEndian]
    omega
  rw [timestampReader, hload]

/-! ## Column types -/

variable {undefinedInt : Option ℤ → ℤ} {invalidAsInt64 : ℤ}

/-- What a writer sees of an object with a value in range. -/
theorem exists_helper {object : TimeObject} (hsupplied : object.IsSupplied) {hours : ℤ}
    (hhours : hours ≤ 838) (hsign : object.value.sign = 1 ∨ object.value.sign = -1)
    (hday : object.value.IsCalendarDay) (hclock : object.value.IsClockTime hours) :
    ∃ year month day hour minute second microsec : ℕ,
      object.value = ⟨object.value.sign, year, month, day, hour, minute, second, microsec⟩ ∧
      TimeHelper.ofJs (.time object) =
        { sign := object.value.sign, year := year, month := month, day := day, hour := hour,
          minute := minute, second := second, microsec := microsec } ∧
      (year ≤ 9999 ∧ month ≤ 12 ∧ day ≤ 31) ∧
      hour ≤ hours ∧ minute ≤ 59 ∧ second ≤ 59 ∧ microsec ≤ 999999 := by
  obtain ⟨hyear, hmonth, hday⟩ := hday
  obtain ⟨hhour, hminute, hsecond, hmicrosec⟩ := hclock
  obtain ⟨year, month, day, hour, minute, second, microsec, hvalue⟩ :=
    exists_parts hyear.1 hmonth.1 hday.1 hhour.1 hminute.1 hsecond.1 hmicrosec.1
  have hdays := daysInMonth_le object.value.year object.value.month
  rw [hvalue] at hyear hmonth hday hhour hminute hsecond hmicrosec hdays
  dsimp only at hyear hmonth hday hhour hminute hsecond hmicrosec hdays
  refine ⟨year, month, day, hour, minute, second, microsec, hvalue, ?_, ?_, ?_⟩
  · rw [ofJs_of_isSupplied hsupplied]
    conv_lhs => rw [hvalue]
    exact helper_natCast hsign (by omega) (by omega) (by omega) (by omega) (by omega) (by omega)
      (by omega)
  · omega
  · omega

theorem isCalendarDay_of_eq_zero {value : TimeValue} (hyear : value.year = 0)
    (hmonth : value.month = 0) (hday : value.day = 0) : value.IsCalendarDay := by
  rw [TimeValue.IsCalendarDay, hyear, hmonth, hday]
  decide

theorem isClockTime_of_eq_zero {value : TimeValue} (hhour : value.hour = 0)
    (hminute : value.minute = 0) (hsecond : value.second = 0) (hmicrosec : value.microsec = 0) :
    value.IsClockTime 0 := by
  rw [TimeValue.IsClockTime, hhour, hminute, hsecond, hmicrosec]
  decide

theorem roundTrips_date {object : TimeObject} (hsupplied : object.IsSupplied)
    (h : object.value.IsDate) :
    TemporalType.RoundTrips undefinedInt invalidAsInt64 .date (.time object) := by
  obtain ⟨hsign, hday, hhour, hminute, hsecond, hmicrosec⟩ := h
  obtain ⟨year, month, day, hour, minute, second, microsec, hvalue, hhelper, hdayBounds, -⟩ :=
    exists_helper hsupplied (by norm_num) (.inl hsign) hday
      (isClockTime_of_eq_zero hhour hminute hsecond hmicrosec)
  rw [hsign] at hvalue hhelper
  obtain ⟨bytes, hwrite, hread⟩ := dateReader_dateWriter hhelper hdayBounds.1 (by omega) (by omega)
  refine ⟨bytes, hwrite, ?_⟩
  have hwhole : microsec - microsec % 10 ^ (6 - 0) = 0 := by
    rw [hvalue] at hmicrosec
    rw [Int.natCast_eq_zero.mp hmicrosec, Nat.zero_sub]
  rw [hvalue] at hhour hminute hsecond
  rw [TemporalType.read, hread, TemporalType.truncate, TemporalType.precision, hvalue,
    truncate_natCast, hwhole, ite_self]
  dsimp only at hhour hminute hsecond
  rw [hhour, hminute, hsecond]
  rfl

theorem roundTrips_time {object : TimeObject} (hsupplied : object.IsSupplied)
    (h : object.value.IsTime) :
    TemporalType.RoundTrips undefinedInt invalidAsInt64 .time (.time object) := by
  obtain ⟨hsign, hyear, hmonth, hday, hclock⟩ := h
  obtain ⟨year, month, day, hour, minute, second, microsec, hvalue, hhelper, -, hclockBounds⟩ :=
    exists_helper hsupplied le_rfl hsign (isCalendarDay_of_eq_zero hyear hmonth hday) hclock
  rw [hvalue] at hyear hmonth hday
  obtain ⟨bytes, hwrite, hread⟩ := timeReader_timeWriter hsign hhelper
    (Int.natCast_eq_zero.mp hyear) (Int.natCast_eq_zero.mp hmonth) (Int.natCast_eq_zero.mp hday)
    (by omega) (by omega) (by omega) (by omega)
  refine ⟨bytes, hwrite, ?_⟩
  rw [TemporalType.read, hread, ← hvalue]
  rfl

theorem roundTrips_time2 {prec : Fin 7} {object : TimeObject} (hsupplied : object.IsSupplied)
    (h : object.value.IsTime) :
    TemporalType.RoundTrips undefinedInt invalidAsInt64 (.time2 prec) (.time object) := by
  obtain ⟨hsign, hyear, hmonth, hday, hclock⟩ := h
  obtain ⟨year, month, day, hour, minute, second, microsec, hvalue, hhelper, -, hclockBounds⟩ :=
    exists_helper hsupplied le_rfl hsign (isCalendarDay_of_eq_zero hyear hmonth hday) hclock
  rw [hvalue] at hyear hmonth hday
  obtain ⟨bytes, hwrite, hread⟩ := time2Reader_time2Writer (Nat.le_of_lt_succ prec.isLt) hsign hhelper
    (Int.natCast_eq_zero.mp hyear) (Int.natCast_eq_zero.mp hmonth) (Int.natCast_eq_zero.mp hday)
    (by omega) (by omega) (by omega) (by omega)
  refine ⟨bytes, hwrite, ?_⟩
  rw [TemporalType.read, hread, ← hvalue]
  rfl

theorem roundTrips_datetime {object : TimeObject} (hsupplied : object.IsSupplied)
    (h : object.value.IsDatetime) :
    TemporalType.RoundTrips undefinedInt invalidAsInt64 .datetime (.time object) := by
  obtain ⟨hsign, hday, hclock⟩ := h
  obtain ⟨year, month, day, hour, minute, second, microsec, hvalue, hhelper, hdayBounds,
    hclockBounds⟩ := exists_helper hsupplied (by norm_num) (.inl hsign) hday hclock
  rw [hsign] at hvalue hhelper
  obtain ⟨bytes, hwrite, hread⟩ := datetimeReader_datetimeWriter hhelper hdayBounds.1 (by omega)
    (by omega) (by omega) (by omega) (by omega)
  refine ⟨bytes, hwrite, ?_⟩
  have hwhole : microsec - microsec % 10 ^ (6 - 0) = 0 := by
    rw [Nat.mod_eq_of_lt (by omega), Nat.sub_self]
  rw [TemporalType.read, hread, TemporalType.truncate, TemporalType.precision, hvalue,
    truncate_natCast, hwhole, ite_self]
  rfl

theorem roundTrips_datetime2 {prec : Fin 7} {object : TimeObject} (hsupplied : object.IsSupplied)
    (h : object.value.IsDatetime) :
    TemporalType.RoundTrips undefinedInt invalidAsInt64 (.datetime2 prec) (.time object) := by
  obtain ⟨hsign, hday, hclock⟩ := h
  obtain ⟨year, month, day, hour, minute, second, microsec, hvalue, hhelper, hdayBounds,
    hclockBounds⟩ := exists_helper hsupplied (by norm_num) (.inl hsign) hday hclock
  rw [hsign] at hvalue hhelper
  obtain ⟨bytes, hwrite, hread⟩ := datetime2Reader_datetime2Writer (Nat.le_of_lt_succ prec.isLt)
    hhelper hdayBounds.1 hdayBounds.2.1 (by omega) (by omega) (by omega) (by omega) (by omega)
  refine ⟨bytes, hwrite, ?_⟩
  rw [TemporalType.read, hread, TemporalType.truncate, TemporalType.precision, hvalue,
    truncate_natCast, ite_self]

theorem roundTrips_timestamp2 {prec : Fin 7} {milliseconds : ℤ} (hlow : 0 ≤ milliseconds)
    (hhigh : milliseconds < 2 ^ 32 * 1000) :
    TemporalType.RoundTrips undefinedInt invalidAsInt64 (.timestamp2 prec)
      (.date (some milliseconds)) := by
  lift milliseconds to ℕ using hlow
  obtain ⟨bytes, hwrite, hread⟩ := timestamp2Reader_timestamp2Writer (Nat.le_of_lt_succ prec.isLt)
    invalidAsInt64 (show milliseconds < 2 ^ 32 * 1000 by omega)
  refine ⟨bytes, hwrite, ?_⟩
  rw [TemporalType.read, hread, TemporalType.truncate, TemporalType.precision,
    Nat.cast_sub (Nat.mod_le _ _)]
  push_cast
  rfl

/-- The reader of TIMESTAMP gives back a number of seconds if a thousand times it fits 32
bits. -/
theorem roundTrips_timestamp_iff {milliseconds : ℤ} (hlow : 0 ≤ milliseconds)
    (hhigh : milliseconds < 2 ^ 32 * 1000) :
    TemporalType.RoundTrips undefinedInt invalidAsInt64 .timestamp (.date (some milliseconds)) ↔
      milliseconds / 1000 ≤ 4294967 := by
  lift milliseconds to ℕ using hlow
  obtain ⟨bytes, hwrite, hread⟩ := timestampReader_timestampWriter undefinedInt
    (show milliseconds < 2 ^ 32 * 1000 by omega)
  have hiff : TemporalType.RoundTrips undefinedInt invalidAsInt64 .timestamp
      (.date (some (milliseconds : ℤ))) ↔
        TemporalType.read .timestamp bytes =
          some (TemporalType.truncate .timestamp (.date (some milliseconds))) := by
    simp only [TemporalType.RoundTrips, TemporalType.write, hwrite, Option.some.injEq,
      exists_eq_left']
  rw [hiff, TemporalType.read, hread, TemporalType.truncate, TemporalType.precision]
  simp only [Option.some.injEq, JsValue.date.injEq, Option.map_some]
  omega

theorem roundTrips_year {value : ℤ} (hlow : 1900 ≤ value) (hhigh : value ≤ 2155) :
    TemporalType.RoundTrips undefinedInt invalidAsInt64 .year (.number value) := by
  have hvalue : toInt undefinedInt (.number value) = value := by
    rw [toInt, castInt, if_pos (by omega)]
  have hchkv : int32Value (value - 1900) = value - 1900 :=
    Int.bmod_eq_of_le_mul_two (by omega) (by omega)
  have hwrite : yearWriter undefinedInt (.number value) = some (storeInt 1 (value - 1900)) := by
    have hcheck : checkIntValue .uint8 (value - 1900) = true := by
      simp only [checkIntValue, Bool.and_eq_true, decide_eq_true_eq]
      omega
    simp only [yearWriter, hvalue, hchkv, hcheck, if_true]
  refine ⟨_, hwrite, ?_⟩
  have hload := loadUnsigned_storeInt 1 (value - 1900) (by omega) (by omega)
  rw [loadUnsigned] at hload
  rw [TemporalType.read, yearReader, storeInt, List.take_of_length_le (length_littleEndian _ _).le,
    ← storeInt, hload]
  congr 2
  omega

/-- The values that the reader of TIMESTAMP gives back: a thousand times the seconds fits
32 bits. -/
def TemporalType.ProductFits : TemporalType → JsValue → Prop
  | .timestamp, .date (some milliseconds) => milliseconds / 1000 ≤ 4294967
  | _, _ => True

theorem roundTrips_iff_productFits {type : TemporalType} {value : JsValue}
    (h : type.InRange value) :
    type.RoundTrips undefinedInt invalidAsInt64 value ↔ type.ProductFits value := by
  cases value with
  | time object =>
      cases type with
      | date => exact iff_of_true (roundTrips_date h.1 h.2) trivial
      | time => exact iff_of_true (roundTrips_time h.1 h.2) trivial
      | datetime => exact iff_of_true (roundTrips_datetime h.1 h.2) trivial
      | time2 prec => exact iff_of_true (roundTrips_time2 h.1 h.2) trivial
      | datetime2 prec => exact iff_of_true (roundTrips_datetime2 h.1 h.2) trivial
      | _ => exact h.elim
  | date milliseconds =>
      cases milliseconds with
      | none => cases type <;> exact h.elim
      | some milliseconds =>
          cases type with
          | timestamp => exact roundTrips_timestamp_iff h.1 h.2
          | timestamp2 prec => exact iff_of_true (roundTrips_timestamp2 h.1 h.2) trivial
          | _ => exact h.elim
  | number number =>
      cases type with
      | year => exact iff_of_true (roundTrips_year h.1 h.2) trivial
      | _ => exact h.elim

/-- The types that have a fraction since MySQL 5.6. -/
def TemporalType.IsFractional : TemporalType → Prop
  | .time2 _ => True
  | .datetime2 _ => True
  | .timestamp2 _ => True
  | _ => False

/-- The types of MySQL 5.6 give back every value at the precision of the column. -/
theorem read_write_fractional (undefinedInt : Option ℤ → ℤ) (invalidAsInt64 : ℤ)
    (type : TemporalType) (htype : type.IsFractional) (value : JsValue) (h : type.InRange value) :
    type.RoundTrips undefinedInt invalidAsInt64 value := by
  rw [roundTrips_iff_productFits h]
  cases type with
  | time2 prec => trivial
  | datetime2 prec => trivial
  | timestamp2 prec => trivial
  | _ => exact htype.elim

/-- The time `-00:00:00.25`, at a precision of one digit. -/
theorem read_write_fractional_negative :
    (TemporalType.time2 1).RoundTrips (fun _ => 0) 0
      (.time ⟨none, some (-1), none, none, none, none, none, none, some 250000⟩) :=
  read_write_fractional (fun _ => 0) 0 (.time2 1) trivial _
    ⟨by decide, by simp [TimeValue.IsTime, TimeObject.value, TimeValue.IsClockTime]⟩

/-- A value is given back at the precision of the column, but for a TIMESTAMP whose
milliseconds do not fit 32 bits. -/
theorem roundTrips_iff (undefinedInt : Option ℤ → ℤ) (invalidAsInt64 : ℤ) (type : TemporalType)
    (value : JsValue) (h : type.InRange value) :
    type.RoundTrips undefinedInt invalidAsInt64 value ↔
      ∀ milliseconds, type = .timestamp → value = .date (some milliseconds) →
        milliseconds / 1000 ≤ 4294967 := by
  rw [roundTrips_iff_productFits h]
  constructor
  · rintro hfits milliseconds rfl rfl
    exact hfits
  · intro hfits
    match type, value with
    | .timestamp, .date (some milliseconds) => exact hfits milliseconds rfl rfl
    | .timestamp, .date none | .timestamp, .time _ | .timestamp, .number _ | .date, _ | .time, _
    | .datetime, _ | .year, _ | .time2 _, _ | .datetime2 _, _ | .timestamp2 _, _ => trivial

/-- The last TIMESTAMP that is given back. -/
theorem roundTrips_iff_last :
    TemporalType.timestamp.RoundTrips (fun _ => 0) 0 (.date (some 4294967000)) ↔
      ∀ milliseconds, TemporalType.timestamp = .timestamp →
        JsValue.date (some 4294967000) = .date (some milliseconds) →
          milliseconds / 1000 ≤ 4294967 :=
  roundTrips_iff (fun _ => 0) 0 .timestamp (.date (some 4294967000)) ⟨by norm_num, by norm_num⟩

/-- Second `4294968`, in February 1970, comes back as millisecond `704`. -/
theorem not_roundTrips_timestamp :
    ¬ ∀ (undefinedInt : Option ℤ → ℤ) (invalidAsInt64 : ℤ) (type : TemporalType) (value : JsValue),
      type.InRange value → type.RoundTrips undefinedInt invalidAsInt64 value := by
  intro hclaim
  have hround := hclaim (fun _ => 0) 0 .timestamp (.date (some 4294968000)) ⟨by norm_num, by norm_num⟩
  rw [roundTrips_timestamp_iff (by norm_num) (by norm_num)] at hround
  norm_num at hround

end DatabaseJones.Ndb
