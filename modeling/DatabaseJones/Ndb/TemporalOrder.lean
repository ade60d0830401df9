import DatabaseJones.Library.Endian
import DatabaseJones.Ndb.TemporalRoundTrip

/-!
# The order of temporal values in NDB

The types of MySQL 5.6 are stored so that their bytes can be compared: the bytes of one value
are less than those of another if the value is earlier at the precision of the column.  The
integer part and the fraction of a DATETIME or TIMESTAMP follow each other.  A TIME is a signed
number of bits, integer part and fraction together, to which the sign bit is added.
-/

namespace DatabaseJones.Ndb

open DatabaseJones.Library

/-! ## Earlier values -/

/-- How long a TIME lasts, in microseconds. -/
def TimeValue.duration (value : TimeValue) : ℤ :=
  value.sign *
    (((value.hour * 60 + value.minute) * 60 + value.second) * 1000000 + value.microsec)

/-- The parts of a DATETIME, by weight. -/
def TimeValue.calendar (value : TimeValue) : List ℤ :=
  [value.year, value.month, value.day, value.hour, value.minute, value.second, value.microsec]

/-- The order of the values of a type. -/
def TemporalType.Earlier : TemporalType → JsValue → JsValue → Prop
  | .time2 _, .time object, .time other => object.value.duration < other.value.duration
  | .datetime2 _, .time object, .time other => object.value.calendar < other.value.calendar
  | .timestamp2 _, .date (some milliseconds), .date (some other) => milliseconds < other
  | _, _, _ => False

/-- Both values are stored, and their bytes are in the order of what is left of them. -/
def TemporalType.Ordered (undefinedInt : Option ℤ → ℤ) (invalidAsInt64 : ℤ) (type : TemporalType)
    (value other : JsValue) : Prop :=
  ∃ bytes bytes', type.write undefinedInt invalidAsInt64 value = some bytes ∧
    type.write undefinedInt invalidAsInt64 other = some bytes' ∧
    (bytes < bytes' ↔ type.Earlier (type.truncate value) (type.truncate other))

@[simp] theorem value_toObject (value : TimeValue) : value.toObject.value = value := rfl

/-! ## Digits -/

theorem packBigendian_natCast {len value : ℕ} (hlen : len ≤ 8) (h : value < 256 ^ len) :
    packBigendian value len = bigEndian len value := by
  have hpow : 256 ^ len ≤ 2 ^ 64 :=
    (Nat.pow_le_pow_right (by norm_num) hlen).trans (by norm_num)
  have hvalue : ((value : ℤ) % 2 ^ 64).toNat = value := by omega
  rw [packBigendian, hvalue]

theorem fractionSize_le {prec : ℕ} (hprec : prec ≤ 6) : fractionSize prec ≤ 3 := by
  unfold fractionSize
  omega

theorem writeFraction_eq {prec : ℕ} (hprec : prec ≤ 6) {usec scaled : ℕ}
    (hscaled : scaleDown prec usec = scaled) (hlt : scaled < 256 ^ fractionSize prec) :
    writeFraction prec usec = bigEndian (fractionSize prec) scaled := by
  rcases Nat.eq_zero_or_pos prec with rfl | hpos
  · rfl
  · have hsize := fractionSize_le hprec
    rw [writeFraction, if_pos hpos, hscaled, packBigendian_natCast (by omega) hlt]

/-- Digits of a fraction are in the order of the microseconds that they stand for. -/
theorem scaleUp_lt_iff (prec : ℕ) {scaled other : ℕ} :
    scaleUp prec scaled < scaleUp prec other ↔ scaled < other := by
  unfold scaleUp
  split_ifs <;> omega

theorem scaleUp_inj (prec : ℕ) {scaled other : ℕ} :
    scaleUp prec scaled = scaleUp prec other ↔ scaled = other := by
  unfold scaleUp
  split_ifs <;> omega

/-! ## DATETIME -/

/-- The bits of a DATETIME are digits in the order of their weight. -/
theorem datetimeBits_lt_iff {year month day hour minute second : ℕ} (hmonth : month ≤ 12)
    (hday : day < 32) (hhour : hour < 32) (hminute : minute < 64) (hsecond : second < 64)
    {year' month' day' hour' minute' second' : ℕ} (hmonth' : month' ≤ 12)
    (hday' : day' < 32) (hhour' : hour' < 32) (hminute' : minute' < 64) (hsecond' : second' < 64) :
    datetimeBits year month day hour minute second <
        datetimeBits year' month' day' hour' minute' second' ↔
      [year, month, day, hour, minute, second] < [year', month', day', hour', minute', second'] := by
  have hyrMo : 1 * 2 ^ 17 + (year * 13 + month) < 1 * 2 ^ 17 + (year' * 13 + month') ↔
      year < year' ∨ year = year' ∧ month < month' := by
    rw [Nat.add_lt_add_iff_left]
    exact digit_lt_iff (by omega) (by omega) year year'
  have hyrMoEq : 1 * 2 ^ 17 + (year * 13 + month) = 1 * 2 ^ 17 + (year' * 13 + month') ↔
      year = year' ∧ month = month' := by omega
  have hdigitEq : ∀ {base digit other front back : ℕ}, digit < base → other < base →
      (front * base + digit = back * base + other ↔ front = back ∧ digit = other) := by
    intro base digit other front back hdigit hother
    have hlt := digit_lt_iff hdigit hother front back
    have hgt := digit_lt_iff hother hdigit back front
    omega
  unfold datetimeBits
  rw [digit_lt_iff (show second < 2 ^ 6 by omega) (show second' < 2 ^ 6 by omega),
    digit_lt_iff (show minute < 2 ^ 6 by omega) (show minute' < 2 ^ 6 by omega),
    digit_lt_iff (show hour < 2 ^ 5 by omega) (show hour' < 2 ^ 5 by omega),
    digit_lt_iff (show day < 2 ^ 5 by omega) (show day' < 2 ^ 5 by omega), hyrMo,
    hdigitEq (show minute < 2 ^ 6 by omega) (show minute' < 2 ^ 6 by omega),
    hdigitEq (show hour < 2 ^ 5 by omega) (show hour' < 2 ^ 5 by omega),
    hdigitEq (show day < 2 ^ 5 by omega) (show day' < 2 ^ 5 by omega), hyrMoEq]
  simp only [List.cons_lt_cons_iff, List.lt_irrefl, and_false, or_false, or_assoc, and_assoc,
    and_or_left]

variable {undefinedInt : Option ℤ → ℤ} {invalidAsInt64 : ℤ} {prec : Fin 7}

theorem ordered_datetime2 {object other : TimeObject} (hsupplied : object.IsSupplied)
    (hobject : object.value.IsDatetime) (hsupplied' : other.IsSupplied)
    (hother : other.value.IsDatetime) :
    TemporalType.Ordered undefinedInt invalidAsInt64 (.datetime2 prec) (.time object)
      (.time other) := by
  obtain ⟨hsign, hday, hclock⟩ := hobject
  obtain ⟨hsign', hday', hclock'⟩ := hother
  obtain ⟨year, month, day, hour, minute, second, microsec, hvalue, hhelper, hdate, htime⟩ :=
    exists_helper hsupplied (by norm_num) (.inl hsign) hday hclock
  obtain ⟨year', month', day', hour', minute', second', microsec', hvalue', hhelper', hdate',
    htime'⟩ := exists_helper hsupplied' (by norm_num) (.inl hsign') hday' hclock'
  rw [hsign] at hvalue hhelper
  rw [hsign'] at hvalue' hhelper'
  have hprec : (prec : ℕ) ≤ 6 := Nat.le_of_lt_succ prec.isLt
  have hwrite : datetime2Writer prec (.time object) = _ := datetime2Writer_eq hhelper hdate.1
    hdate.2.1 (by omega) (by omega) (by omega) (by omega) (by omega)
  have hwrite' : datetime2Writer prec (.time other) = _ := datetime2Writer_eq hhelper' hdate'.1
    hdate'.2.1 (by omega) (by omega) (by omega) (by omega) (by omega)
  refine ⟨_, _, hwrite, hwrite', ?_⟩
  obtain ⟨scaled, hscaled, hscaledLt, hup⟩ :=
    scaleDown_natCast hprec (show microsec < 1000000 by omega)
  obtain ⟨scaled', hscaled', hscaledLt', hup'⟩ :=
    scaleDown_natCast hprec (show microsec' < 1000000 by omega)
  have hbits := @datetimeBits_lt year month day hour minute second hdate.1 hdate.2.1 (by omega)
    (by omega) (by omega) (by omega)
  have hbits' := @datetimeBits_lt year' month' day' hour' minute' second' hdate'.1 hdate'.2.1
    (by omega) (by omega) (by omega) (by omega)
  have hlt := @datetimeBits_lt_iff year month day hour minute second hdate.2.1 (by omega) (by omega)
    (by omega) (by omega) year' month' day' hour' minute' second' hdate'.2.1 (by omega) (by omega)
    (by omega) (by omega)
  have hgt := @datetimeBits_lt_iff year' month' day' hour' minute' second' hdate'.2.1 (by omega)
    (by omega) (by omega) (by omega) year month day hour minute second hdate.2.1 (by omega)
    (by omega) (by omega) (by omega)
  rw [packBigendian_natCast (by norm_num) hbits, packBigendian_natCast (by norm_num) hbits',
    writeFraction_eq hprec hscaled hscaledLt, writeFraction_eq hprec hscaled' hscaledLt',
    bigEndian_append_lt_iff hbits hbits' hscaledLt hscaledLt']
  simp only [TemporalType.truncate, TemporalType.precision, hvalue, hvalue', truncate_natCast,
    TemporalType.Earlier, value_toObject, TimeValue.calendar, ← hup, ← hup', List.cons_lt_cons_iff,
    List.lt_irrefl, and_false, or_false, Nat.cast_lt, Nat.cast_inj, scaleUp_lt_iff] at hlt hgt ⊢
  omega

/-! ## TIME -/

/-- The bits of TIMEs are in the order of the times. -/
theorem timeBits_lt_iff {width hour minute second scaled : ℕ} (hminute : minute < 60)
    (hsecond : second < 60) (hscaled : scaled < 2 ^ width) (hup : scaleUp prec scaled < 1000000)
    {hour' minute' second' scaled' : ℕ} (hminute' : minute' < 60) (hsecond' : second' < 60)
    (hscaled' : scaled' < 2 ^ width) (hup' : scaleUp prec scaled' < 1000000) :
    timeBits width hour minute second scaled < timeBits width hour' minute' second' scaled' ↔
      ((hour * 60 + minute) * 60 + second) * 1000000 + scaleUp prec scaled <
        ((hour' * 60 + minute') * 60 + second') * 1000000 + scaleUp prec scaled' := by
  unfold timeBits
  rw [digit_lt_iff hscaled hscaled', digit_lt_iff hup hup', scaleUp_lt_iff,
    digit_lt_iff (show second < 2 ^ 6 by omega) (show second' < 2 ^ 6 by omega),
    digit_lt_iff hsecond hsecond', digit_lt_iff (show minute < 2 ^ 6 by omega)
      (show minute' < 2 ^ 6 by omega), digit_lt_iff hminute hminute']
  omega

/-- The sign that truncation takes from zero does not count. -/
theorem duration_truncate (sign : ℤ) (year month day hour minute second microsec prec : ℕ) :
    (TimeValue.truncate ⟨sign, year, month, day, hour, minute, second, microsec⟩ prec).duration =
      sign * (((hour * 60 + minute) * 60 + second) * 1000000 +
        (microsec - microsec % 10 ^ (6 - prec)) : ℕ) := by
  rw [truncate_natCast, TimeValue.duration]
  dsimp only
  split_ifs with hzero
  · obtain ⟨rfl, rfl, rfl, hmicrosec⟩ := hzero
    rw [hmicrosec]
    simp
  · push_cast
    rfl

/-- The number that is stored for a TIME. -/
def timeNumber (width : ℕ) (negative : Bool) (bits : ℕ) : ℕ :=
  if negative = true then 2 ^ (23 + width) - bits else 2 ^ (23 + width) + bits

theorem timeNumber_lt {prec width bits : ℕ} (hwidth : width = fractionSize prec * 8)
    (hbits : bits < 2 ^ (23 + width)) (negative : Bool) :
    timeNumber width negative bits < 256 ^ (3 + fractionSize prec) := by
  have hpow : 256 ^ (3 + fractionSize prec) = 2 * 2 ^ (23 + width) := by
    rw [show 256 = 2 ^ 8 by rfl, ← Nat.pow_mul, ← Nat.pow_succ', hwidth]
    congr 1
    omega
  rw [hpow, timeNumber]
  split_ifs <;> omega

/-- The sign bit keeps the order of signed numbers. -/
theorem timeNumber_lt_timeNumber_iff {width bits other : ℕ} (hbits : bits < 2 ^ (23 + width))
    (hother : other < 2 ^ (23 + width)) {sign sign' : ℤ} (hsign : sign = 1 ∨ sign = -1)
    (hsign' : sign' = 1 ∨ sign' = -1) :
    timeNumber width (decide (sign < 0)) bits < timeNumber width (decide (sign' < 0)) other ↔
      sign * bits < sign' * other := by
  unfold timeNumber
  rcases hsign with rfl | rfl <;> rcases hsign' with rfl | rfl <;> norm_num <;> omega

theorem ordered_time2 {object other : TimeObject} (hsupplied : object.IsSupplied)
    (hobject : object.value.IsTime) (hsupplied' : other.IsSupplied) (hother : other.value.IsTime) :
    TemporalType.Ordered undefinedInt invalidAsInt64 (.time2 prec) (.time object) (.time other) := by
  obtain ⟨hsign, hyear, hmonth, hday, hclock⟩ := hobject
  obtain ⟨hsign', hyear', hmonth', hday', hclock'⟩ := hother
  obtain ⟨year, month, day, hour, minute, second, microsec, hvalue, hhelper, -, htime⟩ :=
    exists_helper hsupplied le_rfl hsign (isCalendarDay_of_eq_zero hyear hmonth hday) hclock
  obtain ⟨year', month', day', hour', minute', second', microsec', hvalue', hhelper', -, htime'⟩ :=
    exists_helper hsupplied' le_rfl hsign' (isCalendarDay_of_eq_zero hyear' hmonth' hday') hclock'
  generalize object.value.sign = sign at hsign hvalue hhelper
  generalize other.value.sign = sign' at hsign' hvalue' hhelper'
  have hprec : (prec : ℕ) ≤ 6 := Nat.le_of_lt_succ prec.isLt
  obtain ⟨scaled, hscaled, hscaledLt, hup⟩ :=
    scaleDown_natCast hprec (show microsec < 1000000 by omega)
  obtain ⟨scaled', hscaled', hscaledLt', hup'⟩ :=
    scaleDown_natCast hprec (show microsec' < 1000000 by omega)
  set width := fractionSize prec * 8 with hwidth
  have hpow : 256 ^ fractionSize prec = 2 ^ width := by
    rw [hwidth, Nat.mul_comm, Nat.pow_mul]
  have hwrite := time2Writer_eq hprec hsign hhelper (by omega) (by omega) (by omega) (by omega)
    hscaled hscaledLt hwidth
  have hwrite' := time2Writer_eq hprec hsign' hhelper' (by omega) (by omega) (by omega) (by omega)
    hscaled' hscaledLt' hwidth
  have hbits := @timeBits_lt hour minute second width scaled (by omega) (by omega) (by omega)
    (hpow ▸ hscaledLt)
  have hbits' := @timeBits_lt hour' minute' second' width scaled' (by omega) (by omega) (by omega)
    (hpow ▸ hscaledLt')
  have hsize := fractionSize_le hprec
  -- Microseconds and bits are in the same order, and are zero for the same times.
  have hlt := @timeBits_lt_iff prec width hour minute second scaled (by omega) (by omega)
    (hpow ▸ hscaledLt) (by omega) hour' minute' second' scaled' (by omega) (by omega)
    (hpow ▸ hscaledLt') (by omega)
  have hgt := @timeBits_lt_iff prec width hour' minute' second' scaled' (by omega) (by omega)
    (hpow ▸ hscaledLt') (by omega) hour minute second scaled (by omega) (by omega)
    (hpow ▸ hscaledLt) (by omega)
  have hzero := timeBits_eq_zero_iff hour minute second width scaled
  have hzero' := timeBits_eq_zero_iff hour' minute' second' width scaled'
  rw [← @scaleUp_eq_zero_iff prec scaled] at hzero
  rw [← @scaleUp_eq_zero_iff prec scaled'] at hzero'
  refine ⟨_, _, hwrite, hwrite', ?_⟩
  change packBigendian (timeNumber width (decide (sign < 0)) _ : ℕ) _ <
    packBigendian (timeNumber width (decide (sign' < 0)) _ : ℕ) _ ↔ _
  have hnumber := timeNumber_lt hwidth hbits (decide (sign < 0))
  have hnumber' := timeNumber_lt hwidth hbits' (decide (sign' < 0))
  rw [packBigendian_natCast (by omega) hnumber, packBigendian_natCast (by omega) hnumber',
    bigEndian_lt_iff hnumber hnumber', timeNumber_lt_timeNumber_iff hbits hbits' hsign hsign']
  simp only [TemporalType.truncate, TemporalType.precision, hvalue, hvalue', TemporalType.Earlier,
    value_toObject, duration_truncate, ← hup, ← hup']
  rcases hsign with rfl | rfl <;> rcases hsign' with rfl | rfl <;> omega

/-! ## TIMESTAMP -/

/-- The fraction of a second that is kept of milliseconds. -/
theorem fraction_milliseconds {digits : ℕ} (hdigits : digits ≤ 6) (milliseconds : ℕ) :
    milliseconds % 1000 * 1000 - milliseconds % 1000 * 1000 % 10 ^ (6 - digits) =
        (milliseconds - milliseconds % 10 ^ (3 - digits) - milliseconds / 1000 * 1000) * 1000 ∧
      milliseconds / 1000 * 1000 ≤ milliseconds - milliseconds % 10 ^ (3 - digits) ∧
      milliseconds - milliseconds % 10 ^ (3 - digits) < milliseconds / 1000 * 1000 + 1000 := by
  have hdvd : 10 ^ (3 - digits) ∣ 1000 := Nat.pow_dvd_pow 10 (show 3 - digits ≤ 3 by omega)
  have hmod : milliseconds % 1000 % 10 ^ (3 - digits) = milliseconds % 10 ^ (3 - digits) :=
    Nat.mod_mod_of_dvd _ hdvd
  have hfraction : milliseconds % 1000 * 1000 % 10 ^ (6 - digits) =
      milliseconds % 10 ^ (3 - digits) * 1000 := by
    rcases le_total digits 3 with hle | hge
    · rw [show 6 - digits = 3 - digits + 3 by omega, Nat.pow_add]
      exact (Nat.mul_mod_mul_right _ _ _).trans (by rw [hmod])
    · have hzero : 10 ^ (6 - digits) ∣ milliseconds % 1000 * 1000 :=
        (Nat.pow_dvd_pow 10 (show 6 - digits ≤ 3 by omega)).mul_left _
      rw [Nat.mod_eq_zero_of_dvd hzero, Nat.sub_eq_zero_of_le hge, Nat.pow_zero, Nat.mod_one,
        Nat.zero_mul]
  have hle := Nat.mod_le (milliseconds % 1000) (10 ^ (3 - digits))
  have hsplit := Nat.div_add_mod milliseconds 1000
  rw [hmod] at hle
  rw [hfraction]
  generalize milliseconds % 10 ^ (3 - digits) = dropped at hle ⊢
  omega

theorem ordered_timestamp2 {milliseconds other : ℤ} (hlow : 0 ≤ milliseconds)
    (hhigh : milliseconds < 2 ^ 32 * 1000) (hlow' : 0 ≤ other) (hhigh' : other < 2 ^ 32 * 1000) :
    TemporalType.Ordered undefinedInt invalidAsInt64 (.timestamp2 prec) (.date (some milliseconds))
      (.date (some other)) := by
  lift milliseconds to ℕ using hlow
  lift other to ℕ using hlow'
  have hprec : (prec : ℕ) ≤ 6 := Nat.le_of_lt_succ prec.isLt
  refine ⟨_, _, timestamp2Writer_eq prec invalidAsInt64 milliseconds,
    timestamp2Writer_eq prec invalidAsInt64 other, ?_⟩
  obtain ⟨scaled, hscaled, hscaledLt, hup⟩ :=
    scaleDown_natCast hprec (show milliseconds % 1000 * 1000 < 1000000 by omega)
  obtain ⟨scaled', hscaled', hscaledLt', hup'⟩ :=
    scaleDown_natCast hprec (show other % 1000 * 1000 < 1000000 by omega)
  have hseconds : milliseconds / 1000 < 256 ^ 4 := by omega
  have hseconds' : other / 1000 < 256 ^ 4 := by omega
  rw [packBigendian_natCast (by norm_num) hseconds, packBigendian_natCast (by norm_num) hseconds',
    writeFraction_eq hprec hscaled hscaledLt, writeFraction_eq hprec hscaled' hscaledLt',
    bigEndian_append_lt_iff hseconds hseconds' hscaledLt hscaledLt',
    ← @scaleUp_lt_iff prec scaled, hup, hup']
  have hearlier : TemporalType.Earlier (.timestamp2 prec)
      (TemporalType.truncate (.timestamp2 prec) (.date (some milliseconds)))
      (TemporalType.truncate (.timestamp2 prec) (.date (some other))) ↔
        milliseconds - milliseconds % 10 ^ (3 - (prec : ℕ)) <
          other - other % 10 ^ (3 - (prec : ℕ)) := by
    simp only [TemporalType.truncate, TemporalType.precision, Option.map_some, TemporalType.Earlier]
    rw [← Int.ofNat_lt, Nat.cast_sub (Nat.mod_le _ _), Nat.cast_sub (Nat.mod_le _ _)]
    push_cast
    rfl
  rw [hearlier]
  obtain ⟨hfraction, hlow, hhigh⟩ := fraction_milliseconds hprec milliseconds
  obtain ⟨hfraction', hlow', hhigh'⟩ := fraction_milliseconds hprec other
  rw [hfraction, hfraction']
  omega

/-! ## The order -/

/-- The stored bytes of two values of a type of MySQL 5.6 are in the order of the values, at
the precision of the column. -/
theorem bytes_lt_iff_earlier (undefinedInt : Option ℤ → ℤ) (invalidAsInt64 : ℤ)
    (type : TemporalType) (htype : type.IsFractional) (value other : JsValue)
    (hvalue : type.InRange value) (hother : type.InRange other) :
    type.Ordered undefinedInt invalidAsInt64 value other := by
  match type, value, other with
  | .time2 prec, .time object, .time other => exact ordered_time2 hvalue.1 hvalue.2 hother.1 hother.2
  | .datetime2 prec, .time object, .time other =>
      exact ordered_datetime2 hvalue.1 hvalue.2 hother.1 hother.2
  | .timestamp2 prec, .date (some milliseconds), .date (some other) =>
      exact ordered_timestamp2 hvalue.1 hvalue.2 hother.1 hother.2
  | .date, _, _ | .time, _, _ | .datetime, _, _ | .timestamp, _, _ | .year, _, _ => exact htype.elim
  | .time2 _, .date _, _ | .time2 _, .number _, _ | .datetime2 _, .date _, _
  | .datetime2 _, .number _, _ | .timestamp2 _, .time _, _ | .timestamp2 _, .number _, _
  | .timestamp2 _, .date none, _ => exact hvalue.elim
  | .time2 _, _, .date _ | .time2 _, _, .number _ | .datetime2 _, _, .date _
  | .datetime2 _, _, .number _ | .timestamp2 _, _, .time _ | .timestamp2 _, _, .number _
  | .timestamp2 _, _, .date none => exact hother.elim

/-- A quarter and half a second below zero, and above. -/
theorem bytes_lt_iff_earlier_negative :
    (TemporalType.time2 2).Ordered (fun _ => 0) 0
      (.time ⟨none, some (-1), none, none, none, none, none, none, some 500000⟩)
      (.time ⟨none, some (-1), none, none, none, none, none, none, some 250000⟩) :=
  bytes_lt_iff_earlier (fun _ => 0) 0 (.time2 2) trivial _ _
    ⟨by decide, by simp [TimeValue.IsTime, TimeObject.value, TimeValue.IsClockTime]⟩
    ⟨by decide, by simp [TimeValue.IsTime, TimeObject.value, TimeValue.IsClockTime]⟩

end DatabaseJones.Ndb
