import DatabaseJones.TimeStrings.RoundTrip

/-!
# Which values and strings survive

The values are those of MySQL: a time is at most 838:59:59 and its microseconds are those that
its precision can tell.  A value survives if it is read from its own string; a string survives if
what is written for the value that it is read as denotes the same.
-/

namespace DatabaseJones.TimeStrings

/-! ## Values -/

/-- A TIME value. -/
structure TimeValue where
  negative : Bool
  hour : ℕ
  minute : ℕ
  second : ℕ
  microsec : ℕ
  fsp : ℕ
  hour_le : hour ≤ 838
  minute_lt : minute < 60
  second_lt : second < 60
  microsec_lt : microsec < 10 ^ 6
  fsp_le : fsp ≤ 6
  dvd_microsec : 10 ^ (6 - fsp) ∣ microsec

/-- A DATE value. -/
structure DateValue where
  year : ℕ
  month : ℕ
  day : ℕ
  year_le : year ≤ 9999
  month_le : month ≤ 12
  day_le : day ≤ 31

def TimeValue.time (value : TimeValue) : MySQLTime where
  sign := if value.negative then -1 else 1
  hour := some value.hour
  minute := some value.minute
  second := some value.second
  microsec := some value.microsec
  fsp := value.fsp

/-- The value with the properties of a date. -/
def DateValue.on (value : DateValue) (time : MySQLTime) : MySQLTime :=
  { time with
    year := .number value.year
    month := .number value.month
    day := .number value.day }

/-- The same fields; those of the date are compared as numbers. -/
def MySQLTime.Same (time time' : MySQLTime) : Prop :=
  (time.year.toNumber = time'.year.toNumber ∧ time.month.toNumber = time'.month.toNumber ∧
    time.day.toNumber = time'.day.toNumber) ∧
  time.sign = time'.sign ∧ time.hour = time'.hour ∧ time.minute = time'.minute ∧
    time.second = time'.second ∧ time.microsec = time'.microsec ∧ time.fsp = time'.fsp

/-! ## There and back -/

/-- What is written and read, or read and written. -/
inductive Input
  | timeValue (value : TimeValue)
  | dateValue (value : DateValue)
  | dateTimeValue (date : DateValue) (clock : TimeValue) (positive : clock.negative = false)
      (hour_lt : clock.hour < 24)
  | timeString (text : TimeText) (valid : text.Valid)
  | dateString (text : DateText) (valid : text.Valid)
  | dateTimeString (date : DateText) (clock : TimeText) (valid : date.Valid ∧ clock.Valid)
      (noBlank : ' ' ∉ date.chars) (noDays : clock.days = none)

/-- The value is read from its string, or what is written denotes the same as the string. -/
def Input.Preserved : Input → Prop
  | timeValue value =>
      (({} : MySQLTime).initializeFromTimeString value.time.toTimeString).Same value.time
  | dateValue value =>
      (({} : MySQLTime).initializeFromDateString (value.on {}).toDateString).Same (value.on {})
  | dateTimeValue date clock _ _ =>
      ∃ time ∈ ({} : MySQLTime).initializeFromDateTimeString
        (date.on clock.time).toDateTimeString, time.Same (date.on clock.time)
  | timeString text _ =>
      denotedTime (({} : MySQLTime).initializeFromTimeString text.chars).toTimeString =
        denotedTime text.chars
  | dateString text _ =>
      denotedDate (({} : MySQLTime).initializeFromDateString text.chars).toDateString =
        denotedDate text.chars
  | dateTimeString date clock _ _ _ =>
      ∃ time ∈ ({} : MySQLTime).initializeFromDateTimeString (date.chars ++ ' ' :: clock.chars),
        denotedDateTime time.toDateTimeString =
          denotedDateTime (date.chars ++ ' ' :: clock.chars)

def TimeValue.Kept (value : TimeValue) : Prop :=
  value.fsp = 0 ∧ (value.negative = true → value.hour ≠ 0 ∨ value.minute ≠ 0 ∨ value.second ≠ 0)

/-- A string without a fraction whose clock is that of its digits. -/
def TimeText.Kept (text : TimeText) : Prop :=
  text.KeepsClock ∧ decimal (text.fraction.getD []) = 0

def DateText.Kept : DateText → Prop
  | delimited .. => True
  | packed _ => False

/-- No fraction, no negative zero, two digits for each component of a string. -/
def Input.Kept : Input → Prop
  | timeValue value => value.Kept
  | dateValue _ => True
  | dateTimeValue _ clock _ _ => clock.Kept
  | timeString text _ => text.Kept
  | dateString text _ => text.Kept
  | dateTimeString date clock _ _ _ => date.Kept ∧ clock.Kept

/-! ## Times -/

theorem TimeValue.toTimeString_eq (value : TimeValue) (h : value.fsp = 0) :
    value.time.toTimeString =
      (written value.negative value.hour value.minute value.second).chars := by
  have hsign : (decide (value.time.sign = -1)) = value.negative := by
    unfold TimeValue.time
    cases value.negative <;> rfl
  rw [@MySQLTime.toTimeString_eq value.time _ _ _ rfl rfl rfl h, hsign]

/-- A time value without a fraction that is read from its own string. -/
theorem TimeValue.initialize_toTimeString (value : TimeValue) (h : value.fsp = 0)
    (time : MySQLTime) : time.initializeFromTimeString value.time.toTimeString =
      { time with
        sign := if value.negative = true ∧
          (value.hour ≠ 0 ∨ value.minute ≠ 0 ∨ value.second ≠ 0) then -1 else time.sign
        hour := some value.hour
        minute := some value.minute
        second := some value.second } := by
  have hminute : value.minute < 100 := by have := value.minute_lt; omega
  have hsecond : value.second < 100 := by have := value.second_lt; omega
  have hsign : (written value.negative value.hour value.minute value.second).sign = .minus ↔
      value.negative = true := by
    unfold written
    cases value.negative <;> simp
  have hpos : 0 < value.hour * 10000 + value.minute * 100 + value.second ↔
      value.hour ≠ 0 ∨ value.minute ≠ 0 ∨ value.second ≠ 0 := by omega
  have hmicrosec : (written value.negative value.hour value.minute value.second).readMicrosec time =
      time.microsec := by simp [TimeText.readMicrosec, written]
  rw [value.toTimeString_eq h, numeric_written.initialize_chars, readClock_written hminute hsecond,
    number_written hminute hsecond, hmicrosec]
  simp only [hsign, hpos]

/-- The time of a value is kept exactly if it has no fraction and is no negative zero. -/
theorem TimeValue.kept_iff (value : TimeValue) (time : MySQLTime) (hsign : time.sign = 1)
    (hmicrosec : time.microsec = some 0) (hfsp : time.fsp = 0) :
    let read := time.initializeFromTimeString value.time.toTimeString
    (read.sign = value.time.sign ∧ read.hour = value.time.hour ∧
      read.minute = value.time.minute ∧ read.second = value.time.second ∧
      read.microsec = value.time.microsec ∧ read.fsp = value.time.fsp) ↔ value.Kept := by
  intro read
  have hread : read.fsp = 0 := by rw [← hfsp, ← time.initializeFromTimeString_fsp]
  by_cases hzero : value.fsp = 0
  · -- the precision leaves no microseconds
    have hnone : value.microsec = 0 := by
      have hdvd := value.dvd_microsec
      rw [hzero] at hdvd
      exact Nat.eq_zero_of_dvd_of_lt hdvd value.microsec_lt
    have heq : read = _ := value.initialize_toTimeString hzero time
    rw [heq]
    unfold Kept TimeValue.time
    simp only [hzero, hnone, hmicrosec, hfsp, hsign, true_and, Nat.cast_zero, and_true]
    cases value.negative
    · simp
    · by_cases hclock : value.hour ≠ 0 ∨ value.minute ≠ 0 ∨ value.second ≠ 0 <;> simp [hclock]
  · refine iff_of_false (fun h => hzero ?_) fun h => hzero h.1
    exact h.2.2.2.2.2.symm.trans hread

/-! ## Strings of times -/

namespace TimeText

variable {text : TimeText}

theorem fractionValue_nonneg (text : TimeText) : 0 ≤ text.fractionValue := by
  unfold fractionValue
  cases text.fraction with
  | none => exact le_refl _
  | some fraction => exact div_nonneg (Nat.cast_nonneg _) (by positivity)

theorem Numeric.fractionValue_lt (h : text.Numeric) : text.fractionValue < 1 := by
  unfold fractionValue
  cases hsome : text.fraction with
  | none => exact zero_lt_one
  | some fraction =>
      have hlt := decimal_lt (h.2.2.2 fraction hsome)
      simp only [Option.elim_some]
      rw [div_lt_one (by positivity)]
      exact_mod_cast hlt

theorem fractionValue_eq_zero (text : TimeText) :
    text.fractionValue = 0 ↔ decimal (text.fraction.getD []) = 0 := by
  unfold fractionValue
  cases text.fraction with
  | none => simp
  | some fraction =>
      simp only [Option.elim_some, Option.getD_some]
      rw [div_eq_zero_iff, or_iff_left (by positivity)]
      exact_mod_cast Iff.rfl

theorem readClock_lt (text : TimeText) : text.readClock.2.1 < 100 ∧ text.readClock.2.2 < 100 := by
  unfold readClock
  split <;> dsimp only <;> omega

/-- A string of zeros is read as no time. -/
theorem readClock_of_zero (h : text.number = 0) : text.readClock = (0, 0, 0) := by
  unfold readClock
  simp [h]

theorem seconds_eq {hour minute second : ℕ} (h : text.clock = some (hour, minute, second)) :
    text.seconds = if text.sign = .minus
      then -((hour * 3600 + minute * 60 + second : ℕ) + text.fractionValue)
      else (hour * 3600 + minute * 60 + second : ℕ) + text.fractionValue := by
  unfold seconds
  rw [h]
  rfl

theorem Numeric.toTimeString_read (h : text.Numeric) (time : MySQLTime) (hfsp : time.fsp = 0) :
    (time.initializeFromTimeString text.chars).toTimeString =
      (written ((time.initializeFromTimeString text.chars).sign = -1) text.readClock.1
        text.readClock.2.1 text.readClock.2.2).chars := by
  have hread := h.initialize_chars time
  exact MySQLTime.toTimeString_eq (by rw [hread]) (by rw [hread]) (by rw [hread])
    (by rw [hread, hfsp])

/-- What is written for a string that was read. -/
theorem Numeric.denotedTime_read (h : text.Numeric) (time : MySQLTime) (hsign : time.sign = 1)
    (hfsp : time.fsp = 0) :
    denotedTime (time.initializeFromTimeString text.chars).toTimeString =
      if text.readClock.1 ≤ 838 ∧ text.readClock.2.1 < 60 ∧ text.readClock.2.2 < 60 then
        some (if text.sign = .minus
          then -((text.readClock.1 * 3600 + text.readClock.2.1 * 60 + text.readClock.2.2 : ℕ) : ℚ)
          else (text.readClock.1 * 3600 + text.readClock.2.1 * 60 + text.readClock.2.2 : ℕ))
      else none := by
  obtain ⟨hminute, hsecond⟩ := text.readClock_lt
  rw [h.toTimeString_read time hfsp, denotedTime_written hminute hsecond, h.initialize_chars,
    hsign]
  by_cases hzero : 0 < text.number
  · by_cases hminus : text.sign = .minus <;> simp [hzero, hminus]
  · -- zero has no sign
    have hclock := readClock_of_zero (Nat.eq_zero_of_not_pos hzero)
    rw [hclock]
    simp

/-- A string survives exactly if its clock and its fraction do. -/
theorem Valid.kept_iff (h : text.Valid) (time : MySQLTime) (hsign : time.sign = 1)
    (hfsp : time.fsp = 0) :
    denotedTime (time.initializeFromTimeString text.chars).toTimeString = denotedTime text.chars ↔
      text.Kept := by
  obtain ⟨hnumeric, -, -, ⟨hour, minute, second⟩, hclock, hhour, hminute, hsecond⟩ := id h
  dsimp only at hhour hminute hsecond
  have hnonneg := text.fractionValue_nonneg
  have hlt := hnumeric.fractionValue_lt
  rw [hnumeric.denotedTime_read time hsign hfsp, h.denotedTime_chars, seconds_eq hclock]
  unfold Kept
  rw [← h.clock_eq_iff, ← fractionValue_eq_zero, Option.mem_def.mp hclock]
  constructor
  · intro heq
    split at heq
    next hbounds =>
      have hvalue : ((text.readClock.1 * 3600 + text.readClock.2.1 * 60 + text.readClock.2.2 : ℕ) : ℚ) =
          (hour * 3600 + minute * 60 + second : ℕ) + text.fractionValue := by
        have heq := Option.some.inj heq
        split at heq
        · exact neg_injective heq
        · exact heq
      have hle : hour * 3600 + minute * 60 + second ≤
          text.readClock.1 * 3600 + text.readClock.2.1 * 60 + text.readClock.2.2 := by
        have : ((hour * 3600 + minute * 60 + second : ℕ) : ℚ) ≤
            (text.readClock.1 * 3600 + text.readClock.2.1 * 60 + text.readClock.2.2 : ℕ) := by
          linarith
        exact_mod_cast this
      have hge : text.readClock.1 * 3600 + text.readClock.2.1 * 60 + text.readClock.2.2 <
          hour * 3600 + minute * 60 + second + 1 := by
        have : ((text.readClock.1 * 3600 + text.readClock.2.1 * 60 + text.readClock.2.2 : ℕ) : ℚ) <
            (hour * 3600 + minute * 60 + second : ℕ) + 1 := by linarith
        exact_mod_cast this
      have hequal : text.readClock.1 * 3600 + text.readClock.2.1 * 60 + text.readClock.2.2 =
          hour * 3600 + minute * 60 + second := by omega
      have hparts : text.readClock.1 = hour ∧ text.readClock.2.1 = minute ∧
          text.readClock.2.2 = second := by omega
      refine ⟨?_, ?_⟩
      · rw [← hparts.1, ← hparts.2.1, ← hparts.2.2]
      · rw [hequal] at hvalue
        linarith
    next => cases heq
  · rintro ⟨heq, hzero⟩
    rw [← Option.some.inj heq, hzero, if_pos ⟨hhour, hminute, hsecond⟩]
    simp

end TimeText

/-! ## Dates -/

/-- What is read from the string of a date value. -/
theorem DateValue.initialize_toDateString (value : DateValue) (base time : MySQLTime) :
    time.initializeFromDateString (value.on base).toDateString =
      { time with
        year := .part (Nat.toDigits 10 value.year)
        month := .part (padded (some value.month))
        day := .part (padded (some value.day)) } := by
  have hparts := splitOnP_delimited (isSeparator_of_allDigits (allDigits_toDigits value.year))
    (isSeparator_of_allDigits (allDigits_padded value.month))
    (isSeparator_of_allDigits (allDigits_padded value.day))
    (show isSeparator '-' = true from rfl) (show isSeparator '-' = true from rfl)
  have hstring : (value.on base).toDateString = Nat.toDigits 10 value.year ++
      '-' :: (padded (some value.month) ++ '-' :: padded (some value.day)) := by
    have hyear : (value.on base).year.text = Nat.toDigits 10 value.year := rfl
    have hmonth : (value.on base).month.padded = padded (some value.month) :=
      DateField.padded_number value.month
    have hday : (value.on base).day.padded = padded (some value.day) :=
      DateField.padded_number value.day
    rw [MySQLTime.toDateString_eq, hyear, hmonth, hday]
  rw [hstring]
  exact time.initializeFromDateString_eq hparts

theorem DateField.toNumber_part {digits : List Char} (h : AllDigits digits) :
    (DateField.part digits).toNumber = .finite (decimal digits) := toNumber_digits h.2

theorem DateField.toNumber_number (n : ℕ) : (DateField.number n).toNumber = .finite n := rfl

/-- The parts of a date are compared as numbers. -/
theorem DateValue.toNumber_eq (value : DateValue) :
    (DateField.part (Nat.toDigits 10 value.year)).toNumber = (DateField.number value.year).toNumber ∧
      (DateField.part (padded (some value.month))).toNumber =
        (DateField.number value.month).toNumber ∧
      (DateField.part (padded (some value.day))).toNumber = (DateField.number value.day).toNumber := by
  have hpart : ∀ n, (DateField.part (padded (some n))).toNumber = (DateField.number n).toNumber := by
    intro n
    rw [DateField.toNumber_part (allDigits_padded n), DateField.toNumber_number n, decimal_padded]
  refine ⟨?_, hpart value.month, hpart value.day⟩
  rw [DateField.toNumber_part (allDigits_toDigits value.year),
    DateField.toNumber_number value.year, decimal_toDigits]

/-- What digits with characters between them denote. -/
theorem denotedDate_delimited {year month day : List Char} {first second : Char}
    (hyear : AllDigits year) (hmonth : AllDigits month) (hday : AllDigits day)
    (hfirst : isSeparator first = true) (hsecond : isSeparator second = true) :
    denotedDate (year ++ first :: (month ++ second :: day)) =
      some (yearOf year, decimal month, decimal day) := by
  unfold denotedDate
  rw [splitOnP_delimited (isSeparator_of_allDigits hyear) (isSeparator_of_allDigits hmonth)
    (isSeparator_of_allDigits hday) hfirst hsecond]
  simp only
  rw [if_pos ⟨hyear, hmonth, hday⟩]

theorem DateText.Valid.denotedDate_chars {text : DateText} (h : text.Valid) :
    denotedDate text.chars ≠ none := by
  cases text with
  | delimited year first month second day =>
      obtain ⟨⟨hyear, hmonth, hday⟩, hfirst, hsecond⟩ := h
      unfold DateText.chars
      rw [denotedDate_delimited hyear hmonth hday hfirst hsecond]
      exact Option.some_ne_none _
  | packed digits =>
      unfold denotedDate DateText.chars
      rw [List.splitOnP_eq_singleton (isSeparator_of_allDigits h.1)]
      simp only
      rw [if_pos (show AllDigits digits ∧ (digits.length = 6 ∨ digits.length = 8) from h)]
      exact Option.some_ne_none _

/-- What is written for a date that was read from a string, which has no blanks. -/
theorem DateText.Valid.toDateString_read {text : DateText} (h : text.Valid) (time : MySQLTime) :
    ' ' ∉ (time.initializeFromDateString text.chars).toDateString ∧
      denotedDate (time.initializeFromDateString text.chars).toDateString =
        match text with
        | .delimited .. => denotedDate text.chars
        | .packed _ => none := by
  cases text with
  | delimited year first month second day =>
      obtain ⟨⟨hyear, hmonth, hday⟩, hfirst, hsecond⟩ := h
      have hparts := splitOnP_delimited (isSeparator_of_allDigits hyear)
        (isSeparator_of_allDigits hmonth) (isSeparator_of_allDigits hday) hfirst hsecond
      have hmonth' := allDigits_padded_part hmonth
      have hday' := allDigits_padded_part hday
      have hstring : (time.initializeFromDateString
          (year ++ first :: (month ++ second :: day))).toDateString =
          year ++ '-' :: ((DateField.part month).padded ++ '-' :: (DateField.part day).padded) := by
        rw [time.initializeFromDateString_eq hparts, MySQLTime.toDateString_eq]
        rfl
      unfold DateText.chars
      rw [hstring]
      refine ⟨?_, ?_⟩
      · have hnot : ∀ {s}, AllDigits s → ' ' ∉ s := fun hs => hs.notMem rfl
        simp [hnot hyear, hnot hmonth', hnot hday']
      · rw [denotedDate_delimited hyear hmonth' hday' rfl rfl,
          denotedDate_delimited hyear hmonth hday hfirst hsecond, decimal_padded_part hmonth,
          decimal_padded_part hday]
  | packed digits =>
      have hdigits : AllDigits digits := h.1
      have hblank : ' ' ∉ digits := hdigits.notMem rfl
      have hparts := List.splitOnP_eq_singleton (isSeparator_of_allDigits hdigits)
      have hall : ("undefined".toList.all fun c => !isSeparator c) = true := by rfl
      have hword : ∀ c ∈ "undefined".toList, isSeparator c = false := fun c hc =>
        (Bool.not_eq_true' _).mp (List.all_eq_true.mp hall c hc)
      have hundefined : DateField.undefined.padded = "undefined".toList := rfl
      have hstring : (time.initializeFromDateString digits).toDateString =
          digits ++ '-' :: ("undefined".toList ++ '-' :: "undefined".toList) := by
        rw [time.initializeFromDateString_eq hparts, MySQLTime.toDateString_eq]
        rfl
      unfold DateText.chars
      rw [hstring]
      refine ⟨?_, ?_⟩
      · simp [hblank]
      · unfold denotedDate
        rw [splitOnP_delimited (isSeparator_of_allDigits hdigits) hword hword rfl rfl]
        simp only
        exact if_neg fun hall => absurd (hall.2.1.2 'u' (by decide)) (by decide)

/-- A string survives exactly if its parts are delimited. -/
theorem DateText.Valid.kept_iff {text : DateText} (h : text.Valid) (time : MySQLTime) :
    denotedDate (time.initializeFromDateString text.chars).toDateString = denotedDate text.chars ↔
      text.Kept := by
  rw [(h.toDateString_read time).2]
  cases text with
  | delimited year first month second day => exact iff_of_true rfl trivial
  | packed digits => exact iff_of_false (fun heq => h.denotedDate_chars heq.symm) id

/-! ## Dates with times -/

/-- A string of a time without days has no blanks. -/
theorem TimeText.Numeric.notMem_blank {text : TimeText} (h : text.Numeric)
    (hdays : text.days = none) : ' ' ∉ text.chars := by
  have hsign : ' ' ∉ text.sign.chars := by cases text.sign <;> decide
  have hwhole : ' ' ∉ text.wholeChars := by
    unfold wholeChars
    rw [hdays]
    exact h.notMem_clockChars rfl (by decide)
  have hfraction : ' ' ∉ text.fraction.elim [] ('.' :: ·) := by
    cases hsome : text.fraction with
    | none => simp
    | some fraction =>
        have hnot : ' ' ∉ fraction := fun hmem => by
          have := h.2.2.2 fraction hsome ' ' hmem
          cases this
        simpa using hnot
  rw [chars_eq]
  unfold body
  simp [hsign, hwhole, hfraction]

theorem splitOn_blank {date clock : List Char} (hdate : ' ' ∉ date) (hclock : ' ' ∉ clock) :
    (date ++ ' ' :: clock).splitOn ' ' = [date, clock] := by
  rw [List.splitOn_append_cons_self_of_not_mem hdate, List.splitOn_eq_singleton hclock]

theorem MySQLTime.initializeFromDateTimeString_eq (time : MySQLTime) {date clock : List Char}
    (hdate : ' ' ∉ date) (hclock : ' ' ∉ clock) :
    time.initializeFromDateTimeString (date ++ ' ' :: clock) =
      some ((time.initializeFromDateString date).initializeFromTimeString clock) := by
  unfold initializeFromDateTimeString
  rw [splitOn_blank hdate hclock]

theorem MySQLTime.toDateTimeString_eq (time : MySQLTime) :
    time.toDateTimeString = time.toDateString ++ ' ' :: time.toTimeString := by
  unfold toDateTimeString
  simp

/-- Reading a string never finds a precision. -/
theorem MySQLTime.fsp_of_initializeFromDateTimeString {time read : MySQLTime} {s : List Char}
    (h : time.initializeFromDateTimeString s = some read) : read.fsp = time.fsp := by
  unfold initializeFromDateTimeString at h
  split at h
  · rw [← Option.some.inj h, initializeFromTimeString_fsp]
    rfl
  · cases h

theorem denotedDateTime_eq {date clock : List Char} (hdate : ' ' ∉ date) (hclock : ' ' ∉ clock) :
    denotedDateTime (date ++ ' ' :: clock) = (denotedDate date).bind fun date =>
      (denotedTime clock).map fun time => (date, time) := by
  unfold denotedDateTime
  rw [splitOn_blank hdate hclock]

/-- The date of a value is written without blanks. -/
theorem DateValue.notMem_blank (value : DateValue) (base : MySQLTime) :
    ' ' ∉ (value.on base).toDateString := by
  have hmonth : (value.on base).month.padded = padded (some value.month) :=
    DateField.padded_number value.month
  have hday : (value.on base).day.padded = padded (some value.day) :=
    DateField.padded_number value.day
  have hyear : (value.on base).year.text = Nat.toDigits 10 value.year := rfl
  have hnot : ∀ {s}, AllDigits s → ' ' ∉ s := fun hs => hs.notMem rfl
  rw [MySQLTime.toDateString_eq, hyear, hmonth, hday]
  simp [hnot (allDigits_toDigits value.year), hnot (allDigits_padded value.month),
    hnot (allDigits_padded value.day)]

/-- A value of a date with a time is kept exactly if its time is. -/
theorem dateTimeValue_kept_iff (date : DateValue) (clock : TimeValue) :
    (∃ time ∈ ({} : MySQLTime).initializeFromDateTimeString
      (date.on clock.time).toDateTimeString, time.Same (date.on clock.time)) ↔ clock.Kept := by
  have hclockString : (date.on clock.time).toTimeString = clock.time.toTimeString := rfl
  rw [MySQLTime.toDateTimeString_eq, hclockString]
  by_cases hzero : clock.fsp = 0
  · have hblank : ' ' ∉ clock.time.toTimeString := by
      rw [clock.toTimeString_eq hzero]
      exact numeric_written.notMem_blank rfl
    have hread := MySQLTime.initializeFromDateTimeString_eq {} (date.notMem_blank clock.time) hblank
    have hdate := date.initialize_toDateString clock.time {}
    let base := ({} : MySQLTime).initializeFromDateString (date.on clock.time).toDateString
    have hbase : base = _ := hdate
    have hkept : (_ ↔ _) := clock.kept_iff base rfl rfl rfl
    obtain ⟨hyear, hmonth, hday⟩ := base.initializeFromTimeString_date
      clock.time.toTimeString
    rw [hread, ← hkept]
    constructor
    · rintro ⟨time, htime, -, hrest⟩
      cases Option.mem_some_iff.mp htime
      exact hrest
    · intro hrest
      refine ⟨_, rfl, ⟨?_, ?_, ?_⟩, hrest⟩
      · rw [hyear, hbase]
        exact date.toNumber_eq.1
      · rw [hmonth, hbase]
        exact date.toNumber_eq.2.1
      · rw [hday, hbase]
        exact date.toNumber_eq.2.2
  · refine iff_of_false ?_ fun h => hzero h.1
    rintro ⟨time, htime, -, -, -, -, -, -, hfsp⟩
    have hnone := MySQLTime.fsp_of_initializeFromDateTimeString htime
    exact hzero (hfsp.symm.trans hnone)

/-- A string of a date with a time is kept exactly if both are. -/
theorem dateTimeString_kept_iff {date : DateText} {clock : TimeText} (hdate : date.Valid)
    (hclock : clock.Valid) (hblank : ' ' ∉ date.chars) (hdays : clock.days = none) :
    (∃ time ∈ ({} : MySQLTime).initializeFromDateTimeString (date.chars ++ ' ' :: clock.chars),
      denotedDateTime time.toDateTimeString =
        denotedDateTime (date.chars ++ ' ' :: clock.chars)) ↔ date.Kept ∧ clock.Kept := by
  have hblank' := hclock.1.notMem_blank hdays
  have hread := MySQLTime.initializeFromDateTimeString_eq {} hblank hblank'
  let base := ({} : MySQLTime).initializeFromDateString date.chars
  let time := base.initializeFromTimeString clock.chars
  -- the string of the date does not change with the time
  have hdateString : time.toDateString = base.toDateString := by
    obtain ⟨hyear, hmonth, hday⟩ := base.initializeFromTimeString_date clock.chars
    rw [MySQLTime.toDateString_eq, MySQLTime.toDateString_eq, hyear, hmonth, hday]
  obtain ⟨hdateBlank, -⟩ := hdate.toDateString_read {}
  have hclockBlank : ' ' ∉ time.toTimeString := by
    rw [hclock.1.toTimeString_read base rfl]
    exact numeric_written.notMem_blank rfl
  have hdateKept := hdate.kept_iff {}
  have hclockKept := hclock.kept_iff base rfl rfl
  have hexists : (∃ time ∈ ({} : MySQLTime).initializeFromDateTimeString
      (date.chars ++ ' ' :: clock.chars), denotedDateTime time.toDateTimeString =
        denotedDateTime (date.chars ++ ' ' :: clock.chars)) ↔
      denotedDateTime time.toDateTimeString =
        denotedDateTime (date.chars ++ ' ' :: clock.chars) := by
    rw [hread]
    simp only [Option.mem_some_iff, exists_eq_left']
    exact Iff.rfl
  rw [hexists, MySQLTime.toDateTimeString_eq, denotedDateTime_eq (hdateString ▸ hdateBlank) hclockBlank,
    denotedDateTime_eq hblank hblank', hdateString, hclock.denotedTime_chars]
  rw [hclock.denotedTime_chars] at hclockKept
  obtain ⟨day, hday⟩ := Option.ne_none_iff_exists'.mp hdate.denotedDate_chars
  rw [hday] at hdateKept ⊢
  rw [← hdateKept, ← hclockKept]
  constructor
  · intro heq
    obtain ⟨day', hday', hrest⟩ := Option.bind_eq_some_iff.mp heq
    obtain ⟨seconds, hseconds, hpair⟩ := Option.map_eq_some_iff.mp hrest
    cases hpair
    exact ⟨hday', hseconds⟩
  · rintro ⟨hday', hseconds⟩
    rw [show denotedDate base.toDateString = some day from hday',
      show denotedTime time.toTimeString = some clock.seconds from hseconds]

/-! ## Everything that survives -/

/-- Values and strings survive exactly if they have no fraction, no sign of a zero, and two
digits for each component. -/
theorem preserved_iff (input : Input) : input.Preserved ↔ input.Kept := by
  cases input with
  | timeValue value =>
      have hkept : (_ ↔ _) := value.kept_iff {} rfl rfl rfl
      change _ ↔ value.Kept
      rw [← hkept]
      obtain ⟨hyear, hmonth, hday⟩ := MySQLTime.initializeFromTimeString_date {}
        value.time.toTimeString
      refine ⟨fun h => h.2, fun h => ⟨⟨?_, ?_, ?_⟩, h⟩⟩
      · rw [hyear]
        rfl
      · rw [hmonth]
        rfl
      · rw [hday]
        rfl
  | dateValue value =>
      refine iff_of_true ?_ trivial
      change MySQLTime.Same _ _
      rw [value.initialize_toDateString]
      exact ⟨value.toNumber_eq, rfl, rfl, rfl, rfl, rfl, rfl⟩
  | dateTimeValue date clock _ _ => exact dateTimeValue_kept_iff date clock
  | timeString text valid => exact valid.kept_iff {} rfl rfl
  | dateString text valid => exact valid.kept_iff {}
  | dateTimeString date clock valid noBlank noDays =>
      exact dateTimeString_kept_iff valid.1 valid.2 noBlank noDays

/-- The time `12:30:00.500` loses its precision. -/
def halfSecond : TimeValue where
  negative := false
  hour := 12
  minute := 30
  second := 0
  microsec := 500000
  fsp := 3
  hour_le := by decide
  minute_lt := by decide
  second_lt := by decide
  microsec_lt := by decide
  fsp_le := by decide
  dvd_microsec := by decide

theorem not_preserved_halfSecond : ¬∀ input : Input, input.Preserved := by
  intro h
  obtain ⟨-, -, -, -, -, -, hfsp⟩ := h (.timeValue halfSecond)
  rw [MySQLTime.initializeFromTimeString_fsp] at hfsp
  cases hfsp

end DatabaseJones.TimeStrings
