import DatabaseJones.TimeStrings.Parsing

/-!
# What is written for a time

A time without a fraction is written as three components, of which the last two have two
digits.
-/

namespace DatabaseJones.TimeStrings

theorem padded_some (n : ℕ) : padded (some n) =
    if n < 10 then '0' :: Nat.toDigits 10 n else Nat.toDigits 10 n := by
  unfold padded text
  simp

theorem allDigits_padded (n : ℕ) : AllDigits (padded (some n)) := by
  have hdigits := allDigits_toDigits n
  rw [padded_some]
  split
  · refine ⟨by simp, fun c hc => ?_⟩
    rcases List.mem_cons.mp hc with rfl | hc
    · rfl
    · exact hdigits.2 c hc
  · exact hdigits

@[simp] theorem decimal_padded (n : ℕ) : decimal (padded (some n)) = n := by
  rw [padded_some]
  split
  · rw [decimal_zero_cons, decimal_toDigits]
  · exact decimal_toDigits n

theorem length_padded {n : ℕ} (h : n < 100) : (padded (some n)).length = 2 := by
  rw [padded_some]
  split
  · next hn => simp [Nat.toDigits_of_lt_base hn]
  · next hn =>
      have hle : (Nat.toDigits 10 n).length ≤ 2 :=
        (Nat.length_toDigits_le_iff (by decide) (by decide)).mpr h
      have hgt : ¬(Nat.toDigits 10 n).length ≤ 1 := fun hle =>
        hn ((Nat.length_toDigits_le_iff (by decide) (by decide)).mp hle)
      omega

/-- The components of what is written for a time without a fraction. -/
def written (negative : Bool) (hour minute second : ℕ) : TimeText where
  sign := if negative then .minus else .none
  parts := [padded (some hour), padded (some minute), padded (some second)]

theorem MySQLTime.toTimeString_eq {time : MySQLTime} {hour minute second : ℕ}
    (hhour : time.hour = some hour) (hminute : time.minute = some minute)
    (hsecond : time.second = some second) (hfsp : time.fsp = 0) :
    time.toTimeString = (written (time.sign = -1) hour minute second).chars := by
  unfold toTimeString written TimeText.chars
  rw [hhour, hminute, hsecond, hfsp]
  by_cases hsign : time.sign = -1 <;>
    simp [hsign, Sign.chars, List.intercalate, List.intersperse]

variable {negative : Bool} {hour minute second : ℕ}

theorem numeric_written : (written negative hour minute second).Numeric := by
  refine ⟨by simp [written], ?_, by simp [written], by simp [written]⟩
  intro part hpart
  simp only [written, List.mem_cons, List.not_mem_nil, or_false] at hpart
  rcases hpart with rfl | rfl | rfl <;> exact allDigits_padded _

theorem clock_written : (written negative hour minute second).clock = some (hour, minute, second) := by
  simp [written, TimeText.clock]

theorem number_written (hminute : minute < 100) (hsecond : second < 100) :
    (written negative hour minute second).number = hour * 10000 + minute * 100 + second := by
  unfold TimeText.number TimeText.digits written
  simp only [Option.getD_none, List.nil_append, List.flatten_cons, List.flatten_nil,
    List.append_nil]
  rw [decimal_append, decimal_append, List.length_append, length_padded hminute,
    length_padded hsecond, decimal_padded, decimal_padded, decimal_padded]
  ring

theorem readClock_written (hminute : minute < 100) (hsecond : second < 100) :
    (written negative hour minute second).readClock = (hour, minute, second) := by
  have hlength : (written negative hour minute second).parts.length ≠ 2 := by simp [written]
  unfold TimeText.readClock
  rw [if_neg fun h => hlength h.2, number_written hminute hsecond]
  simp only [Prod.mk.injEq]
  omega

theorem valid_written (hminute : minute < 100) (hsecond : second < 100) :
    (written negative hour minute second).Valid ↔ hour ≤ 838 ∧ minute < 60 ∧ second < 60 := by
  unfold TimeText.Valid
  rw [clock_written]
  constructor
  · rintro ⟨_, _, _, clock, hclock, hbounds⟩
    cases Option.mem_some_iff.mp hclock
    exact hbounds
  · intro hbounds
    refine ⟨numeric_written, ?_, by simp [written], _, rfl, hbounds⟩
    simp [written, length_padded hminute, length_padded hsecond]

/-- What a written time denotes. -/
theorem denotedTime_written (hminute : minute < 100) (hsecond : second < 100) :
    denotedTime (written negative hour minute second).chars =
      if hour ≤ 838 ∧ minute < 60 ∧ second < 60 then
        some (if negative then -((hour * 3600 + minute * 60 + second : ℕ) : ℚ)
          else (hour * 3600 + minute * 60 + second : ℕ))
      else none := by
  unfold denotedTime
  rw [numeric_written.readTime_chars]
  by_cases hbounds : hour ≤ 838 ∧ minute < 60 ∧ second < 60
  · rw [if_pos ((valid_written hminute hsecond).mpr hbounds), if_pos hbounds, Option.map_some]
    unfold TimeText.seconds TimeText.fractionValue
    rw [clock_written]
    cases negative <;> simp [written]
  · rw [if_neg fun h => hbounds ((valid_written hminute hsecond).mp h), if_neg hbounds]
    rfl

/-! ## Dates -/

theorem isSeparator_of_allDigits {s : List Char} (h : AllDigits s) :
    ∀ c ∈ s, isSeparator c = false := by
  intro c hc
  simp [isSeparator, h.2 c hc]

/-- The components of a date are found again. -/
theorem splitOnP_delimited {year month day : List Char} {first second : Char}
    (hyear : ∀ c ∈ year, isSeparator c = false) (hmonth : ∀ c ∈ month, isSeparator c = false)
    (hday : ∀ c ∈ day, isSeparator c = false)
    (hfirst : isSeparator first = true) (hsecond : isSeparator second = true) :
    (year ++ first :: (month ++ second :: day)).splitOnP isSeparator = [year, month, day] := by
  rw [List.splitOnP_append_cons_of_forall_mem hyear first hfirst,
    List.splitOnP_append_cons_of_forall_mem hmonth second hsecond,
    List.splitOnP_eq_singleton hday]

theorem MySQLTime.initializeFromDateString_eq (time : MySQLTime) {s : List Char}
    {parts : List (List Char)} (h : s.splitOnP isSeparator = parts) :
    time.initializeFromDateString s =
      { time with
        year := elementAt parts 0
        month := elementAt parts 1
        day := elementAt parts 2 } := by
  subst h
  rfl

theorem MySQLTime.toDateString_eq (time : MySQLTime) : time.toDateString =
    time.year.text ++ '-' :: (time.month.padded ++ '-' :: time.day.padded) := by
  unfold toDateString
  simp

/-- A property that is a number below ten gets a zero. -/
theorem DateField.padded_eq {field : DateField} {n : ℕ} (h : field.toNumber = .finite n) :
    field.padded = if n < 10 then '0' :: field.text else field.text := by
  have hlt : (Number.finite n).lt (.finite 10) = decide (n < 10) := by
    unfold Number.lt
    exact decide_eq_decide.mpr (by norm_cast)
  unfold padded
  rw [h, hlt]
  simp

theorem DateField.padded_number (n : ℕ) :
    (DateField.number n).padded = TimeStrings.padded (some n) := by
  rw [DateField.padded_eq rfl, padded_some]
  rfl

theorem DateField.padded_part {digits : List Char} (h : AllDigits digits) :
    (DateField.part digits).padded = if decimal digits < 10 then '0' :: digits else digits :=
  DateField.padded_eq (toNumber_digits h.2)

theorem allDigits_padded_part {digits : List Char} (h : AllDigits digits) :
    AllDigits (DateField.part digits).padded := by
  rw [DateField.padded_part h]
  split
  · refine ⟨by simp, fun c hc => ?_⟩
    rcases List.mem_cons.mp hc with rfl | hc
    · rfl
    · exact h.2 c hc
  · exact h

theorem decimal_padded_part {digits : List Char} (h : AllDigits digits) :
    decimal (DateField.part digits).padded = decimal digits := by
  rw [DateField.padded_part h]
  split
  · exact decimal_zero_cons digits
  · rfl

end DatabaseJones.TimeStrings

/-!
## Strings of times and dates, there and back

A time value survives if it has no fraction and is no negative zero.  Of the strings of times,
those survive whose digits are those of hours, minutes and seconds with two digits each.
-/

namespace DatabaseJones.TimeStrings

/-! ## The digits of a clock -/

/-- The digits of hours, minutes and seconds are taken apart again. -/
theorem clock_eq_iff {n hour minute second : ℕ} (hminute : minute < 100) (hsecond : second < 100) :
    (hour, minute, second) = (n / 10000, n / 100 % 100, n % 100) ↔
      n = hour * 10000 + minute * 100 + second := by
  simp only [Prod.mk.injEq]
  omega

/-- Days before the hours alone are not found. -/
theorem daysAndOne_iff {days hour width : ℕ} (hwidth : width = 1 ∨ width = 2)
    (hlt : hour < 10 ^ width) :
    days * 10 ^ width + hour = (days * 24 + hour) * 10000 + 0 * 100 + 0 ↔
      days = 0 ∧ hour = 0 := by
  have hle : days * 10 ^ width ≤ days * 100 := by
    rcases hwidth with rfl | rfl <;> omega
  constructor
  · intro heq
    constructor <;> linarith
  · rintro ⟨rfl, rfl⟩
    simp

/-- The number of two components, if they are found in it. -/
theorem twoClock_iff {n hour minute : ℕ} (hminute : minute < 60) :
    (hour, minute, 0) = (if n / 10000 = 0 then (n / 100 % 100, n % 100, 0)
      else (n / 10000, n / 100 % 100, n % 100)) ↔
      n < 10000 ∧ n = hour * 100 + minute ∨ 10000 ≤ n ∧ n = hour * 10000 + minute * 100 := by
  split <;> simp only [Prod.mk.injEq, and_true] <;> omega

/-- Without days, the hours and minutes of two components are found if there are two digits
for the minutes. -/
theorem twoComponents_iff {hour minute width : ℕ} (hhour : hour ≤ 838) (hminute : minute < 60)
    (hwidth : width = 1 ∨ width = 2) (hlt : minute < 10 ^ width) :
    (hour, minute, 0) = (if (hour * 10 ^ width + minute) / 10000 = 0 then
        ((hour * 10 ^ width + minute) / 100 % 100, (hour * 10 ^ width + minute) % 100, 0)
      else ((hour * 10 ^ width + minute) / 10000, (hour * 10 ^ width + minute) / 100 % 100,
        (hour * 10 ^ width + minute) % 100)) ↔ hour < 100 ∧ (width = 2 ∨ hour = 0) := by
  rw [twoClock_iff hminute]
  rcases hwidth with rfl | rfl <;> omega

theorem threeComponents_iff {hour minute second width width' : ℕ}
    (hwidth : width = 1 ∨ width = 2) (hwidth' : width' = 1 ∨ width' = 2) :
    (hour * 10 ^ width + minute) * 10 ^ width' + second = hour * 10000 + minute * 100 + second ↔
      (width' = 2 ∨ hour = 0 ∧ minute = 0) ∧ (width = 2 ∨ hour = 0) := by
  rcases hwidth with rfl | rfl <;> rcases hwidth' with rfl | rfl <;> omega

/-- Days before two components are not found. -/
theorem not_daysAndTwo {days hour minute width width' : ℕ} (hdays : days ≠ 0)
    (hwidth : width = 1 ∨ width = 2) (hwidth' : width' = 1 ∨ width' = 2)
    (hhour : hour < 10 ^ width) (hlt : minute < 10 ^ width') (hminute : minute < 60) :
    (days * 24 + hour, minute, 0) ≠
      (if ((days * 10 ^ width + hour) * 10 ^ width' + minute) / 10000 = 0 then
        (((days * 10 ^ width + hour) * 10 ^ width' + minute) / 100 % 100,
          ((days * 10 ^ width + hour) * 10 ^ width' + minute) % 100, 0)
      else (((days * 10 ^ width + hour) * 10 ^ width' + minute) / 10000,
        ((days * 10 ^ width + hour) * 10 ^ width' + minute) / 100 % 100,
        ((days * 10 ^ width + hour) * 10 ^ width' + minute) % 100)) := by
  rw [Ne, twoClock_iff hminute]
  rcases hwidth with rfl | rfl <;> rcases hwidth' with rfl | rfl <;> omega

theorem not_daysAndThree {days hour minute second width width' width'' : ℕ} (hdays : days ≠ 0)
    (hwidth : width = 1 ∨ width = 2) (hwidth' : width' = 1 ∨ width' = 2)
    (hwidth'' : width'' = 1 ∨ width'' = 2) :
    ((days * 10 ^ width + hour) * 10 ^ width' + minute) * 10 ^ width'' + second ≠
      (days * 24 + hour) * 10000 + minute * 100 + second := by
  rcases hwidth with rfl | rfl <;> rcases hwidth' with rfl | rfl <;>
    rcases hwidth'' with rfl | rfl <;> omega

namespace TimeText

variable {text : TimeText}

/-- Days are zero, and a component before others is zero or these have two digits each. -/
def KeepsClock (text : TimeText) : Prop :=
  match text.days, text.parts with
  | none, [_] => True
  | some days, [hour] => decimal days = 0 ∧ decimal hour = 0
  | days, [hour, minute] =>
      decimal (days.getD []) = 0 ∧ decimal hour < 100 ∧ (minute.length = 2 ∨ decimal hour = 0)
  | days, [hour, minute, second] =>
      decimal (days.getD []) = 0 ∧
        (second.length = 2 ∨ decimal hour = 0 ∧ decimal minute = 0) ∧
        (minute.length = 2 ∨ decimal hour = 0)
  | _, _ => False

instance (text : TimeText) : Decidable text.KeepsClock := by
  unfold KeepsClock
  split <;> exact inferInstance

theorem length_of_le_two {part : List Char} (h : AllDigits part) (hle : part.length ≤ 2) :
    part.length = 1 ∨ part.length = 2 := by
  have hpos := List.length_pos_iff.mpr h.1
  omega

/-- The digits before two components. -/
theorem twoClock_of_days {days hour minute : List Char} (hhour : AllDigits hour)
    (hminute : AllDigits minute) (hle : days ≠ [] → hour.length ≤ 2) (hle' : minute.length ≤ 2)
    (hbound : decimal days * 24 + decimal hour ≤ 838) (hbound' : decimal minute < 60) :
    (decimal days * 24 + decimal hour, decimal minute, 0) =
      (if decimal (days ++ (hour ++ minute)) / 10000 = 0 then
        (decimal (days ++ (hour ++ minute)) / 100 % 100, decimal (days ++ (hour ++ minute)) % 100, 0)
      else (decimal (days ++ (hour ++ minute)) / 10000,
        decimal (days ++ (hour ++ minute)) / 100 % 100, decimal (days ++ (hour ++ minute)) % 100)) ↔
      decimal days = 0 ∧ decimal hour < 100 ∧ (minute.length = 2 ∨ decimal hour = 0) := by
  have hwidth := length_of_le_two hminute hle'
  rw [← List.append_assoc, decimal_append, decimal_append]
  by_cases hzero : decimal days = 0
  · rw [hzero] at hbound ⊢
    simp only [Nat.zero_mul, Nat.zero_add, true_and] at hbound ⊢
    exact twoComponents_iff hbound hbound' hwidth (decimal_lt hminute.2)
  · have hdays : days ≠ [] := by
      rintro rfl
      exact hzero decimal_nil
    have hwidth' := length_of_le_two hhour (hle hdays)
    exact iff_of_false (not_daysAndTwo hzero hwidth' hwidth (decimal_lt hhour.2)
      (decimal_lt hminute.2) hbound') fun h => hzero h.1

/-- The digits before three components. -/
theorem threeClock_of_days {days hour minute second : List Char} (hhour : AllDigits hour)
    (hminute : AllDigits minute) (hsecond : AllDigits second)
    (hle : days ≠ [] → hour.length ≤ 2) (hle' : minute.length ≤ 2) (hle'' : second.length ≤ 2)
    (hbound : decimal minute < 100) (hbound' : decimal second < 100) :
    (decimal days * 24 + decimal hour, decimal minute, decimal second) =
      (decimal (days ++ (hour ++ (minute ++ second))) / 10000,
        decimal (days ++ (hour ++ (minute ++ second))) / 100 % 100,
        decimal (days ++ (hour ++ (minute ++ second))) % 100) ↔
      decimal days = 0 ∧ (second.length = 2 ∨ decimal hour = 0 ∧ decimal minute = 0) ∧
        (minute.length = 2 ∨ decimal hour = 0) := by
  have hwidth := length_of_le_two hminute hle'
  have hwidth' := length_of_le_two hsecond hle''
  rw [clock_eq_iff hbound hbound', ← List.append_assoc, ← List.append_assoc, decimal_append,
    decimal_append, decimal_append]
  by_cases hzero : decimal days = 0
  · rw [hzero]
    simp only [Nat.zero_mul, Nat.zero_add, true_and]
    exact threeComponents_iff hwidth hwidth'
  · have hdays : days ≠ [] := by
      rintro rfl
      exact hzero decimal_nil
    have hwidth'' := length_of_le_two hhour (hle hdays)
    exact iff_of_false (not_daysAndThree hzero hwidth'' hwidth hwidth') fun h => hzero h.1

/-- The parser finds the hours, minutes and seconds of a string. -/
theorem Valid.clock_eq_iff (h : text.Valid) :
    text.clock = some text.readClock ↔ text.KeepsClock := by
  obtain ⟨⟨hne, hparts, -, -⟩, htail, hdays, clock, hclock, hhour, hminute, hsecond⟩ := h
  obtain ⟨sign, days, parts, fraction⟩ := text
  have hdaysNe : ∀ part ∈ parts, days.getD [] ≠ [] → part.length ≤ 2 := by
    intro part hpart hne'
    refine hdays ?_ part hpart
    rintro rfl
    exact hne' rfl
  unfold KeepsClock readClock number digits
  match parts, hne with
  | [all], _ =>
      cases days with
      | none => simp [TimeText.clock]
      | some days =>
          have hlength := length_of_le_two (hparts all (by simp)) (hdays (by simp) all (by simp))
          have hiff := @daysAndOne_iff (decimal days) (decimal all) all.length hlength
            (decimal_lt (hparts all (by simp)).2)
          simp only [TimeText.clock, Option.getD_some, List.flatten_cons, List.flatten_nil,
            List.append_nil, List.length_singleton, OfNat.one_ne_ofNat, and_false, if_false,
            Option.some.injEq]
          rw [TimeStrings.clock_eq_iff (by decide) (by decide), decimal_append]
          exact hiff
  | [hour, minute], _ =>
      have htwo := @twoClock_of_days (days.getD []) hour minute (hparts hour (by simp))
        (hparts minute (by simp)) (hdaysNe hour (by simp)) (htail minute (by simp))
      have hclock' : TimeText.clock ⟨sign, days, [hour, minute], fraction⟩ =
          some (decimal (days.getD []) * 24 + decimal hour, decimal minute, 0) := by
        cases days <;> simp [TimeText.clock]
      rw [hclock'] at hclock ⊢
      cases Option.mem_some_iff.mp hclock
      have hiff := htwo hhour hminute
      cases days <;> simpa using hiff
  | [hour, minute, second], _ =>
      have hthree := @threeClock_of_days (days.getD []) hour minute second (hparts hour (by simp))
        (hparts minute (by simp)) (hparts second (by simp)) (hdaysNe hour (by simp))
        (htail minute (by simp)) (htail second (by simp))
      have hclock' : TimeText.clock ⟨sign, days, [hour, minute, second], fraction⟩ =
          some (decimal (days.getD []) * 24 + decimal hour, decimal minute, decimal second) := by
        cases days <;> simp [TimeText.clock]
      rw [hclock'] at hclock ⊢
      cases Option.mem_some_iff.mp hclock
      have hiff := hthree (hminute.trans (by decide)) (hsecond.trans (by decide))
      cases days <;> simpa using hiff
  | _ :: _ :: _ :: _ :: _, _ =>
      cases days <;> simp [TimeText.clock] at hclock

end TimeText

end DatabaseJones.TimeStrings
