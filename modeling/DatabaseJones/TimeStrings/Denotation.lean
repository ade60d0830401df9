import DatabaseJones.TimeStrings.Conversion

/-!
# What strings of times and dates denote

The strings that MySQL takes for a TIME: days before a blank, one to three components with
colons between them, and a fraction.  A single component has the digits of hours, minutes and
seconds; two components are hours and minutes.  A DATE has three components.

`readTime` finds the components of a string, and `denotedTime` is the time in seconds.
-/

namespace DatabaseJones.TimeStrings

/-! ## Digits -/

/-- A number in decimal digits. -/
def AllDigits (s : List Char) : Prop := s ≠ [] ∧ ∀ c ∈ s, c.isDigit = true

instance (s : List Char) : Decidable (AllDigits s) := by
  unfold AllDigits
  exact inferInstance

theorem AllDigits.notMem {s : List Char} (h : AllDigits s) {c : Char} (hc : c.isDigit = false) :
    c ∉ s := fun hmem => by simp [h.2 c hmem] at hc

theorem decimal_append (first second : List Char) :
    decimal (first ++ second) = decimal first * 10 ^ second.length + decimal second := by
  unfold decimal
  rw [Nat.ofDigitChars_append, Nat.ofDigitChars_eq_ofDigitChars_zero, Nat.mul_comm]

@[simp] theorem decimal_nil : decimal [] = 0 := Nat.ofDigitChars_nil

theorem decimal_zero_cons (s : List Char) : decimal ('0' :: s) = decimal s := by
  unfold decimal
  rw [Nat.ofDigitChars_cons]
  rfl

@[simp] theorem decimal_toDigits (n : ℕ) : decimal (Nat.toDigits 10 n) = n :=
  Nat.ofDigitChars_ten_toDigits

theorem allDigits_toDigits (n : ℕ) : AllDigits (Nat.toDigits 10 n) :=
  ⟨Nat.toDigits_ne_nil, fun _ hc => Nat.isDigit_of_mem_toDigits (by decide) (by decide) hc⟩

/-- A number with fewer digits is smaller. -/
theorem decimal_lt {s : List Char} (h : ∀ c ∈ s, c.isDigit = true) :
    decimal s < 10 ^ s.length := by
  induction s with
  | nil => simp
  | cons c s ih =>
      have hc : c.toNat - '0'.toNat ≤ 9 := by
        have := Char.isDigit_iff_toNat.mp (h c (by simp))
        have hzero : '0'.toNat = 48 := rfl
        have hnine : '9'.toNat = 57 := rfl
        omega
      have hs := ih fun other hother => h other (by simp [hother])
      have hcons : decimal (c :: s) = decimal [c] * 10 ^ s.length + decimal s :=
        decimal_append [c] s
      have hone : decimal [c] = c.toNat - '0'.toNat := by
        unfold decimal
        rw [Nat.ofDigitChars_cons, Nat.ofDigitChars_nil]
        simp
      rw [hcons, hone, List.length_cons, pow_succ]
      calc (c.toNat - '0'.toNat) * 10 ^ s.length + decimal s
          < (c.toNat - '0'.toNat) * 10 ^ s.length + 10 ^ s.length := by omega
        _ ≤ 9 * 10 ^ s.length + 10 ^ s.length := by gcongr
        _ = 10 ^ s.length * 10 := by ring

/-- A sign before a digit is found. -/
theorem splitSign_chars (sign : Sign) {c : Char} (h : c.isDigit = true) (rest : List Char) :
    splitSign (sign.chars ++ c :: rest) = (sign, c :: rest) := by
  have hplus : c ≠ '+' := by
    rintro rfl
    cases h
  have hminus : c ≠ '-' := by
    rintro rfl
    cases h
  cases sign with
  | plus => rfl
  | minus => rfl
  | none =>
      change splitSign (c :: rest) = _
      rw [splitSign, if_neg hplus, if_neg hminus]

/-! ## Times -/

/-- The components of the string of a time. -/
structure TimeText where
  sign : Sign := .none
  days : Option (List Char) := none
  parts : List (List Char)
  fraction : Option (List Char) := none
deriving DecidableEq

namespace TimeText

/-- The string. -/
def chars (text : TimeText) : List Char :=
  text.sign.chars ++ (text.days.elim [] (· ++ [' ']) ++ ([':'].intercalate text.parts ++
    text.fraction.elim [] ('.' :: ·)))

/-- The hours, minutes and seconds. -/
def clock (text : TimeText) : Option (ℕ × ℕ × ℕ) :=
  match text.days, text.parts with
  | none, [all] =>
      some (decimal all / 10000, decimal all / 100 % 100, decimal all % 100)
  | none, [hour, minute] => some (decimal hour, decimal minute, 0)
  | none, [hour, minute, second] => some (decimal hour, decimal minute, decimal second)
  | some days, [hour] => some (decimal days * 24 + decimal hour, 0, 0)
  | some days, [hour, minute] => some (decimal days * 24 + decimal hour, decimal minute, 0)
  | some days, [hour, minute, second] =>
      some (decimal days * 24 + decimal hour, decimal minute, decimal second)
  | _, _ => none

/-- All components are numbers; the fraction may have no digits. -/
def Numeric (text : TimeText) : Prop :=
  text.parts ≠ [] ∧ (∀ part ∈ text.parts, AllDigits part) ∧ (∀ days ∈ text.days, AllDigits days) ∧
    ∀ fraction ∈ text.fraction, ∀ c ∈ fraction, c.isDigit = true

instance (text : TimeText) : Decidable text.Numeric := by
  unfold Numeric
  exact inferInstance

/-- The string of a TIME value: components other than hours without days have at most two
digits, and the time is at most 838:59:59. -/
def Valid (text : TimeText) : Prop :=
  text.Numeric ∧ (∀ part ∈ text.parts.tail, part.length ≤ 2) ∧
    (text.days ≠ none → ∀ part ∈ text.parts, part.length ≤ 2) ∧
    ∃ clock ∈ text.clock, clock.1 ≤ 838 ∧ clock.2.1 < 60 ∧ clock.2.2 < 60

instance (text : TimeText) : Decidable text.Valid := by
  unfold Valid
  exact inferInstance

/-- The fraction of a second. -/
def fractionValue (text : TimeText) : ℚ :=
  text.fraction.elim 0 fun fraction => (decimal fraction : ℚ) / 10 ^ fraction.length

/-- The time in seconds. -/
def seconds (text : TimeText) : ℚ :=
  let (hour, minute, second) := text.clock.getD (0, 0, 0)
  let magnitude := (hour * 3600 + minute * 60 + second : ℕ) + text.fractionValue
  if text.sign = .minus then -magnitude else magnitude

end TimeText

/-- The components of a string. -/
def componentsOf (s : List Char) : Option TimeText :=
  let (sign, body) := splitSign s
  let cut : Option (List Char × Option (List Char)) :=
    match body.splitOn '.' with
    | [whole] => some (whole, none)
    | [whole, fraction] => some (whole, some fraction)
    | _ => none
  cut.bind fun (whole, fraction) =>
    match whole.splitOn ' ' with
    | [clock] => some { sign, parts := clock.splitOn ':', fraction }
    | [days, clock] => some { sign, days := some days, parts := clock.splitOn ':', fraction }
    | _ => none

/-- The components of the string of a time. -/
def readTime (s : List Char) : Option TimeText :=
  (componentsOf s).filter fun text => text.Valid

/-- The time in seconds that a string denotes. -/
def denotedTime (s : List Char) : Option ℚ := (readTime s).map TimeText.seconds

/-! ## Dates -/

/-- The string of a date: three components and the characters between them, or digits alone. -/
inductive DateText
  | delimited (year : List Char) (first : Char) (month : List Char) (second : Char)
      (day : List Char)
  | packed (digits : List Char)

/-- A character that is not a letter, a digit or an underscore. -/
def isSeparator (c : Char) : Bool := !(c.isDigit || isLetter c)

/-- The year for its digits; two digits stand for a year from 1970 to 2069. -/
def yearOf (digits : List Char) : ℕ :=
  if digits.length = 2 then
    if decimal digits < 70 then 2000 + decimal digits else 1900 + decimal digits
  else decimal digits

namespace DateText

def chars : DateText → List Char
  | delimited year first month second day => year ++ first :: (month ++ second :: day)
  | packed digits => digits

def Valid : DateText → Prop
  | delimited year first month second day =>
      (AllDigits year ∧ AllDigits month ∧ AllDigits day) ∧
        isSeparator first = true ∧ isSeparator second = true
  | packed digits => AllDigits digits ∧ (digits.length = 6 ∨ digits.length = 8)

end DateText

/-- The year, month and day that a string denotes. -/
def denotedDate (s : List Char) : Option (ℕ × ℕ × ℕ) :=
  match s.splitOnP isSeparator with
  | [year, month, day] =>
      if AllDigits year ∧ AllDigits month ∧ AllDigits day then
        some (yearOf year, decimal month, decimal day)
      else none
  | [digits] =>
      if AllDigits digits ∧ (digits.length = 6 ∨ digits.length = 8) then
        some (yearOf (digits.take (digits.length - 4)), decimal digits / 100 % 100,
          decimal digits % 100)
      else none
  | _ => none

/-- The date and the time that a string denotes, with a blank between them. -/
def denotedDateTime (s : List Char) : Option ((ℕ × ℕ × ℕ) × ℚ) :=
  match s.splitOn ' ' with
  | [date, clock] =>
      (denotedDate date).bind fun date => (denotedTime clock).map fun time => (date, time)
  | _ => none

/-! ## The components of a string that is made of them -/

theorem notMem_intercalate {parts : List (List Char)} {separator c : Char} (hne : c ≠ separator)
    (h : ∀ part ∈ parts, c ∉ part) : c ∉ [separator].intercalate parts := by
  induction parts with
  | nil => simp [List.intercalate]
  | cons part parts ih =>
      cases parts with
      | nil => simpa [List.intercalate] using h part (by simp)
      | cons next parts =>
          have hrest := ih fun other hother => h other (by simp [hother])
          have hcons : [separator].intercalate (part :: next :: parts) =
              part ++ [separator] ++ [separator].intercalate (next :: parts) := by
            simp [List.intercalate, List.intersperse]
          rw [hcons, List.mem_append, List.mem_append]
          rintro ((hc | hc) | hc)
          · exact h part (by simp) hc
          · exact hne (by simpa using hc)
          · exact hrest hc

namespace TimeText

variable {text : TimeText}

/-- The components with the colons between them. -/
def clockChars (text : TimeText) : List Char := [':'].intercalate text.parts

/-- What stands before the fraction. -/
def wholeChars (text : TimeText) : List Char :=
  text.days.elim [] (· ++ [' ']) ++ text.clockChars

/-- What follows the sign. -/
def body (text : TimeText) : List Char := text.wholeChars ++ text.fraction.elim [] ('.' :: ·)

theorem chars_eq (text : TimeText) : text.chars = text.sign.chars ++ text.body := by
  unfold chars body wholeChars clockChars
  rw [List.append_assoc]

theorem Numeric.notMem_clockChars (h : text.Numeric) {c : Char} (hc : c.isDigit = false)
    (hcolon : c ≠ ':') : c ∉ text.clockChars :=
  notMem_intercalate hcolon fun part hpart => (h.2.1 part hpart).notMem hc

theorem Numeric.notMem_wholeChars (h : text.Numeric) {c : Char} (hc : c.isDigit = false)
    (hcolon : c ≠ ':') (hblank : c ≠ ' ') : c ∉ text.wholeChars := by
  unfold wholeChars
  rw [List.mem_append, not_or]
  refine ⟨?_, h.notMem_clockChars hc hcolon⟩
  cases hdays : text.days with
  | none => simp
  | some days =>
      have hnot := (h.2.2.1 days hdays).notMem hc
      simp [hnot, hblank]

theorem Numeric.splitOn_clockChars (h : text.Numeric) :
    text.clockChars.splitOn ':' = text.parts :=
  List.splitOn_intercalate ':' (fun part hpart => (h.2.1 part hpart).notMem rfl) h.1

theorem Numeric.splitOn_wholeChars (h : text.Numeric) : text.wholeChars.splitOn ' ' =
    text.days.elim [text.clockChars] fun days => [days, text.clockChars] := by
  have hclock : text.clockChars.splitOn ' ' = [text.clockChars] :=
    List.splitOn_eq_singleton (h.notMem_clockChars rfl (by decide))
  unfold wholeChars
  cases hdays : text.days with
  | none => exact hclock
  | some days =>
      have hnot : ' ' ∉ days := (h.2.2.1 days hdays).notMem rfl
      simp only [Option.elim_some, List.append_assoc, List.singleton_append]
      rw [List.splitOn_append_cons_self_of_not_mem hnot, hclock]

theorem Numeric.splitOn_body (h : text.Numeric) : text.body.splitOn '.' =
    text.fraction.elim [text.wholeChars] fun fraction => [text.wholeChars, fraction] := by
  have hwhole : '.' ∉ text.wholeChars := h.notMem_wholeChars rfl (by decide) (by decide)
  unfold body
  cases hfraction : text.fraction with
  | none => simpa using List.splitOn_eq_singleton hwhole
  | some fraction =>
      have hnot : '.' ∉ fraction := fun hmem => by
        have := h.2.2.2 fraction hfraction '.' hmem
        cases this
      simp only [Option.elim_some]
      rw [List.splitOn_append_cons_self_of_not_mem hwhole, List.splitOn_eq_singleton hnot]

/-- A time begins with a digit. -/
theorem Numeric.exists_body (h : text.Numeric) : ∃ c rest, text.body = c :: rest ∧
    c.isDigit = true := by
  have hwhole : ∃ c rest, text.wholeChars = c :: rest ∧ c.isDigit = true := by
    unfold wholeChars clockChars
    cases hdays : text.days with
    | some days =>
        obtain ⟨hne, hdigits⟩ := h.2.2.1 days hdays
        obtain ⟨c, rest, rfl⟩ := List.exists_cons_of_ne_nil hne
        exact ⟨c, _, rfl, hdigits c (by simp)⟩
    | none =>
        obtain ⟨part, parts, hparts⟩ := List.exists_cons_of_ne_nil h.1
        obtain ⟨hne, hdigits⟩ := h.2.1 part (by simp [hparts])
        obtain ⟨c, rest, rfl⟩ := List.exists_cons_of_ne_nil hne
        rw [hparts]
        cases parts with
        | nil => exact ⟨c, rest, by simp [List.intercalate], hdigits c (by simp)⟩
        | cons next parts =>
            exact ⟨c, _, by simp [List.intercalate, List.intersperse]; rfl, hdigits c (by simp)⟩
  obtain ⟨c, rest, hbody, hc⟩ := hwhole
  unfold body
  rw [hbody]
  exact ⟨c, _, rfl, hc⟩

theorem eq_of_fields {days : Option (List Char)} {fraction : Option (List Char)}
    (hdays : text.days = days) (hfraction : text.fraction = fraction) :
    ({ sign := text.sign, days, parts := text.parts, fraction } : TimeText) = text := by
  rw [← hdays, ← hfraction]

/-- The components are found again. -/
theorem Numeric.componentsOf_chars (h : text.Numeric) : componentsOf text.chars = some text := by
  obtain ⟨c, rest, hbody, hc⟩ := h.exists_body
  have hsign : splitSign text.chars = (text.sign, text.body) := by
    rw [chars_eq, hbody, splitSign_chars _ hc]
  unfold componentsOf
  rw [hsign]
  simp only [h.splitOn_body]
  cases hfraction : text.fraction with
  | none =>
      simp only [Option.elim_none, Option.bind_some, h.splitOn_wholeChars]
      cases hdays : text.days with
      | none =>
          simp only [Option.elim_none, h.splitOn_clockChars]
          exact congrArg some (eq_of_fields hdays hfraction)
      | some days =>
          simp only [Option.elim_some, h.splitOn_clockChars]
          exact congrArg some (eq_of_fields hdays hfraction)
  | some fraction =>
      simp only [Option.elim_some, Option.bind_some, h.splitOn_wholeChars]
      cases hdays : text.days with
      | none =>
          simp only [Option.elim_none, h.splitOn_clockChars]
          exact congrArg some (eq_of_fields hdays hfraction)
      | some days =>
          simp only [Option.elim_some, h.splitOn_clockChars]
          exact congrArg some (eq_of_fields hdays hfraction)

theorem Numeric.readTime_chars (h : text.Numeric) :
    readTime text.chars = if text.Valid then some text else none := by
  unfold readTime
  rw [h.componentsOf_chars, Option.filter_some]
  by_cases hvalid : text.Valid <;> simp [hvalid]

/-- The string of a TIME value denotes the time. -/
theorem Valid.denotedTime_chars (h : text.Valid) : denotedTime text.chars = some text.seconds := by
  unfold denotedTime
  rw [h.1.readTime_chars, if_pos h]
  rfl

end TimeText

end DatabaseJones.TimeStrings
