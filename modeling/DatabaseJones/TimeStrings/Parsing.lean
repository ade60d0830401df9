import DatabaseJones.TimeStrings.Denotation
import Mathlib.Data.List.TakeWhile

/-!
# What the parser makes of the string of a time

All digits before the fraction are one number, whatever stands between them.
-/

namespace DatabaseJones.TimeStrings

/-! ## The loop -/

theorem scan_digits {digits : List Char} (h : ∀ c ∈ digits, c.isDigit = true) (rest : List Char) :
    scan (digits ++ rest) = { scan rest with digits := digits ++ (scan rest).digits } := by
  induction digits with
  | nil => rfl
  | cons c digits ih =>
      have hc := h c (by simp)
      rw [List.cons_append, scan, if_pos hc, ih fun other hother => h other (by simp [hother])]
      rfl

theorem scan_colon (rest : List Char) :
    scan (':' :: rest) = { scan rest with colons := (scan rest).colons + 1 } := rfl

theorem scan_blank (rest : List Char) : scan (' ' :: rest) = scan rest := rfl

/-- The components of a time before what is read as `after`. -/
theorem scan_intercalate {parts : List (List Char)} (hne : parts ≠ [])
    (h : ∀ part ∈ parts, AllDigits part) (rest : List Char) :
    scan ([':'].intercalate parts ++ rest) =
      { scan rest with
        digits := parts.flatten ++ (scan rest).digits
        colons := parts.length - 1 + (scan rest).colons } := by
  induction parts with
  | nil => exact absurd rfl hne
  | cons part parts ih =>
      have hpart := (h part (by simp)).2
      cases parts with
      | nil =>
          have hone : [':'].intercalate [part] = part := by simp [List.intercalate]
          rw [hone, scan_digits hpart]
          simp
      | cons next parts =>
          have hcons : [':'].intercalate (part :: next :: parts) =
              part ++ ':' :: [':'].intercalate (next :: parts) := by
            simp [List.intercalate, List.intersperse]
          rw [hcons, List.append_assoc, scan_digits hpart, List.cons_append, scan_colon,
            ih (by simp) fun other hother => h other (by simp [hother])]
          simp
          omega

namespace TimeText

variable {text : TimeText}

/-- The digits before the fraction. -/
def digits (text : TimeText) : List Char := text.days.getD [] ++ text.parts.flatten

/-- The number that they are read as. -/
def number (text : TimeText) : ℕ := decimal text.digits

theorem Numeric.scan_body (h : text.Numeric) : scan text.body =
    { digits := text.digits, decimalPart := text.fraction.getD [],
      colons := text.parts.length - 1 } := by
  have hfraction : scan (text.fraction.elim [] ('.' :: ·)) =
      { decimalPart := text.fraction.getD [] } := by
    cases text.fraction <;> rfl
  have hclock := scan_intercalate h.1 h.2.1 (text.fraction.elim [] ('.' :: ·))
  unfold body wholeChars clockChars digits
  rw [List.append_assoc]
  cases hdays : text.days with
  | none =>
      simp only [Option.elim_none, List.nil_append, Option.getD_none]
      rw [hclock, hfraction]
      simp
  | some days =>
      simp only [Option.elim_some, Option.getD_some, List.append_assoc, List.singleton_append]
      rw [scan_digits (h.2.2.1 days hdays).2, scan_blank, hclock, hfraction]
      simp

theorem Numeric.allDigits_digits (h : text.Numeric) : AllDigits text.digits := by
  unfold digits
  constructor
  · obtain ⟨part, parts, hparts⟩ := List.exists_cons_of_ne_nil h.1
    have := (h.2.1 part (by simp [hparts])).1
    simp [hparts, this]
  · intro c hc
    rcases List.mem_append.mp hc with hc | hc
    · cases hdays : text.days with
      | none => simp [hdays] at hc
      | some days =>
          rw [hdays] at hc
          exact (h.2.2.1 days hdays).2 c hc
    · obtain ⟨part, hpart, hc⟩ := List.mem_flatten.mp hc
      exact (h.2.1 part hpart).2 c hc

end TimeText

/-! ## Numbers -/

theorem takeWhile_isDigit {s : List Char} (h : ∀ c ∈ s, c.isDigit = true) :
    s.takeWhile Char.isDigit = s := List.takeWhile_eq_self_iff.mpr h

theorem isWhitespace_of_isDigit {c : Char} (h : c.isDigit = true) : c.isWhitespace = false := by
  have hc := Char.isDigit_iff_toNat.mp h
  have hzero : '0'.toNat = 48 := rfl
  have hne : ∀ other : Char, other.toNat < 48 → c ≠ other := by
    rintro other hother rfl
    omega
  unfold Char.isWhitespace
  simp [hne ' ' (by decide), hne '\t' (by decide), hne '\r' (by decide), hne '\n' (by decide)]

theorem dropWhile_isWhitespace {c : Char} {s : List Char} (h : c.isWhitespace = false) :
    (c :: s).dropWhile Char.isWhitespace = c :: s := by
  rw [List.dropWhile_cons_of_neg (by simp [h])]

/-- A number with its sign. -/
theorem parseInt_chars (sign : Sign) {digits : List Char} (h : AllDigits digits) :
    parseInt (sign.chars ++ digits) =
      some (if sign = .minus then -(decimal digits : ℤ) else decimal digits) := by
  obtain ⟨c, rest, rfl⟩ := List.exists_cons_of_ne_nil h.1
  have hc : c.isDigit = true := h.2 c (by simp)
  have hdrop : (sign.chars ++ c :: rest).dropWhile Char.isWhitespace = sign.chars ++ c :: rest := by
    cases sign with
    | none => exact dropWhile_isWhitespace (isWhitespace_of_isDigit hc)
    | plus => rfl
    | minus => rfl
  unfold parseInt
  rw [hdrop, splitSign_chars sign hc]
  simp [takeWhile_isDigit h.2]

theorem trim_digits {s : List Char} (h : ∀ c ∈ s, c.isDigit = true) : trim s = s := by
  have hkept : ∀ other : List Char, (∀ c ∈ other, c.isDigit = true) →
      other.dropWhile Char.isWhitespace = other := by
    intro other hother
    cases other with
    | nil => rfl
    | cons c other =>
        exact dropWhile_isWhitespace (isWhitespace_of_isDigit (hother c (by simp)))
  unfold trim
  rw [hkept s h, hkept s.reverse fun c hc => h c (by simpa using hc), List.reverse_reverse]

theorem unsignedNumber_digits {s : List Char} (h : AllDigits s) :
    unsignedNumber s = .finite (decimal s) := by
  have hword : s ≠ "Infinity".toList := by
    rintro rfl
    have := h.2 'I' (by decide)
    cases this
  have hrest : s.dropWhile Char.isDigit = [] := List.dropWhile_eq_nil_iff.mpr h.2
  unfold unsignedNumber
  rw [if_neg hword, takeWhile_isDigit h.2, hrest]
  simp [h.1, exponentPart]

/-- A string of digits is converted to the number that they stand for. -/
theorem toNumber_digits {s : List Char} (h : ∀ c ∈ s, c.isDigit = true) :
    toNumber s = .finite (decimal s) := by
  unfold toNumber
  rw [trim_digits h]
  have hnot : ∀ c, c.isDigit = false → c ∉ s := fun c hc hmem => by simp [h c hmem] at hc
  split
  · simp
  · exact absurd (by simp) (hnot 'x' rfl)
  · exact absurd (by simp) (hnot 'X' rfl)
  · exact absurd (by simp) (hnot 'o' rfl)
  · exact absurd (by simp) (hnot 'O' rfl)
  · exact absurd (by simp) (hnot 'b' rfl)
  · exact absurd (by simp) (hnot 'B' rfl)
  · exact absurd (by simp) (hnot '-' rfl)
  · exact absurd (by simp) (hnot '+' rfl)
  · next hne _ _ _ _ _ _ _ _ => exact unsignedNumber_digits ⟨hne, h⟩

/-! ## The parsed time -/

theorem MySQLTime.initializeFromTimeString_fsp (time : MySQLTime) (jsValue : List Char) :
    (time.initializeFromTimeString jsValue).fsp = time.fsp := by
  unfold initializeFromTimeString
  dsimp only
  split <;> rfl

theorem MySQLTime.initializeFromTimeString_date (time : MySQLTime) (jsValue : List Char) :
    (time.initializeFromTimeString jsValue).year = time.year ∧
      (time.initializeFromTimeString jsValue).month = time.month ∧
      (time.initializeFromTimeString jsValue).day = time.day := by
  unfold initializeFromTimeString
  dsimp only
  split <;> exact ⟨rfl, rfl, rfl⟩

namespace TimeText

variable {text : TimeText}

/-- The hours, minutes and seconds that the parser finds. -/
def readClock (text : TimeText) : ℕ × ℕ × ℕ :=
  if text.number / 10000 = 0 ∧ text.parts.length = 2 then
    (text.number / 100 % 100, text.number % 100, 0)
  else (text.number / 10000, text.number / 100 % 100, text.number % 100)

/-- The microseconds that the parser finds. -/
def readMicrosec (text : TimeText) (time : MySQLTime) : Option ℤ :=
  if 0 < decimal (text.fraction.getD []) then expand (text.fraction.getD []) else time.microsec

/-- The parser reads all digits before the fraction as one number. -/
theorem Numeric.initialize_chars (h : text.Numeric) (time : MySQLTime) :
    time.initializeFromTimeString text.chars =
      { time with
        sign := if text.sign = .minus ∧ 0 < text.number then -1 else time.sign
        hour := some text.readClock.1
        minute := some text.readClock.2.1
        second := some text.readClock.2.2
        microsec := text.readMicrosec time } := by
  obtain ⟨c, rest, hbody, hc⟩ := h.exists_body
  have hsplit : splitSign text.chars = (text.sign, text.body) := by
    rw [chars_eq, hbody, splitSign_chars _ hc]
  have hparsed := parseInt_chars text.sign h.allDigits_digits
  have hsigned : (∃ value ∈ some (if text.sign = .minus then -(decimal text.digits : ℤ)
      else decimal text.digits), value < 0) ↔ text.sign = .minus ∧ 0 < text.number := by
    unfold number
    split <;> simp_all
  have habs : (if text.sign = .minus then -(decimal text.digits : ℤ)
      else decimal text.digits).natAbs = text.number := by
    unfold number
    split <;> simp
  have hfraction : ∀ c ∈ text.fraction.getD [], c.isDigit = true := by
    intro c hc
    cases hsome : text.fraction with
    | none => simp [hsome] at hc
    | some fraction =>
        rw [hsome] at hc
        exact h.2.2.2 fraction hsome c hc
  have hlt : (Number.finite 0).lt (toNumber (text.fraction.getD [])) =
      decide (0 < decimal (text.fraction.getD [])) := by
    rw [toNumber_digits hfraction]
    simp [Number.lt]
  have hcolons : text.parts.length - 1 = 1 ↔ text.parts.length = 2 := by omega
  unfold MySQLTime.initializeFromTimeString
  rw [hsplit]
  simp only [h.scan_body, hparsed, hsigned, Option.map_some, habs, hlt, decide_eq_true_eq,
    Option.some.injEq, hcolons]
  unfold readClock readMicrosec
  split <;> rfl

end TimeText

end DatabaseJones.TimeStrings
