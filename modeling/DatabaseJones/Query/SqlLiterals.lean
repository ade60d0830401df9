import DatabaseJones.Query.SqlText
import Mathlib.Data.Nat.Digits.Defs

/-!
# Literals

The JavaScript values that an application may compare a column with, the text that their
`toString` gives, and the literals of SQL that denote them.  A finite number is given by the
digits of its shortest decimal text, as ECMAScript has it.
-/

namespace DatabaseJones.Query

/-! ## Numbers -/

/-- The number that decimal digits stand for. -/
def digitsValue (digits : List ℕ) : ℕ := Nat.ofDigits 10 digits.reverse

def digitsText (digits : List ℕ) : List Char := digits.map Nat.digitChar

/-- A positive number: `0.d₁d₂…dₖ` times ten to the `point`. -/
structure Decimal where
  digits : List ℕ
  point : ℤ
  isDigit : ∀ digit ∈ digits, digit < 10
  nonempty : digits ≠ []
deriving DecidableEq

def Decimal.value (decimal : Decimal) : ℚ :=
  digitsValue decimal.digits * 10 ^ (decimal.point - decimal.digits.length)

/-- A number of JavaScript. -/
inductive Number
  | nan
  | infinity (negative : Bool)
  | zero
  | finite (negative : Bool) (decimal : Decimal)
deriving DecidableEq

/-- The value of a finite number. -/
def Number.value? : Number → Option ℚ
  | .nan => none
  | .infinity _ => none
  | .zero => some 0
  | .finite negative decimal => some (if negative then -decimal.value else decimal.value)

/-- The exponent of a number in a text: a sign and digits. -/
def exponentDigits (exponent : ℤ) : Bool × List ℕ :=
  (decide (exponent < 0), (Nat.digits 10 exponent.natAbs).reverse)

def exponentText (exponent : Bool × List ℕ) : List Char :=
  'e' :: (if exponent.1 then '-' else '+') :: digitsText exponent.2

/-- `toString()` of a positive number. -/
def Decimal.toString (decimal : Decimal) : List Char :=
  let k : ℤ := decimal.digits.length
  let n := decimal.point
  if k ≤ n ∧ n ≤ 21 then
    digitsText (decimal.digits ++ List.replicate (n - k).toNat 0)
  else if 0 < n ∧ n ≤ 21 then
    digitsText (decimal.digits.take n.toNat) ++ '.' :: digitsText (decimal.digits.drop n.toNat)
  else if -6 < n ∧ n ≤ 0 then
    digitsText [0] ++ '.' :: digitsText (List.replicate (-n).toNat 0 ++ decimal.digits)
  else if decimal.digits.length = 1 then
    digitsText decimal.digits ++ exponentText (exponentDigits (n - 1))
  else
    digitsText (decimal.digits.take 1) ++ '.' :: digitsText (decimal.digits.drop 1) ++
      exponentText (exponentDigits (n - 1))

/-- `toString()` of a number. -/
def Number.toString : Number → List Char
  | .nan => "NaN".toList
  | .infinity negative => if negative then "-Infinity".toList else "Infinity".toList
  | .zero => "0".toList
  | .finite negative decimal => if negative then '-' :: decimal.toString else decimal.toString

/-! ## Dates -/

/-- A Date in the local time zone.  A name of the zone goes with its offset. -/
structure DateFields where
  weekday : Fin 7
  month : Fin 12
  day : ℕ
  year : ℤ
  hours : ℕ
  minutes : ℕ
  seconds : ℕ
  offset : ℤ
  zone : List Char
deriving DecidableEq

inductive Date
  | invalid
  | valid (fields : DateFields)
deriving DecidableEq

def weekdays : Fin 7 → List Char
  | 0 => "Sun".toList
  | 1 => "Mon".toList
  | 2 => "Tue".toList
  | 3 => "Wed".toList
  | 4 => "Thu".toList
  | 5 => "Fri".toList
  | 6 => "Sat".toList

def months : Fin 12 → List Char
  | 0 => "Jan".toList
  | 1 => "Feb".toList
  | 2 => "Mar".toList
  | 3 => "Apr".toList
  | 4 => "May".toList
  | 5 => "Jun".toList
  | 6 => "Jul".toList
  | 7 => "Aug".toList
  | 8 => "Sep".toList
  | 9 => "Oct".toList
  | 10 => "Nov".toList
  | 11 => "Dec".toList

/-- A number with at least `width` digits. -/
def padded (width value : ℕ) : List Char :=
  let digits := digitsText (Nat.digits 10 value).reverse
  List.replicate (width - digits.length) '0' ++ digits

def DateFields.timeText (fields : DateFields) : List Char :=
  padded 2 fields.hours ++ ':' :: padded 2 fields.minutes ++ ':' :: padded 2 fields.seconds

def DateFields.toString (fields : DateFields) : List Char :=
  weekdays fields.weekday ++ ' ' :: (months fields.month ++ ' ' :: (padded 2 fields.day ++ ' ' ::
    ((if fields.year < 0 then ['-'] else []) ++ padded 4 fields.year.natAbs ++ ' ' ::
      (fields.timeText ++ " GMT".toList ++ (if fields.offset < 0 then '-' else '+') ::
        (padded 4 fields.offset.natAbs ++ fields.zone)))))

def invalidDate : List Char := ['I', 'n', 'v', 'a', 'l', 'i', 'd', ' ', 'D', 'a', 't', 'e']

/-- `toString()` of a Date. -/
def Date.toString : Date → List Char
  | .invalid => invalidDate
  | .valid fields => fields.toString

/-! ## Values -/

/-- A literal comparand. -/
inductive LiteralValue
  | string (text : List Char)
  | number (value : Number)
  | boolean (value : Bool)
  | date (value : Date)
  | null
deriving DecidableEq

/-- What `getEscapedValue` sees of a literal: strings, and the `toString()` of everything else,
which `null` has not. -/
def LiteralValue.literal? : LiteralValue → Option Literal
  | .string text => some (.string text)
  | .number value => some (.other value.toString)
  | .boolean true => some (.other "true".toList)
  | .boolean false => some (.other "false".toList)
  | .date value => some (.other value.toString)
  | .null => none

/-- A comparand as the visitors read it; marking fails on `null`. -/
def Parameter.literal? : Parameter LiteralValue → Option (Parameter Literal)
  | .parameter name => some (.parameter name)
  | .literal value => value.literal?.map .literal

/-! ## Literals of SQL -/

/-- A numeric literal of SQL. -/
structure NumericLiteral where
  negative : Bool
  integer : List ℕ
  fraction : Option (List ℕ)
  exponent : Option (Bool × List ℕ)

namespace NumericLiteral

def text (literal : NumericLiteral) : List Char :=
  (if literal.negative then ['-'] else []) ++ digitsText literal.integer ++
    literal.fraction.elim [] (fun digits => '.' :: digitsText digits) ++
      literal.exponent.elim [] exponentText

def exponentValue (literal : NumericLiteral) : ℤ :=
  literal.exponent.elim 0 fun exponent =>
    if exponent.1 then -(digitsValue exponent.2 : ℤ) else digitsValue exponent.2

def value (literal : NumericLiteral) : ℚ :=
  (if literal.negative then -1 else 1) *
    (digitsValue (literal.integer ++ literal.fraction.getD []) *
      10 ^ (literal.exponentValue - (literal.fraction.getD []).length))

/-- The parts are made of digits, and there are some before the point and in the exponent. -/
structure WellFormed (literal : NumericLiteral) : Prop where
  integer : ∀ digit ∈ literal.integer, digit < 10
  nonempty : literal.integer ≠ []
  fraction : ∀ digits ∈ literal.fraction, ∀ digit ∈ digits, digit < 10
  exponent : ∀ exponent ∈ literal.exponent, exponent.2 ≠ [] ∧ ∀ digit ∈ exponent.2, digit < 10

end NumericLiteral

/-- The literal of SQL for a point in time. -/
def DateFields.sqlText (fields : DateFields) : List Char :=
  padded 4 fields.year.natAbs ++ '-' :: padded 2 (fields.month.val + 1) ++ '-' ::
    padded 2 fields.day ++ ' ' :: fields.timeText

/-- A token is a literal of SQL that denotes the value. -/
def Token.Denotes : Token → LiteralValue → Prop
  | .string text, .string value => text = value
  | .string text, .date (.valid fields) => text = fields.sqlText
  | .word text, .number number => ∃ literal : NumericLiteral, literal.WellFormed ∧
      literal.text = text ∧ number.value? = some literal.value
  | .word text, .boolean value =>
      text.map Char.toUpper = if value then "TRUE".toList else "FALSE".toList
  | .keyword .null, .null => True
  | _, _ => False

end DatabaseJones.Query

/-!
## Texts of numbers

The `toString()` of every finite number is one numeric literal of SQL, and the literal denotes
the number; that of the other numbers is none.
-/

namespace DatabaseJones.Query

/-! ## Digits -/

theorem digitsValue_append_zeros (digits : List ℕ) (zeros : ℕ) :
    digitsValue (digits ++ List.replicate zeros 0) = digitsValue digits * 10 ^ zeros := by
  rw [digitsValue, List.reverse_append, List.reverse_replicate, Nat.ofDigits_append,
    Nat.ofDigits_replicate_zero, List.length_replicate, Nat.zero_add, Nat.mul_comm]
  rfl

theorem digitsValue_zeros_append (digits : List ℕ) (zeros : ℕ) :
    digitsValue (List.replicate zeros 0 ++ digits) = digitsValue digits := by
  rw [digitsValue, List.reverse_append, List.reverse_replicate, Nat.ofDigits_append,
    Nat.ofDigits_replicate_zero, Nat.mul_zero, Nat.add_zero]
  rfl

theorem exponentDigits_spec (exponent : ℤ) :
    (if (exponentDigits exponent).1 then -(digitsValue (exponentDigits exponent).2 : ℤ)
      else digitsValue (exponentDigits exponent).2) = exponent := by
  have hdigits : digitsValue (exponentDigits exponent).2 = exponent.natAbs := by
    rw [digitsValue, exponentDigits, List.reverse_reverse, Nat.ofDigits_digits]
  rw [hdigits, exponentDigits]
  split_ifs with hneg
  · rw [decide_eq_true_eq] at hneg
    omega
  · rw [decide_eq_true_eq] at hneg
    omega

/-! ## The literal of a number -/

/-- The numeric literal that `toString()` of a positive number writes. -/
def Decimal.literal (negative : Bool) (decimal : Decimal) : NumericLiteral :=
  let k : ℤ := decimal.digits.length
  let n := decimal.point
  if k ≤ n ∧ n ≤ 21 then
    ⟨negative, decimal.digits ++ List.replicate (n - k).toNat 0, none, none⟩
  else if 0 < n ∧ n ≤ 21 then
    ⟨negative, decimal.digits.take n.toNat, some (decimal.digits.drop n.toNat), none⟩
  else if -6 < n ∧ n ≤ 0 then
    ⟨negative, [0], some (List.replicate (-n).toNat 0 ++ decimal.digits), none⟩
  else if decimal.digits.length = 1 then
    ⟨negative, decimal.digits, none, some (exponentDigits (n - 1))⟩
  else
    ⟨negative, decimal.digits.take 1, some (decimal.digits.drop 1), some (exponentDigits (n - 1))⟩

theorem Decimal.text_literal (negative : Bool) (decimal : Decimal) :
    (decimal.literal negative).text = (Number.finite negative decimal).toString := by
  rw [Number.toString]
  unfold Decimal.literal Decimal.toString
  dsimp only
  split_ifs <;> simp_all [NumericLiteral.text]

/-- Without the sign, the value of the literal is that of the number. -/
theorem Decimal.magnitude_literal (negative : Bool) (decimal : Decimal) :
    (digitsValue ((decimal.literal negative).integer ++
        (decimal.literal negative).fraction.getD []) : ℚ) *
      10 ^ ((decimal.literal negative).exponentValue -
        ((decimal.literal negative).fraction.getD []).length) = decimal.value := by
  obtain ⟨digits, n, hdigits, hne⟩ := decimal
  have hpos : 0 < digits.length := List.length_pos_iff.mpr hne
  unfold Decimal.literal Decimal.value NumericLiteral.exponentValue
  dsimp only
  split_ifs with hwhole hpoint hsmall hone
  · -- zeros after the digits
    have hzeros : ((n - digits.length).toNat : ℤ) = n - digits.length :=
      Int.toNat_of_nonneg (by omega)
    simp only [Option.getD_none, List.append_nil, digitsValue_append_zeros, Option.elim_none,
      List.length_nil, Nat.cast_mul, Nat.cast_pow, Nat.cast_ofNat]
    rw [Nat.cast_zero, sub_zero, zpow_zero, mul_one, ← zpow_natCast, hzeros]
  · -- the point among the digits
    have hlength : ((digits.drop n.toNat).length : ℤ) = digits.length - n := by
      rw [List.length_drop]
      omega
    simp only [Option.getD_some, List.take_append_drop, Option.elim_none]
    rw [hlength]
    congr 2
    omega
  · -- zeros before the digits
    have hlength : (([0] ++ (List.replicate (-n).toNat 0 ++ digits)).length : ℤ) =
        1 - n + digits.length := by
      simp only [List.length_append, List.length_replicate, List.length_singleton]
      omega
    have hvalue : digitsValue ([0] ++ (List.replicate (-n).toNat 0 ++ digits)) =
        digitsValue digits := by
      rw [show [0] = List.replicate 1 0 from rfl, digitsValue_zeros_append,
        digitsValue_zeros_append]
    simp only [Option.getD_some, Option.elim_none]
    rw [hvalue]
    rw [List.length_append] at hlength
    congr 2
    simp only [List.length_singleton] at hlength
    push_cast at hlength ⊢
    omega
  · -- one digit and an exponent
    simp only [Option.getD_none, List.append_nil, Option.elim_some, List.length_nil]
    rw [exponentDigits_spec, hone, Nat.cast_zero, Nat.cast_one, sub_zero]
  · -- several digits and an exponent
    have hlength : ((digits.drop 1).length : ℤ) = digits.length - 1 := by
      rw [List.length_drop]
      omega
    simp only [Option.getD_some, List.take_append_drop, Option.elim_some]
    rw [exponentDigits_spec, hlength]
    congr 2
    omega

theorem Decimal.negative_literal (negative : Bool) (decimal : Decimal) :
    (decimal.literal negative).negative = negative := by
  unfold Decimal.literal
  dsimp only
  split_ifs <;> rfl

theorem Decimal.value_literal (negative : Bool) (decimal : Decimal) :
    (Number.finite negative decimal).value? = some (decimal.literal negative).value := by
  rw [NumericLiteral.value, decimal.magnitude_literal, decimal.negative_literal, Number.value?]
  cases negative with
  | false => rw [if_neg Bool.false_ne_true, if_neg Bool.false_ne_true, one_mul]
  | true => rw [if_pos rfl, if_pos rfl, neg_one_mul]

theorem exponentDigits_wellFormed {exponent : ℤ} (h : exponent ≠ 0) :
    (exponentDigits exponent).2 ≠ [] ∧ ∀ digit ∈ (exponentDigits exponent).2, digit < 10 := by
  constructor
  · simpa [exponentDigits, Nat.digits_ne_nil_iff_ne_zero] using h
  · intro digit hdigit
    rw [exponentDigits, List.mem_reverse] at hdigit
    exact Nat.digits_lt_base (by decide) hdigit

theorem Decimal.wellFormed_literal (negative : Bool) (decimal : Decimal) :
    (decimal.literal negative).WellFormed := by
  obtain ⟨digits, n, hdigits, hne⟩ := decimal
  have hpos : 0 < digits.length := List.length_pos_iff.mpr hne
  have hzeros : ∀ zeros, ∀ digit ∈ List.replicate zeros 0, digit < 10 := by
    intro zeros digit hdigit
    rw [List.eq_of_mem_replicate hdigit]
    decide
  unfold Decimal.literal
  dsimp only
  split_ifs with hwhole hpoint hsmall hone
  · refine ⟨List.forall_mem_append.mpr ⟨hdigits, hzeros _⟩, ?_, nofun, nofun⟩
    exact fun hnil => hne (List.append_eq_nil_iff.mp hnil).1
  · refine ⟨fun digit hdigit => hdigits digit (List.mem_of_mem_take hdigit), ?_, ?_, nofun⟩
    · intro hnil
      rw [List.take_eq_nil_iff] at hnil
      rcases hnil with hzero | hnil
      · omega
      · exact hne hnil
    · rintro _ ⟨⟩ digit hdigit
      exact hdigits digit (List.mem_of_mem_drop hdigit)
  · refine ⟨hzeros 1, List.cons_ne_nil _ _, ?_, nofun⟩
    rintro _ ⟨⟩
    exact List.forall_mem_append.mpr ⟨hzeros _, hdigits⟩
  · refine ⟨hdigits, hne, nofun, ?_⟩
    rintro _ ⟨⟩
    exact exponentDigits_wellFormed (by omega)
  · refine ⟨fun digit hdigit => hdigits digit (List.mem_of_mem_take hdigit), ?_, ?_, ?_⟩
    · intro hnil
      rw [List.take_eq_nil_iff] at hnil
      exact hnil.elim (by decide) hne
    · rintro _ ⟨⟩ digit hdigit
      exact hdigits digit (List.mem_of_mem_drop hdigit)
    · rintro _ ⟨⟩
      exact exponentDigits_wellFormed (by omega)

/-! ## Words -/

theorem isWordChar_digitChar {digit : ℕ} (h : digit < 10) :
    isWordChar (Nat.digitChar digit) = true := by
  interval_cases digit <;> decide

theorem isWordChar_digitsText {digits : List ℕ} (h : ∀ digit ∈ digits, digit < 10) :
    ∀ char ∈ digitsText digits, isWordChar char = true := by
  intro char hchar
  obtain ⟨digit, hdigit, rfl⟩ := List.mem_map.mp hchar
  exact isWordChar_digitChar (h digit hdigit)

/-- A numeric literal is made of the characters of words. -/
theorem NumericLiteral.WellFormed.isWordChar {literal : NumericLiteral} (h : literal.WellFormed) :
    ∀ char ∈ literal.text, isWordChar char = true := by
  obtain ⟨negative, integer, fraction, exponent⟩ := literal
  obtain ⟨hinteger, -, hfraction, hexponent⟩ := h
  unfold NumericLiteral.text
  dsimp only
  refine List.forall_mem_append.mpr ⟨List.forall_mem_append.mpr
    ⟨List.forall_mem_append.mpr ⟨?_, isWordChar_digitsText hinteger⟩, ?_⟩, ?_⟩
  · cases negative with
    | false => exact nofun
    | true =>
        intro char hchar
        rw [List.mem_singleton.mp hchar]
        rfl
  · cases fraction with
    | none => exact nofun
    | some digits =>
        refine List.forall_mem_cons.mpr ⟨by decide, ?_⟩
        exact isWordChar_digitsText (hfraction digits rfl)
  · cases exponent with
    | none => exact nofun
    | some exponent =>
        refine List.forall_mem_cons.mpr ⟨by decide, List.forall_mem_cons.mpr ⟨?_, ?_⟩⟩
        · cases exponent.1 <;> decide
        · exact isWordChar_digitsText (hexponent exponent rfl).2

/-- A keyword begins with a letter. -/
theorem keyword?_of_head {text : List Char} {char : Char} (hhead : text.head? = some char)
    (hchar : char = '-' ∨ ∃ digit < 10, char = Nat.digitChar digit) : keyword? text = none := by
  have hupper : (text.map Char.toUpper).head? = some char.toUpper := by
    rw [List.head?_map, hhead, Option.map_some]
  have hsame : char.toUpper ≠ 'A' ∧ char.toUpper ≠ 'O' ∧ char.toUpper ≠ 'N' ∧
      char.toUpper ≠ 'I' ∧ char.toUpper ≠ 'B' := by
    rcases hchar with rfl | ⟨digit, hdigit, rfl⟩
    · decide
    · interval_cases digit <;> decide
  have hne : ∀ keyword : String, keyword.toList.head? ≠ some char.toUpper →
      String.ofList (text.map Char.toUpper) ≠ keyword := by
    rintro keyword hkeyword heq
    rw [← heq, String.toList_ofList, hupper] at hkeyword
    exact hkeyword rfl
  obtain ⟨hA, hO, hN, hI, hB⟩ := hsame
  unfold keyword?
  split
  · exact absurd ‹_› (hne "AND" fun h => hA (Option.some_inj.mp h).symm)
  · exact absurd ‹_› (hne "OR" fun h => hO (Option.some_inj.mp h).symm)
  · exact absurd ‹_› (hne "NOT" fun h => hN (Option.some_inj.mp h).symm)
  · exact absurd ‹_› (hne "IS" fun h => hI (Option.some_inj.mp h).symm)
  · exact absurd ‹_› (hne "NULL" fun h => hN (Option.some_inj.mp h).symm)
  · exact absurd ‹_› (hne "BETWEEN" fun h => hB (Option.some_inj.mp h).symm)
  · rfl

/-- A numeric literal is one token. -/
theorem NumericLiteral.WellFormed.lexes {literal : NumericLiteral} (h : literal.WellFormed) :
    Lexes literal.text [.word literal.text] := by
  obtain ⟨char, rest, hcons, hchar⟩ : ∃ char rest, literal.text = char :: rest ∧
      (char = '-' ∨ ∃ digit < 10, char = Nat.digitChar digit) := by
    obtain ⟨digit, digits, hdigits⟩ := List.exists_cons_of_ne_nil h.nonempty
    unfold NumericLiteral.text
    rw [hdigits]
    cases literal.negative with
    | true => exact ⟨_, _, rfl, Or.inl rfl⟩
    | false =>
        refine ⟨_, _, rfl, Or.inr ⟨digit, h.integer digit ?_, rfl⟩⟩
        rw [hdigits]
        exact List.mem_cons_self
  refine lexes_word ?_ h.isWordChar (keyword?_of_head ?_ hchar)
  · rw [hcons]
    exact List.cons_ne_nil _ _
  · rw [hcons]
    rfl

/-- The text of a finite number is one literal, which denotes the number. -/
theorem Number.denotes_toString {number : Number} (h : number.value?.isSome = true) :
    Lexes number.toString [.word number.toString] ∧
      (Token.word number.toString).Denotes (.number number) := by
  cases number with
  | nan => exact absurd h Bool.false_ne_true
  | infinity negative => exact absurd h Bool.false_ne_true
  | zero =>
      have hwell : NumericLiteral.WellFormed ⟨false, [0], none, none⟩ :=
        ⟨by decide, List.cons_ne_nil _ _, nofun, nofun⟩
      refine ⟨hwell.lexes, _, hwell, rfl, ?_⟩
      rw [Number.value?, NumericLiteral.value]
      simp [digitsValue]
  | finite negative decimal =>
      have hwell := decimal.wellFormed_literal negative
      rw [← decimal.text_literal negative]
      refine ⟨hwell.lexes, _, hwell, rfl, decimal.value_literal negative⟩

end DatabaseJones.Query
