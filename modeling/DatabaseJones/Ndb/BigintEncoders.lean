import DatabaseJones.Library.Strtol
import DatabaseJones.Library.Utf16
import DatabaseJones.Ndb.IntegerRoundTrip

/-!
# BIGINT columns of the NDB adapter

The readers and writers of `NdbTypeEncoders.cpp` for BIGINT and BIGINT UNSIGNED.  A value that
V8 does not hold as a 32-bit integer is converted to a string, of which a buffer gets 32 bytes,
and the string to a number.  The conversion takes more than decimal literals
(`storesLiterals_iff`): it skips blanks, stops at a blank or a zero byte, sees only the last
byte of a character, and negates unsigned numbers.
-/

namespace DatabaseJones.Ndb

open DatabaseJones.Library

/-! ## Readers and writers -/

inductive BigintType
  | bigint
  | bigintUnsigned
deriving DecidableEq, Repr

/-- What V8 makes of a value: the 32-bit integers that it holds it as, and the string. -/
structure BigintValue where
  int32 : Option ℤ := none
  uint32 : Option ℤ := none
  string : CodeUnits
deriving DecidableEq, Repr

/-- `writeBigint`, the fast track. -/
def writeBigint (type : BigintType) (value : BigintValue) : Option ℤ :=
  match type with
  | .bigint => value.int32
  | .bigintUnsigned => value.uint32

/-- The last byte of a code unit. -/
def lowByte (unit : UInt16) : UInt8 := UInt8.ofNat unit.toNat

/-- `WriteOneByte(strbuf, 0, 32)`: a string that fits is terminated.  What follows in memory is
`stack`. -/
def strbuf (string : CodeUnits) (stack : List UInt8) : List UInt8 :=
  (string.take 32).map lowByte ++ (if string.length < 32 then [0] else []) ++ stack

/-- `stringToBigint<int64_t>` and `stringToBigint<uint64_t>`. -/
def stringToBigint (type : BigintType) (str : List UInt8) : Option ℤ :=
  match type with
  | .bigint =>
      let ll := strtoll str
      if ll.erange = false ∧
          (isspace (deref ll.endptr) = true ∨ deref ll.endptr = 0 ∧ ll.moved = true) then
        some ll.value
      else none
  | .bigintUnsigned =>
      let ull := strtoull str
      if ull.erange = true then none
      else if 2 ^ 63 ≤ ull.value ∧ strchr str 0x2D = true then none
      else if isspace (deref ull.endptr) = true ∨ deref ull.endptr = 0 ∧ ull.moved = true then
        some ull.value
      else none

/-- `bigintWriter`: the bytes that it stores, or `none` for the error `22003`. -/
def bigintWriter (type : BigintType) (value : BigintValue) (stack : List UInt8) :
    Option (List UInt8) :=
  match writeBigint type value with
  | some bigint => some (storeInt 8 bigint)
  | none => (stringToBigint type (strbuf value.string stack)).map (storeInt 8)

/-- `bigintToString`. -/
def bigintToString (bigint : ℤ) : CodeUnits :=
  (toString bigint).toList.map fun char => UInt16.ofNat char.toNat

/-- `bigintReader`. -/
def bigintReader (type : BigintType) (buffer : List UInt8) : CodeUnits :=
  match type with
  | .bigint => bigintToString (loadSigned buffer)
  | .bigintUnsigned => bigintToString (loadUnsigned buffer)

/-! ## Literals -/

/-- The digits of a string that has nothing else. -/
def digits? (string : CodeUnits) : Option (List UInt8) :=
  if string ≠ [] ∧ ∀ unit ∈ string, 0x30 ≤ unit ∧ unit ≤ 0x39 then some (string.map lowByte)
  else none

/-- The sign and digits of a decimal literal. -/
def literal? (string : CodeUnits) : Option (Bool × List UInt8) :=
  if string.head? = some 0x2D then (digits? string.tail).map fun digits => (true, digits)
  else if string.head? = some 0x2B then (digits? string.tail).map fun digits => (false, digits)
  else (digits? string).map fun digits => (false, digits)

/-- The values of a column. -/
def BigintType.InRange (type : BigintType) (value : ℤ) : Prop :=
  match type with
  | .bigint => -2 ^ 63 ≤ value ∧ value < 2 ^ 63
  | .bigintUnsigned => 0 ≤ value ∧ value < 2 ^ 64

/-- A decimal literal within the buffer, for a value of the column. -/
def Denotes (type : BigintType) (string : CodeUnits) (value : ℤ) : Prop :=
  string.length < 32 ∧ type.InRange value ∧
    ∃ negative digits, literal? string = some (negative, digits) ∧
      value = signedDecimal negative digits

/-- Exactly the literals are stored, and the reader gives back the decimal text of the same
integer. -/
def StoresLiterals (type : BigintType) (string : CodeUnits) (stack : List UInt8) : Prop :=
  ((∃ bytes, bigintWriter type { string } stack = some bytes) ↔ ∃ value, Denotes type string value) ∧
    ∀ bytes, bigintWriter type { string } stack = some bytes →
      ∃ value, Denotes type string value ∧ bigintReader type bytes = bigintToString value

/-! ## What the conversion takes -/

/-- The conversion finds a number that it takes, and behind it a blank or the terminator.  An
unsigned number with a sign is taken if its negative is below `2 ^ 63` modulo `2 ^ 64`. -/
def TakesNumber (type : BigintType) (str : List UInt8) : Prop :=
  ∃ negative digits rest, number? str = some (negative, digits, rest) ∧
    (isspace (deref rest) = true ∨ deref rest = 0) ∧
    match type with
    | .bigint => BigintType.bigint.InRange (signedDecimal negative digits)
    | .bigintUnsigned =>
        decimal digits < 2 ^ 64 ∧
          if negative then decimal digits = 0 ∨ 2 ^ 63 < decimal digits
          else decimal digits < 2 ^ 63 ∨ strchr str 0x2D = false

/-- The strings that are taken for another number than they denote, or though they denote
none: a blank and no number behind it; a number that is not the whole string, or not within
the buffer; and the negative literals that wrap to a number below `2 ^ 63`. -/
def Misleads (type : BigintType) (string : CodeUnits) (stack : List UInt8) : Prop :=
  let str := strbuf string stack
  isspace (deref str) = true ∧ number? str = none ∨
    TakesNumber type str ∧ (literal? string = none ∨ 32 ≤ string.length) ∨
    type = .bigintUnsigned ∧ string.length < 32 ∧ ∃ digits, literal? string = some (true, digits) ∧
      2 ^ 63 < decimal digits ∧ decimal digits < 2 ^ 64

/-- A number with a minus sign has it in front of the terminator. -/
theorem strchr_of_negative {str digits rest : List UInt8}
    (h : number? str = some (true, digits, rest)) : strchr str 0x2D = true := by
  have hsign : (str.dropWhile isspace).head? = some 0x2D := by
    by_contra hne
    simp only [number?, takeSign, if_neg hne] at h
    split_ifs at h <;> simp at h
  obtain ⟨others, hothers⟩ : ∃ others, str.dropWhile isspace = 0x2D :: others := by
    cases hstr : str.dropWhile isspace with
    | nil =>
        rw [hstr] at hsign
        cases hsign
    | cons byte others =>
        rw [hstr] at hsign
        exact ⟨others, by rw [Option.some.inj hsign]⟩
  have hnonzero : ∀ byte ∈ str.takeWhile isspace, (byte != 0) = true := by
    intro byte hbyte
    have hspace := List.all_eq_true.mp List.all_takeWhile byte hbyte
    by_contra hzero
    rw [show byte = 0 by simpa using hzero] at hspace
    exact absurd hspace (by decide)
  rw [strchr, ← List.takeWhile_append_dropWhile (p := isspace) (l := str), hothers,
    List.takeWhile_append_of_pos hnonzero]
  simp

section
variable {str digits rest : List UInt8} {negative : Bool}

/-- A number is converted to itself, if it is in range. -/
theorem stringToBigint_bigint_iff (h : number? str = some (negative, digits, rest)) (value : ℤ) :
    stringToBigint .bigint str = some value ↔
      (isspace (deref rest) = true ∨ deref rest = 0) ∧
        BigintType.bigint.InRange (signedDecimal negative digits) ∧
        signedDecimal negative digits = value := by
  simp only [stringToBigint, strtoll, h, BigintType.InRange]
  by_cases hlow : signedDecimal negative digits < -2 ^ 63
  · rw [if_pos hlow]
    exact iff_of_false (by simp) (by omega)
  · rw [if_neg hlow]
    by_cases hhigh : 2 ^ 63 ≤ signedDecimal negative digits
    · rw [if_pos hhigh]
      exact iff_of_false (by simp) (by omega)
    · rw [if_neg hhigh]
      have hrange : -2 ^ 63 ≤ signedDecimal negative digits ∧
          signedDecimal negative digits < 2 ^ 63 := by omega
      simp only [true_and, and_true, Option.ite_none_right_eq_some, Option.some.injEq, hrange.1,
        hrange.2, and_self]

/-- An unsigned number is converted to itself, or to its negative modulo `2 ^ 64`. -/
theorem stringToBigint_unsigned_iff (h : number? str = some (negative, digits, rest)) (value : ℤ) :
    stringToBigint .bigintUnsigned str = some value ↔
      (isspace (deref rest) = true ∨ deref rest = 0) ∧ decimal digits < 2 ^ 64 ∧
        (if negative then decimal digits = 0 ∨ 2 ^ 63 < decimal digits
          else decimal digits < 2 ^ 63 ∨ strchr str 0x2D = false) ∧
        ((if negative then (2 ^ 64 - decimal digits) % 2 ^ 64 else decimal digits : ℕ) : ℤ) =
          value := by
  simp only [stringToBigint, strtoull, h]
  by_cases hhigh : 2 ^ 64 ≤ decimal digits
  · rw [if_pos hhigh]
    exact iff_of_false (by simp) (by omega)
  · rw [if_neg hhigh]
    have hlt : decimal digits < 2 ^ 64 := by omega
    -- With a minus sign in front of the number, a result from `2 ^ 63` on is refused.
    have hsign : ¬(2 ^ 63 ≤ (if negative then (2 ^ 64 - decimal digits) % 2 ^ 64
        else decimal digits) ∧ strchr str 0x2D = true) ↔
          if negative then decimal digits = 0 ∨ 2 ^ 63 < decimal digits
          else decimal digits < 2 ^ 63 ∨ strchr str 0x2D = false := by
      cases negative with
      | true =>
          rw [strchr_of_negative h]
          simp only [if_true, and_true]
          omega
      | false =>
          simp only [Bool.false_eq_true, if_false]
          cases strchr str 0x2D <;> simp
    rw [← hsign]
    simp only [Bool.false_eq_true, if_false]
    split_ifs with hrefused hends hends <;> simp_all

end

/-- The strings that are converted. -/
theorem exists_stringToBigint_iff (type : BigintType) (str : List UInt8) :
    (∃ value, stringToBigint type str = some value) ↔
      isspace (deref str) = true ∧ number? str = none ∨ TakesNumber type str := by
  cases hnumber : number? str with
  | none =>
      have hnot : ¬ TakesNumber type str := by
        rintro ⟨negative, digits, rest, hsome, -⟩
        exact nomatch hnumber.symm.trans hsome
      cases type <;> simp [stringToBigint, strtoll, strtoull, hnumber, hnot]
  | some number =>
      obtain ⟨negative, digits, rest⟩ := number
      cases type with
      | bigint => simp [stringToBigint_bigint_iff hnumber, TakesNumber, hnumber]
      | bigintUnsigned => simp [stringToBigint_unsigned_iff hnumber, TakesNumber, hnumber]

/-! ## Literals in the buffer -/

theorem isdigit_lowByte {unit : UInt16} (h : 0x30 ≤ unit ∧ unit ≤ 0x39) :
    isdigit (lowByte unit) = true := by
  simp only [UInt16.le_iff_toNat_le, UInt16.toNat_ofNat] at h
  have hbyte : (lowByte unit).toNat = unit.toNat := by
    rw [lowByte, UInt8.toNat_ofNat']
    omega
  simp only [isdigit, Bool.and_eq_true, decide_eq_true_eq, UInt8.le_iff_toNat_le, hbyte,
    UInt8.toNat_ofNat]
  omega

theorem digits?_eq_some_iff {string : CodeUnits} {digits : List UInt8} :
    digits? string = some digits ↔
      string ≠ [] ∧ (∀ unit ∈ string, 0x30 ≤ unit ∧ unit ≤ 0x39) ∧ digits = string.map lowByte := by
  rw [digits?]
  split_ifs with h
  · rw [Option.some.injEq, eq_comm]
    exact ⟨fun heq => ⟨h.1, h.2, heq⟩, fun h => h.2.2⟩
  · exact iff_of_false (by simp) fun hand => h ⟨hand.1, hand.2.1⟩

/-- The bytes of a literal. -/
theorem lowBytes_of_literal {string : CodeUnits} {negative : Bool} {digits : List UInt8}
    (h : literal? string = some (negative, digits)) :
    digits ≠ [] ∧ (∀ digit ∈ digits, isdigit digit = true) ∧
      (string.map lowByte = 0x2D :: digits ∧ negative = true ∨
        string.map lowByte = 0x2B :: digits ∧ negative = false ∨
        string.map lowByte = digits ∧ negative = false) := by
  have hdigits : ∀ {string : CodeUnits} {digits : List UInt8}, digits? string = some digits →
      digits = string.map lowByte ∧ digits ≠ [] ∧ ∀ digit ∈ digits, isdigit digit = true := by
    intro string digits hdigits
    obtain ⟨hne, hall, rfl⟩ := digits?_eq_some_iff.mp hdigits
    refine ⟨rfl, by simpa using hne, fun digit hdigit => ?_⟩
    obtain ⟨unit, hunit, rfl⟩ := List.mem_map.mp hdigit
    exact isdigit_lowByte (hall unit hunit)
  have hsigned : ∀ {sign : UInt16} (_ : string.head? = some sign),
      string.map lowByte = lowByte sign :: string.tail.map lowByte := by
    intro sign hsign
    cases string with
    | nil => exact nomatch hsign
    | cons unit units => rw [List.map_cons, List.tail_cons, Option.some.inj hsign]
  rw [literal?] at h
  split_ifs at h with hminus hplus <;>
    obtain ⟨digits', hdigits', heq⟩ := Option.map_eq_some_iff.mp h <;>
    obtain ⟨rfl, rfl⟩ := Prod.mk.inj heq <;>
    obtain ⟨hmap, hne, hall⟩ := hdigits hdigits' <;>
    refine ⟨hne, hall, ?_⟩
  · exact .inl ⟨by rw [hsigned hminus, hmap]; rfl, rfl⟩
  · exact .inr (.inl ⟨by rw [hsigned hplus, hmap]; rfl, rfl⟩)
  · exact .inr (.inr ⟨hmap.symm, rfl⟩)

theorem strbuf_of_fits {string : CodeUnits} (hfits : string.length < 32) (stack : List UInt8) :
    strbuf string stack = string.map lowByte ++ 0 :: stack := by
  rw [strbuf, List.take_of_length_le (by omega), if_pos hfits, List.append_assoc]
  rfl

/-- The conversion finds a literal in the buffer, and the terminator behind it. -/
theorem number?_strbuf {string : CodeUnits} {negative : Bool} {digits : List UInt8}
    (hfits : string.length < 32) (h : literal? string = some (negative, digits)) (stack : List UInt8) :
    number? (strbuf string stack) = some (negative, digits, 0 :: stack) := by
  have hrest : isdigit (deref (0 :: stack)) = false := rfl
  rw [strbuf_of_fits hfits]
  obtain ⟨hne, hall, ⟨hbytes, rfl⟩ | ⟨hbytes, rfl⟩ | ⟨hbytes, rfl⟩⟩ := lowBytes_of_literal h
  · rw [hbytes, List.cons_append]
    exact number?_sign_digits (.inl rfl) hne hall hrest
  · rw [hbytes, List.cons_append]
    exact number?_sign_digits (.inr rfl) hne hall hrest
  · rw [hbytes]
    exact number?_digits hne hall hrest

/-- A literal without a minus sign in front has none anywhere. -/
theorem strchr_strbuf {string : CodeUnits} {digits : List UInt8} (hfits : string.length < 32)
    (h : literal? string = some (false, digits)) (stack : List UInt8) :
    strchr (strbuf string stack) 0x2D = false := by
  obtain ⟨-, hall, hbytes⟩ := lowBytes_of_literal h
  have hbyte : ∀ byte ∈ string.map lowByte, byte = 0x2B ∨ isdigit byte = true := by
    intro byte hmem
    rcases hbytes with ⟨-, hfalse⟩ | ⟨hbytes, -⟩ | ⟨hbytes, -⟩
    · exact nomatch hfalse
    · rw [hbytes] at hmem
      exact (List.mem_cons.mp hmem).imp id (hall byte)
    · rw [hbytes] at hmem
      exact .inr (hall byte hmem)
  have hnonzero : ∀ byte ∈ string.map lowByte, (byte != 0) = true := by
    intro byte hmem
    rcases hbyte byte hmem with rfl | hdigit
    · rfl
    · by_contra hzero
      rw [show byte = 0 by simpa using hzero] at hdigit
      exact absurd hdigit (by decide)
  have hminus : (0x2D : UInt8) ∉ string.map lowByte := fun hmem => by
    rcases hbyte _ hmem with h | h <;> exact absurd h (by decide)
  rw [strchr, strbuf_of_fits hfits, List.takeWhile_append_of_pos hnonzero]
  simpa using hminus

/-! ## Which strings are stored as they should -/

theorem bigintReader_storeInt {type : BigintType} {value : ℤ} (h : type.InRange value) :
    bigintReader type (storeInt 8 value) = bigintToString value := by
  cases type with
  | bigint => rw [bigintReader, loadSigned_storeInt 8 value (by have := h.1; omega) (by have := h.2; omega)]
  | bigintUnsigned =>
      rw [bigintReader, loadUnsigned_storeInt 8 value h.1 (by have := h.2; omega)]

/-- A literal is taken if its value is in range, or if it is a negative number that wraps. -/
theorem takesNumber_strbuf_iff {type : BigintType} {string : CodeUnits} {negative : Bool}
    {digits : List UInt8} (hfits : string.length < 32)
    (h : literal? string = some (negative, digits)) (stack : List UInt8) :
    TakesNumber type (strbuf string stack) ↔ type.InRange (signedDecimal negative digits) ∨
      type = .bigintUnsigned ∧ negative = true ∧ 2 ^ 63 < decimal digits ∧ decimal digits < 2 ^ 64 := by
  have hnumber := number?_strbuf hfits h stack
  have hends : isspace (deref (0 :: stack)) = true ∨ deref (0 :: stack) = 0 := .inr rfl
  cases type with
  | bigint => simp [TakesNumber, hnumber, hends]
  | bigintUnsigned =>
      have htakes : TakesNumber .bigintUnsigned (strbuf string stack) ↔ decimal digits < 2 ^ 64 ∧
          if negative then decimal digits = 0 ∨ 2 ^ 63 < decimal digits
          else decimal digits < 2 ^ 63 ∨ strchr (strbuf string stack) 0x2D = false := by
        simp [TakesNumber, hnumber, hends]
      rw [htakes, BigintType.InRange]
      cases negative with
      | true =>
          simp only [signedDecimal, if_true, true_and]
          omega
      | false =>
          rw [strchr_strbuf hfits h]
          simp only [signedDecimal, Bool.false_eq_true, if_false, or_true, and_true, false_and,
            and_false, or_false]
          omega

/-- Exactly the literals of the column are stored, with their values, unless the string is one
that misleads the conversion. -/
theorem storesLiterals_iff (type : BigintType) (string : CodeUnits) (stack : List UInt8) :
    StoresLiterals type string stack ↔ ¬ Misleads type string stack := by
  have hwriter : ∀ bytes, bigintWriter type { string } stack = some bytes ↔
      ∃ value, stringToBigint type (strbuf string stack) = some value ∧ storeInt 8 value = bytes := by
    intro bytes
    rw [← Option.map_eq_some_iff]
    cases type <;> rfl
  have hwrites : (∃ bytes, bigintWriter type { string } stack = some bytes) ↔
      isspace (deref (strbuf string stack)) = true ∧ number? (strbuf string stack) = none ∨
        TakesNumber type (strbuf string stack) := by
    rw [← exists_stringToBigint_iff]
    simp only [hwriter]
    constructor
    · rintro ⟨bytes, value, hvalue, -⟩
      exact ⟨value, hvalue⟩
    · rintro ⟨value, hvalue⟩
      exact ⟨_, value, hvalue, rfl⟩
  constructor
  · rintro ⟨hiff, -⟩ hmisleads
    rcases hmisleads with hblank | ⟨htakes, hnot⟩ | ⟨rfl, hfits, digits, hliteral, hbig, hlt⟩
    · obtain ⟨value, hfits, -, negative, digits, hliteral, -⟩ := hiff.mp (hwrites.mpr (.inl hblank))
      exact nomatch hblank.2.symm.trans (number?_strbuf hfits hliteral stack)
    · obtain ⟨value, hfits, -, negative, digits, hliteral, -⟩ := hiff.mp (hwrites.mpr (.inr htakes))
      rcases hnot with hnone | hlong
      · exact nomatch hnone.symm.trans hliteral
      · exact absurd hfits (Nat.not_lt_of_le hlong)
    · have htakes := (takesNumber_strbuf_iff hfits hliteral stack).mpr (.inr ⟨rfl, rfl, hbig, hlt⟩)
      obtain ⟨value, -, hrange, negative, digits', hliteral', rfl⟩ :=
        hiff.mp (hwrites.mpr (.inr htakes))
      obtain ⟨rfl, rfl⟩ := Prod.mk.inj (Option.some.inj (hliteral.symm.trans hliteral'))
      have hnonneg : 0 ≤ -(decimal digits : ℤ) := hrange.1
      omega
  · intro hmisleads
    -- What is taken is a literal for the number that is stored.
    have hdenotes : ∀ value, stringToBigint type (strbuf string stack) = some value →
        Denotes type string value := by
      intro value hvalue
      rcases (exists_stringToBigint_iff type _).mp ⟨value, hvalue⟩ with hblank | htakes
      · exact absurd (.inl hblank) hmisleads
      · have hliteral : ¬ (literal? string = none ∨ 32 ≤ string.length) :=
          fun h => hmisleads (.inr (.inl ⟨htakes, h⟩))
        rw [not_or, Nat.not_le] at hliteral
        obtain ⟨⟨negative, digits⟩, hsome⟩ := Option.ne_none_iff_exists'.mp hliteral.1
        have hfits := hliteral.2
        have hrange : type.InRange (signedDecimal negative digits) := by
          rcases (takesNumber_strbuf_iff hfits hsome stack).mp htakes with h | ⟨rfl, rfl, hbig, hlt⟩
          · exact h
          · exact absurd (.inr (.inr ⟨rfl, hfits, digits, hsome, hbig, hlt⟩)) hmisleads
        suffices heq : value = signedDecimal negative digits from
          ⟨hfits, heq ▸ hrange, negative, digits, hsome, heq⟩
        have hnumber := number?_strbuf hfits hsome stack
        cases type with
        | bigint => exact ((stringToBigint_bigint_iff hnumber value).mp hvalue).2.2.symm
        | bigintUnsigned =>
            obtain ⟨-, -, -, heq⟩ := (stringToBigint_unsigned_iff hnumber value).mp hvalue
            rw [← heq]
            have hnonneg := hrange.1
            cases negative with
            | true =>
                simp only [signedDecimal, if_true] at hnonneg ⊢
                omega
            | false => rfl
    refine ⟨?_, ?_⟩
    · rw [hwrites]
      constructor
      · intro htaken
        obtain ⟨value, hvalue⟩ := (exists_stringToBigint_iff type _).mpr htaken
        exact ⟨value, hdenotes value hvalue⟩
      · rintro ⟨value, hfits, hrange, negative, digits, hliteral, rfl⟩
        exact .inr ((takesNumber_strbuf_iff hfits hliteral stack).mpr (.inl hrange))
    · intro bytes hbytes
      obtain ⟨value, hvalue, rfl⟩ := (hwriter bytes).mp hbytes
      have hvalue := hdenotes value hvalue
      exact ⟨value, hvalue, bigintReader_storeInt hvalue.2.1⟩

/-- Twelve with a word behind it is stored as twelve. -/
theorem not_storesLiterals_words :
    ¬ ∀ (type : BigintType) (string : CodeUnits) (stack : List UInt8),
      StoresLiterals type string stack := by
  intro hclaim
  have hnot := (hclaim .bigint [0x31, 0x32, 0x20, 0x61] []).1.mp ⟨_, rfl⟩
  obtain ⟨value, -, -, negative, digits, hliteral, -⟩ := hnot
  have hnone : literal? [0x31, 0x32, 0x20, 0x61] = none := by rfl
  rw [hnone] at hliteral
  cases hliteral

end DatabaseJones.Ndb
