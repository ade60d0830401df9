import DatabaseJones.Ndb.IntegerEncoders

/-!
# Which integers the NDB adapter stores

The ranges of the integer types against the checks of their writers.  The checks of
INT, MEDIUMINT and MEDIUMINT UNSIGNED have wrong constants, and those of TINYINT and
SMALLINT look at a double after its conversion.
-/

namespace DatabaseJones.Ndb

open DatabaseJones.Library

/-! ## What the types promise -/

/-- The range of a column type. -/
def IntegerType.InRange (value : ℤ) : IntegerType → Prop
  | .small .int8 => -128 ≤ value ∧ value ≤ 127
  | .small .uint8 => 0 ≤ value ∧ value ≤ 255
  | .small .int16 => -32768 ≤ value ∧ value ≤ 32767
  | .small .uint16 => 0 ≤ value ∧ value ≤ 65535
  | .medium => -8388608 ≤ value ∧ value ≤ 8388607
  | .mediumUnsigned => 0 ≤ value ∧ value ≤ 16777215
  | .int => -2147483648 ≤ value ∧ value ≤ 2147483647
  | .unsignedInt => 0 ≤ value ∧ value ≤ 4294967295

/-- The writer accepts exactly the integers in the range of the column, and the reader
gives those back. -/
def StoresExactly (undefinedInt : Option ℤ → ℤ) (type : IntegerType) (value : Supplied) : Prop :=
  ((type.write undefinedInt value).1 = .writerOK ↔ type.InRange value.integer) ∧
    (type.InRange value.integer → type.read (type.write undefinedInt value).2 = value.integer)

/-- Whether the conversion of a double that does not fit an `int` gives an integer in
a range that a check accepts. -/
def AcceptsUndefined (undefinedInt : Option ℤ → ℤ) (value : Supplied) (low high : ℤ) : Prop :=
  ∃ d, value.toNumber = some d ∧ (d < -2147483648 ∨ 2147483648 ≤ d) ∧
    low ≤ (undefinedInt (some d)).bmod (2 ^ 32) ∧ (undefinedInt (some d)).bmod (2 ^ 32) < high

/-- The integers that the writer of a type treats as the range of the type says. -/
def Conforms (undefinedInt : Option ℤ → ℤ) (type : IntegerType) (value : Supplied) : Prop :=
  match type with
  | .small _ => value.isInt32 = true ∨ type.InRange value.integer ∨ value.toNumber = none
  | .medium => (-8338608 ≤ value.integer ∨ value.integer < -8388608) ∧
      (value.integer < 8338608 ∨ 8388608 ≤ value.integer) ∧
      ¬ AcceptsUndefined undefinedInt value (-8338608) 8338608
  | .mediumUnsigned => (value.integer < 16277216 ∨ 16777216 ≤ value.integer) ∧
      ¬ AcceptsUndefined undefinedInt value 0 16277216
  | .int => value.integer ≠ 2147483648
  | .unsignedInt => True

/-! ## Numbers -/

theorem lt_doubleLimit {value : ℕ} (h : value < 2 ^ 53) : value < doubleLimit := by
  unfold doubleLimit
  exact h.trans_le (Nat.le_mul_of_pos_right _ (by positivity))

theorem roundToDouble_of_lt {value : ℕ} (h : value < 2 ^ 53) : roundToDouble value = some value := by
  have hlog : Nat.log2 value - 52 = 0 := by
    rcases Nat.eq_zero_or_pos value with rfl | hpos
    · rfl
    · have hlt := (Nat.log2_lt (by omega)).mpr h
      omega
  simp [roundToDouble, significand, hlog, lt_doubleLimit h, Nat.mod_one]

theorem div_le_significand (value shift : ℕ) : value / 2 ^ shift ≤ significand value shift := by
  rw [significand]
  split_ifs
  · exact Nat.le_succ _
  · exact le_refl _

theorem le_of_roundToDouble {value rounded : ℕ} (h : 2 ^ 53 ≤ value)
    (hrounded : roundToDouble value = some rounded) : 2 ^ 53 ≤ rounded := by
  have hne : value ≠ 0 := by omega
  have hlog : 53 ≤ Nat.log2 value := (Nat.le_log2 hne).mpr h
  obtain ⟨-, hvalue⟩ := Option.ite_none_right_eq_some.mp hrounded
  obtain rfl := Option.some.inj hvalue
  set shift := Nat.log2 value - 52 with hshift
  have hquotient : 2 ^ 52 ≤ value / 2 ^ shift := by
    rw [Nat.le_div_iff_mul_le (Nat.two_pow_pos _), ← Nat.pow_add]
    calc 2 ^ (52 + shift) = 2 ^ Nat.log2 value := by congr 1; omega
      _ ≤ value := Nat.log2_self_le hne
  have hpow : 2 ^ 1 ≤ 2 ^ shift := Nat.pow_le_pow_right two_pos (by omega)
  calc 2 ^ 53 = 2 ^ 52 * 2 ^ 1 := by norm_num
    _ ≤ significand value shift * 2 ^ shift :=
        Nat.mul_le_mul (hquotient.trans (div_le_significand _ _)) hpow

/-- A number is the integer supplied, or both are far out of every range. -/
theorem toNumber_cases (value : Supplied) :
    value.toNumber = some value.integer ∨ 2 ^ 53 ≤ value.integer.natAbs ∧
      (value.toNumber = none ∨ ∃ d, value.toNumber = some d ∧ 2 ^ 53 ≤ d.natAbs) := by
  cases value with
  | number value => exact .inl rfl
  | negativeZero => exact .inl rfl
  | string value =>
      simp only [Supplied.toNumber, Supplied.integer]
      rcases Nat.lt_or_ge value.natAbs (2 ^ 53) with hlt | hge
      · left
        rw [roundToDouble_of_lt hlt, Option.map_some, Int.sign_mul_natAbs]
      · refine .inr ⟨hge, ?_⟩
        cases hrounded : roundToDouble value.natAbs with
        | none => exact .inl rfl
        | some rounded =>
            have hle := le_of_roundToDouble hge hrounded
            refine .inr ⟨_, rfl, ?_⟩
            rw [Int.natAbs_mul, Int.natAbs_sign_of_ne_zero (by omega), Nat.one_mul,
              Int.natAbs_natCast]
            exact hle

/-! ## Bytes -/

theorem loadUnsigned_storeInt (length : ℕ) (value : ℤ) (hlow : 0 ≤ value)
    (hhigh : value < 256 ^ length) : loadUnsigned (storeInt length value) = value := by
  rw [loadUnsigned, storeInt, fromLittleEndian_littleEndian, Int.emod_eq_of_lt hlow hhigh]
  have hlt : value.toNat < 256 ^ length := by
    zify
    rwa [Int.toNat_of_nonneg hlow]
  rw [Nat.mod_eq_of_lt hlt, Int.toNat_of_nonneg hlow]

theorem loadSigned_storeInt (length : ℕ) (value : ℤ) (hlow : -256 ^ length ≤ value * 2)
    (hhigh : value * 2 < 256 ^ length) : loadSigned (storeInt length value) = value := by
  have hpos : (0 : ℤ) < 256 ^ length := by positivity
  rw [loadSigned, storeInt, length_littleEndian, fromLittleEndian_littleEndian]
  have hlt : (value % 256 ^ length).toNat < 256 ^ length := by
    zify
    rw [Int.toNat_of_nonneg (Int.emod_nonneg _ hpos.ne')]
    exact Int.emod_lt_of_pos _ hpos
  rw [Nat.mod_eq_of_lt hlt, Int.toNat_of_nonneg (Int.emod_nonneg _ hpos.ne')]
  rw [show (256 : ℤ) ^ length = ((256 ^ length : ℕ) : ℤ) by push_cast; rfl, Int.emod_bmod]
  exact Int.bmod_eq_of_le_mul_two (by push_cast; exact hlow) (by push_cast; exact hhigh)

theorem toNat_toByte (value : ℤ) : (toByte value).toNat = (value % 256).toNat := by
  have hlt : (value % 256).toNat < 256 := by omega
  simp [toByte, Nat.mod_eq_of_lt hlt]

theorem uint3korr_writeUnsignedMedium (value : ℤ) (hlow : 0 ≤ value) (hhigh : value < 2 ^ 24) :
    uint3korr (writeUnsignedMedium value) = value := by
  have hmod : value % 2 ^ 32 = value := Int.emod_eq_of_lt hlow (by omega)
  simp only [uint3korr, writeUnsignedMedium, hmod, List.getD_cons_zero, List.getD_cons_succ,
    toNat_toByte, Nat.shiftLeft_eq, Int.shiftRight_eq_div_pow]
  omega

/-- The sign bit of the third byte. -/
theorem and_signBit {byte : ℕ} (hbyte : byte < 256) : byte &&& 128 ≠ 0 ↔ 128 ≤ byte := by
  have hall : ∀ byte : Fin 256, byte.val &&& 128 ≠ 0 ↔ 128 ≤ byte.val := by decide +kernel
  exact hall ⟨byte, hbyte⟩

theorem sint3korr_writeSignedMedium {value : ℤ} (hlow : -2 ^ 23 ≤ value) (hhigh : value < 2 ^ 23) :
    sint3korr (writeSignedMedium value) = value := by
  simp only [sint3korr, writeSignedMedium, List.getD_cons_zero, List.getD_cons_succ, toNat_toByte]
  set byte0 := (value % 256).toNat with hbyte0
  set byte1 := ((value >>> (8 : ℕ)) % 256).toNat with hbyte1
  set byte2 := ((value >>> (16 : ℕ)) % 256).toNat with hbyte2
  rw [Int.shiftRight_eq_div_pow] at hbyte1 hbyte2
  have hlt0 : byte0 < 2 ^ 8 := by omega
  have hlt1 : byte1 < 2 ^ 8 := by omega
  have hlt2 : byte2 < 2 ^ 8 := by omega
  have hlow16 : byte1 <<< 8 ||| byte0 = byte1 * 2 ^ 8 + byte0 := shiftLeft_or_field _ hlt0 _
  have hvalue : byte2 <<< 16 ||| byte1 <<< 8 ||| byte0 =
      byte2 * 2 ^ 16 + (byte1 * 2 ^ 8 + byte0) := by
    rw [Nat.or_assoc, hlow16, shiftLeft_or_field _ (by omega)]
  rw [hvalue]
  have hbits : ((byte2 * 2 ^ 16 + (byte1 * 2 ^ 8 + byte0) : ℕ) : ℤ) = value % 2 ^ 24 := by
    push_cast
    omega
  have hsignBit : 128 ≤ byte2 ↔ 8388608 ≤ byte2 * 2 ^ 16 + (byte1 * 2 ^ 8 + byte0) := by omega
  clear_value byte0 byte1 byte2
  generalize byte2 * 2 ^ 16 + (byte1 * 2 ^ 8 + byte0) = bits at hbits hsignBit ⊢
  split_ifs with hsign
  · rw [and_signBit hlt2, hsignBit] at hsign
    have hlt : bits < 2 ^ 24 := by omega
    have hnegative : (bits : ℤ) = value + 2 ^ 24 := by omega
    rw [shiftLeft_or_field 24 hlt, Nat.cast_add, hnegative, Int.bmod_def]
    norm_num
    omega
  · rw [and_signBit hlt2, hsignBit] at hsign
    omega

/-! ## The column types -/

/-- How a type stores an integer. -/
def IntegerType.encode (value : ℤ) : IntegerType → List UInt8
  | .small type => storeInt type.size value
  | .medium => writeSignedMedium value
  | .mediumUnsigned => writeUnsignedMedium value
  | .int => storeInt 4 value
  | .unsignedInt => storeInt 4 value

theorem read_encode {type : IntegerType} {value : ℤ} (h : type.InRange value) :
    type.read (type.encode value) = value := by
  cases type with
  | small type =>
      cases type with
      | int8 =>
          simp only [IntegerType.InRange] at h
          have hread := loadSigned_storeInt 1 value (by norm_num; omega) (by norm_num; omega)
          simpa [IntegerType.read, IntegerType.encode, SmallType.isSigned, SmallType.size] using hread
      | uint8 =>
          simp only [IntegerType.InRange] at h
          have hread := loadUnsigned_storeInt 1 value (by omega) (by norm_num; omega)
          simpa [IntegerType.read, IntegerType.encode, SmallType.isSigned, SmallType.size] using hread
      | int16 =>
          simp only [IntegerType.InRange] at h
          have hread := loadSigned_storeInt 2 value (by norm_num; omega) (by norm_num; omega)
          simpa [IntegerType.read, IntegerType.encode, SmallType.isSigned, SmallType.size] using hread
      | uint16 =>
          simp only [IntegerType.InRange] at h
          have hread := loadUnsigned_storeInt 2 value (by omega) (by norm_num; omega)
          simpa [IntegerType.read, IntegerType.encode, SmallType.isSigned, SmallType.size] using hread
  | medium =>
      simp only [IntegerType.InRange] at h
      simp only [IntegerType.read, IntegerType.encode]
      exact sint3korr_writeSignedMedium (by norm_num; omega) (by norm_num; omega)
  | mediumUnsigned =>
      simp only [IntegerType.InRange] at h
      simp only [IntegerType.read, IntegerType.encode]
      exact uint3korr_writeUnsignedMedium _ (by omega) (by norm_num; omega)
  | int =>
      simp only [IntegerType.InRange] at h
      simp only [IntegerType.read, IntegerType.encode]
      exact loadSigned_storeInt 4 _ (by norm_num; omega) (by norm_num; omega)
  | unsignedInt =>
      simp only [IntegerType.InRange] at h
      simp only [IntegerType.read, IntegerType.encode]
      exact loadUnsigned_storeInt 4 _ (by omega) (by norm_num; omega)

variable {undefinedInt : Option ℤ → ℤ} {type : IntegerType} {value : Supplied} {status : Status}

/-- A writer that stores integers in range stores exactly those it accepts if it accepts
exactly those in range. -/
theorem storesExactly_iff {stored : ℤ}
    (hwrite : type.write undefinedInt value = (status, type.encode stored))
    (hstored : type.InRange value.integer → stored = value.integer) :
    StoresExactly undefinedInt type value ↔
      (status = .writerOK ↔ type.InRange value.integer) := by
  rw [StoresExactly, hwrite, and_iff_left_iff_imp]
  intro _ hrange
  rw [hstored hrange, read_encode hrange]

theorem rangeStatus_eq_ok {inRange : Bool} : rangeStatus inRange = .writerOK ↔ inRange = true := by
  cases inRange <;> simp [rangeStatus]

theorem isInt32_iff_of_number {number : ℤ} :
    (Supplied.number number).isInt32 = true ↔ -2147483648 ≤ number ∧ number < 2147483648 := by
  simp [Supplied.isInt32]

theorem bounds_of_isInt32 (h : value.isInt32 = true) :
    -2147483648 ≤ value.integer ∧ value.integer < 2147483648 := by
  cases value with
  | number number => exact isInt32_iff_of_number.mp h
  | negativeZero => cases h
  | string number => cases h

theorem storesExactly_unsignedInt : StoresExactly undefinedInt .unsignedInt value := by
  by_cases hfast : value.isUint32 = true
  · have hwrite : IntegerType.unsignedInt.write undefinedInt value =
        (.writerOK, IntegerType.unsignedInt.encode value.integer) := if_pos hfast
    have hrange : IntegerType.unsignedInt.InRange value.integer := by
      cases value with
      | number number =>
          simp only [Supplied.isUint32, Bool.and_eq_true, decide_eq_true_eq] at hfast
          simp only [IntegerType.InRange, Supplied.integer]
          omega
      | negativeZero => cases hfast
      | string number => cases hfast
    exact (storesExactly_iff hwrite fun _ => rfl).mpr (iff_of_true rfl hrange)
  · have hwrite : IntegerType.unsignedInt.write undefinedInt value =
        (checkNumberUint32 value.toNumber,
          IntegerType.unsignedInt.encode (castUint32 undefinedInt value.toNumber)) := if_neg hfast
    refine (storesExactly_iff hwrite fun hrange => ?_).mpr ?_
    · simp only [IntegerType.InRange] at hrange
      rcases toNumber_cases value with hd | ⟨hlarge, -⟩
      · rw [hd, castUint32, if_pos (by omega)]
      · omega
    · simp only [IntegerType.InRange]
      rcases toNumber_cases value with hd | ⟨hlarge, hd | ⟨d, hd, hfar⟩⟩
      · simp only [hd, checkNumberUint32, rangeStatus_eq_ok, Bool.and_eq_true, decide_eq_true_eq]
        omega
      · simp only [hd, checkNumberUint32, reduceCtorEq, false_iff]
        omega
      · simp only [hd, checkNumberUint32, rangeStatus_eq_ok, Bool.and_eq_true, decide_eq_true_eq]
        omega

theorem storesExactly_int_iff :
    StoresExactly undefinedInt .int value ↔ value.integer ≠ 2147483648 := by
  by_cases hfast : value.isInt32 = true
  · have hwrite : IntegerType.int.write undefinedInt value =
        (.writerOK, IntegerType.int.encode value.integer) := if_pos hfast
    have hbounds := bounds_of_isInt32 hfast
    rw [storesExactly_iff hwrite fun _ => rfl]
    simp only [IntegerType.InRange, true_iff]
    omega
  · have hwrite : IntegerType.int.write undefinedInt value = (checkNumberInt value.toNumber,
        IntegerType.int.encode (castInt undefinedInt value.toNumber)) := if_neg hfast
    rw [storesExactly_iff hwrite fun hrange => ?_]
    · simp only [IntegerType.InRange]
      rcases toNumber_cases value with hd | ⟨hlarge, hd | ⟨d, hd, hfar⟩⟩
      · simp only [hd, checkNumberInt, rangeStatus_eq_ok, Bool.and_eq_true, decide_eq_true_eq]
        omega
      · simp only [hd, checkNumberInt, reduceCtorEq, false_iff]
        omega
      · simp only [hd, checkNumberInt, rangeStatus_eq_ok, Bool.and_eq_true, decide_eq_true_eq]
        omega
    · simp only [IntegerType.InRange] at hrange
      rcases toNumber_cases value with hd | ⟨hlarge, -⟩
      · rw [hd, castInt, if_pos (by omega)]
      · omega

/-- A converted double is in the range of the small type it was converted to. -/
theorem checkIntValue_castSmall (type : SmallType) (d : Option ℤ) :
    checkIntValue type (castSmall undefinedInt type d) = true := by
  have hwrap : ∀ number, checkIntValue type (wrap type number) = true := by
    intro number
    cases type <;> simp only [checkIntValue, wrap, SmallType.isSigned, SmallType.size, if_true,
      if_false, Bool.false_eq_true, Bool.and_eq_true, decide_eq_true_eq, Int.bmod_def] <;> omega
  cases d with
  | none => exact hwrap _
  | some number =>
      rw [castSmall]
      split_ifs with h
      · exact h
      · exact hwrap _

theorem checkIntValue_iff (type : SmallType) (number : ℤ) :
    checkIntValue type number = true ↔ (IntegerType.small type).InRange number := by
  cases type <;> simp only [checkIntValue, IntegerType.InRange, Bool.and_eq_true,
    decide_eq_true_eq] <;> omega

theorem storesExactly_small_iff {type : SmallType} : StoresExactly undefinedInt (.small type) value ↔
    value.isInt32 = true ∨ (IntegerType.small type).InRange value.integer ∨
      value.toNumber = none := by
  by_cases hfast : value.isInt32 = true
  · have hwrite : (IntegerType.small type).write undefinedInt value =
        (rangeStatus (checkIntValue type value.integer),
          (IntegerType.small type).encode value.integer) := if_pos hfast
    rw [storesExactly_iff hwrite fun _ => rfl, rangeStatus_eq_ok, checkIntValue_iff]
    simp [hfast]
  · have hwrite : (IntegerType.small type).write undefinedInt value =
        (getStatusForValue undefinedInt type value.toNumber,
          (IntegerType.small type).encode (castSmall undefinedInt type value.toNumber)) :=
      if_neg hfast
    have hsmall : (IntegerType.small type).InRange value.integer →
        value.toNumber = some value.integer := by
      intro hrange
      rcases toNumber_cases value with hd | ⟨hlarge, -⟩
      · exact hd
      · cases type <;> simp only [IntegerType.InRange] at hrange <;> omega
    rw [storesExactly_iff hwrite fun hrange => ?_]
    · cases hd : value.toNumber with
      | none =>
          have hout : ¬ (IntegerType.small type).InRange value.integer := fun hrange =>
            absurd (hd.symm.trans (hsmall hrange)) nofun
          simp [getStatusForValue, hout]
      | some d =>
          simp [getStatusForValue, checkIntValue_castSmall, rangeStatus_eq_ok, hfast]
    · rw [hsmall hrange, castSmall, if_pos ((checkIntValue_iff _ _).mpr hrange)]

theorem toNumber_of_isInt32 (h : value.isInt32 = true) : value.toNumber = some value.integer := by
  cases value with
  | number number => rfl
  | negativeZero => cases h
  | string number => cases h

/-- The writers of the medium types: the range that is checked against the range of the
type. -/
theorem storesExactly_medium_types (low high : ℤ)
    (hfast : value.isInt32 = true → type.write undefinedInt value =
      (rangeStatus (low ≤ value.integer && value.integer < high), type.encode value.integer))
    (hslow : value.isInt32 = false → type.write undefinedInt value =
      (if value.toNumber.isSome then
          rangeStatus (low ≤ castInt undefinedInt value.toNumber &&
            castInt undefinedInt value.toNumber < high)
        else .generalError,
        type.encode (castInt undefinedInt value.toNumber)))
    (hrange : type.InRange value.integer →
      -2147483648 ≤ value.integer ∧ value.integer < 2147483648) :
    StoresExactly undefinedInt type value ↔
      ((-2147483648 ≤ value.integer ∧ value.integer < 2147483648) →
        ((low ≤ value.integer ∧ value.integer < high) ↔ type.InRange value.integer)) ∧
        ¬ AcceptsUndefined undefinedInt value low high := by
  cases hpath : value.isInt32 with
  | true =>
      have hbounds := bounds_of_isInt32 hpath
      have hdefined : ¬ AcceptsUndefined undefinedInt value low high := by
        rintro ⟨d, hd, hfar, -⟩
        rw [toNumber_of_isInt32 hpath, Option.some.injEq] at hd
        omega
      rw [storesExactly_iff (hfast hpath) fun _ => rfl, rangeStatus_eq_ok]
      simp [hdefined, hbounds]
  | false =>
      have hsmall : type.InRange value.integer →
          castInt undefinedInt value.toNumber = value.integer := by
        intro h
        have hbounds := hrange h
        rcases toNumber_cases value with hd | ⟨hlarge, -⟩
        · rw [hd, castInt, if_pos hbounds]
        · omega
      rw [storesExactly_iff (hslow hpath) hsmall]
      rcases toNumber_cases value with hd | ⟨hlarge, hd | ⟨d, hd, hfar⟩⟩
      · by_cases hbounds : -2147483648 ≤ value.integer ∧ value.integer < 2147483648
        · have hdefined : ¬ AcceptsUndefined undefinedInt value low high := by
            rintro ⟨d, hd', hfar, -⟩
            rw [hd, Option.some.injEq] at hd'
            omega
          simp [hd, castInt, hbounds, hdefined, rangeStatus_eq_ok]
        · have hout : ¬ type.InRange value.integer := fun h => hbounds (hrange h)
          have haccepts : AcceptsUndefined undefinedInt value low high ↔
              low ≤ (undefinedInt (some value.integer)).bmod (2 ^ 32) ∧
                (undefinedInt (some value.integer)).bmod (2 ^ 32) < high := by
            simp only [AcceptsUndefined, hd, Option.some.injEq, exists_eq_left']
            exact and_iff_right (by omega)
          rw [haccepts]
          simp [hd, castInt, hbounds, hout, rangeStatus_eq_ok]
      · have hout : ¬ type.InRange value.integer := fun h => by
          have := hrange h
          omega
        have hdefined : ¬ AcceptsUndefined undefinedInt value low high := by
          rintro ⟨d, hd', -⟩
          exact absurd (hd.symm.trans hd') nofun
        have hlarge' : ¬ (-2147483648 ≤ value.integer ∧ value.integer < 2147483648) := by omega
        simp [hd, hout, hdefined, hlarge']
      · have hout : ¬ type.InRange value.integer := fun h => by
          have := hrange h
          omega
        have hlarge' : ¬ (-2147483648 ≤ value.integer ∧ value.integer < 2147483648) := by omega
        have hfar' : ¬ (-2147483648 ≤ d ∧ d < 2147483648) := by omega
        have haccepts : AcceptsUndefined undefinedInt value low high ↔
            low ≤ (undefinedInt (some d)).bmod (2 ^ 32) ∧
              (undefinedInt (some d)).bmod (2 ^ 32) < high := by
          simp only [AcceptsUndefined, hd, Option.some.injEq, exists_eq_left']
          exact and_iff_right (by omega)
        rw [haccepts]
        simp [hd, castInt, hfar', hout, hlarge', rangeStatus_eq_ok]

theorem storesExactly_medium_iff : StoresExactly undefinedInt .medium value ↔
    (-8338608 ≤ value.integer ∨ value.integer < -8388608) ∧
      (value.integer < 8338608 ∨ 8388608 ≤ value.integer) ∧
      ¬ AcceptsUndefined undefinedInt value (-8338608) 8338608 := by
  rw [storesExactly_medium_types (-8338608) 8338608
    (fun h => by simp [IntegerType.write, mediumWriter, h, checkMedium, IntegerType.encode])
    (fun h => by simp [IntegerType.write, mediumWriter, h, getStatusForMedium, checkMedium,
      IntegerType.encode])
    (fun h => by simp only [IntegerType.InRange] at h; omega), ← and_assoc]
  refine and_congr_left fun _ => ?_
  simp only [IntegerType.InRange]
  omega

theorem storesExactly_mediumUnsigned_iff : StoresExactly undefinedInt .mediumUnsigned value ↔
    (value.integer < 16277216 ∨ 16777216 ≤ value.integer) ∧
      ¬ AcceptsUndefined undefinedInt value 0 16277216 := by
  rw [storesExactly_medium_types 0 16277216
    (fun h => by simp [IntegerType.write, mediumUnsignedWriter, h, checkUnsignedMedium,
      IntegerType.encode])
    (fun h => by simp [IntegerType.write, mediumUnsignedWriter, h, getStatusForUnsignedMedium,
      checkUnsignedMedium, IntegerType.encode])
    (fun h => by simp only [IntegerType.InRange] at h; omega)]
  refine and_congr_left fun _ => ?_
  simp only [IntegerType.InRange]
  omega

/-- The writer of a type accepts and stores exactly the integers in its range if the
supplied integer is one that its checks treat as the range says. -/
theorem storesExactly_iff_conforms (undefinedInt : Option ℤ → ℤ) (type : IntegerType)
    (value : Supplied) :
    StoresExactly undefinedInt type value ↔ Conforms undefinedInt type value := by
  cases type with
  | small type => exact storesExactly_small_iff
  | medium => exact storesExactly_medium_iff
  | mediumUnsigned => exact storesExactly_mediumUnsigned_iff
  | int => exact storesExactly_int_iff
  | unsignedInt => exact iff_of_true storesExactly_unsignedInt trivial

/-- `16300000` is a MEDIUMINT UNSIGNED, and its writer rejects it. -/
theorem not_storesExactly_mediumUnsigned :
    ¬ ∀ (undefinedInt : Option ℤ → ℤ) (type : IntegerType) (value : Supplied),
      StoresExactly undefinedInt type value := by
  intro hclaim
  have hstores := hclaim (fun _ => 0) .mediumUnsigned (.number 16300000)
  have hrange : IntegerType.mediumUnsigned.InRange 16300000 := by
    simp [IntegerType.InRange]
  exact absurd (hstores.1.mpr hrange) (by decide)

/-- The string `300` is accepted for a TINYINT, and `2147483648` for an INT. -/
example (undefinedInt : Option ℤ → ℤ) :
    ¬ StoresExactly undefinedInt (.small .int8) (.string 300) ∧
      ¬ StoresExactly undefinedInt .int (.number 2147483648) := by
  rw [storesExactly_small_iff, storesExactly_int_iff]
  simp [Supplied.isInt32, IntegerType.InRange, Supplied.integer, Supplied.toNumber,
    roundToDouble_of_lt]

end DatabaseJones.Ndb
