import DatabaseJones.Ndb.TemporalRoundTrip

/-!
# Temporal values that the NDB adapter should reject

Which values the temporal writers reject, and what becomes of the others.  A writer looks
at whether a time structure has parts, not at the parts; only YEAR has a range, and the
timestamps a lower bound.  So a value is safe if it is rejected for its kind, or is a
value of the type.
-/

namespace DatabaseJones.Ndb

open DatabaseJones.Library

variable (undefinedInt : Option ℤ → ℤ) (invalidAsInt64 : ℤ)

namespace TemporalType

/-- The values that the writer of a type rejects: other kinds of values than the one it
stores, structures without parts, times before 1970, and years that do not fit a byte.
TIMESTAMP of MySQL 5.6 looks at whole seconds, cut off towards zero. -/
def Rejects : TemporalType → JsValue → Prop
  | .timestamp, .date (some milliseconds) => milliseconds < 0
  | .timestamp2 _, .date milliseconds => milliseconds.getD invalidAsInt64 ≤ -1000
  | .year, value => toInt undefinedInt value < 1900 ∨ 2155 < toInt undefinedInt value
  | .date, .time object | .time, .time object | .datetime, .time object | .time2 _, .time object
  | .datetime2 _, .time object => ¬ object.IsSupplied
  | _, _ => True

/-- The writer reports an error, or the value is one of the type and the reader gives it
back. -/
def StoresNothingWrong (type : TemporalType) (value : JsValue) : Prop :=
  type.write undefinedInt invalidAsInt64 value = none ∨
    type.InRange value ∧ type.RoundTrips undefinedInt invalidAsInt64 value

end TemporalType

/-! ## Errors -/

variable {undefinedInt invalidAsInt64}

/-- The writers of time structures report an error for those that are not supplied. -/
theorem writer_eq_none_iff {object : TimeObject} {bytes : List UInt8} :
    (if (TimeHelper.ofJs (.time object)).valid = true then some bytes else none) = none ↔
      ¬ object.IsSupplied := by
  constructor
  · intro hnone hsupplied
    have hvalid : object.value.helper.valid = true := rfl
    rw [ofJs_of_isSupplied hsupplied, if_pos hvalid] at hnone
    exact nomatch hnone
  · intro hsupplied
    rw [if_neg (by simp [valid_ofJs_of_not_isSupplied hsupplied])]

theorem castInt_bounds (d : Option ℤ) :
    -2147483648 ≤ castInt undefinedInt d ∧ castInt undefinedInt d < 2147483648 := by
  have hwrapped := fun value : ℤ => And.intro
    (Int.le_bmod (x := value) (m := 2 ^ 32) (by norm_num))
    (Int.bmod_lt (x := value) (m := 2 ^ 32) (by norm_num))
  cases d with
  | none => exact hwrapped _
  | some value =>
      rw [castInt]
      split_ifs with h
      · exact h
      · exact hwrapped _

theorem toInt_bounds (undefinedInt : Option ℤ → ℤ) (value : JsValue) :
    -2147483648 ≤ toInt undefinedInt value ∧ toInt undefinedInt value < 2147483648 := by
  cases value with
  | time object => exact castInt_bounds none
  | date milliseconds => exact castInt_bounds milliseconds
  | number value => exact castInt_bounds (some value)

theorem yearWriter_eq_none_iff {value : JsValue} : yearWriter undefinedInt value = none ↔
    toInt undefinedInt value < 1900 ∨ 2155 < toInt undefinedInt value := by
  have hbounds := toInt_bounds undefinedInt value
  have hcheck : checkIntValue .uint8 (int32Value (toInt undefinedInt value - 1900)) = true ↔
      1900 ≤ toInt undefinedInt value ∧ toInt undefinedInt value ≤ 2155 := by
    rw [checkIntValue_iff, IntegerType.InRange, int32Value, Int.bmod_def]
    omega
  simp only [yearWriter, ite_eq_right_iff, reduceCtorEq, imp_false, hcheck]
  omega

theorem write_eq_none_iff (type : TemporalType) (value : JsValue) :
    type.write undefinedInt invalidAsInt64 value = none ↔
      type.Rejects undefinedInt invalidAsInt64 value := by
  cases type with
  | year => exact yearWriter_eq_none_iff
  | timestamp =>
      cases value with
      | date milliseconds =>
          cases milliseconds with
          | none => exact iff_of_true rfl trivial
          | some milliseconds =>
              simp only [TemporalType.write, timestampWriter, TemporalType.Rejects,
                ite_eq_right_iff, reduceCtorEq, imp_false, not_le]
      | time object => exact iff_of_true rfl trivial
      | number value => exact iff_of_true rfl trivial
  | timestamp2 prec =>
      cases value with
      | date milliseconds =>
          simp only [TemporalType.write, timestamp2Writer, TemporalType.Rejects, ite_eq_right_iff,
            reduceCtorEq, imp_false, not_le, Int.tdiv_eq_ediv, show Int.sign 1000 = 1 by rfl]
          omega
      | time object => exact iff_of_true rfl trivial
      | number value => exact iff_of_true rfl trivial
  | _ =>
      cases value with
      | time object => exact writer_eq_none_iff
      | date milliseconds => exact iff_of_true rfl trivial
      | number value => exact iff_of_true rfl trivial

/-- A writer stores nothing wrong for a value if it rejects it for its kind, or it is a
value of the type, and not a TIMESTAMP that its reader does not give back. -/
theorem storesNothingWrong_iff (undefinedInt : Option ℤ → ℤ) (invalidAsInt64 : ℤ)
    (type : TemporalType) (value : JsValue) :
    type.StoresNothingWrong undefinedInt invalidAsInt64 value ↔
      type.Rejects undefinedInt invalidAsInt64 value ∨ type.InRange value ∧ type.ProductFits value := by
  rw [TemporalType.StoresNothingWrong, write_eq_none_iff]
  refine or_congr_right (and_congr_right fun h => ?_)
  exact roundTrips_iff_productFits h

/-- The hundredth second of a DATETIME's first minute is stored. -/
theorem not_storesNothingWrong_datetime :
    ¬ ∀ (undefinedInt : Option ℤ → ℤ) (invalidAsInt64 : ℤ) (type : TemporalType) (value : JsValue),
      type.StoresNothingWrong undefinedInt invalidAsInt64 value := by
  intro hclaim
  have hsafe := hclaim (fun _ => 0) 0 .datetime
    (.time ⟨none, none, some 2000, some 1, some 1, some 0, some 0, some 100, none⟩)
  rcases hsafe with herror | ⟨⟨-, -, -, hclock⟩, -⟩
  · exact nomatch herror
  · exact absurd hclock.2.2.1.2 (by decide)

/-- It is read as the first second of the second minute. -/
example : (datetimeWriter (.time ⟨none, none, some 2000, some 1, some 1, some 0, some 0, some 100,
      none⟩)).bind datetimeReader =
    some (.time (TimeValue.toObject ⟨1, 2000, 1, 1, 0, 1, 0, 0⟩)) := by
  decide +kernel

/-- Half a second before 1970 is stored, and read as a time after it. -/
example : ∃ bytes, timestamp2Writer 0 1 (.date (some (-500))) = some bytes ∧
    timestamp2Reader 1 bytes ≠ .date (some (-500)) := by
  refine ⟨_, rfl, ?_⟩
  decide +kernel

end DatabaseJones.Ndb
