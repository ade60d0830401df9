import DatabaseJones.MySQLSerialize.Parse

/-!
# Scalars in binary JSON

What is parsed of a serialized scalar, whatever follows it in the buffer.  Integers come
back if they fit into 32 bits, with or without a sign, and strings if they have no lone
surrogates.
-/

namespace DatabaseJones.MySQLSerialize

open DatabaseJones.Library

/-! ## Well-formed binary values -/

/-- A binary value that can be read from a buffer in which other data follows, and that has
the size of its entry if it is inline. -/
structure Binary.WellFormed (binary : Binary) : Prop where
  delimited : ∀ depth rest,
    parse depth { binary with buffer := binary.buffer ++ rest } = parse depth binary
  inline : ∀ size, inlineBufsize binary.type = some size → binary.buffer.length = size

/-! ## Integers of a fixed width -/

theorem readUIntLE_append {width value : ℕ} (hvalue : value < 256 ^ width)
    (before rest : List UInt8) :
    readUIntLE width (before ++ (littleEndian width value ++ rest)) before.length = some value := by
  rw [readUIntLE, if_pos (by simp), List.drop_left]
  have htake : (littleEndian width value ++ rest).take width = littleEndian width value := by
    rw [List.take_append_of_le_length (by simp), List.take_of_length_le (by simp)]
  rw [htake, fromLittleEndian_littleEndian, Nat.mod_eq_of_lt hvalue]

theorem readUIntLE_littleEndian {width value : ℕ} (hvalue : value < 256 ^ width)
    (rest : List UInt8) : readUIntLE width (littleEndian width value ++ rest) 0 = some value :=
  readUIntLE_append hvalue [] rest

theorem readIntLE_littleEndian {width : ℕ} {value : ℤ} (hlow : -256 ^ width ≤ 2 * value)
    (hhigh : 2 * value < 256 ^ width) (rest : List UInt8) :
    readIntLE width (littleEndian width (value % 256 ^ width).toNat ++ rest) 0 = some value := by
  have hpos : (0 : ℤ) < 256 ^ width := by positivity
  have hnonneg : 0 ≤ value % 256 ^ width := Int.emod_nonneg _ hpos.ne'
  have hlt : value % 256 ^ width < 256 ^ width := Int.emod_lt_of_pos _ hpos
  have hvalue : (value % 256 ^ width).toNat < 256 ^ width := by
    zify
    rw [Int.toNat_of_nonneg hnonneg]
    exact hlt
  rw [readIntLE, readUIntLE_littleEndian hvalue, Option.map_some, Int.toNat_of_nonneg hnonneg]
  congr 1
  have hcast : ((256 ^ width : ℕ) : ℤ) = 256 ^ width := by push_cast; rfl
  rw [← hcast, Int.emod_bmod]
  apply Int.bmod_eq_of_le_mul_two
  · rw [hcast, mul_comm]
    exact hlow
  · rw [hcast, mul_comm]
    exact hhigh

/-- Reading at the start sees only the bytes that are read. -/
theorem readUIntLE_zero_append {width : ℕ} {buffer : List UInt8} (h : buffer.length = width)
    (rest : List UInt8) : readUIntLE width (buffer ++ rest) 0 = readUIntLE width buffer 0 := by
  subst h
  simp [readUIntLE]

/-- A scalar of fixed size is well formed. -/
theorem wellFormed_of_fixed {type : BinaryType} {width : ℕ} {buffer : List UInt8}
    {read : List UInt8 → Option Json}
    (hparse : ∀ depth buffer, parse depth ⟨type, buffer⟩ = read buffer)
    (hread : ∀ rest, read (buffer ++ rest) = read buffer) (hlength : buffer.length = width)
    (hinline : ∀ size, inlineBufsize type = some size → size = width) :
    Binary.WellFormed ⟨type, buffer⟩ := by
  refine ⟨fun depth rest => ?_, fun size hsize => hlength.trans (hinline size hsize).symm⟩
  rw [hparse, hparse, hread]

/-- What is neither an array nor an object is parsed at any depth. -/
theorem parse_eq_parseScalar {binary : Binary} (h : binary.type ∉
    [BinaryType.smallArray, .largeArray, .smallObject, .largeObject]) (depth : ℕ) :
    parse depth binary = parseScalar binary := by
  obtain ⟨type, buffer⟩ := binary
  cases depth with
  | zero => rfl
  | succ depth => cases type <;> first
      | rfl
      | exact absurd (by simp) h

/-! ## Numbers -/

/-- The integers for which the parser has a type, and the numbers that are finite. -/
def JsNumber.Storable : JsNumber → Prop
  | .integer value => -2147483648 ≤ value ∧ value ≤ 4294967295
  | .negativeZero => True
  | .fraction _ _ => True
  | .nan => False
  | .infinity _ => False

/-- The number of bytes of a number that can be stored. -/
def JsNumber.size : JsNumber → ℕ
  | .integer value => if -32768 ≤ value ∧ value ≤ 65535 then 2 else 4
  | .negativeZero => 2
  | _ => 8

/-- What `serializeInt16` and `serializeInt32` leave of a number in their range. -/
theorem serializeInt_spec {width : ℕ} {limit : ℤ} {signed unsigned : BinaryType} {value : ℤ}
    (hlimit : 2 * limit = 256 ^ width)
    (hsigned : ∀ depth buffer, parse depth ⟨signed, buffer⟩ = parseInt width buffer)
    (hunsigned : ∀ depth buffer, parse depth ⟨unsigned, buffer⟩ = parseUInt width buffer)
    (hinlineSigned : inlineBufsize signed = some width)
    (hinlineUnsigned : inlineBufsize unsigned = some width)
    (hlow : -limit ≤ value) (hhigh : value < 256 ^ width) :
    ∃ binary, serializeInt width limit signed unsigned value = some binary ∧
      binary.WellFormed ∧ binary.buffer.length = width ∧
      ∀ depth, parse depth binary = some (.number (.integer value)) := by
  rw [serializeInt]
  split_ifs with hlt
  · have hrange : -256 ^ width ≤ 2 * value ∧ 2 * value < 256 ^ width := by omega
    rw [writeIntLE, if_pos hrange]
    have hread := readIntLE_littleEndian hrange.1 hrange.2
    refine ⟨_, rfl, ?_, length_littleEndian _ _, fun depth => ?_⟩
    · refine wellFormed_of_fixed hsigned (fun rest => ?_) (length_littleEndian _ _)
        fun size hsize => Option.some.inj (hsize.symm.trans hinlineSigned)
      rw [parseInt, parseInt, readIntLE, readIntLE, readUIntLE_zero_append (length_littleEndian _ _)]
    · have := hread []
      rw [List.append_nil] at this
      rw [hsigned, parseInt, this, Option.map_some]
  · have hnonneg : 0 ≤ value := by
      have : (0 : ℤ) < 256 ^ width := by positivity
      omega
    have hnat : value.toNat < 256 ^ width := by
      zify
      rw [Int.toNat_of_nonneg hnonneg]
      exact hhigh
    rw [writeUIntLE, if_pos hnat]
    have hread := readUIntLE_littleEndian hnat
    refine ⟨_, rfl, ?_, length_littleEndian _ _, fun depth => ?_⟩
    · refine wellFormed_of_fixed hunsigned (fun rest => ?_) (length_littleEndian _ _)
        fun size hsize => Option.some.inj (hsize.symm.trans hinlineUnsigned)
      rw [parseUInt, parseUInt, readUIntLE_zero_append (length_littleEndian _ _)]
    · have := hread []
      rw [List.append_nil] at this
      rw [hunsigned, parseUInt, this, Option.map_some, Int.toNat_of_nonneg hnonneg]

theorem serializeInt16_spec {value : ℤ} (hlow : -32768 ≤ value) (hhigh : value ≤ 65535) :
    ∃ binary, serializeInt16 value = some binary ∧ binary.WellFormed ∧ binary.buffer.length = 2 ∧
      ∀ depth, parse depth binary = some (.number (.integer value)) :=
  serializeInt_spec rfl (fun depth _ => parse_eq_parseScalar (by simp) depth)
    (fun depth _ => parse_eq_parseScalar (by simp) depth) rfl rfl hlow (by norm_num; omega)

theorem serializeInt32_spec {value : ℤ} (hlow : -2147483648 ≤ value) (hhigh : value ≤ 4294967295) :
    ∃ binary, serializeInt32 value = some binary ∧ binary.WellFormed ∧ binary.buffer.length = 4 ∧
      ∀ depth, parse depth binary = some (.number (.integer value)) :=
  serializeInt_spec rfl (fun depth _ => parse_eq_parseScalar (by simp) depth)
    (fun depth _ => parse_eq_parseScalar (by simp) depth) rfl rfl hlow (by norm_num; omega)

/-- What is written of a large integer is well formed, but the parser does not know its
type. -/
theorem serializeInt64_spec {value : ℤ} {binary : Binary}
    (h : serializeInt64 value = some binary) :
    binary.WellFormed ∧ ∀ depth, parse depth binary = none := by
  rw [serializeInt64] at h
  split_ifs at h
  obtain ⟨bytes, _, rfl⟩ := Option.map_eq_some_iff.mp h
  have hnone : ∀ depth buffer, parse depth ⟨.uint64, buffer⟩ = none :=
    fun depth _ => parse_eq_parseScalar (by simp) depth
  exact ⟨⟨fun depth _ => (hnone depth _).trans (hnone depth _).symm, fun _ hsize => nomatch hsize⟩,
    fun depth => hnone depth _⟩

theorem serializeInteger_spec {value : ℤ} (h : (JsNumber.integer value).Storable) :
    ∃ binary, serializeInteger value = some binary ∧ binary.WellFormed ∧
      binary.buffer.length = (JsNumber.integer value).size ∧
      ∀ depth, parse depth binary = some (.number (.integer value)) := by
  obtain ⟨hlow, hhigh⟩ := h
  rw [serializeInteger, JsNumber.size]
  by_cases hshort : -32768 ≤ value ∧ value ≤ 65535
  · have hbranch := serializeInt16_spec hshort.1 hshort.2
    rw [if_pos hshort]
    split_ifs <;> first
      | exact hbranch
      | omega
  · have hbranch := serializeInt32_spec hlow hhigh
    rw [if_neg hshort]
    split_ifs <;> first
      | exact hbranch
      | omega

theorem serializeDouble_spec (value : JsNumber) :
    (serializeDouble value).WellFormed ∧ (serializeDouble value).buffer.length = 8 ∧
      ∀ depth, parse depth (serializeDouble value) =
        some (.number (.ofBits value.doubleBits)) := by
  have hbits : value.doubleBits.toNat < 256 ^ 8 := value.doubleBits.toNat_lt
  have hread := readUIntLE_littleEndian hbits []
  rw [List.append_nil] at hread
  have hdouble : ∀ depth buffer, parse depth ⟨.double, buffer⟩ = parseDouble buffer :=
    fun depth _ => parse_eq_parseScalar (by simp) depth
  refine ⟨wellFormed_of_fixed hdouble (fun rest => ?_) (length_littleEndian _ _)
    (fun _ hsize => nomatch hsize), length_littleEndian _ _, fun depth => ?_⟩
  · rw [parseDouble, parseDouble, readUIntLE_zero_append (length_littleEndian _ _)]
  · rw [serializeDouble, hdouble, parseDouble, hread, Option.map_some, UInt64.ofNat_toNat]

/-- A number that can be stored comes back as from JSON text. -/
theorem serializeNumber_of_storable {value : JsNumber} (h : value.Storable) :
    ∃ binary, serializeNumber value = some binary ∧ binary.buffer.length = value.size ∧
      ∀ depth, parse depth binary = some value.throughJson := by
  cases value with
  | integer value =>
      obtain ⟨binary, hbinary, _, hlength, hparse⟩ := serializeInteger_spec h
      exact ⟨binary, hbinary, hlength, hparse⟩
  | negativeZero =>
      obtain ⟨binary, hbinary, _, hlength, hparse⟩ :=
        serializeInteger_spec (show (JsNumber.integer 0).Storable from ⟨by norm_num, by norm_num⟩)
      exact ⟨binary, hbinary, hlength, hparse⟩
  | fraction bits hfraction =>
      obtain ⟨_, hlength, hparse⟩ := serializeDouble_spec (.fraction bits hfraction)
      refine ⟨_, rfl, hlength, fun depth => ?_⟩
      rw [hparse, JsNumber.ofBits_doubleBits rfl]
      rfl
  | nan => exact h.elim
  | infinity negative => exact h.elim

theorem wellFormed_serializeNumber {value : JsNumber} {binary : Binary}
    (h : serializeNumber value = some binary) : binary.WellFormed := by
  have hinteger : ∀ {value : ℤ} {binary : Binary}, serializeInteger value = some binary →
      binary.WellFormed := by
    intro value binary h
    by_cases hstorable : (JsNumber.integer value).Storable
    · obtain ⟨other, hother, hwell, _⟩ := serializeInteger_spec hstorable
      rw [h] at hother
      rwa [Option.some.inj hother]
    · have hlarge : serializeInteger value = serializeInt64 value := by
        unfold JsNumber.Storable at hstorable
        rw [serializeInteger]
        split_ifs <;> first
          | rfl
          | omega
      exact (serializeInt64_spec (hlarge ▸ h)).1
  cases value with
  | integer value => exact hinteger h
  | negativeZero => exact hinteger h
  | fraction bits hfraction =>
      rw [← Option.some.inj h]
      exact (serializeDouble_spec _).1
  | nan =>
      rw [← Option.some.inj h]
      exact (serializeDouble_spec _).1
  | infinity negative =>
      rw [← Option.some.inj h]
      exact (serializeDouble_spec _).1

/-- A number that cannot be stored does not come back as from JSON text. -/
theorem storable_of_parse_number {value : JsNumber} {binary : Binary} {depth : ℕ}
    (h : serializeNumber value = some binary)
    (hparse : parse depth binary = some value.throughJson) : value.Storable := by
  cases value with
  | integer value =>
      by_contra hstorable
      have hlarge : serializeInteger value = serializeInt64 value := by
        unfold JsNumber.Storable at hstorable
        rw [serializeInteger]
        split_ifs <;> first
          | rfl
          | omega
      have h64 : serializeInt64 value = some binary := hlarge.symm.trans h
      have hnone := (serializeInt64_spec h64).2 depth
      rw [hnone] at hparse
      exact nomatch hparse
  | negativeZero => trivial
  | fraction bits hfraction => trivial
  | nan =>
      rw [← Option.some.inj h, (serializeDouble_spec _).2.2] at hparse
      exact nomatch hparse
  | infinity negative =>
      rw [← Option.some.inj h, (serializeDouble_spec _).2.2] at hparse
      exact nomatch hparse

/-! ## Literals -/

theorem wellFormed_literal (byte : UInt8) : Binary.WellFormed ⟨.literal, [byte]⟩ :=
  wellFormed_of_fixed (fun depth _ => parse_eq_parseScalar (by simp) depth) (fun _ => rfl) rfl
    fun _ hsize => (Option.some.inj hsize).symm

theorem parse_literal (byte : UInt8) (depth : ℕ) :
    parse depth ⟨.literal, [byte]⟩ = parseLiteral [byte] :=
  parse_eq_parseScalar (by simp) depth

/-! ## Lengths -/

theorem and_or_of_lt_128 : ∀ m < 128, m ||| 0x80 = m + 128 ∧ m &&& 0x80 = 0 ∧
    (m + 128) &&& 0x80 = 128 ∧ m &&& 0x7f = m ∧ (m + 128) &&& 0x7f = m := by
  decide

/-- The bytes of a length add it to what has been read before. -/
theorem parseLengthFrom_serializeLength (rest : List UInt8) :
    ∀ count i before length, 0 < count → length < 128 ^ count → before < 2 ^ (7 * i) →
      parseLengthFrom count i before (serializeLength length ++ rest) =
        (((before + length * 2 ^ (7 * i) : ℕ) : ℤ).bmod (2 ^ 32),
          i + (serializeLength length).length) := by
  intro count
  induction count with
  | zero => exact fun _ _ _ hcount => absurd hcount (lt_irrefl 0)
  | succ count ih =>
      intro i before length _ hlength hbefore
      rw [parseLengthFrom]
      by_cases hsmall : length < 128
      · obtain ⟨_, hhigh, _, hlow, _⟩ := and_or_of_lt_128 length hsmall
        have hbyte : (UInt8.ofNat length).toNat = length := by
          rw [UInt8.toNat_ofNat']
          omega
        rw [serializeLength, if_pos hsmall, List.singleton_append, List.headD_cons, hbyte, hhigh,
          hlow, if_pos rfl, Nat.or_comm, Library.shiftLeft_or_field _ hbefore, Nat.add_comm]
        rfl
      · have hremainder : length % 128 < 128 := Nat.mod_lt _ (by norm_num)
        obtain ⟨hor, _, hhigh, _, hlow⟩ := and_or_of_lt_128 (length % 128) hremainder
        have hbyte : (UInt8.ofNat (length % 128 ||| 0x80)).toNat = length % 128 + 128 := by
          rw [hor, UInt8.toNat_ofNat']
          omega
        rw [serializeLength, if_neg hsmall, List.cons_append, List.headD_cons, hbyte, hhigh, hlow,
          if_neg (by norm_num), Nat.or_comm, Library.shiftLeft_or_field _ hbefore, List.tail_cons]
        have hcount : 0 < count := by
          by_contra hzero
          rw [show count = 0 by omega] at hlength
          omega
        have hquotient : length / 128 < 128 ^ count := by
          rw [Nat.div_lt_iff_lt_mul (by norm_num), ← Nat.pow_succ]
          exact hlength
        have hshift : 2 ^ (7 * (i + 1)) = 128 * 2 ^ (7 * i) := by
          rw [show 7 * (i + 1) = 7 + 7 * i by ring, Nat.pow_add]
        have hnext : length % 128 * 2 ^ (7 * i) + before < 2 ^ (7 * (i + 1)) := by
          rw [hshift]
          calc length % 128 * 2 ^ (7 * i) + before
              < length % 128 * 2 ^ (7 * i) + 2 ^ (7 * i) := by omega
            _ = (length % 128 + 1) * 2 ^ (7 * i) := by ring
            _ ≤ 128 * 2 ^ (7 * i) := Nat.mul_le_mul_right _ (by omega)
        rw [ih (i + 1) _ (length / 128) hcount hquotient hnext, List.length_cons]
        have hsum : length % 128 * 2 ^ (7 * i) + before + length / 128 * 2 ^ (7 * (i + 1)) =
            before + length * 2 ^ (7 * i) := by
          rw [hshift]
          conv_rhs => rw [← Nat.mod_add_div length 128]
          ring
        rw [hsum, Nat.add_assoc, Nat.add_comm 1]

/-- A length below `2 ^ 31` is read back. -/
theorem parseLength_serializeLength {length : ℕ} (h : length < 2 ^ 31) (rest : List UInt8) :
    parseLength (serializeLength length ++ rest) =
      ((length : ℤ), (serializeLength length).length) := by
  have hrange : length < 128 ^ 5 := by omega
  have hvalue : 0 + length * 2 ^ (7 * 0) = length := by ring
  have hbmod : (length : ℤ).bmod (2 ^ 32) = length := by
    apply Int.bmod_eq_of_le_mul_two <;> omega
  rw [parseLength, parseLengthFrom_serializeLength rest 5 0 0 length (by omega) hrange (by norm_num),
    hvalue, hbmod, Nat.zero_add]

theorem length_serializeLength (length : ℕ) :
    (serializeLength length).length = Nat.log 128 length + 1 := by
  induction length using serializeLength.induct with
  | case1 length hsmall =>
      rw [serializeLength, if_pos hsmall, Nat.log_of_lt hsmall]
      rfl
  | case2 length hlarge ih =>
      have hlog : Nat.log 128 length = Nat.log 128 (length / 128) + 1 :=
        Nat.log_of_one_lt_of_le (by norm_num) (by omega)
      rw [serializeLength, if_neg hlarge, List.length_cons, ih, hlog]

/-! ## Strings -/

/-- The number of bytes of a string with its length. -/
def stringSize (jsString : CodeUnits) : ℕ :=
  Nat.log 128 (utf8 jsString).length + 1 + (utf8 jsString).length

theorem serializeString_eq_some_iff {jsString : CodeUnits} {binary : Binary} :
    serializeString jsString = some binary ↔ stringSize jsString ≤ kMaxLength ∧
      binary = ⟨.string, serializeLength (utf8 jsString).length ++ utf8 jsString⟩ := by
  have hlength : (serializeLength (utf8 jsString).length ++ utf8 jsString).length =
      stringSize jsString := by
    rw [List.length_append, length_serializeLength, stringSize]
  have hflatten : [serializeLength (utf8 jsString).length, utf8 jsString].flatten =
      serializeLength (utf8 jsString).length ++ utf8 jsString := by simp
  have hsmaller : (utf8 jsString).length ≤ stringSize jsString := by
    rw [stringSize]
    omega
  rw [serializeString, bufferFromString, concat, List.flatten_singleton]
  by_cases hfits : (utf8 jsString).length ≤ kMaxLength
  · rw [if_pos hfits, Option.bind_eq_bind, Option.bind_some, concat, hflatten, hlength]
    split_ifs with hsize
    · rw [Option.bind_some, Option.pure_def, Option.some_inj]
      exact ⟨fun h => ⟨hsize, h.symm⟩, fun h => h.2.symm⟩
    · exact ⟨fun h => (nomatch h), fun h => absurd h.1 hsize⟩
  · rw [if_neg hfits]
    exact ⟨fun h => (nomatch h), fun h => absurd (hsmaller.trans h.1) hfits⟩

/-- A serialized string is read back as its characters. -/
theorem parse_string {jsString : CodeUnits} (h : stringSize jsString ≤ kMaxLength) (depth : ℕ)
    (rest : List UInt8) :
    parse depth ⟨.string, serializeLength (utf8 jsString).length ++ utf8 jsString ++ rest⟩ =
      some (.string (unitsOfChars (charsOfUnits jsString))) := by
  have hlt : (utf8 jsString).length < 2 ^ 31 := by
    rw [stringSize, kMaxLength] at h
    omega
  have hlength := parseLength_serializeLength hlt (utf8 jsString ++ rest)
  rw [parse_eq_parseScalar (by simp)]
  show parseString _ = _
  rw [List.append_assoc, parseString, hlength]
  show (bufferToString _ _ _).map Json.string = _
  have hstop : (((serializeLength (utf8 jsString).length).length : ℤ) +
      ((utf8 jsString).length : ℤ)).toNat =
        (serializeLength (utf8 jsString).length ++ utf8 jsString).length := by
    rw [List.length_append]
    omega
  rw [bufferToString, hstop, Int.toNat_natCast, ← List.append_assoc, List.take_left, List.drop_left,
    utf8Text_utf8, Option.map_some]

theorem wellFormed_serializeString {jsString : CodeUnits} {binary : Binary}
    (h : serializeString jsString = some binary) : binary.WellFormed := by
  obtain ⟨hsize, rfl⟩ := serializeString_eq_some_iff.mp h
  refine ⟨fun depth rest => ?_, fun _ hinline => nomatch hinline⟩
  have hplain := parse_string hsize depth []
  rw [List.append_nil] at hplain
  rw [hplain]
  exact parse_string hsize depth rest

end DatabaseJones.MySQLSerialize
