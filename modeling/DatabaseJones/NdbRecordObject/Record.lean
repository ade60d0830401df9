import DatabaseJones.Library.Memory

/-!
# Records

A `Record` gives every column its place in the row buffer: the bytes of its value, and for
a nullable column one bit of the null bitmap at the end of the row.
-/

namespace DatabaseJones.NdbRecordObject

open DatabaseJones.Library

/-- A column with its encoder.  `none` is JavaScript's null.  `check` is the error that
writing a value reports, and `encode` is what it leaves in the buffer.  A TEXT or BLOB column
is encoded to a buffer of its own. -/
structure Column (ν ε : Type) where
  sizeInBytes : ℕ
  nullable : Bool
  isBlob : Bool
  read : List UInt8 → Option ν
  encode : ν → List UInt8 → List UInt8
  check : ν → Option ε
  length_encode : isBlob = false → ∀ value bytes, bytes.length = sizeInBytes →
    (encode value bytes).length = sizeInBytes

/-- An `NdbDictionary::RecordSpecification`. -/
structure Spec (ν ε : Type) where
  column : Column ν ε
  offset : ℕ
  nullbitByteOffset : ℕ
  nullbitBitInByte : ℕ

structure Record (ν ε : Type) where
  specs : List (Spec ν ε) := []
  nNullable : ℕ := 0
  recSize : ℕ := 0
  startOfNullmap : ℕ := 0

variable {ν ε : Type}

/-! ## Building a record -/

def padOffsetForAlignment (recSize alignment : ℕ) : ℕ :=
  if alignment = 2 ∨ alignment = 4 ∨ alignment = 8 then
    if recSize % alignment ≠ 0 then recSize + (alignment - recSize % alignment) else recSize
  else recSize

def Record.addColumn (record : Record ν ε) (column : Column ν ε) : Record ν ε :=
  let offset := padOffsetForAlignment record.recSize column.sizeInBytes
  let nullbit := if column.nullable then record.nNullable else 0
  { record with
    specs := record.specs ++ [⟨column, offset, nullbit / 8, nullbit % 8⟩]
    nNullable := if column.nullable then record.nNullable + 1 else record.nNullable
    recSize := offset + column.sizeInBytes }

def Record.buildNullBitmap (record : Record ν ε) : Record ν ε :=
  let sizeOfNullmap := record.nNullable / 8 + if record.nNullable % 8 ≠ 0 then 1 else 0
  { record with
    startOfNullmap := record.recSize
    specs := record.specs.map fun spec =>
      { spec with nullbitByteOffset := spec.nullbitByteOffset + record.recSize }
    recSize := record.recSize + sizeOfNullmap }

/-- The record of all columns of a table. -/
def completeTableRecord (columns : List (Column ν ε)) : Record ν ε :=
  (columns.foldl Record.addColumn {}).buildNullBitmap

/-! ## Null bits -/

def Spec.setNull (spec : Spec ν ε) (data : Memory) : Memory :=
  if spec.column.nullable then setBit data spec.nullbitByteOffset spec.nullbitBitInByte else data

def Spec.setNotNull (spec : Spec ν ε) (data : Memory) : Memory :=
  if spec.column.nullable then clearBit data spec.nullbitByteOffset spec.nullbitBitInByte else data

def Spec.isNull (spec : Spec ν ε) (data : Memory) : Bool :=
  spec.column.nullable && testBit data spec.nullbitByteOffset spec.nullbitBitInByte

/-! ## The layout -/

/-- The position of a null bit in the bitmap. -/
def Spec.nullbit (spec : Spec ν ε) : ℕ := spec.nullbitByteOffset * 8 + spec.nullbitBitInByte

/-- The columns that have been added lie behind each other, and so do their null bits. -/
structure Laid (record : Record ν ε) : Prop where
  ordered : record.specs.Pairwise fun first second =>
    first.offset + first.column.sizeInBytes ≤ second.offset
  inside : ∀ spec ∈ record.specs, spec.offset + spec.column.sizeInBytes ≤ record.recSize
  nullbits : record.specs.Pairwise fun first second =>
    first.column.nullable → second.column.nullable → first.nullbit < second.nullbit
  nullbit_lt : ∀ spec ∈ record.specs, spec.column.nullable → spec.nullbit < record.nNullable
  bit_lt : ∀ spec ∈ record.specs, spec.nullbitBitInByte < 8

theorem le_padOffsetForAlignment (recSize alignment : ℕ) :
    recSize ≤ padOffsetForAlignment recSize alignment := by
  unfold padOffsetForAlignment
  split_ifs <;> omega

/-- A value of 2, 4 or 8 bytes is aligned. -/
theorem dvd_padOffsetForAlignment (recSize : ℕ) {alignment : ℕ}
    (h : alignment = 2 ∨ alignment = 4 ∨ alignment = 8) :
    alignment ∣ padOffsetForAlignment recSize alignment := by
  unfold padOffsetForAlignment
  rcases h with rfl | rfl | rfl <;> split_ifs <;> omega

theorem laid_empty : Laid ({} : Record ν ε) where
  ordered := List.Pairwise.nil
  inside _ h := absurd h List.not_mem_nil
  nullbits := List.Pairwise.nil
  nullbit_lt _ h := absurd h List.not_mem_nil
  bit_lt _ h := absurd h List.not_mem_nil

theorem Laid.addColumn {record : Record ν ε} (h : Laid record) (column : Column ν ε) :
    Laid (record.addColumn column) := by
  have hpad := le_padOffsetForAlignment record.recSize column.sizeInBytes
  have hgrows : record.nNullable ≤ (record.addColumn column).nNullable := by
    dsimp only [Record.addColumn]
    split_ifs <;> omega
  refine ⟨?_, ?_, ?_, ?_, ?_⟩
  · refine List.pairwise_append.mpr ⟨h.ordered, List.pairwise_singleton _ _, ?_⟩
    intro first hfirst second hsecond
    obtain rfl := List.mem_singleton.mp hsecond
    exact (h.inside first hfirst).trans hpad
  · intro spec hspec
    rcases List.mem_append.mp hspec with hspec | hspec
    · exact ((h.inside spec hspec).trans hpad).trans (Nat.le_add_right _ _)
    · obtain rfl := List.mem_singleton.mp hspec
      exact le_refl _
  · refine List.pairwise_append.mpr ⟨h.nullbits, List.pairwise_singleton _ _, ?_⟩
    intro first hfirst second hsecond hnull hnull'
    obtain rfl := List.mem_singleton.mp hsecond
    have hlt := h.nullbit_lt first hfirst hnull
    simp only [Spec.nullbit] at hlt ⊢
    rw [if_pos hnull']
    omega
  · intro spec hspec hnull
    rcases List.mem_append.mp hspec with hspec | hspec
    · exact (h.nullbit_lt spec hspec hnull).trans_le hgrows
    · obtain rfl := List.mem_singleton.mp hspec
      simp only [Spec.nullbit, Record.addColumn]
      rw [if_pos hnull, if_pos hnull]
      omega
  · intro spec hspec
    rcases List.mem_append.mp hspec with hspec | hspec
    · exact h.bit_lt spec hspec
    · obtain rfl := List.mem_singleton.mp hspec
      exact Nat.mod_lt _ (by decide)

theorem laid_foldl (columns : List (Column ν ε)) {record : Record ν ε} (h : Laid record) :
    Laid (columns.foldl Record.addColumn record) := by
  induction columns generalizing record with
  | nil => exact h
  | cons column columns ih => exact ih (h.addColumn column)

/-- Every column of a record has its own bytes, and every nullable column its own bit, behind
the bytes of all columns. -/
structure Layout (record : Record ν ε) : Prop where
  ordered : record.specs.Pairwise fun first second =>
    first.offset + first.column.sizeInBytes ≤ second.offset
  before : ∀ spec ∈ record.specs, spec.offset + spec.column.sizeInBytes ≤ record.startOfNullmap
  nullbits : record.specs.Pairwise fun first second =>
    first.column.nullable → second.column.nullable → first.nullbit < second.nullbit
  behind : ∀ spec ∈ record.specs, record.startOfNullmap ≤ spec.nullbitByteOffset
  bit_lt : ∀ spec ∈ record.specs, spec.nullbitBitInByte < 8
  inside : ∀ spec ∈ record.specs, spec.column.nullable → spec.nullbitByteOffset < record.recSize
  le_recSize : record.startOfNullmap ≤ record.recSize

theorem Laid.buildNullBitmap {record : Record ν ε} (h : Laid record) :
    Layout record.buildNullBitmap := by
  refine ⟨List.pairwise_map.mpr h.ordered, ?_, ?_, ?_, ?_, ?_, Nat.le_add_right _ _⟩
  · intro spec hspec
    obtain ⟨old, hold, rfl⟩ := List.mem_map.mp hspec
    exact h.inside old hold
  · refine List.pairwise_map.mpr (h.nullbits.imp fun {first second} hlt hfirst hsecond => ?_)
    have hlt := hlt hfirst hsecond
    simp only [Spec.nullbit] at hlt ⊢
    omega
  · intro spec hspec
    obtain ⟨old, -, rfl⟩ := List.mem_map.mp hspec
    exact Nat.le_add_left _ _
  · intro spec hspec
    obtain ⟨old, hold, rfl⟩ := List.mem_map.mp hspec
    exact h.bit_lt old hold
  · intro spec hspec hnull
    obtain ⟨old, hold, rfl⟩ := List.mem_map.mp hspec
    have hlt := h.nullbit_lt old hold hnull
    have hbit := h.bit_lt old hold
    simp only [Spec.nullbit] at hlt
    simp only [Record.buildNullBitmap]
    split_ifs <;> omega

theorem layout_completeTableRecord (columns : List (Column ν ε)) :
    Layout (completeTableRecord columns) :=
  (laid_foldl columns laid_empty).buildNullBitmap

theorem foldl_addColumn_columns (columns : List (Column ν ε)) (record : Record ν ε) :
    (columns.foldl Record.addColumn record).specs.map Spec.column =
      record.specs.map Spec.column ++ columns := by
  induction columns generalizing record with
  | nil => exact (List.append_nil _).symm
  | cons column columns ih =>
      rw [List.foldl_cons, ih, Record.addColumn, List.map_append, List.append_assoc]
      rfl

/-- The record has the columns that were added to it. -/
theorem completeTableRecord_columns (columns : List (Column ν ε)) :
    (completeTableRecord columns).specs.map Spec.column = columns := by
  have hfold := foldl_addColumn_columns columns ({} : Record ν ε)
  rw [completeTableRecord, Record.buildNullBitmap, List.map_map]
  exact hfold

/-! ## Two columns -/

variable {record : Record ν ε}

/-- The bytes of two columns do not overlap. -/
theorem Layout.disjoint (h : Layout record) {i j : Fin record.specs.length} (hne : i ≠ j) :
    record.specs[i].offset + record.specs[i].column.sizeInBytes ≤ record.specs[j].offset ∨
      record.specs[j].offset + record.specs[j].column.sizeInBytes ≤ record.specs[i].offset := by
  rcases Nat.lt_or_gt_of_ne (Fin.val_ne_of_ne hne) with hlt | hlt
  · exact Or.inl (List.pairwise_iff_getElem.mp h.ordered i j i.isLt j.isLt hlt)
  · exact Or.inr (List.pairwise_iff_getElem.mp h.ordered j i j.isLt i.isLt hlt)

/-- The null bits of two nullable columns are different bits. -/
theorem Layout.nullbit_ne (h : Layout record) {i j : Fin record.specs.length} (hne : i ≠ j)
    (hi : record.specs[i].column.nullable = true) (hj : record.specs[j].column.nullable = true) :
    (record.specs[i].nullbitByteOffset, record.specs[i].nullbitBitInByte) ≠
      (record.specs[j].nullbitByteOffset, record.specs[j].nullbitBitInByte) := by
  have hnullbit : record.specs[i].nullbit ≠ record.specs[j].nullbit := by
    rcases Nat.lt_or_gt_of_ne (Fin.val_ne_of_ne hne) with hlt | hlt
    · exact ne_of_lt (List.pairwise_iff_getElem.mp h.nullbits i j i.isLt j.isLt hlt hi hj)
    · exact ne_of_gt (List.pairwise_iff_getElem.mp h.nullbits j i j.isLt i.isLt hlt hj hi)
  intro heq
  obtain ⟨hbyte, hbit⟩ := Prod.mk.inj heq
  exact hnullbit (by rw [Spec.nullbit, Spec.nullbit, hbyte, hbit])

end DatabaseJones.NdbRecordObject

/-!
## The layout of a record

The columns of a record have separate bytes, those of 2, 4 or 8 bytes are aligned, and the null
bits lie behind them.  Setting or clearing a null bit never touches a byte outside the record; for a
column that is not nullable it does nothing, although the offset of its null bit may be that of the
end of the record.
-/

namespace DatabaseJones.NdbRecordObject

open DatabaseJones.Library

variable {ν ε : Type}

/-! ## What is expected -/

/-- A value that is aligned. -/
def Spec.IsAligned (spec : Spec ν ε) : Prop :=
  spec.column.sizeInBytes = 2 ∨ spec.column.sizeInBytes = 4 ∨ spec.column.sizeInBytes = 8 →
    spec.column.sizeInBytes ∣ spec.offset

/-- The null bit of a column. -/
def Spec.nullbitPlace (spec : Spec ν ε) : ℕ × ℕ :=
  (spec.nullbitByteOffset, spec.nullbitBitInByte)

/-- A write to a record leaves everything behind it alone. -/
def Record.Keeps (record : Record ν ε) (write : Memory → Memory) : Prop :=
  ∀ data address, record.recSize ≤ address → write data address = data address

/-- The layout of a record: the bytes of the columns, and the null bits of those that are
nullable. -/
structure Record.WellLaid (record : Record ν ε) : Prop where
  disjoint : ∀ i j : Fin record.specs.length, i ≠ j →
    record.specs[i].offset + record.specs[i].column.sizeInBytes ≤ record.specs[j].offset ∨
      record.specs[j].offset + record.specs[j].column.sizeInBytes ≤ record.specs[i].offset
  inside : ∀ spec ∈ record.specs, spec.offset + spec.column.sizeInBytes ≤ record.recSize
  aligned : ∀ spec ∈ record.specs, spec.IsAligned
  nullbit_ne : ∀ i j : Fin record.specs.length, i ≠ j →
    record.specs[i].column.nullable = true → record.specs[j].column.nullable = true →
      record.specs[i].nullbitPlace ≠ record.specs[j].nullbitPlace
  nullbit_behind : ∀ spec ∈ record.specs, spec.column.nullable = true →
    ∀ other ∈ record.specs, other.offset + other.column.sizeInBytes ≤ spec.nullbitByteOffset
  nullbit_inside : ∀ spec ∈ record.specs, spec.column.nullable = true →
    spec.nullbitByteOffset < record.recSize ∧ spec.nullbitBitInByte < 8
  keeps : ∀ spec ∈ record.specs, record.Keeps spec.setNull ∧ record.Keeps spec.setNotNull

/-! ## Alignment -/

theorem aligned_addColumn {record : Record ν ε} (h : ∀ spec ∈ record.specs, spec.IsAligned)
    (column : Column ν ε) : ∀ spec ∈ (record.addColumn column).specs, spec.IsAligned := by
  intro spec hspec
  rcases List.mem_append.mp hspec with hspec | hspec
  · exact h spec hspec
  · obtain rfl := List.mem_singleton.mp hspec
    exact dvd_padOffsetForAlignment record.recSize

theorem aligned_foldl (columns : List (Column ν ε)) {record : Record ν ε}
    (h : ∀ spec ∈ record.specs, spec.IsAligned) :
    ∀ spec ∈ (columns.foldl Record.addColumn record).specs, spec.IsAligned := by
  induction columns generalizing record with
  | nil => exact h
  | cons column columns ih => exact ih (aligned_addColumn h column)

/-- The null bitmap leaves the columns where they are. -/
theorem aligned_completeTableRecord (columns : List (Column ν ε)) :
    ∀ spec ∈ (completeTableRecord columns).specs, spec.IsAligned := by
  intro spec hspec
  obtain ⟨old, hold, rfl⟩ := List.mem_map.mp hspec
  exact aligned_foldl columns (fun _ hnil => absurd hnil List.not_mem_nil) old hold

/-! ## The size of a record -/

theorem padOffsetForAlignment_le (recSize alignment : ℕ) :
    padOffsetForAlignment recSize alignment ≤ recSize + 7 := by
  unfold padOffsetForAlignment
  split_ifs <;> omega

theorem recSize_foldl_le (columns : List (Column ν ε)) (record : Record ν ε) :
    (columns.foldl Record.addColumn record).recSize + (columns.foldl Record.addColumn record).nNullable ≤
      record.recSize + record.nNullable +
        (columns.map fun column => column.sizeInBytes + 8).sum := by
  induction columns generalizing record with
  | nil => exact le_refl _
  | cons column columns ih =>
      have hpad := padOffsetForAlignment_le record.recSize column.sizeInBytes
      have hstep : (record.addColumn column).recSize + (record.addColumn column).nNullable ≤
          record.recSize + record.nNullable + (column.sizeInBytes + 8) := by
        dsimp only [Record.addColumn]
        split_ifs <;> omega
      calc (columns.foldl Record.addColumn (record.addColumn column)).recSize +
            (columns.foldl Record.addColumn (record.addColumn column)).nNullable
          ≤ (record.addColumn column).recSize + (record.addColumn column).nNullable +
              (columns.map fun column => column.sizeInBytes + 8).sum := ih _
        _ ≤ record.recSize + record.nNullable + (column.sizeInBytes + 8) +
              (columns.map fun column => column.sizeInBytes + 8).sum :=
            Nat.add_le_add_right hstep _
        _ = _ := by rw [List.map_cons, List.sum_cons, Nat.add_assoc]

/-- Eight bytes for each column are enough for padding and null bits; so the size of a record fits
into its 32 bits as long as the columns do. -/
theorem recSize_completeTableRecord_le (columns : List (Column ν ε)) :
    (completeTableRecord columns).recSize ≤
      (columns.map fun column => column.sizeInBytes + 8).sum := by
  have hfold := recSize_foldl_le columns ({} : Record ν ε)
  unfold completeTableRecord Record.buildNullBitmap
  dsimp only at hfold ⊢
  split_ifs <;> omega

/-! ## Writes to null bits -/

theorem Layout.keeps_setNull {record : Record ν ε} (h : Layout record) {spec : Spec ν ε}
    (hspec : spec ∈ record.specs) : record.Keeps spec.setNull := by
  intro data address hbehind
  unfold Spec.setNull
  split_ifs with hnullable
  · have hinside := h.inside spec hspec hnullable
    exact setBit_of_ne data _ (ne_of_gt (hinside.trans_le hbehind))
  · rfl

theorem Layout.keeps_setNotNull {record : Record ν ε} (h : Layout record) {spec : Spec ν ε}
    (hspec : spec ∈ record.specs) : record.Keeps spec.setNotNull := by
  intro data address hbehind
  unfold Spec.setNotNull
  split_ifs with hnullable
  · have hinside := h.inside spec hspec hnullable
    exact clearBit_of_ne data _ (ne_of_gt (hinside.trans_le hbehind))
  · rfl

/-! ## Complete records -/

theorem Layout.wellLaid {record : Record ν ε} (h : Layout record)
    (haligned : ∀ spec ∈ record.specs, spec.IsAligned) : record.WellLaid where
  disjoint _ _ hne := h.disjoint hne
  inside spec hspec := (h.before spec hspec).trans h.le_recSize
  aligned := haligned
  nullbit_ne _ _ hne hi hj := h.nullbit_ne hne hi hj
  nullbit_behind spec hspec _ other hother := (h.before other hother).trans (h.behind spec hspec)
  nullbit_inside spec hspec hnullable := ⟨h.inside spec hspec hnullable, h.bit_lt spec hspec⟩
  keeps _ hspec := ⟨h.keeps_setNull hspec, h.keeps_setNotNull hspec⟩

/-- Every list of columns gets a layout, with the columns in their order. -/
theorem wellLaid_completeTableRecord (columns : List (Column ν ε)) :
    (completeTableRecord columns).specs.map Spec.column = columns ∧
      (completeTableRecord columns).WellLaid ∧
      (completeTableRecord columns).recSize ≤
        (columns.map fun column => column.sizeInBytes + 8).sum :=
  ⟨completeTableRecord_columns columns,
    (layout_completeTableRecord columns).wellLaid (aligned_completeTableRecord columns),
    recSize_completeTableRecord_le columns⟩

end DatabaseJones.NdbRecordObject
