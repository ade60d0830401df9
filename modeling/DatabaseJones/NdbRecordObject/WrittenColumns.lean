import DatabaseJones.NdbOperation.Builder
import DatabaseJones.NdbRecordObject.Views
import DatabaseJones.NdbRecordObject.Refinement

/-!
# Columns written by key operations

An object is written either through its native value object or as a plain object.  Both
ways mark the columns to be written in the 32-bit mask of a `KeyOperation` and give it one
handler for every BLOB.  NDB takes bit `n` of the mask, and the `columnId` of a handler, for
column `n` of the table; the record numbers the mapped columns by their position.
-/

namespace DatabaseJones.NdbRecordObject

open DatabaseJones.Library
open DatabaseJones.NdbOperation (Opcode)

variable {ν ε : Type} {table : Table ν ε}

/-- The mapped columns: the column at position `i` of the record is column `columnNo i` of the
table. -/
structure Mapping (table : Table ν ε) where
  columnNo : table.Field → ℕ
  primaryKey : table.Field → Bool
  columnNo_injective : Function.Injective columnNo

/-- The column values that `getColumns` finds in a plain object; `none` is undefined. -/
abbrev Values (table : Table ν ε) : Type := table.Field → Option (Option ν)

/-! ## KeyOperation -/

/-- A BLOB handler.  It belongs to column `columnId` of the table, and what is read goes to
field `fieldNumber`. -/
structure BlobHandler where
  columnId : ℕ
  fieldNumber : ℕ
  content : List UInt8 := []
deriving DecidableEq, Repr

/-- The mask is at the bytes 0 to 3 of `rowMask`; `maskAccesses` are the bytes that were
accessed. -/
structure KeyOperation where
  rowMask : Memory := fun _ => 0
  maskAccesses : List ℕ := []
  blobHandlers : List BlobHandler := []

namespace KeyOperation

def useColumn (op : KeyOperation) (colId : ℕ) : KeyOperation :=
  { op with
    rowMask := setBit op.rowMask (colId / 8) (colId % 8)
    maskAccesses := op.maskAccesses ++ [colId / 8] }

def setRowMask (op : KeyOperation) (newMaskValue : Memory) : KeyOperation :=
  { op with
    rowMask := fun byte => if byte < 4 then newMaskValue byte else op.rowMask byte
    maskAccesses := op.maskAccesses ++ List.range 4 }

def setBlobHandler (op : KeyOperation) (handler : BlobHandler) : KeyOperation :=
  { op with blobHandlers := handler :: op.blobHandlers }

/-- NDB takes bit `n` of the mask for column `n` of the table. -/
def selects (op : KeyOperation) (n : ℕ) : Bool := n < 32 && testBit op.rowMask (n / 8) (n % 8)

/-- The arguments of the constructor of `BlobReadHandler` are the position in the record and
then the number of the column. -/
def createBlobReadHandles (op : KeyOperation) (mapping : Mapping table) : KeyOperation :=
  (List.finRange _).foldl (fun op i =>
    if (table.spec i).column.isBlob then op.setBlobHandler ⟨i, mapping.columnNo i, []⟩ else op) op

def createBlobWriteHandles (op : KeyOperation) (mapping : Mapping table)
    (blobs : table.Field → Option (List UInt8)) : KeyOperation :=
  (List.finRange _).foldl (fun op i =>
    match blobs i with
    | some content => op.setBlobHandler ⟨i, mapping.columnNo i, content⟩
    | none => op) op

end KeyOperation

/-! ## Plain objects -/

/-- The numbers that `encodeColumnsInBuffer` adds to `definedColumnList`. -/
def Mapping.columnMask (mapping : Mapping table) (values : Values table) : List ℕ :=
  (List.finRange _).filterMap fun i => (values i).map fun _ => mapping.columnNo i

/-- `defineBlobs`: the buffers.  Null and undefined are no objects, and get no handler. -/
def defineBlobs (values : Values table) (i : table.Field) : Option (List UInt8) :=
  if (table.spec i).column.isBlob then
    (values i).join.map fun value => (table.spec i).column.encode value []
  else none

/-- `tableHandler.numberOfLobColumns` is not 0. -/
def Table.hasLobColumns (table : Table ν ε) : Bool :=
  (List.finRange _).any fun i : table.Field => (table.spec i).column.isBlob

/-- `DBOperationHelper_NonVO`, for an insert or update that was encoded without error. -/
def Mapping.helperNonVO (mapping : Mapping table) (values : Values table) : KeyOperation :=
  let op : KeyOperation :=
    if table.hasLobColumns then
      ({} : KeyOperation).createBlobWriteHandles mapping (defineBlobs values)
    else {}
  (mapping.columnMask values).foldl KeyOperation.useColumn op

/-- `DBOperationHelper_NonVO`, for a read. -/
def Mapping.helperRead (mapping : Mapping table) : KeyOperation :=
  if table.hasLobColumns then ({} : KeyOperation).createBlobReadHandles mapping else {}

/-! ## Value objects -/

/-- The mask of the columns that `addColumn` has added with the property. -/
def Table.positionMask (table : Table ν ε) (property : table.Field → Bool) : Memory :=
  ((List.finRange _).filter property).foldl
    (fun mask (i : table.Field) => setBit mask (i / 8) (i % 8)) fun _ => 0

def Table.allColumnMask (table : Table ν ε) : Memory := table.positionMask fun _ => true

def Mapping.pkColumnMask (mapping : Mapping table) : Memory := table.positionMask mapping.primaryKey

/-- `getMaskValue() & getPkColumnMask()` is not 0. -/
def Object.changesKey (object : Object table) (mapping : Mapping table) : Bool :=
  (List.range 4).any fun byte => object.rowMask byte &&& mapping.pkColumnMask byte ≠ 0

def Object.createBlobWriteHandles (object : Object table) (mapping : Mapping table)
    (op : KeyOperation) : KeyOperation :=
  (List.finRange _).foldl (fun op i =>
    if object.isMaskedIn i then
      match (object.proxy i).createBlobWriteHandle (table.spec i) with
      | some content => op.setBlobHandler ⟨mapping.columnNo i, i, content⟩
      | none => op
    else op) op

/-- `DBOperationHelper_VO`.  A persist operation must write all columns, and so must a save
operation if the primary key has changed. -/
def Mapping.helperVO (mapping : Mapping table) (opcode : Opcode) (object : Object table) :
    KeyOperation :=
  let mask :=
    if opcode.code = 2 then table.allColumnMask
    else if opcode.code = 8 ∧ object.changesKey mapping then table.allColumnMask
    else object.rowMask
  object.createBlobWriteHandles mapping (({} : KeyOperation).setRowMask mask)

/-! ## What an operation is to write -/

/-- The handlers for the BLOBs to be written: each belongs to the column of the field from
which its content comes. -/
def Mapping.writeHandlers (mapping : Mapping table) (values : Values table) : List BlobHandler :=
  ((List.finRange _).filterMap fun i =>
    (defineBlobs values i).map fun content => ⟨mapping.columnNo i, i, content⟩).reverse

/-- The handlers for all BLOBs of a row. -/
def Mapping.readHandlers (mapping : Mapping table) : List BlobHandler :=
  ((List.finRange _).filterMap fun i =>
    if (table.spec i).column.isBlob then some ⟨mapping.columnNo i, i, []⟩ else none).reverse

/-- The mask selects these fields, and was accessed only inside its four bytes. -/
structure Selects (mapping : Mapping table) (op : KeyOperation) (fields : table.Field → Bool) :
    Prop where
  selects_iff : ∀ n, op.selects n = true ↔ ∃ i, fields i = true ∧ mapping.columnNo i = n
  inside : ∀ byte ∈ op.maskAccesses, byte < 4

/-- The operation writes the values of the fields that are not undefined, and only those. -/
structure Writes (mapping : Mapping table) (values : Values table) (op : KeyOperation) : Prop where
  mask : Selects mapping op fun i => (values i).isSome
  blobs : op.blobHandlers = mapping.writeHandlers values

/-- The positions of these fields in the record are the numbers of their columns. -/
def Mapping.Aligned (mapping : Mapping table) (fields : table.Field → Bool) : Prop :=
  ∀ i, fields i = true → mapping.columnNo i = i

end DatabaseJones.NdbRecordObject

/-!
## Plain objects and value objects write the same columns

The mask and the handlers of either way are computed as sets of fields first.  A plain
object is written with the column numbers of the table in the mask but positions in the
handlers, a value object with positions in the mask but column numbers in the handlers; the
two agree where the numbers are the same.
-/

namespace DatabaseJones.NdbRecordObject

open DatabaseJones.Library
open DatabaseJones.NdbOperation (Opcode)

variable {ν ε : Type} {table : Table ν ε} {mapping : Mapping table}

/-! ## Handlers -/

/-- A loop that sets a handler for some fields. -/
theorem foldl_setBlobHandler (handler : table.Field → Option BlobHandler)
    (step : KeyOperation → table.Field → KeyOperation)
    (hstep : ∀ op i, step op i = match handler i with
      | some set => op.setBlobHandler set
      | none => op) (fields : List table.Field) (op : KeyOperation) :
    fields.foldl step op =
      { op with blobHandlers := (fields.filterMap handler).reverse ++ op.blobHandlers } := by
  induction fields generalizing op with
  | nil => rfl
  | cons i fields ih =>
      rw [List.foldl_cons, ih, hstep]
      cases hset : handler i with
      | none => rw [List.filterMap_cons_none hset]
      | some set =>
          rw [List.filterMap_cons_some hset, List.reverse_cons, List.append_assoc]
          rfl

theorem createBlobReadHandles_eq (op : KeyOperation) (mapping : Mapping table) :
    op.createBlobReadHandles mapping = { op with
      blobHandlers := ((List.finRange _).filterMap fun i : table.Field =>
        if (table.spec i).column.isBlob then some ⟨i, mapping.columnNo i, []⟩ else none).reverse ++
          op.blobHandlers } := by
  refine foldl_setBlobHandler _ _ (fun op i => ?_) _ op
  cases (table.spec i).column.isBlob <;> rfl

theorem createBlobWriteHandles_eq (op : KeyOperation) (mapping : Mapping table)
    (blobs : table.Field → Option (List UInt8)) :
    op.createBlobWriteHandles mapping blobs = { op with
      blobHandlers := ((List.finRange _).filterMap fun i =>
        (blobs i).map fun content => ⟨i, mapping.columnNo i, content⟩).reverse ++
          op.blobHandlers } := by
  refine foldl_setBlobHandler _ _ (fun op i => ?_) _ op
  cases blobs i <;> rfl

theorem Object.createBlobWriteHandles_eq (object : Object table) (op : KeyOperation) :
    object.createBlobWriteHandles mapping op = { op with
      blobHandlers := ((List.finRange _).filterMap fun i =>
        if object.isMaskedIn i then
          ((object.proxy i).createBlobWriteHandle (table.spec i)).map fun content =>
            ⟨mapping.columnNo i, i, content⟩
        else none).reverse ++ op.blobHandlers } := by
  refine foldl_setBlobHandler _ _ (fun op i => ?_) _ op
  cases object.isMaskedIn i
  · rfl
  · cases (object.proxy i).createBlobWriteHandle (table.spec i) <;> rfl

/-! ## Masks -/

theorem foldl_useColumn (colIds : List ℕ) (op : KeyOperation) :
    colIds.foldl KeyOperation.useColumn op =
      { op with
        rowMask := colIds.foldl (fun mask bit => setBit mask (bit / 8) (bit % 8)) op.rowMask
        maskAccesses := op.maskAccesses ++ colIds.map fun colId => colId / 8 } := by
  induction colIds generalizing op with
  | nil => simp
  | cons colId colIds ih =>
      rw [List.foldl_cons, ih]
      simp [KeyOperation.useColumn]

theorem mem_columnMask (values : Values table) (n : ℕ) :
    n ∈ mapping.columnMask values ↔ ∃ i, (values i).isSome = true ∧ mapping.columnNo i = n := by
  simp [Mapping.columnMask, List.mem_filterMap, Option.isSome_iff_exists]

/-- The mask of the columns with a property has a bit for each position. -/
theorem testBit_positionMask (property : table.Field → Bool) (n : ℕ) :
    testBit (table.positionMask property) (n / 8) (n % 8) = true ↔
      ∃ i : table.Field, property i = true ∧ (i : ℕ) = n := by
  have hbits := testBit_foldl_setBit (((List.finRange _).filter property).map
    fun i : table.Field => (i : ℕ)) (fun _ => 0) n
  rw [List.foldl_map, testBit_zero] at hbits
  rw [Table.positionMask, hbits]
  simp

theorem field_lt (i : table.Field) : (i : ℕ) < 32 := by
  have hlength : table.record.specs.length = table.columns.length := by
    rw [← List.length_map Spec.column, Table.record, completeTableRecord_columns]
  have hlt : (i : ℕ) < table.record.specs.length := i.isLt
  have hle := table.length_le
  omega

/-- The bytes in which a value object keeps the mask of its fields. -/
theorem field_byte_lt (i : table.Field) : (i : ℕ) / 8 < 4 := by
  have hlt := field_lt i
  omega

theorem selects_setRowMask (mask : Memory) (n : ℕ) :
    (({} : KeyOperation).setRowMask mask).selects n =
      (decide (n < 32) && testBit mask (n / 8) (n % 8)) := by
  unfold KeyOperation.selects
  by_cases hn : n < 32
  · have hbyte : n / 8 < 4 := by omega
    simp [KeyOperation.setRowMask, testBit, hbyte]
  · simp [hn]

/-! ## Plain objects -/

variable {values : Values table}

theorem isNone_defineBlobs (h : table.hasLobColumns = false) (values : Values table) (i : table.Field) :
    defineBlobs values i = none := by
  have hall := List.any_eq_false.mp h i (List.mem_finRange i)
  rw [defineBlobs, if_neg hall]

theorem helperNonVO_eq (mapping : Mapping table) (values : Values table) :
    mapping.helperNonVO values =
      { rowMask := (mapping.columnMask values).foldl
          (fun mask bit => setBit mask (bit / 8) (bit % 8)) fun _ => 0
        maskAccesses := (mapping.columnMask values).map fun colId => colId / 8
        blobHandlers := ((List.finRange _).filterMap fun i =>
          (defineBlobs values i).map fun content => ⟨i, mapping.columnNo i, content⟩).reverse } := by
  unfold Mapping.helperNonVO
  rw [foldl_useColumn]
  cases h : table.hasLobColumns with
  | false =>
      have hnone : ((List.finRange _).filterMap fun i =>
          (defineBlobs values i).map fun content =>
            (⟨i, mapping.columnNo i, content⟩ : BlobHandler)) = [] := by
        refine List.filterMap_eq_nil_iff.mpr fun i _ => ?_
        rw [isNone_defineBlobs h, Option.map_none]
      rw [hnone]
      rfl
  | true =>
      rw [if_pos rfl, createBlobWriteHandles_eq]
      simp

/-- A plain object selects the changed columns among the first 32 columns of the table. -/
theorem selects_helperNonVO (values : Values table) (n : ℕ) :
    (mapping.helperNonVO values).selects n = true ↔
      n < 32 ∧ ∃ i, (values i).isSome = true ∧ mapping.columnNo i = n := by
  rw [helperNonVO_eq, KeyOperation.selects, Bool.and_eq_true, decide_eq_true_iff,
    testBit_foldl_setBit, testBit_zero, mem_columnMask]
  simp

/-- The mask of a plain object is right if, and only if, all changed columns are among the first
32 columns of the table. -/
theorem selects_helperNonVO_iff :
    Selects mapping (mapping.helperNonVO values) (fun i => (values i).isSome) ↔
      ∀ i, (values i).isSome = true → mapping.columnNo i < 32 := by
  constructor
  · intro hselects i hi
    exact ((selects_helperNonVO values _).mp ((hselects.selects_iff _).mpr ⟨i, hi, rfl⟩)).1
  · intro hlt
    refine ⟨fun n => (selects_helperNonVO values n).trans ⟨And.right, fun h => ⟨?_, h⟩⟩, ?_⟩
    · obtain ⟨i, hi, rfl⟩ := h
      exact hlt i hi
    · intro byte hbyte
      rw [helperNonVO_eq] at hbyte
      obtain ⟨colId, hcolId, rfl⟩ := List.mem_map.mp hbyte
      obtain ⟨i, hi, rfl⟩ := (mem_columnMask values colId).mp hcolId
      have := hlt i hi
      omega

/-- Two loops that set a handler for the same fields set the same handlers if they do so for
each of the fields. -/
theorem filterMap_handlers_inj {first second : table.Field → Option BlobHandler}
    (hfields : ∀ i, (first i).isSome = (second i).isSome) :
    ((List.finRange _).filterMap first).reverse = ((List.finRange _).filterMap second).reverse ↔
      ∀ i, first i = second i := by
  refine List.reverse_inj.trans ⟨fun heq i => ?_, fun h => congrArg (List.filterMap · _) (funext h)⟩
  suffices hall : ∀ fields : List table.Field,
      fields.filterMap first = fields.filterMap second → ∀ i ∈ fields, first i = second i from
    hall _ heq i (List.mem_finRange i)
  intro fields
  induction fields with
  | nil => intro _ i hi; exact absurd hi List.not_mem_nil
  | cons head fields ih =>
      intro heq
      have hhead := hfields head
      cases hfirst : first head with
      | none =>
          have hsecond : second head = none := by
            rw [hfirst] at hhead
            exact Option.isNone_iff_eq_none.mp (by simpa using hhead.symm)
          rw [List.filterMap_cons_none hfirst, List.filterMap_cons_none hsecond] at heq
          exact List.forall_mem_cons.mpr ⟨hfirst.trans hsecond.symm, ih heq⟩
      | some set =>
          obtain ⟨other, hsecond⟩ : ∃ other, second head = some other := by
            rw [hfirst] at hhead
            exact Option.isSome_iff_exists.mp (by simpa using hhead.symm)
          rw [List.filterMap_cons_some hfirst, List.filterMap_cons_some hsecond] at heq
          obtain ⟨hset, hrest⟩ := List.cons.inj heq
          exact List.forall_mem_cons.mpr ⟨by rw [hfirst, hsecond, hset], ih hrest⟩

/-- An undefined value has no buffer. -/
theorem isSome_of_defineBlobs {i : table.Field} (h : (defineBlobs values i).isSome = true) :
    (values i).isSome = true := by
  unfold defineBlobs at h
  cases hvalue : values i with
  | some value => rfl
  | none =>
      rw [hvalue] at h
      simp at h

/-- A plain object opens the right BLOBs if, and only if, the changed BLOB columns have the same
position in the record as in the table. -/
theorem blobHandlers_helperNonVO_iff :
    (mapping.helperNonVO values).blobHandlers = mapping.writeHandlers values ↔
      mapping.Aligned fun i => (defineBlobs values i).isSome := by
  rw [helperNonVO_eq]
  refine (filterMap_handlers_inj fun i => ?_).trans (forall_congr' fun i => ?_)
  · simp
  · change _ ↔ ((defineBlobs values i).isSome = true → _)
    cases defineBlobs values i with
    | none => exact iff_of_true rfl fun h => absurd h (by decide)
    | some content =>
        rw [Option.map_some, Option.map_some, Option.some_inj, BlobHandler.mk.injEq]
        exact ⟨fun h _ => h.2.1, fun h => ⟨(h rfl).symm, h rfl, rfl⟩⟩

/-- A read delivers the right BLOBs if, and only if, all mapped BLOB columns have the same
position in the record as in the table. -/
theorem blobHandlers_helperRead_iff :
    mapping.helperRead.blobHandlers = mapping.readHandlers ↔
      mapping.Aligned fun i => (table.spec i).column.isBlob := by
  have hread : mapping.helperRead.blobHandlers = ((List.finRange _).filterMap fun i : table.Field =>
      if (table.spec i).column.isBlob then
        some (⟨i, mapping.columnNo i, []⟩ : BlobHandler) else none).reverse := by
    unfold Mapping.helperRead
    cases h : table.hasLobColumns with
    | false =>
        refine (List.reverse_eq_nil_iff.mpr (List.filterMap_eq_nil_iff.mpr fun i hi => ?_)).symm
        rw [if_neg (List.any_eq_false.mp h i hi)]
    | true =>
        rw [if_pos rfl, createBlobReadHandles_eq]
        exact List.append_nil _
  rw [hread]
  refine (filterMap_handlers_inj fun i => ?_).trans (forall_congr' fun i => ?_)
  · cases (table.spec i).column.isBlob <;> rfl
  · change _ ↔ ((table.spec i).column.isBlob = true → _)
    cases (table.spec i).column.isBlob with
    | false => exact iff_of_true rfl fun h => absurd h (by decide)
    | true =>
        rw [if_pos rfl, if_pos rfl, Option.some_inj, BlobHandler.mk.injEq]
        exact ⟨fun h _ => h.2.1, fun h => ⟨(h rfl).symm, h rfl, rfl⟩⟩

/-! ## Value objects -/

/-- The proxy has the value that was set, and the mask the bits of the fields that were set. -/
structure Tracked (state : State table) : Prop where
  testBit_iff : ∀ n, testBit state.object.rowMask (n / 8) (n % 8) = true ↔
    ∃ i : table.Field, (lastSet i state.trace).isSome = true ∧ (i : ℕ) = n
  proxy : ∀ i value, lastSet i state.trace = some value →
    (state.object.proxy i).isLoaded = true ∧ (state.object.proxy i).jsValue = value ∧
      (state.object.proxy i).isNull = value.isNone

theorem rowMask_nroConstructor (row : Row table) : row.nroConstructor.rowMask = fun _ => 0 := by
  suffices hfold : ∀ (fields : List table.Field) (object : Object table),
      (fields.foldl (attachBlob row) object).rowMask = object.rowMask from hfold _ _
  intro fields
  induction fields with
  | nil => exact fun _ => rfl
  | cons i fields ih =>
      intro object
      rw [List.foldl_cons, ih]
      unfold attachBlob
      rcases row.blobs i with _ | _ | content <;> rfl

theorem tracked_start (row : Row table) : Tracked row.start := by
  refine ⟨fun n => ?_, fun i value h => nomatch h⟩
  rw [show row.start.object.rowMask = fun _ => 0 from rowMask_nroConstructor row, testBit_zero]
  refine iff_of_false Bool.false_ne_true ?_
  rintro ⟨i, hi, -⟩
  exact Bool.false_ne_true hi

/-- Reading a field that was set leaves its proxy as it is. -/
theorem proxy_getField (object : Object table) (nField i : table.Field)
    (hloaded : (object.proxy i).isLoaded = true) :
    (object.getField nField).2.proxy i = object.proxy i := by
  rcases getField_snd object nField with heq | heq <;> rw [heq]
  by_cases hi : i = nField
  · subst hi
    dsimp only
    rw [Function.update_self, ColumnProxy.get, if_pos hloaded]
  · dsimp only
    rw [Function.update_of_ne hi]

theorem rowMask_getField (object : Object table) (nField : table.Field) :
    (object.getField nField).2.rowMask = object.rowMask := by
  rcases getField_snd object nField with heq | heq <;> rw [heq]

theorem rowMask_prepareField (prepared : Object table × Option ε) (i : table.Field) :
    (prepareField prepared i).1.rowMask = prepared.1.rowMask := by
  unfold prepareField
  dsimp only
  split_ifs <;> rfl

theorem rowMask_prepare (object : Object table) : object.prepare.1.rowMask = object.rowMask := by
  suffices hfold : ∀ (fields : List table.Field) (prepared : Object table × Option ε),
      (fields.foldl prepareField prepared).1.rowMask = prepared.1.rowMask from hfold _ _
  intro fields
  induction fields with
  | nil => exact fun _ => rfl
  | cons i fields ih => exact fun prepared => (ih _).trans (rowMask_prepareField prepared i)

theorem proxy_write (proxy : ColumnProxy ν) (spec : Spec ν ε) (buffer : Memory) :
    (proxy.write spec buffer).2.2 = { proxy with isDirty := false } := by
  unfold ColumnProxy.write
  cases proxy.jsValue with
  | none => rfl
  | some value =>
      dsimp only
      split_ifs <;> rfl

/-- `prepare` does not change the value of a proxy. -/
theorem proxy_prepareField (prepared : Object table × Option ε) (i j : table.Field) :
    ((prepareField prepared i).1.proxy j).isLoaded = (prepared.1.proxy j).isLoaded ∧
      ((prepareField prepared i).1.proxy j).jsValue = (prepared.1.proxy j).jsValue ∧
      ((prepareField prepared i).1.proxy j).isNull = (prepared.1.proxy j).isNull := by
  unfold prepareField
  dsimp only
  split_ifs
  · exact ⟨rfl, rfl, rfl⟩
  · dsimp only
    by_cases hj : j = i
    · rw [hj, Function.update_self, proxy_write]
      exact ⟨rfl, rfl, rfl⟩
    · rw [Function.update_of_ne hj]
      exact ⟨rfl, rfl, rfl⟩
  · exact ⟨rfl, rfl, rfl⟩

theorem proxy_prepare (object : Object table) (j : table.Field) :
    (object.prepare.1.proxy j).isLoaded = (object.proxy j).isLoaded ∧
      (object.prepare.1.proxy j).jsValue = (object.proxy j).jsValue ∧
      (object.prepare.1.proxy j).isNull = (object.proxy j).isNull := by
  suffices hfold : ∀ (fields : List table.Field) (prepared : Object table × Option ε),
      ((fields.foldl prepareField prepared).1.proxy j).isLoaded = (prepared.1.proxy j).isLoaded ∧
      ((fields.foldl prepareField prepared).1.proxy j).jsValue = (prepared.1.proxy j).jsValue ∧
      ((fields.foldl prepareField prepared).1.proxy j).isNull = (prepared.1.proxy j).isNull from
    hfold _ _
  intro fields
  induction fields with
  | nil => exact fun _ => ⟨rfl, rfl, rfl⟩
  | cons i fields ih =>
      intro prepared
      obtain ⟨hloaded, hvalue, hnull⟩ := proxy_prepareField prepared i j
      obtain ⟨hloaded', hvalue', hnull'⟩ := ih (prepareField prepared i)
      exact ⟨hloaded'.trans hloaded, hvalue'.trans hvalue, hnull'.trans hnull⟩

theorem Tracked.setField {state : State table} (h : Tracked state) (nField : table.Field)
    (value : Option ν) :
    Tracked ⟨state.object.setField nField value, state.trace ++ [.set nField value]⟩ := by
  have hlast : ∀ i, lastSet i (state.trace ++ [.set nField value]) =
      if nField = i then some value else lastSet i state.trace := fun i => lastSet_concat i _ _
  refine ⟨fun n => ?_, fun i last hset => ?_⟩
  · have hbits := testBit_foldl_setBit [(nField : ℕ)] state.object.rowMask n
    refine hbits.trans ((or_congr (h.testBit_iff n) List.mem_singleton).trans ⟨?_, ?_⟩)
    · rintro (⟨i, hi, rfl⟩ | rfl)
      · refine ⟨i, ?_, rfl⟩
        rw [hlast]
        split_ifs
        · rfl
        · exact hi
      · exact ⟨nField, by rw [hlast, if_pos rfl]; rfl, rfl⟩
    · rintro ⟨i, hi, rfl⟩
      rw [hlast] at hi
      by_cases heq : nField = i
      · exact Or.inr (congrArg Fin.val heq.symm)
      · rw [if_neg heq] at hi
        exact Or.inl ⟨i, hi, rfl⟩
  · rw [hlast] at hset
    by_cases heq : nField = i
    · subst heq
      rw [if_pos rfl] at hset
      cases hset
      have hproxy : (state.object.setField nField value).proxy nField =
          (state.object.proxy nField).set value := Function.update_self _ _ _
      rw [hproxy]
      exact ⟨rfl, rfl, rfl⟩
    · rw [if_neg heq] at hset
      have hproxy : (state.object.setField nField value).proxy i = state.object.proxy i :=
        Function.update_of_ne (Ne.symm heq) _ _
      rw [hproxy]
      exact h.proxy i last hset

theorem Tracked.getField {state : State table} (h : Tracked state) (nField : table.Field) :
    Tracked ⟨(state.object.getField nField).2,
      state.trace ++ [.got nField (state.object.getField nField).1]⟩ := by
  refine ⟨fun n => ?_, fun i value hset => ?_⟩
  · dsimp only
    rw [rowMask_getField, h.testBit_iff]
    simp only [lastSet_concat]
  · rw [lastSet_concat] at hset
    dsimp only
    rw [proxy_getField _ _ _ (h.proxy i value hset).1]
    exact h.proxy i value hset

theorem Tracked.prepare {state : State table} (h : Tracked state) :
    Tracked ⟨state.object.prepare.1, state.trace ++ [.prepared state.object.prepare.2
      state.object.prepare.1.decode state.object.prepare.1.isMaskedIn]⟩ := by
  refine ⟨fun n => ?_, fun i value hset => ?_⟩
  · dsimp only
    rw [rowMask_prepare, h.testBit_iff]
    simp only [lastSet_concat]
  · rw [lastSet_concat] at hset
    obtain ⟨hloaded, hvalue, hnull⟩ := proxy_prepare state.object i
    dsimp only
    rw [hloaded, hvalue, hnull]
    exact h.proxy i value hset

theorem Tracked.step {state next : State table} {event : Event table} (h : Tracked state)
    (hnext : step state event = some next) : Tracked next := by
  cases event with
  | getField nField =>
      cases hnext
      exact h.getField nField
  | setField nField value =>
      cases hnext
      exact h.setField nField value
  | prepare =>
      cases hnext
      exact h.prepare

theorem tracked_of_run (row : Row table) {events : List (Event table)} {state : State table}
    (hrun : run step row.start events = some state) : Tracked state :=
  invariant_of_run Tracked (fun _ _ _ h hnext => h.step hnext) (tracked_start row) hrun

/-- The fields that were set since the object was read, with the values they were set to. -/
def State.changed (state : State table) : Values table := fun i => lastSet i state.trace

theorem Tracked.isMaskedIn {state : State table} (h : Tracked state) (i : table.Field) :
    state.object.isMaskedIn i = (state.changed i).isSome := by
  refine Bool.eq_iff_iff.mpr ((h.testBit_iff i).trans ⟨?_, fun hi => ⟨i, hi, rfl⟩⟩)
  rintro ⟨j, hj, heq⟩
  rwa [Fin.ext heq] at hj

/-- A value object opens the BLOBs of the fields that were set. -/
theorem Tracked.blobHandlers_helperVO {state : State table} (h : Tracked state)
    (mapping : Mapping table) (opcode : Opcode) :
    (mapping.helperVO opcode state.object).blobHandlers = mapping.writeHandlers state.changed := by
  unfold Mapping.helperVO Mapping.writeHandlers
  rw [Object.createBlobWriteHandles_eq]
  refine (List.append_nil _).trans
    (congrArg (fun handler => (List.filterMap handler _).reverse) (funext fun i => ?_))
  rw [h.isMaskedIn, defineBlobs]
  cases hset : state.changed i with
  | none => cases (table.spec i).column.isBlob <;> rfl
  | some value =>
      obtain ⟨-, hvalue, hnull⟩ := h.proxy i value hset
      rw [ColumnProxy.createBlobWriteHandle, hvalue, hnull]
      cases value <;> cases (table.spec i).column.isBlob <;> rfl

theorem maskAccesses_helperVO (mapping : Mapping table) (opcode : Opcode) (object : Object table) :
    (mapping.helperVO opcode object).maskAccesses = List.range 4 := by
  unfold Mapping.helperVO
  rw [Object.createBlobWriteHandles_eq]
  rfl

/-- An update selects the columns that the table has at the positions of the fields. -/
theorem Tracked.selects_helperVO_update {state : State table} (h : Tracked state) (n : ℕ) :
    (mapping.helperVO .update state.object).selects n = true ↔
      ∃ i, (state.changed i).isSome = true ∧ (i : ℕ) = n := by
  have hselects : (mapping.helperVO .update state.object).selects n =
      (decide (n < 32) && testBit state.object.rowMask (n / 8) (n % 8)) := by
    unfold Mapping.helperVO
    rw [Object.createBlobWriteHandles_eq]
    exact selects_setRowMask _ n
  rw [hselects, Bool.and_eq_true, decide_eq_true_iff, h.testBit_iff]
  refine ⟨And.right, fun hbit => ⟨?_, hbit⟩⟩
  obtain ⟨i, -, rfl⟩ := hbit
  exact field_lt i

/-- An insert selects as many columns as are mapped, from the first column of the table on. -/
theorem selects_helperVO_insert (object : Object table) (n : ℕ) :
    (mapping.helperVO .insert object).selects n = true ↔ ∃ i : table.Field, (i : ℕ) = n := by
  have hselects : (mapping.helperVO .insert object).selects n =
      (decide (n < 32) && testBit table.allColumnMask (n / 8) (n % 8)) := by
    unfold Mapping.helperVO
    rw [Object.createBlobWriteHandles_eq]
    exact selects_setRowMask _ n
  have hbit : testBit table.allColumnMask (n / 8) (n % 8) = true ↔ ∃ i : table.Field, (i : ℕ) = n :=
    (testBit_positionMask _ n).trans (exists_congr fun i => and_iff_right rfl)
  rw [hselects, Bool.and_eq_true, decide_eq_true_iff, hbit]
  refine ⟨And.right, fun hfield => ⟨?_, hfield⟩⟩
  obtain ⟨i, rfl⟩ := hfield
  exact field_lt i

/-! ## The two ways agree -/

/-- What the two ways write of an object.  A value object opens the right BLOBs, a plain object
has the right mask for the first 32 columns of a table, and where positions are column numbers
both do both.  An insert of a value object writes all columns. -/
structure PathsAgree (mapping : Mapping table) (state : State table) : Prop where
  valueObjectBlobs : ∀ opcode, (mapping.helperVO opcode state.object).blobHandlers =
    mapping.writeHandlers state.changed
  valueObjectInside : ∀ opcode, ∀ byte ∈ (mapping.helperVO opcode state.object).maskAccesses, byte < 4
  maskInInside : ∀ i : table.Field, (i : ℕ) / 8 < 4
  plainMask : (∀ i, (state.changed i).isSome = true → mapping.columnNo i < 32) →
    Selects mapping (mapping.helperNonVO state.changed) fun i => (state.changed i).isSome
  changed : mapping.Aligned (fun i => (state.changed i).isSome) →
    Writes mapping state.changed (mapping.helperNonVO state.changed) ∧
      Writes mapping state.changed (mapping.helperVO .update state.object)
  insert : mapping.Aligned (fun _ => true) →
    Selects mapping (mapping.helperVO .insert state.object) fun _ => true
  read : mapping.Aligned (fun i => (table.spec i).column.isBlob) →
    mapping.helperRead.blobHandlers = mapping.readHandlers

theorem inside_helperVO (mapping : Mapping table) (opcode : Opcode) (object : Object table) :
    ∀ byte ∈ (mapping.helperVO opcode object).maskAccesses, byte < 4 := by
  intro byte hbyte
  rw [maskAccesses_helperVO] at hbyte
  exact List.mem_range.mp hbyte

/-- Where the positions of the changed fields are column numbers, a plain object is written as it
should be. -/
theorem writes_helperNonVO (haligned : mapping.Aligned fun i => (values i).isSome) :
    Writes mapping values (mapping.helperNonVO values) := by
  refine ⟨selects_helperNonVO_iff.mpr fun i hi => ?_, blobHandlers_helperNonVO_iff.mpr fun i hi => ?_⟩
  · rw [haligned i hi]
    exact field_lt i
  · exact haligned i (isSome_of_defineBlobs hi)

/-- Where the positions of the changed fields are column numbers, so is an updated value object. -/
theorem Tracked.writes_helperVO_update {state : State table} (h : Tracked state)
    (haligned : mapping.Aligned fun i => (state.changed i).isSome) :
    Writes mapping state.changed (mapping.helperVO .update state.object) := by
  refine ⟨⟨fun n => (h.selects_helperVO_update n).trans ?_, inside_helperVO _ _ _⟩,
    h.blobHandlers_helperVO mapping .update⟩
  exact exists_congr fun i => and_congr_right fun hi => by rw [haligned i hi]

/-- The first columns of a table, in their order. -/
def Mapping.identity (table : Table ν ε) : Mapping table where
  columnNo i := i
  primaryKey i := i.val = 0
  columnNo_injective := Fin.val_injective

end DatabaseJones.NdbRecordObject
