import DatabaseJones.NdbRecordObject.Record
import DatabaseJones.Library.Run
import DatabaseJones.Ndb.IntegerEncoders
import DatabaseJones.Library.Components

/-!
# Value objects

An `NdbRecordObject` holds a row read from NDB.  Each of its fields has a `ColumnProxy` with
the value that was read or set; `prepare` writes the values that were set to the row.
-/

namespace DatabaseJones.NdbRecordObject

open DatabaseJones.Library
open DatabaseJones.Ndb (IntegerType Status Supplied)

variable {ν ε : Type}

/-- `addColumn` asserts that a record has at most 32 columns, so that four bytes hold a mask
of them. -/
structure Table (ν ε : Type) where
  columns : List (Column ν ε)
  length_le : columns.length ≤ 32

def Table.record (table : Table ν ε) : Record ν ε := completeTableRecord table.columns

abbrev Table.Field (table : Table ν ε) : Type := Fin table.record.specs.length

def Table.spec (table : Table ν ε) (nField : table.Field) : Spec ν ε := table.record.specs[nField]

/-! ## Column proxies -/

structure ColumnProxy (ν : Type) where
  jsValue : Option ν := none
  blobBuffer : List UInt8 := []
  isNull : Bool := false
  isLoaded : Bool := false
  isDirty : Bool := false

/-- The bytes of a column in the row buffer. -/
def Spec.bytes (spec : Spec ν ε) (buffer : Memory) : List UInt8 :=
  readBytes buffer spec.offset spec.column.sizeInBytes

/-- `ColumnHandler::read`. -/
def Spec.read (spec : Spec ν ε) (buffer : Memory) (blobBuffer : List UInt8) : Option ν :=
  spec.column.read (if spec.column.isBlob then blobBuffer else spec.bytes buffer)

def ColumnProxy.get (proxy : ColumnProxy ν) (spec : Spec ν ε) (buffer : Memory) :
    Option ν × ColumnProxy ν :=
  if proxy.isLoaded then (proxy.jsValue, proxy)
  else
    let val := spec.read buffer proxy.blobBuffer
    (val, { proxy with jsValue := val, isLoaded := true })

def ColumnProxy.set (proxy : ColumnProxy ν) (newValue : Option ν) : ColumnProxy ν :=
  { proxy with isNull := newValue.isNone, isLoaded := true, isDirty := true, jsValue := newValue }

/-- The error, the row buffer, and the proxy.  A dirty proxy holds null only if `isNull`, and
is not written then. -/
def ColumnProxy.write (proxy : ColumnProxy ν) (spec : Spec ν ε) (buffer : Memory) :
    Option ε × Memory × ColumnProxy ν :=
  let written := { proxy with isDirty := false }
  match proxy.jsValue with
  | some value =>
      if proxy.isDirty && !spec.column.isBlob then
        (spec.column.check value,
          writeBytes buffer spec.offset (spec.column.encode value (spec.bytes buffer)), written)
      else (none, buffer, written)
  | none => (none, buffer, written)

/-- The content of the `BlobWriteHandler`. -/
def ColumnProxy.createBlobWriteHandle (proxy : ColumnProxy ν) (spec : Spec ν ε) :
    Option (List UInt8) :=
  if !proxy.isNull && spec.column.isBlob then
    proxy.jsValue.map fun value => spec.column.encode value []
  else none

/-! ## The object -/

/-- A row as NDB delivers it: the row buffer, and for every TEXT or BLOB column its content,
or null. -/
structure Row (table : Table ν ε) where
  buffer : Memory
  blobs : table.Field → Option (Option (List UInt8))
  isSome_blobs : ∀ i, (blobs i).isSome = (table.spec i).column.isBlob
  nullable_of_null : ∀ i, blobs i = some none → (table.spec i).column.nullable = true

structure Object (table : Table ν ε) where
  buffer : Memory
  proxy : table.Field → ColumnProxy ν
  rowMask : Memory
  nWrites : UInt16

variable {table : Table ν ε}

/-- Attach the BLOB buffer of a column. -/
def attachBlob (row : Row table) (object : Object table) (i : table.Field) : Object table :=
  match row.blobs i with
  | some (some content) =>
      { object with
        proxy := Function.update object.proxy i { object.proxy i with blobBuffer := content }
        buffer := (table.spec i).setNotNull object.buffer }
  | some none => { object with buffer := (table.spec i).setNull object.buffer }
  | none => object

def Row.nroConstructor (row : Row table) : Object table :=
  (List.finRange _).foldl (attachBlob row) ⟨row.buffer, fun _ => {}, fun _ => 0, 0⟩

def Object.maskIn (object : Object table) (nField : table.Field) : Object table :=
  { object with rowMask := setBit object.rowMask (nField / 8) (nField % 8) }

def Object.isMaskedIn (object : Object table) (nField : table.Field) : Bool :=
  testBit object.rowMask (nField / 8) (nField % 8)

def Object.getField (object : Object table) (nField : table.Field) : Option ν × Object table :=
  if (table.spec nField).isNull object.buffer then (none, object)
  else
    let (value, proxy) := (object.proxy nField).get (table.spec nField) object.buffer
    (value, { object with proxy := Function.update object.proxy nField proxy })

def Object.setField (object : Object table) (nField : table.Field) (value : Option ν) :
    Object table :=
  let masked := { object with nWrites := object.nWrites + 1 }.maskIn nField
  { masked with proxy := Function.update masked.proxy nField ((masked.proxy nField).set value) }

/-- What `prepare` does for one column. -/
def prepareField (prepared : Object table × Option ε) (i : table.Field) : Object table × Option ε :=
  let (object, savedError) := prepared
  if object.isMaskedIn i then
    if (object.proxy i).isNull then
      ({ object with buffer := (table.spec i).setNull object.buffer }, savedError)
    else
      let (writeStatus, buffer, proxy) := (object.proxy i).write (table.spec i) object.buffer
      ({ object with buffer, proxy := Function.update object.proxy i proxy },
        writeStatus <|> savedError)
  else (object, savedError)

def Object.prepare (object : Object table) : Object table × Option ε :=
  (List.finRange _).foldl prepareField (object, none)

/-! ## Runs -/

/-- Decode a column of the record: what NDB would find there, with the content of the BLOB
handles that `createBlobWriteHandles` makes. -/
def Object.decode (object : Object table) (i : table.Field) : Option ν :=
  let proxy := object.proxy i
  let written := if object.isMaskedIn i then proxy.createBlobWriteHandle (table.spec i) else none
  if (table.spec i).isNull object.buffer then none
  else (table.spec i).read object.buffer (written.getD proxy.blobBuffer)

/-- What can be observed: the fields that are set, the values that are read, and the error,
the record and the mask after `prepare`. -/
inductive Output (table : Table ν ε)
  | set (nField : table.Field) (value : Option ν)
  | got (nField : table.Field) (value : Option ν)
  | prepared (error : Option ε) (record : table.Field → Option ν) (mask : table.Field → Bool)

inductive Event (table : Table ν ε)
  | getField (nField : table.Field)
  | setField (nField : table.Field) (value : Option ν)
  | prepare

structure State (table : Table ν ε) where
  object : Object table
  trace : List (Output table) := []

def step (state : State table) : Event table → Option (State table)
  | .getField nField =>
      let (value, object) := state.object.getField nField
      some ⟨object, state.trace ++ [.got nField value]⟩
  | .setField nField value =>
      some ⟨state.object.setField nField value, state.trace ++ [.set nField value]⟩
  | .prepare =>
      let (object, error) := state.object.prepare
      some ⟨object, state.trace ++ [.prepared error object.decode object.isMaskedIn]⟩

def Row.start (row : Row table) : State table := ⟨row.nroConstructor, []⟩

/-! ## What a value object is for -/

/-- The value decoded from the row. -/
def Row.value (row : Row table) (i : table.Field) : Option ν :=
  match row.blobs i with
  | some content => content.bind (table.spec i).column.read
  | none =>
      if (table.spec i).isNull row.buffer then none
      else (table.spec i).column.read ((table.spec i).bytes row.buffer)

/-- The value last set for a field. -/
def lastSet (i : table.Field) (trace : List (Output table)) : Option (Option ν) :=
  trace.foldl (fun last output =>
    match output with
    | .set nField value => if nField = i then some value else last
    | _ => last) none

/-- The value last set for a field, or the value decoded from the row. -/
def Row.current (row : Row table) (trace : List (Output table)) (i : table.Field) : Option ν :=
  (lastSet i trace).getD (row.value i)

/-- Fields are read back as they were set, and after a `prepare` without error the record holds
them and the mask tells which ones were set. -/
structure Updates (row : Row table) (trace : List (Output table)) : Prop where
  gets : ∀ before nField value, before ++ [.got nField value] <+: trace →
    value = row.current before nField
  prepares : ∀ before record mask, before ++ [.prepared none record mask] <+: trace →
    record = row.current before ∧ ∀ i, mask i = (lastSet i before).isSome

/-- What the encoder writes for a value, it reads back, unless it reports an error. -/
def Spec.Keeps (spec : Spec ν ε) (buffer : Memory) (value : ν) : Prop :=
  if spec.column.isBlob then spec.column.read (spec.column.encode value []) = some value
  else spec.column.check value = none →
    spec.column.read (spec.column.encode value (spec.bytes buffer)) = some value

/-- A field is set to null if its column is nullable, and to a value if the row does not have
null there and the encoder keeps the value; `prepare` is called again only after every value
with which it failed has been replaced. -/
def Allowed (state : State table) : Event table → Prop
  | .getField _ => True
  | .setField nField none => (table.spec nField).column.nullable = true
  | .setField nField (some value) =>
      (table.spec nField).isNull state.object.buffer = false ∧
        (table.spec nField).Keeps state.object.buffer value
  | .prepare => ∀ i, state.object.isMaskedIn i = true → (state.object.proxy i).isDirty = false →
      (table.spec i).column.isBlob = false →
        ((state.object.proxy i).jsValue.bind (table.spec i).column.check) = none

instance [DecidableEq ν] [DecidableEq ε] (spec : Spec ν ε) (buffer : Memory) (value : ν) :
    Decidable (spec.Keeps buffer value) := by
  unfold Spec.Keeps
  infer_instance

instance [DecidableEq ν] [DecidableEq ε] (state : State table) :
    ∀ event, Decidable (Allowed state event)
  | .getField _ => inferInstanceAs (Decidable True)
  | .setField _ none => inferInstanceAs (Decidable (_ = true))
  | .setField _ (some _) => inferInstanceAs (Decidable (_ ∧ _))
  | .prepare => inferInstanceAs (Decidable (∀ _, _))

/-- An integer column with the writers and readers of `NdbTypeEncoders.cpp`. -/
def integerColumn (undefinedInt : Option ℤ → ℤ) (type : Ndb.SmallType) (nullable : Bool) :
    Column ℤ Status where
  sizeInBytes := type.size
  nullable := nullable
  isBlob := false
  read bytes := some ((IntegerType.small type).read bytes)
  encode value _ := ((IntegerType.small type).write undefinedInt (.number value)).2
  check value :=
    match ((IntegerType.small type).write undefinedInt (.number value)).1 with
    | .writerOK => none
    | status => some status
  length_encode _ value _ _ := by
    dsimp only [IntegerType.write, Ndb.smallintWriter]
    split_ifs <;> simp [Ndb.storeInt]

end DatabaseJones.NdbRecordObject

/-!
## The parts of an object that belong to one column

A column has its proxy, its bit in the mask, its bytes and its null bit.  Every operation on
a field changes these for its own column only, since the regions of a record do not overlap.
-/

namespace DatabaseJones.NdbRecordObject

open DatabaseJones.Library

variable {ν ε : Type} {table : Table ν ε} {object : Object table} {i j : table.Field}

structure View (ν : Type) where
  proxy : ColumnProxy ν
  isMasked : Bool
  bytes : List UInt8
  isNull : Bool

def Object.view (object : Object table) (i : table.Field) : View ν where
  proxy := object.proxy i
  isMasked := object.isMaskedIn i
  bytes := (table.spec i).bytes object.buffer
  isNull := (table.spec i).isNull object.buffer

theorem layout (table : Table ν ε) : Layout table.record := layout_completeTableRecord table.columns

theorem spec_mem (i : table.Field) : table.spec i ∈ table.record.specs := List.getElem_mem i.isLt

/-! ## Bytes and null bits -/

theorem nullbit_ne (hne : i ≠ j) (hi : (table.spec i).column.nullable = true)
    (hj : (table.spec j).column.nullable = true) :
    ((table.spec i).nullbitByteOffset, (table.spec i).nullbitBitInByte) ≠
      ((table.spec j).nullbitByteOffset, (table.spec j).nullbitBitInByte) :=
  (layout table).nullbit_ne hne hi hj

/-- A null bit is outside the bytes of every column. -/
theorem bytes_update {buffer : Memory} {address : ℕ} (byte : UInt8)
    (h : table.record.startOfNullmap ≤ address) :
    (table.spec i).bytes (Function.update buffer address byte) = (table.spec i).bytes buffer := by
  have hbefore := (layout table).before _ (spec_mem i)
  refine readBytes_congr fun other _ hother => Function.update_of_ne ?_ _ _
  omega

@[simp] theorem bytes_setNull (buffer : Memory) (i j : table.Field) :
    (table.spec i).bytes ((table.spec j).setNull buffer) = (table.spec i).bytes buffer := by
  unfold Spec.setNull
  split_ifs
  · exact bytes_update _ ((layout table).behind _ (spec_mem j))
  · rfl

@[simp] theorem bytes_setNotNull (buffer : Memory) (i j : table.Field) :
    (table.spec i).bytes ((table.spec j).setNotNull buffer) = (table.spec i).bytes buffer := by
  unfold Spec.setNotNull
  split_ifs
  · exact bytes_update _ ((layout table).behind _ (spec_mem j))
  · rfl

@[simp] theorem isNull_setNull_self (buffer : Memory) (i : table.Field) :
    (table.spec i).isNull ((table.spec i).setNull buffer) = (table.spec i).column.nullable := by
  unfold Spec.isNull Spec.setNull
  split_ifs with hnullable
  · rw [testBit_setBit_self _ _ ((layout table).bit_lt _ (spec_mem i)), Bool.and_true]
  · rw [Bool.eq_false_iff.mpr hnullable, Bool.false_and]

@[simp] theorem isNull_setNotNull_self (buffer : Memory) (i : table.Field) :
    (table.spec i).isNull ((table.spec i).setNotNull buffer) = false := by
  unfold Spec.isNull Spec.setNotNull
  split_ifs with hnullable
  · rw [testBit_clearBit_self _ _ ((layout table).bit_lt _ (spec_mem i)), Bool.and_false]
  · rw [Bool.eq_false_iff.mpr hnullable, Bool.false_and]

theorem isNull_setNull_of_ne (buffer : Memory) (hne : i ≠ j) :
    (table.spec i).isNull ((table.spec j).setNull buffer) = (table.spec i).isNull buffer := by
  unfold Spec.isNull Spec.setNull
  split_ifs with hj
  · cases hi : (table.spec i).column.nullable with
    | false => rw [Bool.false_and, Bool.false_and]
    | true =>
        rw [testBit_setBit_of_ne _ ((layout table).bit_lt _ (spec_mem i))
          (nullbit_ne hne hi hj)]
  · rfl

theorem isNull_setNotNull_of_ne (buffer : Memory) (hne : i ≠ j) :
    (table.spec i).isNull ((table.spec j).setNotNull buffer) = (table.spec i).isNull buffer := by
  unfold Spec.isNull Spec.setNotNull
  split_ifs with hj
  · cases hi : (table.spec i).column.nullable with
    | false => rw [Bool.false_and, Bool.false_and]
    | true =>
        rw [testBit_clearBit_of_ne _ ((layout table).bit_lt _ (spec_mem i))
          (nullbit_ne hne hi hj)]
  · rfl

variable {bytes : List UInt8}

/-- Writing the bytes of a column leaves all null bits. -/
theorem isNull_writeBytes (buffer : Memory) (hlength : bytes.length = (table.spec j).column.sizeInBytes) :
    (table.spec i).isNull (writeBytes buffer (table.spec j).offset bytes) =
      (table.spec i).isNull buffer := by
  have hbefore := (layout table).before _ (spec_mem j)
  have hbehind := (layout table).behind _ (spec_mem i)
  unfold Spec.isNull testBit
  rw [writeBytes_of_ge (by omega)]

theorem bytes_writeBytes_self (buffer : Memory)
    (hlength : bytes.length = (table.spec i).column.sizeInBytes) :
    (table.spec i).bytes (writeBytes buffer (table.spec i).offset bytes) = bytes := by
  rw [Spec.bytes, ← hlength, readBytes_writeBytes_self]

theorem bytes_writeBytes_of_ne (buffer : Memory)
    (hlength : bytes.length = (table.spec j).column.sizeInBytes) (hne : i ≠ j) :
    (table.spec i).bytes (writeBytes buffer (table.spec j).offset bytes) =
      (table.spec i).bytes buffer := by
  refine readBytes_writeBytes ?_
  rw [hlength]
  exact (layout table).disjoint hne

/-! ## The mask -/

theorem isMaskedIn_maskIn_self (object : Object table) (i : table.Field) :
    (object.maskIn i).isMaskedIn i = true :=
  testBit_setBit_self _ _ (Nat.mod_lt _ (by decide))

theorem isMaskedIn_maskIn_of_ne (object : Object table) (hne : i ≠ j) :
    (object.maskIn j).isMaskedIn i = object.isMaskedIn i := by
  refine testBit_setBit_of_ne _ (Nat.mod_lt _ (by decide)) fun heq => hne (Fin.ext ?_)
  obtain ⟨hbyte, hbit⟩ := Prod.mk.inj heq
  omega

/-! ## Operations -/

theorem view_setField_self (object : Object table) (i : table.Field) (value : Option ν) :
    (object.setField i value).view i =
      { object.view i with proxy := (object.proxy i).set value, isMasked := true } := by
  have hmask : (object.setField i value).isMaskedIn i = true := isMaskedIn_maskIn_self object i
  have hproxy : (object.setField i value).proxy i = (object.proxy i).set value :=
    Function.update_self ..
  simp only [Object.view, hmask, hproxy]
  rfl

theorem view_setField_of_ne (object : Object table) (value : Option ν) (hne : i ≠ j) :
    (object.setField j value).view i = object.view i := by
  have hmask : (object.setField j value).isMaskedIn i = object.isMaskedIn i :=
    isMaskedIn_maskIn_of_ne object hne
  have hproxy : (object.setField j value).proxy i = object.proxy i := Function.update_of_ne hne _ _
  simp only [Object.view, hmask, hproxy]
  rfl

theorem getField_snd (object : Object table) (i : table.Field) :
    (object.getField i).2 = object ∨
      (object.getField i).2 = { object with
        proxy := Function.update object.proxy i
          ((object.proxy i).get (table.spec i) object.buffer).2 } := by
  unfold Object.getField
  split_ifs
  · exact Or.inl rfl
  · exact Or.inr rfl

theorem view_getField_of_ne (object : Object table) (hne : i ≠ j) :
    (object.getField j).2.view i = object.view i := by
  rcases getField_snd object j with heq | heq <;> rw [heq]
  have hproxy : Function.update object.proxy j
      ((object.proxy j).get (table.spec j) object.buffer).2 i = object.proxy i :=
    Function.update_of_ne hne _ _
  simp only [Object.view, hproxy]
  rfl

/-- What `attachBlob` does to the parts of its column. -/
def Row.attach (row : Row table) (i : table.Field) (view : View ν) : View ν :=
  match row.blobs i with
  | some (some content) =>
      { view with proxy := { view.proxy with blobBuffer := content }, isNull := false }
  | some none => { view with isNull := (table.spec i).column.nullable }
  | none => view

theorem view_attachBlob_self (row : Row table) (object : Object table) (i : table.Field) :
    (attachBlob row object i).view i = row.attach i (object.view i) := by
  unfold attachBlob Row.attach
  rcases row.blobs i with _ | _ | content <;> simp [Object.view, Object.isMaskedIn]

theorem view_attachBlob_of_ne (row : Row table) (object : Object table) (i j : table.Field)
    (hne : i ≠ j) : (attachBlob row object j).view i = object.view i := by
  unfold attachBlob
  rcases row.blobs j with _ | _ | content
  · rfl
  · simp [Object.view, Object.isMaskedIn, isNull_setNull_of_ne _ hne]
  · simp [Object.view, Object.isMaskedIn, isNull_setNotNull_of_ne _ hne, Function.update_of_ne hne]

/-- The parts of a column in a new object. -/
theorem view_nroConstructor (row : Row table) (i : table.Field) :
    row.nroConstructor.view i = row.attach i
      ⟨{}, false, (table.spec i).bytes row.buffer, (table.spec i).isNull row.buffer⟩ := by
  have hfold := view_foldl_of_mem (view_attachBlob_self row) (view_attachBlob_of_ne row)
    (List.nodup_finRange _) ⟨row.buffer, fun _ => {}, fun _ => 0, 0⟩ (List.mem_finRange i)
  have hmask : testBit (fun _ => 0) (i / 8) (i % 8) = false := by simp [testBit]
  rw [Row.nroConstructor, hfold]
  simp only [Object.view, Object.isMaskedIn, hmask]

/-- What `prepare` does to the parts of a column, and the error. -/
def View.prepare (spec : Spec ν ε) (view : View ν) : View ν × Option ε :=
  if view.isMasked then
    if view.proxy.isNull then ({ view with isNull := spec.column.nullable }, none)
    else
      match view.proxy.jsValue with
      | some value =>
          if view.proxy.isDirty && !spec.column.isBlob then
            ({ view with
                proxy := { view.proxy with isDirty := false }
                bytes := spec.column.encode value view.bytes }, spec.column.check value)
          else ({ view with proxy := { view.proxy with isDirty := false } }, none)
      | none => ({ view with proxy := { view.proxy with isDirty := false } }, none)
  else (view, none)

theorem length_encode_bytes {spec : Spec ν ε} (h : spec.column.isBlob = false) (value : ν)
    (buffer : Memory) : (spec.column.encode value (spec.bytes buffer)).length = spec.column.sizeInBytes :=
  spec.column.length_encode h value _ (length_readBytes _ _ _)

theorem view_prepareField_self (prepared : Object table × Option ε) (i : table.Field) :
    (prepareField prepared i).1.view i = ((prepared.1.view i).prepare (table.spec i)).1 := by
  obtain ⟨object, savedError⟩ := prepared
  cases hmask : object.isMaskedIn i with
  | false => simp [prepareField, View.prepare, Object.view, hmask]
  | true =>
      cases hnull : (object.proxy i).isNull with
      | true =>
          have hkept : ∀ buffer, ({ object with buffer } : Object table).isMaskedIn i = true :=
            fun _ => hmask
          simp [prepareField, View.prepare, Object.view, hmask, hnull, hkept]
      | false =>
          have hkept : ∀ buffer proxy, (⟨buffer, proxy, object.rowMask, object.nWrites⟩ :
              Object table).isMaskedIn i = true := fun _ _ => hmask
          cases hvalue : (object.proxy i).jsValue with
          | none =>
              simp [prepareField, View.prepare, Object.view, hmask, hnull, hkept, hvalue,
                ColumnProxy.write]
          | some value =>
              by_cases hwrite : (object.proxy i).isDirty && !(table.spec i).column.isBlob
              · have hblob : (table.spec i).column.isBlob = false := by simp_all
                have hlength := length_encode_bytes hblob value object.buffer
                simp [prepareField, View.prepare, Object.view, hmask, hnull, hkept, hvalue,
                  ColumnProxy.write, hwrite, bytes_writeBytes_self _ hlength,
                  isNull_writeBytes _ hlength]
              · simp [prepareField, View.prepare, Object.view, hmask, hnull, hkept, hvalue,
                  ColumnProxy.write, hwrite]

/-- Writing a proxy changes the bytes of its column at most. -/
theorem write_cases (proxy : ColumnProxy ν) (spec : Spec ν ε) (buffer : Memory) :
    (proxy.write spec buffer).2.1 = buffer ∨
      ∃ bytes : List UInt8, bytes.length = spec.column.sizeInBytes ∧
        (proxy.write spec buffer).2.1 = writeBytes buffer spec.offset bytes := by
  unfold ColumnProxy.write
  cases proxy.jsValue with
  | none => exact Or.inl rfl
  | some value =>
      dsimp only
      split_ifs with hwrite
      · have hblob : spec.column.isBlob = false := by simp_all
        exact Or.inr ⟨_, length_encode_bytes hblob value buffer, rfl⟩
      · exact Or.inl rfl

theorem view_prepareField_of_ne (prepared : Object table × Option ε) (i j : table.Field)
    (hne : i ≠ j) : (prepareField prepared j).1.view i = prepared.1.view i := by
  obtain ⟨object, savedError⟩ := prepared
  have hkept : ∀ buffer proxy, (⟨buffer, proxy, object.rowMask, object.nWrites⟩ :
      Object table).isMaskedIn i = object.isMaskedIn i := fun _ _ => rfl
  cases hmask : object.isMaskedIn j with
  | false => simp [prepareField, hmask]
  | true =>
      cases hnull : (object.proxy j).isNull with
      | true => simp [prepareField, Object.view, hmask, hnull, hkept, isNull_setNull_of_ne _ hne]
      | false =>
          rcases write_cases (object.proxy j) (table.spec j) object.buffer with
            hbuffer | ⟨bytes, hlength, hbuffer⟩
          · simp [prepareField, Object.view, hmask, hnull, hkept, hbuffer,
              Function.update_of_ne hne]
          · simp [prepareField, Object.view, hmask, hnull, hkept, hbuffer,
              Function.update_of_ne hne, isNull_writeBytes _ hlength,
              bytes_writeBytes_of_ne _ hlength hne]

theorem error_prepareField (prepared : Object table × Option ε) (i : table.Field) :
    (prepareField prepared i).2 = none ↔
      prepared.2 = none ∧ ((prepared.1.view i).prepare (table.spec i)).2 = none := by
  obtain ⟨object, savedError⟩ := prepared
  cases hmask : object.isMaskedIn i with
  | false => simp [prepareField, View.prepare, Object.view, hmask]
  | true =>
      cases hnull : (object.proxy i).isNull with
      | true => simp [prepareField, View.prepare, Object.view, hmask, hnull]
      | false =>
          cases hvalue : (object.proxy i).jsValue with
          | none =>
              simp [prepareField, View.prepare, Object.view, hmask, hnull, hvalue,
                ColumnProxy.write]
          | some value =>
              by_cases hwrite : (object.proxy i).isDirty && !(table.spec i).column.isBlob
              · cases hcheck : (table.spec i).column.check value <;>
                  simp [prepareField, View.prepare, Object.view, hmask, hnull, hvalue,
                    ColumnProxy.write, hwrite, hcheck]
              · simp [prepareField, View.prepare, Object.view, hmask, hnull, hvalue,
                  ColumnProxy.write, hwrite]

/-- `prepare` does to the parts of every column what it does for one column. -/
theorem view_prepare (object : Object table) (i : table.Field) :
    object.prepare.1.view i = ((object.view i).prepare (table.spec i)).1 :=
  @view_foldl_of_mem _ _ _ (fun prepared i => prepared.1.view i) _ _
    (fun i view => (view.prepare (table.spec i)).1) view_prepareField_self
    view_prepareField_of_ne (List.nodup_finRange _) (object, none) i (List.mem_finRange i)

/-- `prepare` reports an error if some column does. -/
theorem error_prepare (object : Object table) :
    object.prepare.2 = none ↔ ∀ i, ((object.view i).prepare (table.spec i)).2 = none := by
  have hfold := @foldl_iff_forall _ _ _ (fun prepared i => prepared.1.view i) _ _
    (fun prepared => prepared.2 = none) (fun i view => (view.prepare (table.spec i)).2 = none)
    error_prepareField view_prepareField_of_ne (List.nodup_finRange _) (object, none)
  simpa [Object.prepare] using hfold

/-! ## Outside the record -/

theorem prepareField_outside (prepared : Object table × Option ε) (i : table.Field) {address : ℕ}
    (h : table.record.recSize ≤ address) :
    (prepareField prepared i).1.buffer address = prepared.1.buffer address := by
  obtain ⟨object, savedError⟩ := prepared
  have hle := (layout table).le_recSize
  have hbefore := (layout table).before _ (spec_mem i)
  cases hmask : object.isMaskedIn i with
  | false => simp [prepareField, hmask]
  | true =>
      cases hnull : (object.proxy i).isNull with
      | true =>
          simp only [prepareField, hmask, hnull, if_true, Spec.setNull]
          split_ifs with hnullable
          · have hinside := (layout table).inside _ (spec_mem i) hnullable
            exact setBit_of_ne _ _ (by omega)
          · rfl
      | false =>
          rcases write_cases (object.proxy i) (table.spec i) object.buffer with
            hbuffer | ⟨bytes, hlength, hbuffer⟩
          · simp [prepareField, hmask, hnull, hbuffer]
          · simp only [prepareField, hmask, hnull, hbuffer, if_true, Bool.false_eq_true, if_false]
            exact writeBytes_of_ge (by omega)

/-- `prepare` changes no byte outside the record. -/
theorem prepare_outside (object : Object table) {address : ℕ}
    (h : table.record.recSize ≤ address) :
    object.prepare.1.buffer address = object.buffer address := by
  suffices hfold : ∀ (fields : List table.Field) (prepared : Object table × Option ε),
      (fields.foldl prepareField prepared).1.buffer address = prepared.1.buffer address from
    hfold _ (object, none)
  intro fields
  induction fields with
  | nil => exact fun _ => rfl
  | cons i fields ih =>
      intro prepared
      rw [List.foldl_cons, ih, prepareField_outside prepared i h]

end DatabaseJones.NdbRecordObject
