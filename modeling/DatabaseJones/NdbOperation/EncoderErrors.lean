import DatabaseJones.NdbOperation.Builder

/-!
# Encoder errors of NDB operations

What becomes of a value that cannot be encoded.  `encodeColumnsInBuffer` returns an error
exactly if some column cannot be encoded, and its message names all of these columns.
`buildOpHelper` keeps this error for the values to be stored, so that the operation is not
sent; the errors for keys, bounds and filters are dropped everywhere.

`rejectsEncoderErrors_iff` says so of every operation in every list: it is rejected as it
should be exactly if nothing is wrong with its keys, bounds and comparands, or something is
with the values that it stores.
-/

namespace DatabaseJones.NdbOperation

open DatabaseJones.IndexBounds

variable {V : Type} {encoderWrite : Encoder V} {looseInfinity : V → Bool}

/-! ## Errors of columns -/

/-- The SQLSTATE reported for the value of a column, if there is one. -/
def columnError (encoderWrite : Encoder V) (column : ColumnMetadata) : JsValue V → Option String
  | .undefined => none
  | .null => if column.isNullable then none else some "23000"
  | value => (encoderWrite column value).2

/-- Some column cannot be encoded. -/
def HasColumnError (encoderWrite : Encoder V) (fields : ℕ → JsValue V)
    (columns : List ColumnMetadata) : Prop :=
  ∃ i column, columns[i]? = some column ∧ columnError encoderWrite column (fields i) ≠ none

/-- What has to be in a buffer for a value that was supplied. -/
def Holds (encoderWrite : Encoder V) (column : ColumnMetadata) (cell : Cell) : JsValue V → Prop
  | .undefined => True
  | .null => column.isNullable = true ∧ cell = .null
  | value => (encoderWrite column value).2 = none ∧ cell = .bytes (encoderWrite column value).1

/-- The buffer holds what was supplied for the columns. -/
def HoldsAll (encoderWrite : Encoder V) (fields : ℕ → JsValue V) (columns : List ColumnMetadata)
    (buffer : RecordBuffer) : Prop :=
  ∀ i column, columns[i]? = some column → Holds encoderWrite column (buffer i) (fields i)

theorem hasColumnError_nil {fields : ℕ → JsValue V} : ¬ HasColumnError encoderWrite fields [] := by
  rintro ⟨i, column, hcolumn, -⟩
  simp at hcolumn

/-- The first column, and the others with the fields shifted. -/
theorem hasColumnError_cons {fields : ℕ → JsValue V} {column : ColumnMetadata}
    {columns : List ColumnMetadata} : HasColumnError encoderWrite fields (column :: columns) ↔
      columnError encoderWrite column (fields 0) ≠ none ∨
        HasColumnError encoderWrite (fun i => fields (i + 1)) columns := by
  constructor
  · rintro ⟨i, other, hother, herror⟩
    cases i with
    | zero =>
        obtain rfl : column = other := by simpa using hother
        exact .inl herror
    | succ i => exact .inr ⟨i, other, by simpa using hother, herror⟩
  · rintro (herror | ⟨i, other, hother, herror⟩)
    · exact ⟨0, column, rfl, herror⟩
    · exact ⟨i + 1, other, by simpa using hother, herror⟩

/-! ## The loop -/

theorem encodeColumn_error (encoderWrite : Encoder V) (i : ℕ) (column : ColumnMetadata) (value : JsValue V)
    (encoded : Encoded) : (encodeColumn encoderWrite i column value encoded).error =
      match columnError encoderWrite column value with
      | none => encoded.error
      | some encoderError => some (addError encoded.error encoderError column) := by
  cases value with
  | undefined => rfl
  | null =>
      rw [encodeColumn, columnError]
      cases column.isNullable <;> rfl
  | queryParameter name => rfl
  | value value => rfl

/-- Only the column's own part of the buffer is written. -/
theorem encodeColumn_buffer_of_ne {i j : ℕ} (hne : j ≠ i) (column : ColumnMetadata)
    (value : JsValue V) (encoded : Encoded) :
    (encodeColumn encoderWrite i column value encoded).buffer j = encoded.buffer j := by
  cases value with
  | undefined => rfl
  | null =>
      rw [encodeColumn]
      cases column.isNullable
      · rfl
      · exact Function.update_of_ne hne _ _
  | queryParameter name => exact Function.update_of_ne hne _ _
  | value value => exact Function.update_of_ne hne _ _

/-- A value without an error is written as supplied. -/
theorem holds_encodeColumn {column : ColumnMetadata} {value : JsValue V}
    (h : columnError encoderWrite column value = none) (i : ℕ) (encoded : Encoded) :
    Holds encoderWrite column ((encodeColumn encoderWrite i column value encoded).buffer i) value := by
  cases value with
  | undefined => trivial
  | null =>
      have hnullable : column.isNullable = true := by
        by_contra hnot
        simp [columnError, hnot] at h
      refine ⟨hnullable, ?_⟩
      simp [encodeColumn, hnullable]
  | queryParameter name => exact ⟨h, Function.update_self _ _ _⟩
  | value value => exact ⟨h, Function.update_self _ _ _⟩

theorem encodeColumnsFrom_error (fields : ℕ → JsValue V) (i : ℕ) (columns : List ColumnMetadata)
    (encoded : Encoded) : (encodeColumnsFrom encoderWrite fields i columns encoded).error ≠ none ↔
      encoded.error ≠ none ∨ HasColumnError encoderWrite (fun j => fields (i + j)) columns := by
  induction columns generalizing i encoded with
  | nil => simp [encodeColumnsFrom, hasColumnError_nil]
  | cons column columns ih =>
      have hshift : (fun j => fields (i + 1 + j)) = fun j => fields (i + (j + 1)) := by
        funext j
        congr 1
        omega
      rw [encodeColumnsFrom, ih, encodeColumn_error, hasColumnError_cons, hshift, Nat.add_zero,
        ← or_assoc]
      refine or_congr_left ?_
      cases columnError encoderWrite column (fields i) <;> simp

/-- An error is returned exactly if some column cannot be encoded. -/
theorem encodeColumnsInBuffer_error (fields : ℕ → JsValue V) (ncolumns : ℕ)
    (metadata : List ColumnMetadata) :
    (encodeColumnsInBuffer encoderWrite fields ncolumns metadata).error ≠ none ↔
      HasColumnError encoderWrite fields (metadata.take ncolumns) := by
  simp [encodeColumnsInBuffer, encodeColumnsFrom_error]

theorem encodeColumnsFrom_buffer_of_lt (fields : ℕ → JsValue V) {i j : ℕ} (hlt : j < i)
    (columns : List ColumnMetadata) (encoded : Encoded) :
    (encodeColumnsFrom encoderWrite fields i columns encoded).buffer j = encoded.buffer j := by
  induction columns generalizing i encoded with
  | nil => rfl
  | cons column columns ih =>
      rw [encodeColumnsFrom, ih (by omega), encodeColumn_buffer_of_ne (by omega)]

theorem holds_encodeColumnsFrom {fields : ℕ → JsValue V} {i : ℕ} {columns : List ColumnMetadata}
    (h : ¬ HasColumnError encoderWrite (fun j => fields (i + j)) columns) (encoded : Encoded)
    {j : ℕ} {column : ColumnMetadata} (hcolumn : columns[j]? = some column) :
    Holds encoderWrite column
      ((encodeColumnsFrom encoderWrite fields i columns encoded).buffer (i + j))
      (fields (i + j)) := by
  induction columns generalizing i j encoded with
  | nil => simp at hcolumn
  | cons first columns ih =>
      rw [hasColumnError_cons, not_or, not_not] at h
      rw [encodeColumnsFrom]
      cases j with
      | zero =>
          obtain rfl : first = column := by simpa using hcolumn
          rw [show i + 0 = i from rfl, encodeColumnsFrom_buffer_of_lt fields (Nat.lt_add_one i)]
          exact holds_encodeColumn h.1 i encoded
      | succ j =>
          have hshift : i + (j + 1) = i + 1 + j := by omega
          rw [hshift]
          refine ih (fun herror => h.2 ?_) _ (by simpa using hcolumn)
          convert herror using 3
          omega

/-- Without an error the buffer holds what was supplied. -/
theorem holdsAll_encodeColumnsInBuffer {fields : ℕ → JsValue V} {metadata : List ColumnMetadata}
    (h : ¬ HasColumnError encoderWrite fields metadata) :
    HoldsAll encoderWrite fields metadata
      (encodeColumnsInBuffer encoderWrite fields metadata.length metadata).buffer := by
  intro i column hcolumn
  have hfrom : ¬ HasColumnError encoderWrite (fun j => fields (0 + j)) metadata := by simpa using h
  simpa [encodeColumnsInBuffer] using holds_encodeColumnsFrom hfrom {} hcolumn

/-- The columns that cannot be encoded, in order. -/
def failingColumns (encoderWrite : Encoder V) (fields : ℕ → JsValue V) :
    ℕ → List ColumnMetadata → List ColumnMetadata
  | _, [] => []
  | i, column :: columns =>
      match columnError encoderWrite column (fields i) with
      | none => failingColumns encoderWrite fields (i + 1) columns
      | some _ => column :: failingColumns encoderWrite fields (i + 1) columns

/-- The part of a message that names columns after the first one. -/
def furtherColumns (columns : List ColumnMetadata) : String :=
  columns.foldr (fun column text => "; [" ++ column.name ++ "]" ++ text) ""

theorem message_addError_some (error : DBOperationError) (encoderError : String)
    (column : ColumnMetadata) : (addError (some error) encoderError column).message =
      error.message ++ ("; [" ++ column.name ++ "]") := by
  obtain ⟨message, sqlstate, ndbError, cause⟩ := error
  rfl

theorem message_addError_none (encoderError : String) (column : ColumnMetadata) :
    (addError none encoderError column).message =
      (DBOperationError.fromSqlState encoderError).message ++ (" [" ++ column.name ++ "]") :=
  rfl

theorem encodeColumnsFrom_message_of_some (encoderWrite : Encoder V) (fields : ℕ → JsValue V) (i : ℕ)
    (columns : List ColumnMetadata) {encoded : Encoded} {error : DBOperationError}
    (herror : encoded.error = some error) :
    ∃ final, (encodeColumnsFrom encoderWrite fields i columns encoded).error = some final ∧
      final.message =
        error.message ++ furtherColumns (failingColumns encoderWrite fields i columns) := by
  induction columns generalizing i encoded error with
  | nil => exact ⟨error, herror, by simp [failingColumns, furtherColumns]⟩
  | cons column columns ih =>
      rw [encodeColumnsFrom, failingColumns]
      have hstep := encodeColumn_error encoderWrite i column (fields i) encoded
      cases hcolumn : columnError encoderWrite column (fields i) with
      | none =>
          rw [hcolumn, herror] at hstep
          exact ih (i + 1) hstep
      | some encoderError =>
          rw [hcolumn, herror] at hstep
          obtain ⟨final, hfinal, hmessage⟩ := ih (i + 1) hstep
          refine ⟨final, hfinal, ?_⟩
          rw [hmessage, message_addError_some, String.append_assoc]
          rfl

/-- The error that is returned names every column that cannot be encoded, and no other. -/
theorem encodeColumnsFrom_message (fields : ℕ → JsValue V) (i : ℕ) (columns : List ColumnMetadata)
    {encoded : Encoded} (hnone : encoded.error = none) :
    match failingColumns encoderWrite fields i columns with
    | [] => (encodeColumnsFrom encoderWrite fields i columns encoded).error = none
    | first :: further => ∃ encoderError final,
        (encodeColumnsFrom encoderWrite fields i columns encoded).error = some final ∧
          final.message = (DBOperationError.fromSqlState encoderError).message ++
            (" [" ++ first.name ++ "]" ++ furtherColumns further) := by
  induction columns generalizing i encoded with
  | nil => exact hnone
  | cons column columns ih =>
      rw [encodeColumnsFrom, failingColumns]
      have hstep := encodeColumn_error encoderWrite i column (fields i) encoded
      cases hcolumn : columnError encoderWrite column (fields i) with
      | none =>
          rw [hcolumn, hnone] at hstep
          exact ih (i + 1) hstep
      | some encoderError =>
          rw [hcolumn, hnone] at hstep
          obtain ⟨final, hfinal, hmessage⟩ :=
            encodeColumnsFrom_message_of_some encoderWrite fields (i + 1) columns hstep
          refine ⟨encoderError, final, hfinal, ?_⟩
          rw [hmessage, message_addError_none, String.append_assoc]

/-! ## Keys -/

theorem IndexHandler.columns_of_singleColumn {indexHandler : IndexHandler} {column : ColumnMetadata}
    (h : indexHandler.singleColumn = some column) : indexHandler.columns = [column] := by
  unfold IndexHandler.singleColumn at h
  split at h
  · next hcolumns => rw [hcolumns, Option.some.inj h]
  · exact nomatch h

/-- Without an error the key buffer holds the key that was supplied. -/
theorem holdsAll_encodeKeyBuffer {indexHandler : IndexHandler} {keys : ℕ → JsValue V}
    (h : ¬ HasColumnError encoderWrite keys indexHandler.columns) :
    HoldsAll encoderWrite keys indexHandler.columns
      (encodeKeyBuffer encoderWrite indexHandler keys).1 := by
  -- a single column is written without the loop
  have hsingle : ∀ column buffer, indexHandler.singleColumn = some column →
      (columnError encoderWrite column (keys 0) = none →
        Holds encoderWrite column (buffer 0) (keys 0)) →
        HoldsAll encoderWrite keys indexHandler.columns buffer := by
    intro column buffer hcolumn hholds
    have hcolumns := IndexHandler.columns_of_singleColumn hcolumn
    rw [hcolumns, hasColumnError_cons, not_or, not_not] at h
    intro i other hother
    rw [hcolumns] at hother
    cases i with
    | zero =>
        obtain rfl : column = other := by simpa using hother
        exact hholds h.1
    | succ i => simp at hother
  unfold encodeKeyBuffer
  split
  · next column value hcolumn hkey =>
      refine hsingle column _ hcolumn fun herror => ?_
      rw [hkey] at herror ⊢
      exact ⟨herror, by simp⟩
  · next column name hcolumn hkey =>
      refine hsingle column _ hcolumn fun herror => ?_
      rw [hkey] at herror ⊢
      exact ⟨herror, by simp⟩
  · exact holdsAll_encodeColumnsInBuffer h

/-! ## Values -/

/-- A value that was written to a value object cannot be encoded; NULL needs no encoder. -/
def HasWriteError (encoderWrite : Encoder V) (written : List (ColumnMetadata × JsValue V)) : Prop :=
  ∃ column value, (column, value) ∈ written ∧ value ≠ .null ∧ (encoderWrite column value).2 ≠ none

/-- `prepareForUpdate` returns an error exactly if some value cannot be encoded. -/
theorem prepareForUpdate_ne_none (written : List (ColumnMetadata × JsValue V)) :
    prepareForUpdate encoderWrite written ≠ none ↔ HasWriteError encoderWrite written := by
  -- the last error is kept from the end of the list
  induction written using List.reverseRecOn with
  | nil => simp [prepareForUpdate, HasWriteError]
  | append_singleton written last ih =>
      obtain ⟨column, value⟩ := last
      have hlast : HasWriteError encoderWrite (written ++ [(column, value)]) ↔
          HasWriteError encoderWrite written ∨
            value ≠ .null ∧ (encoderWrite column value).2 ≠ none := by
        constructor
        · rintro ⟨other, value', hmem, herror⟩
          rcases List.mem_append.mp hmem with hmem | hmem
          · exact .inl ⟨other, value', hmem, herror⟩
          · obtain ⟨rfl, rfl⟩ : other = column ∧ value' = value := by simpa using hmem
            exact .inr herror
        · rintro (⟨other, value', hmem, herror⟩ | herror)
          · exact ⟨other, value', List.mem_append_left _ hmem, herror⟩
          · exact ⟨column, value, by simp, herror⟩
      rw [hlast, ← ih, prepareForUpdate, List.foldl_append, ← prepareForUpdate, List.foldl_cons,
        List.foldl_nil]
      cases value with
      | null => simp
      | undefined => cases herror : (encoderWrite column .undefined).2 <;> simp [herror]
      | queryParameter name =>
          cases herror : (encoderWrite column (.queryParameter name)).2 <;> simp [herror]
      | value value => cases herror : (encoderWrite column (.value value)).2 <;> simp [herror]

/-- A value to be stored cannot be encoded. -/
def KeyOperation.HasStoreError (encoderWrite : Encoder V) (op : KeyOperation V) : Prop :=
  match op.values with
  | .valueObject written => HasWriteError encoderWrite written
  | .domainObject columnValues =>
      op.opcode ∉ [.read, .delete] ∧ HasColumnError encoderWrite columnValues op.tableColumns

/-- The `encoderError` of an operation is about the values to be stored. -/
theorem KeyOperation.encoderError_ne_none (op : KeyOperation V) :
    (op.buildOpHelper encoderWrite).encoderError ≠ none ↔ op.HasStoreError encoderWrite := by
  unfold KeyOperation.buildOpHelper KeyOperation.HasStoreError
  cases op.values with
  | valueObject written => simp [← prepareForUpdate_ne_none]
  | domainObject columnValues =>
      cases op.opcode with
      | read => simp
      | delete => simp
      | insert => simp [encodeColumnsInBuffer_error]
      | update => simp [encodeColumnsInBuffer_error]
      | write => simp [encodeColumnsInBuffer_error]

theorem KeyOperation.keyBuffer_buildOpHelper (op : KeyOperation V) :
    (op.buildOpHelper encoderWrite).keyBuffer =
      if op.opcode ≠ .insert then some (encodeKeyBuffer encoderWrite op.indexHandler op.keys).1
      else none := by
  unfold KeyOperation.buildOpHelper
  cases op.values with
  | valueObject written => rfl
  | domainObject columnValues =>
      dsimp only
      split <;> rfl

/-! ## Errors of operations -/

/-- A part of the key cannot be encoded. -/
def Operation.HasKeyError (encoderWrite : Encoder V) : Operation V → Prop
  | .keyOperation op =>
      op.opcode ≠ .insert ∧ HasColumnError encoderWrite op.keys op.indexHandler.columns
  | .scan _ => False
  | .projection op => HasColumnError encoderWrite op.keys op.indexHandler.columns

/-- A part of an endpoint cannot be encoded. -/
def IndexHandler.HasBoundError (encoderWrite : Encoder V) (looseInfinity : V → Bool)
    (indexHandler : IndexHandler) (bound : IndexBoundEndpoint V) : Prop :=
  HasColumnError encoderWrite (fun i => partValue bound.key[i]?)
    (indexHandler.columns.take (indexHandler.countParts looseInfinity bound))

/-- A part of a bound cannot be encoded. -/
def Operation.HasBoundError (encoderWrite : Encoder V) (looseInfinity : V → Bool) :
    Operation V → Prop
  | .scan op => ∃ indexHandler indexBounds, op.index = some (indexHandler, indexBounds) ∧
      ∃ bound ∈ indexBounds, indexHandler.HasBoundError encoderWrite looseInfinity bound.low ∨
        indexHandler.HasBoundError encoderWrite looseInfinity bound.high
  | _ => False

/-- A comparand of the filter cannot be encoded. -/
def Operation.HasFilterError (encoderWrite : Encoder V) : Operation V → Prop
  | .scan op => ∃ filterSpec ∈ op.filterSpec,
      (∃ term ∈ filterSpec.schemas.constSchema.layout,
        (encoderWrite term.column (term.suppliedValue none)).2 ≠ none) ∨
      ∃ term ∈ filterSpec.schemas.paramSchema.layout,
        (encoderWrite term.column (term.suppliedValue (some op.params))).2 ≠ none
  | _ => False

/-- A value to be stored cannot be encoded. -/
def Operation.HasStoreError (encoderWrite : Encoder V) : Operation V → Prop
  | .keyOperation op => op.HasStoreError encoderWrite
  | _ => False

/-- Some encoder reports an error for a value of the operation. -/
def Operation.HasEncoderError (encoderWrite : Encoder V) (looseInfinity : V → Bool)
    (op : Operation V) : Prop :=
  op.HasKeyError encoderWrite ∨ op.HasBoundError encoderWrite looseInfinity ∨
    op.HasFilterError encoderWrite ∨ op.HasStoreError encoderWrite

/-- The key in what NDB is sent is the one that was supplied. -/
def KeyAsSupplied (encoderWrite : Encoder V) : Operation V → NdbCall → Prop
  | .keyOperation op, .keyOperation helper =>
      ∀ buffer ∈ helper.keyBuffer, HoldsAll encoderWrite op.keys op.indexHandler.columns buffer
  | .projection op, .query buffer => HoldsAll encoderWrite op.keys op.indexHandler.columns buffer
  | _, _ => True

/-- An operation is rejected where it should be: with an encoder error it is not sent and its
callback receives an error, and if it is sent then with the key that was supplied.  It is
executed after `before` and before `after`, in one list. -/
structure RejectsEncoderErrors (encoderWrite : Encoder V) (looseInfinity : V → Bool)
    (execMode : ExecMode) (ndbErrors : ℕ → Option NdbError)
    (transactionError : Option DBOperationError) (before : List (Operation V)) (op : Operation V)
    (after : List (Operation V)) : Prop where
  rejected : op.HasEncoderError encoderWrite looseInfinity →
    op.send encoderWrite looseInfinity = none ∧
      ∃ error, (completeExecutedOps encoderWrite execMode ndbErrors 0 (before ++ op :: after)
        transactionError)[before.length]? = some (some error)
  keyAsSupplied : ∀ call, op.send encoderWrite looseInfinity = some call →
    KeyAsSupplied encoderWrite op call

/-- The callback of an operation is called with what was found when the operations before
it were completed. -/
theorem completeExecutedOps_append (encoderWrite : Encoder V) (execMode : ExecMode) (ndbErrors : ℕ → Option NdbError)
    (before ops : List (Operation V)) (n : ℕ) (transactionError : Option DBOperationError) :
    ∃ transactionError',
      (completeExecutedOps encoderWrite execMode ndbErrors n (before ++ ops)
        transactionError).drop before.length =
        completeExecutedOps encoderWrite execMode ndbErrors (n + before.length) ops
          transactionError' := by
  induction before generalizing n transactionError with
  | nil => exact ⟨transactionError, rfl⟩
  | cons first before ih =>
      have hlength : n + (first :: before).length = n + 1 + before.length := by
        rw [List.length_cons]
        omega
      rw [hlength]
      cases first with
      | keyOperation op => exact ih (n + 1) _
      | scan op => exact ih (n + 1) _
      | projection op => exact ih (n + 1) _

/-- The result of an operation with an encoder error has that error. -/
theorem buildOperationResult_of_encoderError (opcode : Opcode) (execMode : ExecMode)
    (error : DBOperationError) (ndbError : Option NdbError)
    (transactionError : Option DBOperationError) :
    (buildOperationResult opcode execMode (some error) ndbError transactionError).1.error =
      some error := by
  unfold buildOperationResult
  dsimp only
  split
  · rfl
  · cases transactionError with
    | some error => rfl
    | none =>
        dsimp only
        split <;> rfl

/-- An operation with an error in the values to be stored is not sent, and its callback
receives the error. -/
theorem rejected_of_hasStoreError (looseInfinity : V → Bool) {op : Operation V}
    (h : op.HasStoreError encoderWrite) (execMode : ExecMode) (ndbErrors : ℕ → Option NdbError)
    (transactionError : Option DBOperationError) (before after : List (Operation V)) :
    op.send encoderWrite looseInfinity = none ∧
      ∃ error, (completeExecutedOps encoderWrite execMode ndbErrors 0 (before ++ op :: after)
        transactionError)[before.length]? = some (some error) := by
  cases op with
  | scan op => exact h.elim
  | projection op => exact h.elim
  | keyOperation op =>
      obtain ⟨error, herror⟩ := Option.ne_none_iff_exists'.mp (op.encoderError_ne_none.mpr h)
      constructor
      · simp [Operation.send, HelperSpec.isValid, herror]
      · obtain ⟨transactionError', hdrop⟩ := completeExecutedOps_append encoderWrite
          execMode ndbErrors before (.keyOperation op :: after) 0 transactionError
        have hget := congrArg (fun errors => errors[0]?) hdrop
        simp only [List.getElem?_drop, Nat.add_zero, completeExecutedOps, List.getElem?_cons_zero,
          herror, buildOperationResult_of_encoderError] at hget
        exact ⟨error, hget⟩

/-- Without an error in the key the operation is sent with the key that was supplied. -/
theorem keyAsSupplied_of_not_hasKeyError {op : Operation V} (h : ¬ op.HasKeyError encoderWrite)
    {call : NdbCall} (hsend : op.send encoderWrite looseInfinity = some call) :
    KeyAsSupplied encoderWrite op call := by
  cases op with
  | scan op => trivial
  | projection op =>
      obtain rfl := Option.some.inj hsend
      exact holdsAll_encodeKeyBuffer h
  | keyOperation op =>
      simp only [Operation.send, Option.ite_none_right_eq_some, Option.some.injEq] at hsend
      obtain ⟨-, rfl⟩ := hsend
      intro buffer hbuffer
      rw [KeyOperation.keyBuffer_buildOpHelper] at hbuffer
      split_ifs at hbuffer with hinsert
      · obtain rfl := Option.some.inj hbuffer
        exact holdsAll_encodeKeyBuffer fun herror => h ⟨hinsert, herror⟩
      · exact nomatch hbuffer

/-- An operation is sent unless a value to be stored cannot be encoded. -/
theorem send_ne_none {op : Operation V} (h : ¬ op.HasStoreError encoderWrite) :
    op.send encoderWrite looseInfinity ≠ none := by
  cases op with
  | scan op => exact nofun
  | projection op => exact nofun
  | keyOperation op =>
      have herror : (op.buildOpHelper encoderWrite).encoderError = none := by
        by_contra herror
        exact h (op.encoderError_ne_none.mp herror)
      simp [Operation.send, HelperSpec.isValid, herror]

/-- An operation is rejected where it should be exactly if no key, bound or comparand of
it has an error, or a value to be stored has one. -/
theorem rejectsEncoderErrors_iff (encoderWrite : Encoder V) (looseInfinity : V → Bool)
    (execMode : ExecMode) (ndbErrors : ℕ → Option NdbError)
    (transactionError : Option DBOperationError) (before : List (Operation V)) (op : Operation V)
    (after : List (Operation V)) :
    RejectsEncoderErrors encoderWrite looseInfinity execMode ndbErrors transactionError before op
        after ↔
      (¬ op.HasKeyError encoderWrite ∧ ¬ op.HasBoundError encoderWrite looseInfinity ∧
        ¬ op.HasFilterError encoderWrite) ∨ op.HasStoreError encoderWrite := by
  constructor
  · intro h
    by_contra hcondition
    obtain ⟨hdropped, hstore⟩ := not_or.mp hcondition
    have herror : op.HasEncoderError encoderWrite looseInfinity := by
      unfold Operation.HasEncoderError
      tauto
    exact send_ne_none hstore (h.rejected herror).1
  · rintro (⟨hkey, hbound, hfilter⟩ | hstore)
    · refine ⟨fun herror => ?_, fun call => keyAsSupplied_of_not_hasKeyError hkey⟩
      have hstore : op.HasStoreError encoderWrite := by
        unfold Operation.HasEncoderError at herror
        tauto
      exact rejected_of_hasStoreError looseInfinity hstore execMode ndbErrors transactionError before
        after
    · have hrejected := rejected_of_hasStoreError looseInfinity hstore execMode ndbErrors
        transactionError before after
      exact ⟨fun _ => hrejected, fun call hsend => nomatch hrejected.1.symm.trans hsend⟩

/-- The encoder of a one-byte column. -/
def tinyIntEncoder : Encoder ℕ
  | _, .value value => if value < 128 then ([value.toUInt8], none) else ([0], some "22003")
  | _, _ => ([0], some "HY000")

/-- A row is deleted by the key 300, which does not fit: the row with the key 0 is
deleted. -/
theorem not_rejectsEncoderErrors_of_key :
    ¬ ∀ (encoderWrite : Encoder ℕ) (looseInfinity : ℕ → Bool) (execMode : ExecMode)
      (ndbErrors : ℕ → Option NdbError) (transactionError : Option DBOperationError)
      (before : List (Operation ℕ)) (op : Operation ℕ) (after : List (Operation ℕ)),
      RejectsEncoderErrors encoderWrite looseInfinity execMode ndbErrors transactionError before op
        after := by
  intro hclaim
  have hdelete := hclaim tinyIntEncoder (fun _ => false) .commit (fun _ => none) none []
    (.keyOperation
      { opcode := .delete
        indexHandler := { columns := [⟨"id", 0, 1, false⟩] }
        tableColumns := [⟨"id", 0, 1, false⟩]
        keys := fun _ => .value 300
        values := .domainObject fun _ => .undefined }) []
  have hkey := hdelete.keyAsSupplied _ rfl _ rfl 0 ⟨"id", 0, 1, false⟩ rfl
  exact absurd hkey.1 (by decide)

end DatabaseJones.NdbOperation
