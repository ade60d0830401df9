import DatabaseJones.IndexBounds.Endpoint
import DatabaseJones.Ndb.ScanBound
import DatabaseJones.NdbOperation.ScanFilter

/-!
# Operations of the NDB adapter

`NdbOperation.js` encodes what an operation needs into buffers: the key, the values to be
stored, the bounds of a scan and the comparands of its filter.  `encodeColumnsInBuffer`
returns an error that lists the columns it could not encode; what becomes of it is up to
the caller.  An operation with an `encoderError` is not valid, and the native batch has no
NDB operation for it.
-/

namespace DatabaseJones.NdbOperation

open DatabaseJones.IndexBounds

variable {V : Type}

/-! ## Errors -/

structure NdbError where
  message : String
  code : ℕ
  classification : String
deriving DecidableEq, Repr

/-- `DBOperationError`; `sqlstate` can be undefined, and `cause` is set in an error that
another one has led to. -/
inductive DBOperationError
  | mk (message : String) (sqlstate : Option String) (ndbError : Option NdbError)
      (cause : Option DBOperationError)
deriving Repr

namespace DBOperationError

def message : DBOperationError → String
  | mk message _ _ _ => message

def sqlstate : DBOperationError → Option String
  | mk _ sqlstate _ _ => sqlstate

def errorClassificationMap : String → Option String
  | "ConstraintViolation" => some "23000"
  | "NoDataFound" => some "02000"
  | "UnknownResultError" => some "08000"
  | _ => none

/-- The messages for the states that encoders report; other states have none. -/
def sqlStateMessages : String → Option String
  | "22000" => some "Data error"
  | "22001" => some "String too long"
  | "22003" => some "Numeric value out of range"
  | "22007" => some "Invalid datetime"
  | "23000" => some "Column cannot be null"
  | "HY000" => some "Incorrect numeric value"
  | "0F001" => some "BLOB or BINARY value is not a Buffer"
  | _ => none

def fromNdbError (error : NdbError) : DBOperationError :=
  mk (error.message ++ " [" ++ toString error.code ++ "]")
    (errorClassificationMap error.classification) (some error) none

/-- A message that is undefined becomes text when more is appended to it. -/
def fromSqlState (sqlstate : String) : DBOperationError :=
  mk ((sqlStateMessages sqlstate).getD "undefined")
    (some (if sqlstate = "0F001" then "22000" else sqlstate)) none none

def cascading (cause : DBOperationError) : DBOperationError :=
  mk "Cascading Error" cause.sqlstate none (some cause)

/-- Append to the message. -/
def append (error : DBOperationError) (text : String) : DBOperationError :=
  match error with
  | mk message sqlstate ndbError cause => mk (message ++ text) sqlstate ndbError cause

def setSqlstate (error : DBOperationError) (sqlstate : String) : DBOperationError :=
  match error with
  | mk message _ ndbError cause => mk message (some sqlstate) ndbError cause

end DBOperationError

/-- `addError` of `encodeColumnsInBuffer`: with a second column the state is the generic
one. -/
def addError (error : Option DBOperationError) (encoderError : String) (column : ColumnMetadata) :
    DBOperationError :=
  match error with
  | some error => (error.setSqlstate "22000").append ("; [" ++ column.name ++ "]")
  | none => (DBOperationError.fromSqlState encoderError).append (" [" ++ column.name ++ "]")

/-! ## Encoding columns -/

/-- What a buffer holds for a column. -/
inductive Cell
  | zeros
  | null
  | bytes (bytes : List UInt8)
deriving DecidableEq, Repr

/-- A buffer for a record, by the position of the column in the record. -/
abbrev RecordBuffer : Type := ℕ → Cell

/-- `Buffer.alloc(size)`. -/
def RecordBuffer.alloc : RecordBuffer := fun _ => .zeros

/-- The state of the loop in `encodeColumnsInBuffer`. -/
structure Encoded where
  buffer : RecordBuffer := RecordBuffer.alloc
  definedColumnList : List ℕ := []
  error : Option DBOperationError := none

section
variable (encoderWrite : Encoder V)

/-- One turn of the loop: column `i` of the record. -/
def encodeColumn (i : ℕ) (column : ColumnMetadata) (value : JsValue V) (encoded : Encoded) :
    Encoded :=
  match value with
  | .undefined => encoded
  | .null =>
      let encoded := { encoded with
        definedColumnList := encoded.definedColumnList ++ [column.columnNumber] }
      if column.isNullable then { encoded with buffer := Function.update encoded.buffer i .null }
      else { encoded with error := some (addError encoded.error "23000" column) }
  | value =>
      let (bytes, encoderError) := encoderWrite column value
      { buffer := Function.update encoded.buffer i (.bytes bytes)
        definedColumnList := encoded.definedColumnList ++ [column.columnNumber]
        error := match encoderError with
          | none => encoded.error
          | some encoderError => some (addError encoded.error encoderError column) }

/-- The loop, from column `i` on. -/
def encodeColumnsFrom (fields : ℕ → JsValue V) : ℕ → List ColumnMetadata → Encoded → Encoded
  | _, [], encoded => encoded
  | i, column :: columns, encoded =>
      encodeColumnsFrom fields (i + 1) columns (encodeColumn encoderWrite i column (fields i) encoded)

/-- `encodeColumnsInBuffer(fields, ncolumns, metadata, ...)`, into a new buffer. -/
def encodeColumnsInBuffer (fields : ℕ → JsValue V) (ncolumns : ℕ) (metadata : List ColumnMetadata) :
    Encoded :=
  encodeColumnsFrom encoderWrite fields 0 (metadata.take ncolumns) {}

/-! ## Key operations -/

/-- The columns of an index, in its order. -/
structure IndexHandler where
  columns : List ColumnMetadata
deriving DecidableEq, Repr

/-- The constructor sets `singleColumn` for an index with one column. -/
def IndexHandler.singleColumn (indexHandler : IndexHandler) : Option ColumnMetadata :=
  match indexHandler.columns with
  | [column] => some column
  | _ => none

/-- `encodeKeyBuffer(op)`: the buffer, and what is returned.  For a value of a single-column
index that is what the encoder reports, otherwise an error object. -/
def encodeKeyBuffer (indexHandler : IndexHandler) (keys : ℕ → JsValue V) :
    RecordBuffer × Option (String ⊕ DBOperationError) :=
  match indexHandler.singleColumn, keys 0 with
  | some column, .value value =>
      let (bytes, encoderError) := encoderWrite column (.value value)
      (Function.update RecordBuffer.alloc 0 (.bytes bytes), encoderError.map .inl)
  | some column, .queryParameter name =>
      let (bytes, encoderError) := encoderWrite column (.queryParameter name)
      (Function.update RecordBuffer.alloc 0 (.bytes bytes), encoderError.map .inl)
  | _, _ =>
      let encoded := encodeColumnsInBuffer encoderWrite keys indexHandler.columns.length
        indexHandler.columns
      (encoded.buffer, encoded.error.map .inr)

/-- The opcodes of key operations. -/
inductive Opcode
  | read | insert | update | write | delete
deriving DecidableEq, Repr

def Opcode.code : Opcode → ℕ
  | .read => 1
  | .insert => 2
  | .update => 4
  | .write => 8
  | .delete => 16

/-- What is stored: a value object with the columns that were written to it, or any other
object with its column values, in the order of the table handler. -/
inductive Values (V : Type)
  | valueObject (written : List (ColumnMetadata × JsValue V))
  | domainObject (columnValues : ℕ → JsValue V)

/-- `prepareForUpdate(values)`: the last error is returned.  NULL needs no encoder. -/
def prepareForUpdate (written : List (ColumnMetadata × JsValue V)) : Option String :=
  written.foldl (fun savedError (column, value) =>
    match value with
    | .null => savedError
    | value =>
        match (encoderWrite column value).2 with
        | none => savedError
        | some writeStatus => some writeStatus) none

/-- `DBOperation` for a key operation. -/
structure KeyOperation (V : Type) where
  opcode : Opcode
  indexHandler : IndexHandler
  tableColumns : List ColumnMetadata
  keys : ℕ → JsValue V
  values : Values V

/-- What the native operation is made of: `HelperSpec`, with the `encoderError` of the
operation. -/
structure HelperSpec where
  opcode : ℕ
  keyBuffer : Option RecordBuffer := none
  rowBuffer : Option RecordBuffer := none
  columnMask : List ℕ := []
  isValueObject : Bool := false
  encoderError : Option DBOperationError := none

/-- `is_valid`. -/
def HelperSpec.isValid (helper : HelperSpec) : Bool := helper.encoderError.isNone

/-- `buildOpHelper(helper)`.  What `encodeKeyBuffer` returns is not used. -/
def KeyOperation.buildOpHelper (op : KeyOperation V) : HelperSpec :=
  let keyBuffer :=
    if op.opcode ≠ .insert then some (encodeKeyBuffer encoderWrite op.indexHandler op.keys).1
    else none
  match op.values with
  | .valueObject written =>
      { opcode := op.opcode.code
        keyBuffer
        isValueObject := true
        encoderError := (prepareForUpdate encoderWrite written).map .fromSqlState }
  | .domainObject columnValues =>
      match op.opcode with
      | .delete => { opcode := op.opcode.code, keyBuffer }
      | .read => { opcode := op.opcode.code, keyBuffer, rowBuffer := some RecordBuffer.alloc }
      | _ =>
          let encoded := encodeColumnsInBuffer encoderWrite columnValues op.tableColumns.length
            op.tableColumns
          { opcode := op.opcode.code
            keyBuffer
            rowBuffer := some encoded.buffer
            columnMask := encoded.definedColumnList
            encoderError := encoded.error }

/-! ## Scans and projections -/

/-- A key part as `encodeColumnsInBuffer` finds it in `bound.key`. -/
def partValue : Option (KeyPart V) → JsValue V
  | some .null => .null
  | some (.val value) => .value value
  | _ => .undefined

section
variable (looseInfinity : V → Bool)

/-- The number of key parts that `buildPartialSpec` encodes. -/
def IndexHandler.countParts (indexHandler : IndexHandler) (bound : IndexBoundEndpoint V) : ℕ :=
  Ndb.countParts looseInfinity
    (fun i => (indexHandler.columns[i]?).all ColumnMetadata.isNullable) 0 bound.key

/-- `buildPartialSpec`: the buffer, if there is a part to encode, and the error returned. -/
def IndexHandler.buildPartialSpec (indexHandler : IndexHandler) (bound : IndexBoundEndpoint V) :
    Option RecordBuffer × Option DBOperationError :=
  let nparts := indexHandler.countParts looseInfinity bound
  if 0 < nparts then
    let encoded := encodeColumnsInBuffer encoderWrite (fun i => partValue bound.key[i]?) nparts
      indexHandler.columns
    (some encoded.buffer, encoded.error)
  else (none, none)

/-- One of the helpers that `buildBoundHelpers` returns. -/
structure BoundHelper where
  lowKey : Option RecordBuffer
  lowKeyCount : ℕ
  lowInclusive : Bool
  highKey : Option RecordBuffer
  highKeyCount : ℕ
  highInclusive : Bool
  rangeNo : ℕ

/-- `buildBoundHelpers(indexBounds)`.  What `setLow` and `setHigh` return is not used. -/
def IndexHandler.buildBoundHelpers (indexHandler : IndexHandler)
    (indexBounds : List (IndexBound V)) : List BoundHelper :=
  indexBounds.mapIdx fun i bound =>
    { lowKey := (indexHandler.buildPartialSpec encoderWrite looseInfinity bound.low).1
      lowKeyCount := indexHandler.countParts looseInfinity bound.low
      lowInclusive := bound.low.inclusive
      highKey := (indexHandler.buildPartialSpec encoderWrite looseInfinity bound.high).1
      highKeyCount := indexHandler.countParts looseInfinity bound.high
      highInclusive := bound.high.inclusive
      rangeNo := i }

/-- `DBOperation` for a scan: of an index, within what `getIndexBounds` returns, or of the
table; with or without a filter. -/
structure ScanOperation (V : Type) where
  index : Option (IndexHandler × List (IndexBound V))
  filterSpec : Option (FilterSpec V)
  params : String → JsValue V

/-- The bounds and the filter of the `ScanHelperSpec`. -/
structure ScanHelperSpec where
  bounds : List BoundHelper
  filterCode : Option FilterCode

/-- `prepareScan`. -/
def ScanOperation.prepareScan (op : ScanOperation V) : ScanHelperSpec :=
  { bounds :=
      match op.index with
      | some (indexHandler, indexBounds) =>
          indexHandler.buildBoundHelpers encoderWrite looseInfinity indexBounds
      | none => []
    filterCode := op.filterSpec.map (FilterSpec.getScanFilterCode encoderWrite op.params) }

/-- `DBOperation` for a projection. -/
structure ProjectionOperation (V : Type) where
  indexHandler : IndexHandler
  keys : ℕ → JsValue V

/-- `newProjectionOperation`: the key buffer that the native query is created with.  What
`encodeKeyBuffer` returns is not used. -/
def ProjectionOperation.keyBuffer (op : ProjectionOperation V) : RecordBuffer :=
  (encodeKeyBuffer encoderWrite op.indexHandler op.keys).1

/-! ## Executing a list of operations -/

inductive Operation (V : Type)
  | keyOperation (op : KeyOperation V)
  | scan (op : ScanOperation V)
  | projection (op : ProjectionOperation V)

/-- What NDB is sent for an operation. -/
inductive NdbCall
  | keyOperation (helper : HelperSpec)
  | scan (helper : ScanHelperSpec)
  | query (keyBuffer : RecordBuffer)

/-- The native batch has no NDB operation for a helper that is not valid; a scan and a
query are always executed. -/
def Operation.send : Operation V → Option NdbCall
  | .keyOperation op =>
      let helper := op.buildOpHelper encoderWrite
      if helper.isValid then some (.keyOperation helper) else none
  | .scan op => some (.scan (op.prepareScan encoderWrite looseInfinity))
  | .projection op => some (.query (op.keyBuffer encoderWrite))

inductive ExecMode
  | noCommit | commit | rollback
deriving DecidableEq, Repr

/-- `result.success` and `result.error` of an operation. -/
structure DBResult where
  success : Bool
  error : Option DBOperationError

/-- `buildOperationResult`: the result of the operation, and the error of the transaction
afterwards. -/
def buildOperationResult (opcode : Opcode) (execMode : ExecMode)
    (encoderError : Option DBOperationError) (ndbError : Option NdbError)
    (transactionError : Option DBOperationError) : DBResult × Option DBOperationError :=
  let result : DBResult :=
    match encoderError, ndbError with
    | some error, _ => { success := false, error := some error }
    | none, none => { success := true, error := none }
    | none, some error => { success := false, error := some (.fromNdbError error) }
  if execMode = .rollback then (result, transactionError)
  else
    match result.success, transactionError with
    | true, some error => ({ success := false, error := some error.cascading }, some error)
    | true, none => (result, none)
    | false, some error => (result, some error)
    | false, none =>
        if opcode = .read ∨ execMode = .noCommit then (result, none)
        else (result, result.error.map .cascading)

/-- `completeExecutedOps`: the errors that the callbacks of the operations are called with.
`ndbErrors` is what NDB reports for the operations that it was sent. -/
def completeExecutedOps (execMode : ExecMode) (ndbErrors : ℕ → Option NdbError) :
    ℕ → List (Operation V) → Option DBOperationError → List (Option DBOperationError)
  | _, [], _ => []
  | n, .keyOperation op :: ops, transactionError =>
      let helper := op.buildOpHelper encoderWrite
      let (result, transactionError) := buildOperationResult op.opcode execMode helper.encoderError
        (if helper.isValid then ndbErrors n else none) transactionError
      result.error :: completeExecutedOps execMode ndbErrors (n + 1) ops transactionError
  | n, _ :: ops, transactionError =>
      (ndbErrors n).map .fromNdbError ::
        completeExecutedOps execMode ndbErrors (n + 1) ops transactionError

end

end

end DatabaseJones.NdbOperation
