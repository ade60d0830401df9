import Mathlib.Data.List.Basic
import Mathlib.Data.Nat.Notation

/-!
# Statements that write

INSERT, INSERT ... ON DUPLICATE KEY UPDATE, and UPDATE.  The first two name the columns whose value
is defined.  A listener records which ones these are while the values are read, and the statements
for each such pattern are kept with the table handler.
-/

namespace DatabaseJones.MySQLConnection

/-! ## Table handlers -/

structure ColumnMetadata where
  name : List Char
  isInPrimaryKey : Bool
  isBinary : Bool
deriving DecidableEq, Repr

/-- A table handler: the table, and its mapped columns. -/
structure DBTableHandler where
  database : List Char
  name : List Char
  columns : List ColumnMetadata
deriving DecidableEq, Repr

/-- An index handler, with the column numbers in its table handler.  They are also the bits of its
column mask. -/
structure DBIndexHandler (tableHandler : DBTableHandler) where
  indexColumnNumbers : List (Fin tableHandler.columns.length)
  ne_nil : indexColumnNumbers ≠ []

/-- A value that is defined, with the name of its constructor if it has one. -/
inductive ColumnValue (ν : Type)
  | null
  | value (constructorName : Option (List Char)) (value : ν)
deriving DecidableEq, Repr

/-- A domain object, as the values that are read from it for each column; `none` is undefined. -/
abbrev DomainObject (ν : Type) := ℕ → Option (ColumnValue ν)

variable {ν : Type}

/-! ## Reading the values -/

/-- `FieldValueDefinedListener`, with the names of the columns in its errors. -/
structure FieldValueDefinedListener where
  key : Option (List Char) := none
  errors : List (List Char) := []

namespace FieldValueDefinedListener

variable (listener : FieldValueDefinedListener)

def setDefined : FieldValueDefinedListener :=
  { listener with key := listener.key.map (· ++ ['D']) }

def setUndefined (fieldNumber : ℕ) : FieldValueDefinedListener :=
  { listener with key := some (listener.key.getD (List.replicate fieldNumber 'D') ++ ['U']) }

/-- The error "Value for binary column must be a Buffer". -/
def setError (columnName : List Char) : FieldValueDefinedListener :=
  { listener with errors := listener.errors ++ [columnName] }

end FieldValueDefinedListener

/-- `get` with a listener.  It throws where a binary column has null. -/
def get (column : ColumnMetadata) (result : Option (ColumnValue ν)) (colNumber : ℕ)
    (listener : FieldValueDefinedListener) : Option FieldValueDefinedListener :=
  match result with
  | none => some (listener.setUndefined colNumber)
  | some result =>
      if column.isBinary then
        match result with
        | .null => none
        | .value (some constructorName) _ =>
            if constructorName ≠ "Buffer".toList then
              some (listener.setDefined.setError column.name)
            else some listener.setDefined
        | .value none _ => some listener.setDefined
      else some listener.setDefined

/-- What the listener of `getColumns` has recorded, from a column on. -/
def listen (object : DomainObject ν) :
    List ColumnMetadata → ℕ → FieldValueDefinedListener → Option FieldValueDefinedListener
  | [], _, listener => some listener
  | column :: columns, colNumber, listener =>
      (get column (object colNumber) colNumber listener).bind (listen object columns (colNumber + 1))

/-- `getColumns`. -/
def DBTableHandler.getColumns (tableHandler : DBTableHandler) (object : DomainObject ν) :
    List (Option (ColumnValue ν)) :=
  (List.range tableHandler.columns.length).map object

/-! ## INSERT -/

/-- The texts and separators of the loop in `createInsertSQL`. -/
structure InsertTexts where
  insertSQL : List Char
  valuesSQL : List Char
  duplicateSQL : List Char
  columnSeparator : List Char
  duplicateSeparator : List Char

def InsertTexts.addColumn (texts : InsertTexts) (column : ColumnMetadata) : InsertTexts :=
  let named := { texts with
    insertSQL := texts.insertSQL ++ texts.columnSeparator ++ column.name
    valuesSQL := texts.valuesSQL ++ texts.columnSeparator ++ "?".toList
    columnSeparator := ", ".toList }
  if column.isInPrimaryKey then named
  else { named with
    duplicateSQL := texts.duplicateSQL ++ texts.duplicateSeparator ++ column.name ++
      " = VALUES (".toList ++ column.name ++ ") ".toList
    duplicateSeparator := ", ".toList }

/-- Whether a column is in the statement for a key; an empty key counts as none. -/
def isInKey (fieldValueDefinedKey : Option (List Char)) (i : ℕ) : Bool :=
  match fieldValueDefinedKey with
  | none | some [] => true
  | some key => key[i]? = some 'D'

/-- `createInsertSQL`: the statements without and with ON DUPLICATE KEY UPDATE. -/
def createInsertSQL (tableHandler : DBTableHandler) (fieldValueDefinedKey : Option (List Char)) :
    List Char × List Char :=
  let texts : InsertTexts := (tableHandler.columns.zipIdx).foldl
    (fun (texts : InsertTexts) (column, i) =>
      if isInKey fieldValueDefinedKey i then texts.addColumn column else texts)
    { insertSQL := "INSERT INTO ".toList ++ tableHandler.database ++ ".".toList ++
        tableHandler.name ++ " (".toList
      valuesSQL := " VALUES (".toList
      duplicateSQL := " ON DUPLICATE KEY UPDATE ".toList
      columnSeparator := [], duplicateSeparator := [] }
  let insertSQL := texts.insertSQL ++ (")".toList ++ (texts.valuesSQL ++ ")".toList))
  (insertSQL, insertSQL ++ texts.duplicateSQL)

/-- The statements that are kept with a table handler. -/
structure Metadata where
  insertSQL : List Char
  duplicateSQL : List Char
  insertPartialSQL : List Char → Option (List Char)
  duplicatePartialSQL : List Char → Option (List Char)

/-- `getMetadata`: the statements for all columns are made once. -/
def getMetadata (tableHandler : DBTableHandler) : Option Metadata → Metadata
  | some mysql => mysql
  | none =>
      { insertSQL := (createInsertSQL tableHandler none).1
        duplicateSQL := (createInsertSQL tableHandler none).2
        insertPartialSQL := fun _ => none
        duplicatePartialSQL := fun _ => none }

/-- Keep the statements for a key. -/
def Metadata.put (mysql : Metadata) (tableHandler : DBTableHandler) (key : List Char) : Metadata :=
  { mysql with
    insertPartialSQL := fun other =>
      if other = key then some (createInsertSQL tableHandler (some key)).1
      else mysql.insertPartialSQL other
    duplicatePartialSQL := fun other =>
      if other = key then some (createInsertSQL tableHandler (some key)).2
      else mysql.duplicatePartialSQL other }

/-- `getInsertSQL`. -/
def getInsertSQL (tableHandler : DBTableHandler) (mysql : Metadata) (key : List Char) :
    List Char × Metadata :=
  match mysql.insertPartialSQL key with
  | some insertSQL => (insertSQL, mysql)
  | none => ((createInsertSQL tableHandler (some key)).1, mysql.put tableHandler key)

/-- `getDuplicateSQL`. -/
def getDuplicateSQL (tableHandler : DBTableHandler) (mysql : Metadata) (key : List Char) :
    List Char × Metadata :=
  match mysql.duplicatePartialSQL key with
  | some duplicateSQL => (duplicateSQL, mysql)
  | none => ((createInsertSQL tableHandler (some key)).2, mysql.put tableHandler key)

/-- `extractValues`. -/
def extractValues (fieldValues : List (Option (ColumnValue ν))) (key : List Char) :
    List (Option (ColumnValue ν)) :=
  (key.zipIdx.filter fun (mark, _) => mark = 'D').map fun (_, fieldIndex) =>
    (fieldValues[fieldIndex]?).join

/-! ## UPDATE -/

/-- The loop over the columns of the index, from the end of the text and the separator on. -/
def updateWhereSQL : List (List Char) → List Char → List Char → List Char
  | [], _, text => text
  | columnName :: columnNames, separator, text =>
      updateWhereSQL columnNames "AND ".toList (text ++ separator ++ columnName ++ " = ? ".toList)

/-- The loop over the values: the SET clause and the values that are in it. -/
def updateSetSQL (mask : List ℕ) :
    List (ColumnMetadata × Option (ColumnValue ν) × ℕ) → List Char → List Char →
      List Char × List (Option (ColumnValue ν))
  | [], _, text => (text, [])
  | (_, none, _) :: rest, separator, text => updateSetSQL mask rest separator text
  | (column, some value, i) :: rest, separator, text =>
      if i ∈ mask then updateSetSQL mask rest separator text
      else
        let (sql, values) :=
          updateSetSQL mask rest ", ".toList (text ++ separator ++ column.name ++ " = ?".toList)
        (sql, some value :: values)

/-! ## Building operations -/

/-- What is asked for: `persist`, `save`, or `update` with the values of the index columns. -/
inductive Request (tableHandler : DBTableHandler) (ν : Type)
  | persist (object : DomainObject ν)
  | save (object : DomainObject ν)
  | update (index : DBIndexHandler tableHandler) (keys : List (Option (ColumnValue ν)))
      (hlength : keys.length = index.indexColumnNumbers.length) (values : DomainObject ν)

/-- A statement and what is passed with it; an `ErrorOperation`; or nothing, if the values cannot be
read. -/
inductive Built (ν : Type)
  | statement (sql : List Char) (values : List (Option (ColumnValue ν)))
  | error (columnName : List Char)
  | threw

/-- The part that `buildInsertOperation` and `buildWriteOperation` share, with the statement for all
columns and the function that finds the one for a key. -/
def buildInsert (tableHandler : DBTableHandler) (mysql : Metadata) (object : DomainObject ν)
    (all : List Char) (find : List Char → List Char × Metadata) : Built ν × Metadata :=
  match listen object tableHandler.columns 0 {} with
  | none => (.threw, mysql)
  | some { errors := columnName :: _, .. } => (.error columnName, mysql)
  | some { key := none, .. } => (.statement all (tableHandler.getColumns object), mysql)
  | some { key := some key, .. } =>
      let (sql, mysql) := find key
      (.statement sql (extractValues (tableHandler.getColumns object) key), mysql)

/-- `buildInsertOperation`. -/
def buildInsertOperation (tableHandler : DBTableHandler) (mysql : Metadata)
    (object : DomainObject ν) : Built ν × Metadata :=
  buildInsert tableHandler mysql object mysql.insertSQL (getInsertSQL tableHandler mysql)

/-- `buildWriteOperation`. -/
def buildWriteOperation (tableHandler : DBTableHandler) (mysql : Metadata)
    (object : DomainObject ν) : Built ν × Metadata :=
  buildInsert tableHandler mysql object mysql.duplicateSQL (getDuplicateSQL tableHandler mysql)

/-- `buildUpdateOperation`. -/
def buildUpdateOperation (tableHandler : DBTableHandler) (index : DBIndexHandler tableHandler)
    (keys : List (Option (ColumnValue ν))) (values : DomainObject ν) : Built ν :=
  let mask := index.indexColumnNumbers.map Fin.val
  let keyNames := index.indexColumnNumbers.map fun i => (tableHandler.columns.get i).name
  let whereSQL := updateWhereSQL keyNames [] " WHERE ".toList
  let (setSQL, updateFields) := updateSetSQL mask
    ((tableHandler.columns.zipIdx).map fun (column, i) => (column, values i, i)) []
    ("UPDATE ".toList ++ tableHandler.database ++ ".".toList ++ tableHandler.name ++ " SET ".toList)
  .statement (setSQL ++ whereSQL) (updateFields ++ keys)

/-- One request, with the statements that are kept before and behind it. -/
def build (tableHandler : DBTableHandler) (mysql : Option Metadata) :
    Request tableHandler ν → Built ν × Metadata
  | .persist object => buildInsertOperation tableHandler (getMetadata tableHandler mysql) object
  | .save object => buildWriteOperation tableHandler (getMetadata tableHandler mysql) object
  | .update index keys _ values =>
      (buildUpdateOperation tableHandler index keys values, getMetadata tableHandler mysql)

/-- The statements that are kept behind some requests. -/
def metadataAfter (tableHandler : DBTableHandler) (requests : List (Request tableHandler ν)) :
    Option Metadata :=
  requests.foldl (fun mysql request => some (build tableHandler mysql request).2) none

end DatabaseJones.MySQLConnection
