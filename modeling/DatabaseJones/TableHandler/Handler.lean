import DatabaseJones.TableHandler.Column

/-!
# Table handlers

The constructor of `DBTableHandler` combines the metadata of a table with a mapping.  It
lists the columns that the mapping uses, in the order in which the mapping mentions them,
and numbers them by their position in this list.  The numbers in the metadata of an index
are positions in the table.
-/

namespace DatabaseJones.TableHandler

variable {S : Type}

/-! ## Tables and mappings -/

/-- `IndexMetadata`; the numbers are positions in the columns of the table.  A primary key is
unique, and an index has at least one column and none twice. -/
structure IndexMetadata where
  name : String
  columnNumbers : List ℕ
  isPrimaryKey : Bool := false
  isUnique : Bool := false
  isOrdered : Bool := false
  columnNumbers_ne_nil : columnNumbers ≠ [] := by decide
  columnNumbers_nodup : columnNumbers.Nodup := by decide
  isUnique_of_isPrimaryKey : isPrimaryKey = true → isUnique = true := by decide
deriving Repr

instance : DecidableEq IndexMetadata := fun first second =>
  decidable_of_iff (first.name = second.name ∧ first.columnNumbers = second.columnNumbers ∧
    first.isPrimaryKey = second.isPrimaryKey ∧ first.isUnique = second.isUnique ∧
      first.isOrdered = second.isOrdered) (by
    cases first
    cases second
    simp)

/-- `TableMetadata` from the data dictionary. -/
structure TableMetadata (S : Type) where
  database : String
  name : String
  columns : List (ColumnMetadata S)
  indexes : List IndexMetadata
  sparseContainer : Option String
  names_nodup : (columns.map ColumnMetadata.name).Nodup
  columnNumbers_lt : ∀ index ∈ indexes, ∀ number ∈ index.columnNumbers, number < columns.length

/-- `TableMapping`. -/
structure TableMapping (S : Type) where
  mapAllColumns : Bool := true
  fields : List (FieldMapping S) := []
  excludedFieldNames : List String := []
  sparseContainer : Option (FieldMapping S) := none
  columnConverterMap : List (String × Converter S) := []

/-- `getFieldMapping(fieldName)`. -/
def TableMapping.getFieldMapping (mapping : TableMapping S) (fieldName : String) :
    Option (FieldMapping S) :=
  mapping.fields.find? fun field => field.fieldName == fieldName

/-- `mapField({fieldName, columnName})`, which does not replace an existing field. -/
def TableMapping.mapField (mapping : TableMapping S) (fieldName columnName : String) :
    TableMapping S :=
  match mapping.getFieldMapping fieldName with
  | some _ => mapping
  | none =>
      { mapping with
        fields := mapping.fields ++ [{ fieldName, columnName := some columnName }] }

/-- `fieldIsNotSparse(fieldName)`. -/
def fieldIsNotSparse (excludedFieldNames : List String) (fieldName : String) : List String :=
  if excludedFieldNames.contains fieldName then excludedFieldNames
  else excludedFieldNames ++ [fieldName]

/-- `getColumnByName(dbTable, colName)`. -/
def TableMetadata.getColumnByName (dbTable : TableMetadata S) (colName : String) :
    Option (ColumnMetadata S) :=
  dbTable.columns.find? fun column => column.name == colName

/-! ## DBTableHandlerPrivate -/

/-- `DBT_Field`.  The bits of the mask are kept in the order in which they were set; the
column number is that of the only bit. -/
@[ext]
structure DBTField (S : Type) where
  mapping : FieldMapping S
  columnMask : List ℕ := []
  columnNumber : Option ℕ := none

/-- `new DBT_Field(mapping, maskSize)`. -/
def DBTField.create (mapping : FieldMapping S) : DBTField S := { mapping := mapping }

/-- `mapToColumn(colNumber)`. -/
def DBTField.mapToColumn (field : DBTField S) (colNumber : ℕ) : DBTField S :=
  { field with
    columnMask := field.columnMask ++ [colNumber]
    columnNumber := if field.columnMask = [] then some colNumber else none }

/-- `DBTableHandlerPrivate`, with the errors that were reported.  `sparseColumnId` is set
after all fields have been added. -/
structure Private (S : Type) where
  columns : List (DBTColumn S) := []
  columnMetadata : List (ColumnMetadata S) := []
  fields : List (String × DBTField S) := []
  sparseColumnId : Option ℕ := none
  errorMessages : List String := []

namespace Private

/-- `columnNameToIdMap[name]`. -/
def columnId (priv : Private S) (name : String) : Option ℕ :=
  priv.columns.findIdx? fun column => column.columnName == name

def reportError (priv : Private S) (message : String) : Private S :=
  { priv with errorMessages := priv.errorMessages ++ [message] }

/-- `addColumn(columnMetadata, converterMap)`. -/
def addColumn (columnConverterMap : List (String × Converter S)) (priv : Private S)
    (columnMetadata : ColumnMetadata S) : Private S :=
  { priv with
    columns := priv.columns ++
      [.create columnMetadata (columnConverterMap.lookup columnMetadata.name)]
    columnMetadata := priv.columnMetadata ++ [columnMetadata] }

/-- The loop of `mapFieldToColumns` over the columns, from column `id` on, of which the
first is part `n` of the field.  The parts that were mapped are counted. -/
def mapParts (mapping : FieldMapping S) (names : List String) :
    ℕ → ℕ → List (DBTColumn S) → DBTField S → List (DBTColumn S) × DBTField S × ℕ
  | _, n, [], field => ([], field, n)
  | id, n, column :: columns, field =>
      if names.contains column.columnName then
        let (columns, field, used) :=
          mapParts mapping names (id + 1) (n + 1) columns (field.mapToColumn id)
        (column.mapPartial mapping n :: columns, field, used)
      else
        let (columns, field, used) := mapParts mapping names (id + 1) n columns field
        (column :: columns, field, used)

/-- `addFieldMapping` of column `id`, which may report an error. -/
def addFieldMapping (priv : Private S) (id : ℕ) (mapping : FieldMapping S) : Private S :=
  match priv.columns[id]? with
  | none => priv
  | some column =>
      let (mapped, isUsed) := column.addFieldMapping mapping
      let priv := { priv with columns := priv.columns.set id mapped }
      if isUsed then
        priv.reportError ("Column " ++ column.columnName ++ " is used by multiple fields but field " ++
          mapping.fieldName ++ " does not mark it as shared.")
      else priv

/-- `mapFieldToColumns(mapping)`, for a field that has just been added. -/
def mapFieldToColumns (priv : Private S) (mapping : FieldMapping S) : Private S :=
  match mapping.toManyColumns with
  | some names =>
      let (columns, field, used) := mapParts mapping names 0 0 priv.columns (.create mapping)
      let priv := { priv with columns, fields := priv.fields ++ [(mapping.fieldName, field)] }
      if names.length ≠ used then
        priv.reportError ("Bad column list in field " ++ mapping.fieldName ++ ": " ++
          String.intercalate "," names ++ "(used " ++ toString used ++ ")")
      else priv
  | none =>
      match priv.columnId mapping.column <|> priv.sparseColumnId with
      | some id =>
          let field := (DBTField.create mapping).mapToColumn id
          let priv := { priv with fields := priv.fields ++ [(mapping.fieldName, field)] }
          priv.addFieldMapping id mapping
      | none =>
          let priv := { priv with fields := priv.fields ++ [(mapping.fieldName, DBTField.create mapping)] }
          priv.reportError ("No column for field " ++ mapping.fieldName)

/-- `this.fields[name]`. -/
def field? (priv : Private S) (name : String) : Option (DBTField S) := priv.fields.lookup name

/-- `addField(mapping)`. -/
def addField (priv : Private S) (mapping : FieldMapping S) : Private S :=
  match priv.field? mapping.fieldName with
  | some _ =>
      priv.reportError ("Attempt to map field " ++ mapping.fieldName ++ " more than once")
  | none =>
      if mapping.relationship then
        { priv with fields := priv.fields ++ [(mapping.fieldName, DBTField.create mapping)] }
      else priv.mapFieldToColumns mapping

end Private

/-! ## The constructor -/

/-- `addColumnName(name)`. -/
def addColumnName (dbTable : TableMetadata S) (columnNames : List String) (name : String) :
    List String :=
  if (dbTable.getColumnByName name).isSome ∧ name ∉ columnNames then columnNames ++ [name]
  else columnNames

/-- The names of columns that a field mentions. -/
def FieldMapping.mentioned (field : FieldMapping S) : List String :=
  if field.persistent then field.toManyColumns.getD [field.column] else []

/-- The array of column names, which establishes the order of the columns. -/
def columnNames (dbTable : TableMetadata S) (tablemapping : TableMapping S) : List String :=
  if tablemapping.mapAllColumns then dbTable.columns.map ColumnMetadata.name
  else
    let mapped := (tablemapping.fields.flatMap FieldMapping.mentioned).foldl
      (addColumnName dbTable) []
    dbTable.sparseContainer.toList.foldl (addColumnName dbTable) mapped

/-- Add a default field mapping for a column that is not mapped yet. -/
def mapDefaultField (id : ℕ) (state : Private S × TableMapping S) : Private S × TableMapping S :=
  let (priv, resolvedMapping) := state
  match priv.columns[id]? with
  | none => state
  | some column =>
      if column.isMapped then state
      else
        match priv.field? column.columnName with
        | some _ =>
            ({ priv with columns := priv.columns.set id column.setUnmappable }, resolvedMapping)
        | none =>
            let resolvedMapping := resolvedMapping.mapField column.columnName column.columnName
            match resolvedMapping.getFieldMapping column.columnName with
            | some field => (priv.addField field, resolvedMapping)
            | none => (priv, resolvedMapping)

/-- The properties of a `DBTableHandler` that the loop over all columns sets. -/
structure Notable (S : Type) where
  priv : Private S
  resolvedMapping : TableMapping S
  sparseContainer : Option String := none
  autoIncColumnNumber : Option ℕ := none
  autoIncFieldName : Option String := none
  numberOfLobColumns : ℕ := 0
  is1to1 : Bool := true

/-- `setSparseColumn(id, tableMapping)`. -/
def Notable.setSparseColumn (notable : Notable S) (jsonConverter : Converter S) (id : ℕ)
    (column : DBTColumn S) : Notable S :=
  let sparse := column.setSparse
    (notable.resolvedMapping.sparseContainer.bind FieldMapping.converter)
    notable.resolvedMapping.excludedFieldNames jsonConverter
  { notable with
    priv := { notable.priv with
      sparseColumnId := some id
      columns := notable.priv.columns.set id sparse }
    sparseContainer := some column.columnName }

/-- The column is the sparse container if the mapping says so, or the table does and the
column has no mapping. -/
def Notable.setContainer (dbTable : TableMetadata S) (jsonConverter : Converter S) (id : ℕ)
    (column : DBTColumn S) (notable : Notable S) : Notable S :=
  if notable.resolvedMapping.sparseContainer.bind FieldMapping.columnName =
      some column.columnName then
    notable.setSparseColumn jsonConverter id column
  else if dbTable.sparseContainer = some column.columnName ∧ column.isMapped = false then
    let resolvedMapping := { notable.resolvedMapping with
      sparseContainer := some
        { fieldName := column.columnName, columnName := some column.columnName } }
    { notable with resolvedMapping }.setSparseColumn jsonConverter id column
  else notable

/-- The body of the loop over all columns.  `i` is what the loop before has left in this
variable. -/
def setNotable (dbTable : TableMetadata S) (jsonConverter : Converter S) (i : ℕ)
    (notable : Notable S) (id : ℕ) : Notable S :=
  match notable.priv.columns[id]?, notable.priv.columnMetadata[id]? with
  | some column, some columnMetadata =>
      let notable := notable.setContainer dbTable jsonConverter id column
      let notable :=
        if columnMetadata.isAutoincrement then
          { notable with
            autoIncColumnNumber := some i
            autoIncFieldName := column.fieldNames.head? }
        else notable
      let notable :=
        if columnMetadata.isLob then
          { notable with numberOfLobColumns := notable.numberOfLobColumns + 1 }
        else notable
      if (notable.priv.columns[id]?).any fun column => column.isShared || column.isPartial then
        { notable with is1to1 := false }
      else notable
  | _, _ => notable

/-- The loop over all field mappings resolves `field.columnName` and excludes the fields
that are not sparse. -/
def resolveField (notable : Notable S) (excludedFieldNames : List String) (field : FieldMapping S) :
    List String :=
  let columnName :=
    match field.columnName with
    | some columnName => some columnName
    | none =>
        if field.relationship ∨ field.persistent = false ∨ field.toManyColumns.isSome then none
        else if (notable.priv.columnId field.fieldName).isSome then some field.fieldName
        else notable.sparseContainer
  if columnName = notable.sparseContainer ∧ notable.sparseContainer.isSome then excludedFieldNames
  else fieldIsNotSparse excludedFieldNames field.fieldName

/-- `DBIndexHandler`: the numbers of the columns in the table handler. -/
structure DBIndexHandler where
  dbIndex : IndexMetadata
  indexColumnNumbers : List ℕ
deriving DecidableEq, Repr

/-- `DBTableHandler`. -/
structure DBTableHandler (S : Type) where
  dbTable : TableMetadata S
  priv : Private S
  resolvedFields : List (FieldMapping S)
  sparseContainer : Option String
  autoIncColumnNumber : Option ℕ
  autoIncFieldName : Option String
  numberOfLobColumns : ℕ
  is1to1 : Bool
  dbIndexHandlers : List DBIndexHandler

/-- `hasColumnsFromTable(columnNumbers)`, with the numbers in the handler. -/
def Private.indexColumnNumbers (priv : Private S) (dbTable : TableMetadata S)
    (columnNumbers : List ℕ) : Option (List ℕ) :=
  columnNumbers.mapM fun number =>
    (dbTable.columns[number]?).bind fun column => priv.columnId column.name

/-- The columns and the fields that the mapping names, before any default mappings. -/
def addMappedFields (dbTable : TableMetadata S) (tablemapping : TableMapping S) : Private S :=
  let priv := ((columnNames dbTable tablemapping).filterMap dbTable.getColumnByName).foldl
    (Private.addColumn tablemapping.columnConverterMap) {}
  (tablemapping.fields.filter FieldMapping.persistent).foldl Private.addField priv

/-- The fields of the resolved mapping, with the default mappings. -/
def addFields (dbTable : TableMetadata S) (tablemapping : TableMapping S) :
    Private S × TableMapping S :=
  let priv := addMappedFields dbTable tablemapping
  if tablemapping.mapAllColumns then
    (List.range priv.columns.length).foldl (fun state id => mapDefaultField id state)
      (priv, tablemapping)
  else (priv, tablemapping)

/-- What the variable `i` holds after the fields have been added. -/
def iteratorAfterFields (dbTable : TableMetadata S) (tablemapping : TableMapping S) : ℕ :=
  if tablemapping.mapAllColumns then (addMappedFields dbTable tablemapping).columns.length
  else tablemapping.fields.length

/-- `new DBTableHandler(dbtable, tablemapping)`.  The sparse column refers to the excluded
field names of the resolved mapping, to which the last loop adds. -/
def DBTableHandler.create (jsonConverter : Converter S) (dbTable : TableMetadata S)
    (tablemapping : TableMapping S) : DBTableHandler S :=
  let (priv, resolvedMapping) := addFields dbTable tablemapping
  let notable := (List.range priv.columns.length).foldl
    (setNotable dbTable jsonConverter (iteratorAfterFields dbTable tablemapping))
    { priv, resolvedMapping }
  let excludedFieldNames := notable.resolvedMapping.fields.foldl (resolveField notable)
    notable.resolvedMapping.excludedFieldNames
  let columns := notable.priv.columns.map fun column =>
    if column.shape = .sparse then { column with excludedFieldNames } else column
  { dbTable
    priv := { notable.priv with columns }
    resolvedFields := notable.resolvedMapping.fields
    sparseContainer := notable.sparseContainer
    autoIncColumnNumber := notable.autoIncColumnNumber
    autoIncFieldName := notable.autoIncFieldName
    numberOfLobColumns := notable.numberOfLobColumns
    is1to1 := notable.is1to1
    dbIndexHandlers := dbTable.indexes.filterMap fun dbIndex =>
      (notable.priv.indexColumnNumbers dbTable dbIndex.columnNumbers).map fun indexColumnNumbers =>
        { dbIndex, indexColumnNumbers } }

end DatabaseJones.TableHandler

/-!
## SQL statements of a table handler

The DELETE, SELECT and WHERE builders of `SQLBuilder.js`.  For an index they look up the
numbers in the metadata of the index in the columns of the handler.
-/

namespace DatabaseJones.TableHandler

variable {S : Type}

/-- The first of the indexes with a given name: of a unique index and the ordered index
that comes with it, the unique one. -/
def TableMetadata.indexNamed (dbTable : TableMetadata S) (name : String) : Option IndexMetadata :=
  dbTable.indexes.find? fun index => index.name == name

namespace SQLBuilder

/-- `columns[indexMetadata.columnNumbers[j]]` for all parts of an index; the name of a
column that is not there cannot be read. -/
def indexColumns (dbTableHandler : DBTableHandler S) (index : String) :
    Option (List (ColumnMetadata S)) :=
  match dbTableHandler.dbTable.indexNamed index with
  | none => some []
  | some indexMetadata =>
      indexMetadata.columnNumbers.mapM fun number => dbTableHandler.priv.columnMetadata[number]?

/-- A condition for each column. -/
def conditions (before after : String) (columns : List (ColumnMetadata S)) : String :=
  String.intercalate " AND " (columns.map fun column => before ++ column.name ++ after)

/-- The name of the table with that of its database. -/
def tableName (dbTable : TableMetadata S) : String := dbTable.database ++ "." ++ dbTable.name

/-- `createDeleteSQL(dbTableHandler, index)`. -/
def createDeleteSQL (dbTableHandler : DBTableHandler S) (index : Option String) : Option String :=
  let deleteTableScanSQL := "DELETE FROM " ++ tableName dbTableHandler.dbTable
  match index with
  | none => some deleteTableScanSQL
  | some index => (indexColumns dbTableHandler index).map fun columns =>
      deleteTableScanSQL ++ " WHERE " ++ conditions "" " = ?" columns

/-- `createSelectSQL(dbTableHandler, index)`. -/
def createSelectSQL (dbTableHandler : DBTableHandler S) (index : Option String) : Option String :=
  let selectTableScanSQL := "SELECT " ++
    String.intercalate ", " (dbTableHandler.priv.columnMetadata.map ColumnMetadata.name) ++
    " FROM " ++ tableName dbTableHandler.dbTable
  match index with
  | none => some selectTableScanSQL
  | some index => (indexColumns dbTableHandler index).map fun columns =>
      selectTableScanSQL ++ " WHERE " ++ conditions "" " = ? " columns

/-- `createWhereSQL(dbTableHandler, index)`. -/
def createWhereSQL (dbTableHandler : DBTableHandler S) (index : Option String) : Option String :=
  match index with
  | none => some ""
  | some index => (indexColumns dbTableHandler index).map fun columns =>
      " WHERE " ++ conditions "t0." " = ? " columns

/-- The statements for an index. -/
structure IndexSQL where
  index : String
  deleteSQL : String
  selectSQL : String
  whereSQL : String
deriving DecidableEq, Repr

/-- `getMetadata(dbTableHandler)`, for the statements of the indexes. -/
def getMetadata (dbTableHandler : DBTableHandler S) : Option (List IndexSQL) :=
  dbTableHandler.dbTable.indexes.mapM fun index => do
    let deleteSQL ← createDeleteSQL dbTableHandler (some index.name)
    let selectSQL ← createSelectSQL dbTableHandler (some index.name)
    let whereSQL ← createWhereSQL dbTableHandler (some index.name)
    pure { index := index.name, deleteSQL, selectSQL, whereSQL }

end SQLBuilder

end DatabaseJones.TableHandler
