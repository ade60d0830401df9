import DatabaseJones.IndexBounds.IndexBoundVisitor
import DatabaseJones.Library.OptionLists
import DatabaseJones.NdbOperation.ScanFilter
import DatabaseJones.TableHandler.FieldNumbers
import DatabaseJones.TableHandler.Handler

/-!
# Two numberings of columns

The numbers in the metadata of an index are positions in the table.  The numbers of the
fields are positions among the mapped columns, which are in the order of the mapping.  The
SQL builders look up the former among the mapped columns, the scan filter looks up the
latter in the table, and `getIndexBounds` takes one for the other.  The column number of
the autoincrement column is the value that an earlier loop has left in its variable.

They get the columns that the index or the field names exactly if the two positions agree
wherever a number of an index or a field is used, which they do whenever all columns are
mapped; the autoincrement column is then still missed.
-/

namespace DatabaseJones.TableHandler

open DatabaseJones.Query DatabaseJones.NdbOperation

variable {S : Type}

/-! ## What the consumers obtain -/

/-- The columns of the table that an index names. -/
def TableMetadata.columnsOf (dbTable : TableMetadata S) (index : IndexMetadata) :
    Option (List (ColumnMetadata S)) :=
  index.columnNumbers.mapM fun number => dbTable.columns[number]?

/-- The metadata for the native scan filter, where columns are numbered by their position.
The space and the NULL flag of a column are parameters. -/
def TableMetadata.ndbColumns (describe : ColumnMetadata S → ℕ × Bool) (dbTable : TableMetadata S) :
    List NdbOperation.ColumnMetadata :=
  dbTable.columns.zipIdx.map fun (column, number) =>
    { name := column.name
      columnNumber := number
      columnSpace := (describe column).1
      isNullable := (describe column).2 }

/-- A query field is that of a field of the handler which has a column number. -/
def DBTableHandler.HasField (dbTableHandler : DBTableHandler S) (queryField : QueryField)
    (field : FieldMapping S) : Prop :=
  ∃ dbField, dbTableHandler.priv.field? field.fieldName = some dbField ∧
    dbField.mapping = field ∧ dbField.columnNumber = some queryField.field.columnNumber

/-- Column `number` of the table is the one that the field names. -/
def NamesColumn (dbTable : TableMetadata S) (number : ℕ) (field : FieldMapping S) : Prop :=
  ∃ column, dbTable.columns[number]? = some column ∧ column.name ∈ field.targets

/-- The consumers of column numbers obtain the columns that the indexes and fields name. -/
structure NumberingsAgree (describe : ColumnMetadata S → ℕ × Bool)
    (dbTableHandler : DBTableHandler S) : Prop where
  /-- The DELETE, SELECT and WHERE builders. -/
  indexColumns : ∀ name index, dbTableHandler.dbTable.indexNamed name = some index →
    SQLBuilder.indexColumns dbTableHandler name = dbTableHandler.dbTable.columnsOf index
  /-- `getIndexBounds` finds the bound of a comparison under the numbers of exactly those parts
  of the index that the field names. -/
  columnBounds : ∀ (α : Type) [LinearOrder α] (params : String → Option α)
    (heap : IndexBounds.Heap α) (atom : Predicate (Option α)) queryField field result,
    atom.queryField? = some queryField → dbTableHandler.HasField queryField field →
    IndexBounds.visitColumns params (.fresh atom) heap = some result →
    ∀ indexHandler ∈ dbTableHandler.dbIndexHandlers,
      ∀ number ∈ indexHandler.dbIndex.columnNumbers,
        (result.1.bounds.columnBound number).isSome ↔
          NamesColumn dbTableHandler.dbTable number field
  /-- The scan filter compares the columns that the fields name. -/
  scanFilter : ∀ (V : Type) (predicate : Predicate V) marks filterSpec,
    FilterSpec.create (dbTableHandler.dbTable.ndbColumns describe) marks predicate =
      some filterSpec →
    List.Forall₂ (fun number queryField => ∀ field, dbTableHandler.HasField queryField field →
        NamesColumn dbTableHandler.dbTable number field)
      (filterSpec.node.calls.filterMap FilterCall.columnNumber?) (comparedFields predicate)
  autoIncrement : ∀ number, dbTableHandler.autoIncColumnNumber = some number →
    ∃ column, dbTableHandler.priv.columnMetadata[number]? = some column ∧
      column.isAutoincrement = true

/-! ## When they do -/

/-- A column number means the same column in the table and among the mapped columns. -/
def Aligned (dbTable : TableMetadata S) (mapping : TableMapping S) (number : ℕ) : Prop :=
  (columnNames dbTable mapping)[number]? = (dbTable.columns[number]?).map ColumnMetadata.name

/-- The field is the first persistent one of its name, and no relationship. -/
def TableMapping.HasColumnField (mapping : TableMapping S) (field : FieldMapping S) : Prop :=
  (mapping.fields.filter FieldMapping.persistent).find?
      (fun other => other.fieldName == field.fieldName) = some field ∧
    field.relationship = false

/-- The two positions agree for every part of an index and for every field with one column,
and the autoincrement column, if it is mapped, is at the position that the loop over the
fields stops at. -/
structure PositionsAgree (dbTable : TableMetadata S) (mapping : TableMapping S) : Prop where
  indexes : ∀ name index, dbTable.indexNamed name = some index →
    ∀ number ∈ index.columnNumbers, Aligned dbTable mapping number
  fields : ∀ field, mapping.HasColumnField field →
    ∀ number, field.positions (columnNames dbTable mapping) = [number] →
      Aligned dbTable mapping number
  autoIncrement : ∀ column ∈ mappedColumns dbTable mapping, column.isAutoincrement = true →
    mapping.mapAllColumns = false ∧
      ∃ last, (mappedColumns dbTable mapping)[mapping.fields.length]? = some last ∧
        last.isAutoincrement = true

theorem aligned_of_mapAllColumns {dbTable : TableMetadata S} {mapping : TableMapping S}
    (hall : mapping.mapAllColumns = true) (number : ℕ) : Aligned dbTable mapping number := by
  rw [Aligned, columnNames, if_pos hall, List.getElem?_map]

/-- If all columns are mapped, only the autoincrement column is missed. -/
theorem positionsAgree_of_mapAllColumns {dbTable : TableMetadata S} {mapping : TableMapping S}
    (hall : mapping.mapAllColumns = true)
    (hauto : ∀ column ∈ mappedColumns dbTable mapping, column.isAutoincrement = false) :
    PositionsAgree dbTable mapping where
  indexes _ _ _ number _ := aligned_of_mapAllColumns hall number
  fields _ _ number _ := aligned_of_mapAllColumns hall number
  autoIncrement column hcolumn h := absurd h (by simp [hauto column hcolumn])

/-! ## The SQL builders -/

theorem aligned_iff_getElem? (dbTable : TableMetadata S) (mapping : TableMapping S) (number : ℕ) :
    Aligned dbTable mapping number ↔
      (mappedColumns dbTable mapping)[number]? = dbTable.columns[number]? := by
  rw [Aligned, ← map_name_mappedColumns, List.getElem?_map]
  constructor
  · intro h
    rw [mappedColumns_getElem?, ← map_name_mappedColumns, List.getElem?_map, h]
    cases hcolumn : dbTable.columns[number]? with
    | none => rfl
    | some column => exact getColumnByName_eq_some (List.mem_of_getElem? hcolumn)
  · exact congrArg (Option.map ColumnMetadata.name)

theorem mem_of_indexNamed {dbTable : TableMetadata S} {name : String} {index : IndexMetadata}
    (h : dbTable.indexNamed name = some index) : index ∈ dbTable.indexes :=
  List.mem_of_find?_eq_some h

theorem indexColumns_eq_columnsOf_iff (jsonConverter : Converter S) {dbTable : TableMetadata S}
    (mapping : TableMapping S) {name : String} {index : IndexMetadata}
    (hindex : dbTable.indexNamed name = some index) :
    SQLBuilder.indexColumns (.create jsonConverter dbTable mapping) name =
        dbTable.columnsOf index ↔
      ∀ number ∈ index.columnNumbers, Aligned dbTable mapping number := by
  have hlookup : SQLBuilder.indexColumns (.create jsonConverter dbTable mapping) name =
      index.columnNumbers.mapM fun number => (mappedColumns dbTable mapping)[number]? := by
    rw [← (create_spec jsonConverter dbTable mapping).1, SQLBuilder.indexColumns]
    rw [show (DBTableHandler.create jsonConverter dbTable mapping).dbTable.indexNamed name =
      some index from hindex]
  rw [hlookup, TableMetadata.columnsOf, Library.mapM_eq_mapM_iff]
  · simp only [aligned_iff_getElem?]
  · intro number hnumber
    have hlt := dbTable.columnNumbers_lt index (mem_of_indexNamed hindex) number hnumber
    rw [List.getElem?_eq_getElem hlt]
    rfl

/-! ## The fields -/

theorem resolved_mapping (names : List String) (mapping : FieldMapping S) :
    (DBTField.resolved names mapping).mapping = mapping := by
  rw [DBTField.resolved]
  split_ifs <;> rfl

theorem resolved_columnNumber {names : List String} {mapping : FieldMapping S} {number : ℕ} :
    (DBTField.resolved names mapping).columnNumber = some number ↔
      mapping.relationship = false ∧ mapping.positions names = [number] := by
  rw [DBTField.resolved]
  cases hrelationship : mapping.relationship with
  | true => simp [DBTField.create]
  | false =>
      rw [if_neg Bool.false_ne_true]
      constructor
      · intro h
        refine ⟨rfl, ?_⟩
        revert h
        cases mapping.positions names with
        | nil => exact fun h => by cases h
        | cons id ids =>
            cases ids with
            | nil => exact fun h => congrArg (fun id => [id]) (Option.some.inj h)
            | cons other ids => exact fun h => by cases h
      · rintro ⟨_, h⟩
        rw [h]
        rfl

section
variable {jsonConverter : Converter S} {dbTable : TableMetadata S} {mapping : TableMapping S}
  {queryField : QueryField} {field : FieldMapping S}

/-- A field of the handler has one position, and is a field of the mapping unless all columns
are mapped. -/
theorem positions_of_hasField
    (h : (DBTableHandler.create jsonConverter dbTable mapping).HasField queryField field) :
    field.positions (columnNames dbTable mapping) = [queryField.field.columnNumber] ∧
      (mapping.mapAllColumns = false → mapping.HasColumnField field) := by
  obtain ⟨dbField, hfield, hmapping, hnumber⟩ := h
  obtain ⟨added, hadded, hsubset⟩ := (create_spec jsonConverter dbTable mapping).2.1
  rw [hadded] at hfield
  obtain ⟨found, hfound, rfl⟩ := Option.map_eq_some_iff.mp hfield
  rw [resolved_mapping] at hmapping
  subst hmapping
  obtain ⟨hrelationship, hpositions⟩ := resolved_columnNumber.mp hnumber
  exact ⟨hpositions, fun hall => ⟨hsubset hall ▸ hfound, hrelationship⟩⟩

theorem hasField_of_positions (hall : mapping.mapAllColumns = false)
    (hfield : mapping.HasColumnField field)
    (hpositions : field.positions (columnNames dbTable mapping) =
      [queryField.field.columnNumber]) :
    (DBTableHandler.create jsonConverter dbTable mapping).HasField queryField field := by
  obtain ⟨added, hadded, hsubset⟩ := (create_spec jsonConverter dbTable mapping).2.1
  refine ⟨DBTField.resolved (columnNames dbTable mapping) field, ?_, resolved_mapping _ _, ?_⟩
  · rw [hadded, hsubset hall, hfield.1]
    rfl
  · exact resolved_columnNumber.mpr ⟨hfield.2, hpositions⟩

/-- The column of the table that a field names is the mapped column at its position. -/
theorem name_of_namesColumn
    (h : (DBTableHandler.create jsonConverter dbTable mapping).HasField queryField field)
    {number : ℕ} (hnames : NamesColumn dbTable number field) :
    (columnNames dbTable mapping)[queryField.field.columnNumber]? =
      (dbTable.columns[number]?).map ColumnMetadata.name := by
  obtain ⟨hpositions, hfield⟩ := positions_of_hasField h
  obtain ⟨column, hcolumn, htarget⟩ := hnames
  have hmem : column ∈ dbTable.columns := List.mem_of_getElem? hcolumn
  have hname : column.name ∈ columnNames dbTable mapping := by
    cases hall : mapping.mapAllColumns with
    | true =>
        rw [columnNames, if_pos hall]
        exact List.mem_map_of_mem hmem
    | false =>
        have hfound := List.mem_of_find?_eq_some (hfield hall).1
        obtain ⟨hfields, hpersistent⟩ := List.mem_filter.mp hfound
        refine mem_columnNames_of_target hfields hpersistent htarget ?_
        rw [getColumnByName_eq_some hmem]
        rfl
  obtain ⟨id, hid⟩ := List.mem_iff_getElem?.mp hname
  have hposition : id ∈ field.positions (columnNames dbTable mapping) :=
    mem_positions.mpr ⟨column.name, hid, htarget⟩
  rw [hpositions, List.mem_singleton] at hposition
  rw [← hposition, hid, hcolumn]
  rfl

/-- Where the positions agree, the number of a field leads to the column that it names, and
no other number does. -/
theorem namesColumn_iff
    (h : (DBTableHandler.create jsonConverter dbTable mapping).HasField queryField field)
    (haligned : Aligned dbTable mapping queryField.field.columnNumber) (number : ℕ) :
    NamesColumn dbTable number field ↔ number = queryField.field.columnNumber := by
  constructor
  · intro hnames
    have hname := name_of_namesColumn h hnames
    obtain ⟨column, hcolumn, _⟩ := hnames
    rw [Aligned, hname, ← List.getElem?_map, ← List.getElem?_map] at haligned
    refine (List.getElem?_inj ?_ dbTable.names_nodup).mp haligned
    rw [List.length_map]
    exact (List.getElem?_eq_some_iff.mp hcolumn).1
  · rintro rfl
    have hposition : queryField.field.columnNumber ∈
        field.positions (columnNames dbTable mapping) := by
      rw [(positions_of_hasField h).1]
      exact List.mem_singleton_self _
    obtain ⟨name, hname, htarget⟩ := mem_positions.mp hposition
    rw [Aligned, hname] at haligned
    obtain ⟨column, hcolumn, rfl⟩ := Option.map_eq_some_iff.mp haligned.symm
    exact ⟨column, hcolumn, htarget⟩

theorem aligned_of_namesColumn
    (h : (DBTableHandler.create jsonConverter dbTable mapping).HasField queryField field)
    (hnames : NamesColumn dbTable queryField.field.columnNumber field) :
    Aligned dbTable mapping queryField.field.columnNumber :=
  name_of_namesColumn h hnames

theorem aligned_of_hasField (hagree : PositionsAgree dbTable mapping)
    (h : (DBTableHandler.create jsonConverter dbTable mapping).HasField queryField field) :
    Aligned dbTable mapping queryField.field.columnNumber := by
  obtain ⟨hpositions, hfield⟩ := positions_of_hasField h
  cases hall : mapping.mapAllColumns with
  | true => exact aligned_of_mapAllColumns hall _
  | false => exact hagree.fields field (hfield hall) _ hpositions

end

/-! ## Bounds and filters -/

/-- A comparison or null test stores its bound under the number of its field. -/
theorem visitColumns_atom {α : Type} [LinearOrder α] {params : String → Option α}
    {heap : IndexBounds.Heap α} {atom : Predicate (Option α)} {queryField : QueryField}
    {result : IndexBounds.QueryNode α × IndexBounds.Heap α}
    (hatom : atom.queryField? = some queryField)
    (hresult : IndexBounds.visitColumns params (.fresh atom) heap = some result) (number : ℕ) :
    (result.1.bounds.columnBound number).isSome ↔ number = queryField.field.columnNumber := by
  have hstore : ∃ bound, result.1.bounds = IndexBounds.NodeBounds.none.store queryField bound := by
    cases atom with
    | comparator comparator field parameter =>
        cases hatom
        rw [IndexBounds.QueryNode.fresh, IndexBounds.visitColumns] at hresult
        obtain ⟨⟨bound, _⟩, _, h⟩ := Option.bind_eq_some_iff.mp hresult
        exact ⟨bound, by rw [← Option.some.inj h]; rfl⟩
    | between field parameter1 parameter2 =>
        cases hatom
        rw [IndexBounds.QueryNode.fresh, IndexBounds.visitColumns] at hresult
        obtain ⟨⟨segment, _⟩, _, h⟩ := Option.bind_eq_some_iff.mp hresult
        exact ⟨.segment segment, by rw [← Option.some.inj h]; rfl⟩
    | unaryOperator operator field =>
        cases hatom
        rw [IndexBounds.QueryNode.fresh, IndexBounds.visitColumns] at hresult
        obtain ⟨⟨segment, _⟩, _, h⟩ := Option.bind_eq_some_iff.mp hresult
        exact ⟨.segment segment, by rw [← Option.some.inj h]; rfl⟩
    | not predicate => exact nomatch hatom
    | nary operator first rest => exact nomatch hatom
  obtain ⟨bound, hbounds⟩ := hstore
  rw [hbounds]
  by_cases h : number = queryField.field.columnNumber
  · simp [IndexBounds.NodeBounds.store, h]
  · simp [IndexBounds.NodeBounds.store, h]

theorem columnNumber_of_ndbColumns (describe : ColumnMetadata S → ℕ × Bool)
    (dbTable : TableMetadata S) (number : ℕ) (column : NdbOperation.ColumnMetadata)
    (h : (dbTable.ndbColumns describe)[number]? = some column) : column.columnNumber = number := by
  rw [TableMetadata.ndbColumns, List.getElem?_map] at h
  obtain ⟨⟨_, position⟩, hposition, rfl⟩ := Option.map_eq_some_iff.mp h
  rw [List.getElem?_zipIdx] at hposition
  obtain ⟨_, _, hpair⟩ := Option.map_eq_some_iff.mp hposition
  have := congrArg Prod.snd hpair
  simp only at this ⊢
  omega

/-- The filter of any predicate compares the columns whose numbers its fields have. -/
theorem columns_of_filterSpec {describe : ColumnMetadata S → ℕ × Bool} {dbTable : TableMetadata S}
    {V : Type} {predicate : Predicate V} {marks : ℕ} {filterSpec : FilterSpec V}
    (h : FilterSpec.create (dbTable.ndbColumns describe) marks predicate = some filterSpec) :
    filterSpec.node.calls.filterMap FilterCall.columnNumber? =
      (comparedFields predicate).map fun queryField => queryField.field.columnNumber := by
  rw [FilterSpec.create] at h
  obtain ⟨result, hresult, rfl⟩ := Option.map_eq_some_iff.mp h
  exact layoutNode_columns (columnNumber_of_ndbColumns describe dbTable) predicate hresult

/-! ## The numberings agree -/

section
variable {describe : ColumnMetadata S → ℕ × Bool} {jsonConverter : Converter S}
  {dbTable : TableMetadata S} {mapping : TableMapping S}

/-- Where the filter is right, a field with one column has the position of this column in the
table: take the filter of a null test of the field. -/
theorem aligned_of_scanFilter
    (h : NumberingsAgree describe (.create jsonConverter dbTable mapping))
    {field : FieldMapping S} (hfield : mapping.HasColumnField field) {number : ℕ}
    (hpositions : field.positions (columnNames dbTable mapping) = [number]) :
    Aligned dbTable mapping number := by
  cases hall : mapping.mapAllColumns with
  | true => exact aligned_of_mapAllColumns hall number
  | false =>
      let queryField : QueryField :=
        { tableAlias := [], field := { columnName := [], columnNumber := number } }
      have hhas : (DBTableHandler.create jsonConverter dbTable mapping).HasField queryField field :=
        hasField_of_positions hall hfield hpositions
      have hcompared := h.scanFilter ℕ (.unaryOperator .isNull queryField) 0
        { node := .nullTest .isNull number, schemas := {} } rfl
      have hnames := (List.forall₂_cons.mp hcompared).1 field hhas
      exact aligned_of_namesColumn hhas hnames

theorem autoIncrement_iff :
    (∀ number, (DBTableHandler.create jsonConverter dbTable mapping).autoIncColumnNumber =
        some number →
      ∃ column, (DBTableHandler.create jsonConverter dbTable mapping).priv.columnMetadata[number]? =
        some column ∧ column.isAutoincrement = true) ↔
      ∀ column ∈ mappedColumns dbTable mapping, column.isAutoincrement = true →
        mapping.mapAllColumns = false ∧
          ∃ last, (mappedColumns dbTable mapping)[mapping.fields.length]? = some last ∧
            last.isAutoincrement = true := by
  obtain ⟨hmetadata, _, hauto⟩ := create_spec jsonConverter dbTable mapping
  rw [hmetadata, hauto]
  have hiterator : iteratorAfterFields dbTable mapping =
      if mapping.mapAllColumns then (mappedColumns dbTable mapping).length
      else mapping.fields.length := by
    rw [iteratorAfterFields]
    obtain ⟨hresolved, _⟩ := resolved_addMappedFields dbTable mapping
    have hlength := congrArg List.length
      (hresolved.columnNames.trans (map_name_mappedColumns dbTable mapping).symm)
    rw [List.length_map, List.length_map] at hlength
    rw [hlength]
  constructor
  · intro h column hcolumn hisAuto
    have hany : (mappedColumns dbTable mapping).any ColumnMetadata.isAutoincrement = true :=
      List.any_eq_true.mpr ⟨column, hcolumn, hisAuto⟩
    rw [if_pos hany] at h
    obtain ⟨last, hlast, hlastAuto⟩ := h _ rfl
    rw [hiterator] at hlast
    split_ifs at hlast with hall
    · -- there is no column after the last one
      exact absurd (List.getElem?_eq_some_iff.mp hlast).1 (lt_irrefl _)
    · exact ⟨by simpa using hall, last, hlast, hlastAuto⟩
  · intro h number hnumber
    split_ifs at hnumber with hany
    obtain ⟨column, hcolumn, hisAuto⟩ := List.any_eq_true.mp hany
    obtain ⟨hall, last, hlast, hlastAuto⟩ := h column hcolumn hisAuto
    rw [hiterator, if_neg (by simp [hall])] at hnumber
    exact ⟨last, Option.some.inj hnumber ▸ hlast, hlastAuto⟩

/-- For every table and mapping, the consumers of column numbers obtain the columns that the
indexes and fields name exactly if the positions agree. -/
theorem numberingsAgree_iff (describe : ColumnMetadata S → ℕ × Bool) (jsonConverter : Converter S)
    (dbTable : TableMetadata S) (mapping : TableMapping S) :
    NumberingsAgree describe (.create jsonConverter dbTable mapping) ↔
      PositionsAgree dbTable mapping := by
  constructor
  · intro h
    refine ⟨fun name index hindex => ?_, fun field hfield number hpositions => ?_,
      autoIncrement_iff.mp h.autoIncrement⟩
    · exact (indexColumns_eq_columnsOf_iff jsonConverter mapping hindex).mp
        (h.indexColumns name index hindex)
    · exact aligned_of_scanFilter h hfield hpositions
  · intro h
    refine ⟨fun name index hindex => ?_, ?_, ?_, autoIncrement_iff.mpr h.autoIncrement⟩
    · exact (indexColumns_eq_columnsOf_iff jsonConverter mapping hindex).mpr
        (h.indexes name index hindex)
    · intro α _ params heap atom queryField field result hatom hfield hresult _ _ number _
      rw [visitColumns_atom hatom hresult number]
      exact (namesColumn_iff hfield (aligned_of_hasField h hfield) number).symm
    · intro V predicate marks filterSpec hspec
      have hcolumns := columns_of_filterSpec hspec
      rw [hcolumns, List.forall₂_map_left_iff, List.forall₂_same]
      intro queryField _ field hfield
      exact (namesColumn_iff hfield (aligned_of_hasField h hfield) _).mpr rfl

end

/-! ## A mapping that is not in the order of the table -/

/-- A table with its primary key first. -/
def people : TableMetadata ℕ where
  database := "test"
  name := "people"
  columns := [{ name := "id" }, { name := "name" }, { name := "age" }]
  indexes := [{ name := "PRIMARY", columnNumbers := [0] }]
  sparseContainer := none
  names_nodup := by decide
  columnNumbers_lt := by simp

/-- A mapping that names the column of the primary key second. -/
def ageFirst : TableMapping ℕ where
  mapAllColumns := false
  fields := [{ fieldName := "age" }, { fieldName := "id" }, { fieldName := "name" }]

/-- Deleting by primary key deletes by age. -/
theorem not_numberingsAgree_ageFirst :
    SQLBuilder.createDeleteSQL (.create ⟨some, some⟩ people ageFirst) (some "PRIMARY") =
        some "DELETE FROM test.people WHERE age = ?" ∧
      ¬ NumberingsAgree (fun _ => (4, false)) (.create ⟨some, some⟩ people ageFirst) := by
  refine ⟨rfl, fun h => ?_⟩
  have hcolumns := h.indexColumns "PRIMARY" _ rfl
  have hnames : (SQLBuilder.indexColumns (.create ⟨some, some⟩ people ageFirst) "PRIMARY").map
      (List.map ColumnMetadata.name) = some ["age"] := rfl
  rw [hcolumns] at hnames
  exact absurd hnames (by decide)

end DatabaseJones.TableHandler
