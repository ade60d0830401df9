import DatabaseJones.Library.OptionLists
import DatabaseJones.TableHandler.FieldNumbers

/-!
# Columns of fields and indexes

What the constructor of `DBTableHandler` leaves in its columns, the masks of its fields and
its index handlers: a field has the bits of the columns that it is mapped to, and an index
handler has the columns of its index, all different.
-/

namespace DatabaseJones.TableHandler

variable {S : Type}

/-- `getNumberOfColumns()`. -/
def DBTableHandler.getNumberOfColumns (dbTableHandler : DBTableHandler S) : ℕ :=
  dbTableHandler.priv.columns.length

section
variable (jsonConverter : Converter S) (dbTable : TableMetadata S) (mapping : TableMapping S)

/-- The columns of a handler have the names that the mapping lists, also when the numbers of
the index columns are looked up. -/
theorem columns_create :
    (DBTableHandler.create jsonConverter dbTable mapping).priv.columns.map DBTColumn.columnName =
        columnNames dbTable mapping ∧
      ∃ priv : Private S, priv.columns.map DBTColumn.columnName = columnNames dbTable mapping ∧
        (DBTableHandler.create jsonConverter dbTable mapping).dbIndexHandlers =
          dbTable.indexes.filterMap fun dbIndex =>
            (priv.indexColumnNumbers dbTable dbIndex.columnNumbers).map fun indexColumnNumbers =>
              { dbIndex, indexColumnNumbers } := by
  obtain ⟨⟨added, hresolved, _⟩, hmetadata⟩ := resolved_addFields dbTable mapping
  have hlength : (addFields dbTable mapping).1.columns.length =
      (addFields dbTable mapping).1.columnMetadata.length := by
    rw [hmetadata, ← List.length_map DBTColumn.columnName, hresolved.columnNames,
      ← map_name_mappedColumns, List.length_map]
  obtain ⟨hsame, _⟩ := foldl_setNotable dbTable jsonConverter
    (iteratorAfterFields dbTable mapping)
    (List.range (addFields dbTable mapping).1.columns.length)
    { priv := (addFields dbTable mapping).1, resolvedMapping := (addFields dbTable mapping).2 }
    hlength
  have hnames := hsame.names.trans hresolved.columnNames
  refine ⟨Eq.trans ?_ hnames, _, hnames, rfl⟩
  rw [DBTableHandler.create, List.map_map]
  apply List.map_congr_left
  intro column _
  rw [Function.comp_apply]
  split_ifs <;> rfl

/-- The field is mapped to the column with this number. -/
def DBTableHandler.MapsTo (dbTableHandler : DBTableHandler S) (name : String) (number : ℕ) : Prop :=
  ∃ field column, dbTableHandler.priv.field? name = some field ∧
    field.mapping.relationship = false ∧
    dbTableHandler.priv.columns[number]? = some column ∧ column.columnName ∈ field.mapping.targets

/-- The bits of a field are the numbers of its columns. -/
theorem mem_columnMask_create {name : String} {field : DBTField S}
    (hfield : (DBTableHandler.create jsonConverter dbTable mapping).priv.field? name = some field)
    (number : ℕ) :
    number ∈ field.columnMask ↔
      (DBTableHandler.create jsonConverter dbTable mapping).MapsTo name number := by
  obtain ⟨added, hadded, _⟩ := (create_spec jsonConverter dbTable mapping).2.1
  have hfound := hfield
  rw [hadded] at hfound
  obtain ⟨found, _, hresolved⟩ := Option.map_eq_some_iff.mp hfound
  have hmask : number ∈ field.columnMask ↔
      field.mapping.relationship = false ∧
        number ∈ field.mapping.positions (columnNames dbTable mapping) := by
    rw [← hresolved, DBTField.resolved]
    cases hrelationship : found.relationship with
    | true => simp [DBTField.create, hrelationship]
    | false => simp [hrelationship]
  rw [hmask, mem_positions, ← (columns_create jsonConverter dbTable mapping).1]
  constructor
  · rintro ⟨hrelationship, columnName, hname, htarget⟩
    rw [List.getElem?_map] at hname
    obtain ⟨column, hcolumn, rfl⟩ := Option.map_eq_some_iff.mp hname
    exact ⟨field, column, hfield, hrelationship, hcolumn, htarget⟩
  · rintro ⟨other, column, hother, hrelationship, hcolumn, htarget⟩
    rw [hfield] at hother
    obtain rfl := Option.some.inj hother
    refine ⟨hrelationship, column.columnName, ?_, htarget⟩
    rw [List.getElem?_map, hcolumn]
    rfl

theorem DBTableHandler.MapsTo.lt {dbTableHandler : DBTableHandler S} {name : String} {number : ℕ}
    (h : dbTableHandler.MapsTo name number) : number < dbTableHandler.getNumberOfColumns := by
  obtain ⟨_, _, _, _, hcolumn, _⟩ := h
  exact (List.getElem?_eq_some_iff.mp hcolumn).1

/-- Column `number` of the table is column `id` of the handler. -/
def IsColumnId (names : List String) (dbTable : TableMetadata S) (number id : ℕ) : Prop :=
  ∃ column, dbTable.columns[number]? = some column ∧ names[id]? = some column.name

theorem biUnique_isColumnId (names : List String) (hnodup : names.Nodup) :
    Relator.BiUnique (IsColumnId names dbTable) := by
  constructor
  · rintro first second id ⟨column, hfirst, hname⟩ ⟨other, hsecond, hother⟩
    have hnames : column.name = other.name := Option.some.inj (hname.symm.trans hother)
    have hlt : first < (dbTable.columns.map ColumnMetadata.name).length := by
      rw [List.length_map]
      exact (List.getElem?_eq_some_iff.mp hfirst).1
    apply (List.getElem?_inj hlt dbTable.names_nodup).mp
    rw [List.getElem?_map, List.getElem?_map, hfirst, hsecond, Option.map_some, Option.map_some,
      hnames]
  · rintro number first second ⟨column, hcolumn, hfirst⟩ ⟨other, hother, hsecond⟩
    rw [hcolumn] at hother
    obtain rfl := Option.some.inj hother
    exact (List.getElem?_inj (List.getElem?_eq_some_iff.mp hfirst).1 hnodup).mp
      (hfirst.trans hsecond.symm)

/-- The columns of an index handler are those of the index, in the same order. -/
theorem forall₂_isColumnId {indexHandler : DBIndexHandler}
    (h : indexHandler ∈ (DBTableHandler.create jsonConverter dbTable mapping).dbIndexHandlers) :
    List.Forall₂ (IsColumnId (columnNames dbTable mapping) dbTable)
      indexHandler.dbIndex.columnNumbers indexHandler.indexColumnNumbers := by
  obtain ⟨priv, hnames, hhandlers⟩ := (columns_create jsonConverter dbTable mapping).2
  rw [hhandlers] at h
  obtain ⟨dbIndex, _, hhandler⟩ := List.mem_filterMap.mp h
  obtain ⟨numbers, hnumbers, rfl⟩ := Option.map_eq_some_iff.mp hhandler
  refine (Library.mapM_eq_some_iff.mp hnumbers).imp fun number id hid => ?_
  obtain ⟨column, hcolumn, hid⟩ := Option.bind_eq_some_iff.mp hid
  refine ⟨column, hcolumn, ?_⟩
  rw [Private.columnId_eq, hnames] at hid
  obtain ⟨hlt, hname, _⟩ := List.findIdx?_eq_some_iff_getElem.mp hid
  rw [List.getElem?_eq_getElem hlt, beq_iff_eq.mp hname]

theorem indexColumnNumbers_lt {indexHandler : DBIndexHandler}
    (h : indexHandler ∈ (DBTableHandler.create jsonConverter dbTable mapping).dbIndexHandlers)
    {number : ℕ} (hnumber : number ∈ indexHandler.indexColumnNumbers) :
    number < (DBTableHandler.create jsonConverter dbTable mapping).getNumberOfColumns := by
  obtain ⟨hlength, hall⟩ :=
    List.forall₂_iff_get.mp (forall₂_isColumnId jsonConverter dbTable mapping h)
  obtain ⟨⟨i, hi⟩, rfl⟩ := List.mem_iff_get.mp hnumber
  obtain ⟨_, _, hname⟩ := hall i (hlength ▸ hi) hi
  rw [DBTableHandler.getNumberOfColumns, ← List.length_map DBTColumn.columnName,
    (columns_create jsonConverter dbTable mapping).1]
  exact (List.getElem?_eq_some_iff.mp hname).1

theorem nodup_indexColumnNumbers {indexHandler : DBIndexHandler}
    (h : indexHandler ∈ (DBTableHandler.create jsonConverter dbTable mapping).dbIndexHandlers) :
    indexHandler.indexColumnNumbers.Nodup := by
  have hunique := biUnique_isColumnId dbTable _ (nodup_columnNames dbTable mapping)
  exact (List.rel_nodup hunique (forall₂_isColumnId jsonConverter dbTable mapping h)).mp
    indexHandler.dbIndex.columnNumbers_nodup

theorem indexColumnNumbers_ne_nil {indexHandler : DBIndexHandler}
    (h : indexHandler ∈ (DBTableHandler.create jsonConverter dbTable mapping).dbIndexHandlers) :
    indexHandler.indexColumnNumbers ≠ [] := by
  intro hnil
  have hall := forall₂_isColumnId jsonConverter dbTable mapping h
  rw [hnil] at hall
  exact indexHandler.dbIndex.columnNumbers_ne_nil (List.forall₂_nil_right_iff.mp hall)

end

/-- The numbers that a handler keeps are those of its columns: the bits of a field, and the
parts of an index, which are all different. -/
structure DBTableHandler.Consistent (dbTableHandler : DBTableHandler S) : Prop where
  columnMask : ∀ name field, dbTableHandler.priv.field? name = some field →
    ∀ number, number ∈ field.columnMask ↔ dbTableHandler.MapsTo name number
  lt : ∀ indexHandler ∈ dbTableHandler.dbIndexHandlers,
    ∀ number ∈ indexHandler.indexColumnNumbers, number < dbTableHandler.getNumberOfColumns
  nodup : ∀ indexHandler ∈ dbTableHandler.dbIndexHandlers, indexHandler.indexColumnNumbers.Nodup
  ne_nil : ∀ indexHandler ∈ dbTableHandler.dbIndexHandlers, indexHandler.indexColumnNumbers ≠ []

theorem consistent_create (jsonConverter : Converter S) (dbTable : TableMetadata S)
    (mapping : TableMapping S) :
    (DBTableHandler.create jsonConverter dbTable mapping).Consistent where
  columnMask _ _ hfield := mem_columnMask_create jsonConverter dbTable mapping hfield
  lt _ h _ := indexColumnNumbers_lt jsonConverter dbTable mapping h
  nodup _ := nodup_indexColumnNumbers jsonConverter dbTable mapping
  ne_nil _ := indexColumnNumbers_ne_nil jsonConverter dbTable mapping

/-- An index has no column but this one. -/
theorem eq_singleton_of_forall_eq {numbers : List ℕ} (hnodup : numbers.Nodup) (hne : numbers ≠ [])
    {number : ℕ} (hall : ∀ other ∈ numbers, other = number) : numbers = [number] := by
  obtain ⟨head, tail, rfl⟩ := List.exists_cons_of_ne_nil hne
  obtain rfl := hall head List.mem_cons_self
  cases tail with
  | nil => rfl
  | cons second tail =>
      have hsecond := hall second (List.mem_cons_of_mem _ List.mem_cons_self)
      rw [hsecond] at hnodup
      exact absurd List.mem_cons_self (List.nodup_cons.mp hnodup).1

end DatabaseJones.TableHandler
