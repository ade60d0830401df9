import DatabaseJones.TableHandler.Handler

/-!
# The numbers of the fields

What the constructor of a table handler leaves in its columns and fields: the columns
are those of the array of column names, in its order, and a field has the positions of its
columns in this array.  The number of a field is its only position.
-/

namespace DatabaseJones.TableHandler

variable {S : Type}

/-! ## The array of column names -/

/-- The names of the columns that a field is mapped to. -/
def FieldMapping.targets (field : FieldMapping S) : List String :=
  field.toManyColumns.getD [field.column]

theorem FieldMapping.mentioned_of_persistent {field : FieldMapping S}
    (hpersistent : field.persistent = true) : field.mentioned = field.targets := by
  rw [mentioned, if_pos hpersistent, targets]

theorem getColumnByName_eq_some {dbTable : TableMetadata S} {column : ColumnMetadata S}
    (hcolumn : column ∈ dbTable.columns) : dbTable.getColumnByName column.name = some column := by
  have hnodup := dbTable.names_nodup
  rw [TableMetadata.getColumnByName]
  generalize dbTable.columns = columns at hcolumn hnodup
  induction columns with
  | nil => exact absurd hcolumn List.not_mem_nil
  | cons head columns ih =>
      rw [List.map_cons, List.nodup_cons] at hnodup
      rcases List.mem_cons.mp hcolumn with rfl | hmem
      · rw [List.find?_cons_of_pos (by simp)]
      · have hne : head.name ≠ column.name := fun h => hnodup.1 (h ▸ List.mem_map_of_mem hmem)
        rw [List.find?_cons_of_neg (by simpa using hne)]
        exact ih hmem hnodup.2

theorem getColumnByName_isSome_iff (dbTable : TableMetadata S) (name : String) :
    (dbTable.getColumnByName name).isSome ↔ name ∈ dbTable.columns.map ColumnMetadata.name := by
  simp [TableMetadata.getColumnByName, List.mem_map]

/-- `addColumnName` over a list of names: what it adds is in the table, and nothing is added
twice. -/
theorem foldl_addColumnName (dbTable : TableMetadata S) (names : List String) :
    ∀ columnNames : List String, columnNames.Nodup →
      (names.foldl (addColumnName dbTable) columnNames).Nodup ∧
      ∀ name, name ∈ names.foldl (addColumnName dbTable) columnNames ↔
        name ∈ columnNames ∨ name ∈ names ∧ (dbTable.getColumnByName name).isSome := by
  induction names with
  | nil => intro columnNames hnodup; simpa using hnodup
  | cons head names ih =>
      intro columnNames hnodup
      rw [List.foldl_cons]
      have hstep : (addColumnName dbTable columnNames head).Nodup ∧
          ∀ name, name ∈ addColumnName dbTable columnNames head ↔
            name ∈ columnNames ∨ name = head ∧ (dbTable.getColumnByName head).isSome := by
        rw [addColumnName]
        split_ifs with h
        · refine ⟨List.nodup_append.mpr ⟨hnodup, List.nodup_singleton head, ?_⟩, ?_⟩
          · intro a ha b hb hab
            rw [List.mem_singleton.mp hb] at hab
            exact h.2 (hab ▸ ha)
          · intro name
            simp [h.1]
        · refine ⟨hnodup, fun name => ⟨Or.inl, ?_⟩⟩
          rintro (hmem | ⟨rfl, hsome⟩)
          · exact hmem
          · by_contra hnot
            exact h ⟨hsome, hnot⟩
      obtain ⟨hnodup', hmem⟩ := hstep
      refine ⟨(ih _ hnodup').1, fun name => ?_⟩
      rw [(ih _ hnodup').2 name, hmem name, List.mem_cons]
      constructor
      · rintro ((h | ⟨rfl, h⟩) | ⟨h, hsome⟩)
        · exact Or.inl h
        · exact Or.inr ⟨Or.inl rfl, h⟩
        · exact Or.inr ⟨Or.inr h, hsome⟩
      · rintro (h | ⟨rfl | h, hsome⟩)
        · exact Or.inl (Or.inl h)
        · exact Or.inl (Or.inr ⟨rfl, hsome⟩)
        · exact Or.inr ⟨h, hsome⟩

theorem nodup_columnNames (dbTable : TableMetadata S) (mapping : TableMapping S) :
    (columnNames dbTable mapping).Nodup := by
  rw [columnNames]
  split_ifs
  · exact dbTable.names_nodup
  · exact (foldl_addColumnName dbTable _ _ (foldl_addColumnName dbTable _ _ List.nodup_nil).1).1

theorem getColumnByName_isSome_of_mem_columnNames {dbTable : TableMetadata S}
    {mapping : TableMapping S} {name : String} (hname : name ∈ columnNames dbTable mapping) :
    (dbTable.getColumnByName name).isSome := by
  rw [columnNames] at hname
  split_ifs at hname
  · exact (getColumnByName_isSome_iff dbTable name).mpr hname
  · have hinner := foldl_addColumnName dbTable (mapping.fields.flatMap FieldMapping.mentioned) []
      List.nodup_nil
    rcases ((foldl_addColumnName dbTable _ _ hinner.1).2 name).mp hname with h | h
    · rcases (hinner.2 name).mp h with h | h
      · exact absurd h List.not_mem_nil
      · exact h.2
    · exact h.2

/-- A column of the table that a persistent field is mapped to is in the array. -/
theorem mem_columnNames_of_target {dbTable : TableMetadata S} {mapping : TableMapping S}
    {field : FieldMapping S} (hfield : field ∈ mapping.fields) (hpersistent : field.persistent = true)
    {name : String} (hname : name ∈ field.targets)
    (hsome : (dbTable.getColumnByName name).isSome) : name ∈ columnNames dbTable mapping := by
  rw [columnNames]
  split_ifs
  · exact (getColumnByName_isSome_iff dbTable name).mp hsome
  · have hinner := foldl_addColumnName dbTable (mapping.fields.flatMap FieldMapping.mentioned) []
      List.nodup_nil
    apply ((foldl_addColumnName dbTable _ _ hinner.1).2 name).mpr
    refine Or.inl ((hinner.2 name).mpr (Or.inr ⟨?_, hsome⟩))
    exact List.mem_flatMap.mpr
      ⟨field, hfield, (FieldMapping.mentioned_of_persistent hpersistent).symm ▸ hname⟩

/-! ## The columns of the handler -/

/-- The metadata of the columns that the array names. -/
def mappedColumns (dbTable : TableMetadata S) (mapping : TableMapping S) :
    List (ColumnMetadata S) :=
  (columnNames dbTable mapping).filterMap dbTable.getColumnByName

theorem name_of_getColumnByName {dbTable : TableMetadata S} {name : String}
    {column : ColumnMetadata S} (h : dbTable.getColumnByName name = some column) :
    column.name = name := by
  simpa using List.find?_some h

theorem mem_of_getColumnByName {dbTable : TableMetadata S} {name : String}
    {column : ColumnMetadata S} (h : dbTable.getColumnByName name = some column) :
    column ∈ dbTable.columns :=
  List.mem_of_find?_eq_some h

theorem map_name_mappedColumns (dbTable : TableMetadata S) (mapping : TableMapping S) :
    (mappedColumns dbTable mapping).map ColumnMetadata.name = columnNames dbTable mapping := by
  have hall : ∀ name ∈ columnNames dbTable mapping, (dbTable.getColumnByName name).isSome :=
    fun name hname => getColumnByName_isSome_of_mem_columnNames hname
  rw [mappedColumns]
  generalize columnNames dbTable mapping = names at hall
  induction names with
  | nil => rfl
  | cons name names ih =>
      obtain ⟨column, hcolumn⟩ := Option.isSome_iff_exists.mp (hall name List.mem_cons_self)
      rw [List.filterMap_cons_some hcolumn, List.map_cons, name_of_getColumnByName hcolumn,
        ih fun name hname => hall name (List.mem_cons_of_mem _ hname)]

/-- The columns that a name is mapped to, at its position in the array. -/
theorem mappedColumns_getElem? (dbTable : TableMetadata S) (mapping : TableMapping S) (id : ℕ) :
    (mappedColumns dbTable mapping)[id]? =
      ((columnNames dbTable mapping)[id]?).bind dbTable.getColumnByName := by
  have hnames := map_name_mappedColumns dbTable mapping
  have hmem : ∀ column ∈ mappedColumns dbTable mapping, column ∈ dbTable.columns := by
    intro column hcolumn
    obtain ⟨name, _, hname⟩ := List.mem_filterMap.mp hcolumn
    exact mem_of_getColumnByName hname
  rw [← hnames, List.getElem?_map]
  cases h : (mappedColumns dbTable mapping)[id]? with
  | none => rfl
  | some column =>
      exact (getColumnByName_eq_some (hmem column (List.mem_of_getElem? h))).symm

/-! ## The fields of the handler -/

/-- The positions of the columns of a field in the array of column names. -/
def FieldMapping.positions (field : FieldMapping S) (names : List String) : List ℕ :=
  (List.range names.length).filter fun id => (names[id]?).any field.targets.contains

/-- The number of a field with one column. -/
def singlePosition : List ℕ → Option ℕ
  | [id] => some id
  | _ => none

/-- What the constructor leaves of a field. -/
def DBTField.resolved (names : List String) (mapping : FieldMapping S) : DBTField S :=
  if mapping.relationship then .create mapping
  else
    { mapping := mapping
      columnMask := mapping.positions names
      columnNumber := singlePosition (mapping.positions names) }

theorem mem_positions {field : FieldMapping S} {names : List String} {id : ℕ} :
    id ∈ field.positions names ↔ ∃ name, names[id]? = some name ∧ name ∈ field.targets := by
  rw [FieldMapping.positions, List.mem_filter, List.mem_range]
  constructor
  · rintro ⟨hlt, hany⟩
    rw [List.getElem?_eq_getElem hlt] at hany ⊢
    exact ⟨_, rfl, by simpa using hany⟩
  · rintro ⟨name, hname, hmem⟩
    refine ⟨(List.getElem?_eq_some_iff.mp hname).1, ?_⟩
    rw [hname]
    simpa using hmem

/-- The number of a field is the last bit of its mask as long as there is only one. -/
def DBTField.Numbered (field : DBTField S) : Prop :=
  field.columnNumber = singlePosition field.columnMask

theorem DBTField.numbered_mapToColumn (field : DBTField S) (id : ℕ) :
    (field.mapToColumn id).Numbered := by
  rw [DBTField.Numbered, DBTField.mapToColumn]
  cases hmask : field.columnMask with
  | nil => rfl
  | cons bit mask =>
      cases mask with
      | nil => rfl
      | cons other mask => rfl

/-- The positions from `id` on of the columns that a field splits into. -/
def partPositions (names : List String) (id : ℕ) (columnNames : List String) : List ℕ :=
  ((List.range columnNames.length).filter fun k => (columnNames[k]?).any names.contains).map (id + ·)

theorem partPositions_cons (names : List String) (id : ℕ) (name : String)
    (columnNames : List String) :
    partPositions names id (name :: columnNames) =
      (if names.contains name then [id] else []) ++ partPositions names (id + 1) columnNames := by
  rw [partPositions, partPositions, List.length_cons, List.range_succ_eq_map, List.filter_cons,
    List.filter_map, List.getElem?_cons_zero, Option.any_some]
  have hshift : (fun k => id + k) ∘ Nat.succ = fun k => id + 1 + k := by
    funext k
    simp only [Function.comp_apply]
    omega
  split_ifs <;> simp [Function.comp_def, Nat.add_assoc, Nat.add_comm 1]

/-- `mapParts` sets the bits of the columns that the field splits into. -/
theorem mapParts_field (mapping : FieldMapping S) (names : List String)
    (columns : List (DBTColumn S)) :
    ∀ id n (field : DBTField S), field.Numbered →
      (Private.mapParts mapping names id n columns field).2.1.Numbered ∧
      (Private.mapParts mapping names id n columns field).2.1.mapping = field.mapping ∧
      (Private.mapParts mapping names id n columns field).2.1.columnMask =
        field.columnMask ++ partPositions names id (columns.map DBTColumn.columnName) := by
  induction columns with
  | nil => intro id n field h; simpa [Private.mapParts, partPositions] using h
  | cons column columns ih =>
      intro id n field h
      rw [Private.mapParts, List.map_cons, partPositions_cons]
      split_ifs with hmem
      · obtain ⟨hnumbered, hmapping, hmask⟩ :=
          ih (id + 1) (n + 1) (field.mapToColumn id) (field.numbered_mapToColumn id)
        refine ⟨hnumbered, hmapping, hmask.trans ?_⟩
        rw [DBTField.mapToColumn, List.append_assoc]
      · obtain ⟨hnumbered, hmapping, hmask⟩ := ih (id + 1) n field h
        exact ⟨hnumbered, hmapping, by rw [hmask, List.nil_append]⟩

theorem mapParts_names (mapping : FieldMapping S) (names : List String)
    (columns : List (DBTColumn S)) :
    ∀ id n (field : DBTField S),
      (Private.mapParts mapping names id n columns field).1.map DBTColumn.columnName =
        columns.map DBTColumn.columnName := by
  induction columns with
  | nil => intro id n field; rfl
  | cons column columns ih =>
      intro id n field
      rw [Private.mapParts]
      split_ifs
      · exact congrArg (column.columnName :: ·) (ih (id + 1) (n + 1) (field.mapToColumn id))
      · exact congrArg (column.columnName :: ·) (ih (id + 1) n field)

/-- The state of the constructor after the given fields have been added. -/
structure Resolved (names : List String) (added : List (FieldMapping S)) (priv : Private S) :
    Prop where
  columnNames : priv.columns.map DBTColumn.columnName = names
  sparseColumnId : priv.sparseColumnId = none
  fields : ∀ name, priv.field? name =
    (added.find? fun field => field.fieldName == name).map (DBTField.resolved names)

/-- The positions of a field that is not split are that of its column. -/
theorem positions_of_one {field : FieldMapping S} (hone : field.toManyColumns = none)
    {names : List String} (hnodup : names.Nodup) :
    field.positions names = (names.findIdx? (· == field.column)).toList := by
  have htargets : field.targets = [field.column] := by rw [FieldMapping.targets, hone, Option.getD_none]
  have hmem : ∀ id, id ∈ field.positions names ↔ names[id]? = some field.column := by
    intro id
    rw [mem_positions, htargets]
    constructor
    · rintro ⟨name, hname, hcolumn⟩
      rw [hname, List.mem_singleton.mp hcolumn]
    · intro h
      exact ⟨_, h, List.mem_singleton_self _⟩
  have hpositions : (field.positions names).Nodup := List.nodup_range.filter _
  cases hindex : names.findIdx? (· == field.column) with
  | none =>
      refine List.eq_nil_iff_forall_not_mem.mpr fun id hid => ?_
      have hfound := (hmem id).mp hid
      have := List.findIdx?_eq_none_iff.mp hindex _ (List.mem_of_getElem? hfound)
      simp at this
  | some id =>
      obtain ⟨hlt, heq, _⟩ := List.findIdx?_eq_some_iff_getElem.mp hindex
      have hfound : names[id]? = some field.column := by
        rw [List.getElem?_eq_getElem hlt, beq_iff_eq.mp heq]
      refine (List.perm_ext_iff_of_nodup hpositions (List.nodup_singleton id)).mpr ?_ |>.eq_singleton
      intro other
      rw [hmem, List.mem_singleton]
      constructor
      · intro hother
        exact (List.getElem?_inj (List.getElem?_eq_some_iff.mp hother).1 hnodup).mp
          (hother.trans hfound.symm)
      · rintro rfl
        exact hfound

theorem positions_of_many {field : FieldMapping S} {targets : List String}
    (hmany : field.toManyColumns = some targets) (names : List String) :
    field.positions names = partPositions targets 0 names := by
  have htargets : field.targets = targets := by rw [FieldMapping.targets, hmany, Option.getD_some]
  rw [FieldMapping.positions, partPositions, htargets]
  simp

@[simp] theorem columnName_addFieldMapping (column : DBTColumn S) (mapping : FieldMapping S) :
    (column.addFieldMapping mapping).1.columnName = column.columnName := by
  unfold DBTColumn.addFieldMapping
  dsimp only
  split_ifs <;> rfl

namespace Private

@[simp] theorem fields_reportError (priv : Private S) (message : String) :
    (priv.reportError message).fields = priv.fields := rfl

@[simp] theorem columns_reportError (priv : Private S) (message : String) :
    (priv.reportError message).columns = priv.columns := rfl

@[simp] theorem sparseColumnId_reportError (priv : Private S) (message : String) :
    (priv.reportError message).sparseColumnId = priv.sparseColumnId := rfl

@[simp] theorem columnMetadata_reportError (priv : Private S) (message : String) :
    (priv.reportError message).columnMetadata = priv.columnMetadata := rfl

/-- What mapping a field to a column leaves as it is. -/
theorem addFieldMapping_frame (priv : Private S) (id : ℕ) (mapping : FieldMapping S) :
    (priv.addFieldMapping id mapping).columns.map DBTColumn.columnName =
        priv.columns.map DBTColumn.columnName ∧
      (priv.addFieldMapping id mapping).fields = priv.fields ∧
      (priv.addFieldMapping id mapping).sparseColumnId = priv.sparseColumnId ∧
      (priv.addFieldMapping id mapping).columnMetadata = priv.columnMetadata := by
  unfold addFieldMapping
  cases hcolumn : priv.columns[id]? with
  | none => exact ⟨rfl, rfl, rfl, rfl⟩
  | some column =>
      dsimp only
      have hnames : (priv.columns.set id (column.addFieldMapping mapping).1).map
          DBTColumn.columnName = priv.columns.map DBTColumn.columnName := by
        rw [List.map_set, columnName_addFieldMapping]
        obtain ⟨hlt, rfl⟩ := List.getElem?_eq_some_iff.mp hcolumn
        refine List.ext_getElem (by simp) fun i _ _ => ?_
        rw [List.getElem_set]
        split_ifs with h <;> simp [h]
      split_ifs <;> exact ⟨hnames, rfl, rfl, rfl⟩

theorem columnId_eq (priv : Private S) (name : String) :
    priv.columnId name = (priv.columns.map DBTColumn.columnName).findIdx? (· == name) := by
  rw [columnId, List.findIdx?_map]
  rfl

end Private

theorem fields_append {names : List String} {added : List (FieldMapping S)}
    {priv later : Private S} (h : Resolved names added priv) {mapping : FieldMapping S}
    (hfields : later.fields =
      priv.fields ++ [(mapping.fieldName, DBTField.resolved names mapping)]) (name : String) :
    later.field? name =
      ((added ++ [mapping]).find? fun field => field.fieldName == name).map
        (DBTField.resolved names) := by
  have hlookup : later.field? name = (priv.field? name).or
      (List.lookup name [(mapping.fieldName, DBTField.resolved names mapping)]) := by
    rw [Private.field?, hfields, List.lookup_append]
    rfl
  rw [hlookup, h.fields name, List.find?_append, Option.map_or]
  congr 1
  rw [List.lookup_cons, List.find?_cons]
  by_cases hname : mapping.fieldName = name
  · simp [hname]
  · rw [beq_false_of_ne hname, beq_false_of_ne (Ne.symm hname)]
    rfl

/-- What `mapFieldToColumns` leaves of the field and the columns. -/
theorem mapFieldToColumns_spec {names : List String} (hnodup : names.Nodup)
    {added : List (FieldMapping S)} {priv : Private S} (h : Resolved names added priv)
    {mapping : FieldMapping S} (hrelationship : mapping.relationship = false) :
    (priv.mapFieldToColumns mapping).columns.map DBTColumn.columnName = names ∧
      (priv.mapFieldToColumns mapping).sparseColumnId = none ∧
      (priv.mapFieldToColumns mapping).columnMetadata = priv.columnMetadata ∧
      (priv.mapFieldToColumns mapping).fields =
        priv.fields ++ [(mapping.fieldName, DBTField.resolved names mapping)] := by
  have hresolved : DBTField.resolved names mapping =
      { mapping := mapping
        columnMask := mapping.positions names
        columnNumber := singlePosition (mapping.positions names) } := by
    rw [DBTField.resolved, if_neg (by simp [hrelationship])]
  rw [Private.mapFieldToColumns]
  cases htargets : mapping.toManyColumns with
  | some targets =>
      obtain ⟨hnumbered, hmapping, hmask⟩ :=
        mapParts_field mapping targets priv.columns 0 0 (.create mapping) rfl
      have hnames := mapParts_names mapping targets priv.columns 0 0 (.create mapping)
      rw [h.columnNames] at hmask hnames
      have hfield : (Private.mapParts mapping targets 0 0 priv.columns (.create mapping)).2.1 =
          DBTField.resolved names mapping := by
        rw [hresolved, positions_of_many htargets]
        have hmask' := hmask.trans (List.nil_append _)
        have hnumber := hnumbered
        rw [DBTField.Numbered, hmask'] at hnumber
        exact DBTField.ext hmapping hmask' hnumber
      dsimp only
      split_ifs
      · exact ⟨hnames, h.sparseColumnId, rfl, by rw [Private.fields_reportError, hfield]⟩
      · exact ⟨hnames, h.sparseColumnId, rfl, by rw [hfield]⟩
  | none =>
      have hid : (priv.columnId mapping.column <|> priv.sparseColumnId) =
          names.findIdx? (· == mapping.column) := by
        rw [h.sparseColumnId, Private.columnId_eq, h.columnNames]
        cases names.findIdx? (· == mapping.column) <;> rfl
      rw [hid, hresolved, positions_of_one htargets hnodup]
      cases names.findIdx? (· == mapping.column) with
      | none => exact ⟨h.columnNames, h.sparseColumnId, rfl, rfl⟩
      | some id =>
          dsimp only
          obtain ⟨hcolumns, hfields, hsparse, hmetadata⟩ := Private.addFieldMapping_frame
            { priv with
              fields := priv.fields ++ [(mapping.fieldName, (DBTField.create mapping).mapToColumn id)] }
            id mapping
          exact ⟨hcolumns.trans h.columnNames, hsparse.trans h.sparseColumnId, hmetadata, hfields⟩

/-- One step: `addField`. -/
theorem Resolved.addField {names : List String} (hnodup : names.Nodup)
    {added : List (FieldMapping S)} {priv : Private S} (h : Resolved names added priv)
    (mapping : FieldMapping S) :
    Resolved names (added ++ [mapping]) (priv.addField mapping) ∧
      (priv.addField mapping).columnMetadata = priv.columnMetadata := by
  rw [Private.addField]
  cases hfield : priv.field? mapping.fieldName with
  | some field =>
      refine ⟨⟨h.columnNames, h.sparseColumnId, fun name => ?_⟩, rfl⟩
      -- the field that was named first stays
      rw [show (priv.reportError _).field? name = priv.field? name from rfl, h.fields name,
        List.find?_append]
      cases hfound : added.find? fun field => field.fieldName == name with
      | some first => rfl
      | none =>
          have hne : mapping.fieldName ≠ name := by
            rintro rfl
            rw [h.fields, hfound] at hfield
            exact absurd hfield (by simp)
          simp [hne]
  | none =>
      dsimp only
      split_ifs with hrelationship
      · refine ⟨⟨h.columnNames, h.sparseColumnId, fields_append h ?_⟩, rfl⟩
        rw [DBTField.resolved, if_pos hrelationship]
      · obtain ⟨hcolumns, hsparse, hmetadata, hfields⟩ :=
          mapFieldToColumns_spec hnodup h (by simpa using hrelationship)
        exact ⟨⟨hcolumns, hsparse, fields_append h hfields⟩, hmetadata⟩

/-- A run of steps. -/
theorem Resolved.foldl_addField {names : List String} (hnodup : names.Nodup)
    (mappings : List (FieldMapping S)) :
    ∀ {added : List (FieldMapping S)} {priv : Private S}, Resolved names added priv →
      Resolved names (added ++ mappings) (mappings.foldl Private.addField priv) ∧
        (mappings.foldl Private.addField priv).columnMetadata = priv.columnMetadata := by
  induction mappings with
  | nil => intro added priv h; exact ⟨(List.append_nil added).symm ▸ h, rfl⟩
  | cons mapping mappings ih =>
      intro added priv h
      obtain ⟨hstep, hmetadata⟩ := h.addField hnodup mapping
      obtain ⟨hrun, hmetadata'⟩ := ih hstep
      rw [List.append_assoc, List.singleton_append] at hrun
      exact ⟨hrun, hmetadata'.trans hmetadata⟩

/-! ## The constructor -/

theorem foldl_addColumn (converters : List (String × Converter S))
    (columns : List (ColumnMetadata S)) :
    ∀ priv : Private S,
      (columns.foldl (Private.addColumn converters) priv).columns.map DBTColumn.columnName =
          priv.columns.map DBTColumn.columnName ++ columns.map ColumnMetadata.name ∧
        (columns.foldl (Private.addColumn converters) priv).columnMetadata =
          priv.columnMetadata ++ columns ∧
        (columns.foldl (Private.addColumn converters) priv).fields = priv.fields ∧
        (columns.foldl (Private.addColumn converters) priv).sparseColumnId = priv.sparseColumnId := by
  induction columns with
  | nil => intro priv; simp
  | cons column columns ih =>
      intro priv
      obtain ⟨hcolumns, hmetadata, hfields, hsparse⟩ := ih (priv.addColumn converters column)
      rw [List.foldl_cons, List.map_cons]
      refine ⟨hcolumns.trans ?_, hmetadata.trans ?_, hfields, hsparse⟩
      · simp [Private.addColumn, DBTColumn.create]
      · simp [Private.addColumn]

theorem resolved_addMappedFields (dbTable : TableMetadata S) (mapping : TableMapping S) :
    Resolved (columnNames dbTable mapping) (mapping.fields.filter FieldMapping.persistent)
        (addMappedFields dbTable mapping) ∧
      (addMappedFields dbTable mapping).columnMetadata = mappedColumns dbTable mapping := by
  obtain ⟨hcolumns, hmetadata, hfields, hsparse⟩ :=
    foldl_addColumn mapping.columnConverterMap (mappedColumns dbTable mapping) {}
  have hinitial : Resolved (columnNames dbTable mapping) []
      ((mappedColumns dbTable mapping).foldl (Private.addColumn mapping.columnConverterMap) {}) := by
    refine ⟨hcolumns.trans ?_, hsparse, fun name => ?_⟩
    · rw [map_name_mappedColumns]
      rfl
    · rw [Private.field?, hfields]
      rfl
  obtain ⟨hrun, hmetadata'⟩ := Resolved.foldl_addField (nodup_columnNames dbTable mapping)
    (mapping.fields.filter FieldMapping.persistent) hinitial
  exact ⟨hrun, hmetadata'.trans hmetadata⟩

theorem map_columnName_set {columns : List (DBTColumn S)} {id : ℕ} {column changed : DBTColumn S}
    (hcolumn : columns[id]? = some column) (hname : changed.columnName = column.columnName) :
    (columns.set id changed).map DBTColumn.columnName = columns.map DBTColumn.columnName := by
  rw [List.map_set, hname]
  obtain ⟨hlt, rfl⟩ := List.getElem?_eq_some_iff.mp hcolumn
  refine List.ext_getElem (by simp) fun i _ _ => ?_
  rw [List.getElem_set]
  split_ifs with h <;> simp [h]

/-- One step of the loop that adds default mappings. -/
theorem mapDefaultField_spec {names : List String} (hnodup : names.Nodup)
    {added : List (FieldMapping S)} {state : Private S × TableMapping S}
    (h : Resolved names added state.1) (id : ℕ) :
    (∃ later, Resolved names later (mapDefaultField id state).1) ∧
      (mapDefaultField id state).1.columnMetadata = state.1.columnMetadata := by
  obtain ⟨priv, resolvedMapping⟩ := state
  rw [mapDefaultField]
  cases hcolumn : priv.columns[id]? with
  | none => exact ⟨⟨added, h⟩, rfl⟩
  | some column =>
      dsimp only
      split_ifs
      · exact ⟨⟨added, h⟩, rfl⟩
      · cases priv.field? column.columnName with
        | some field =>
            have hnames := map_columnName_set hcolumn
              (show column.setUnmappable.columnName = column.columnName from rfl)
            exact ⟨⟨added, ⟨hnames.trans h.columnNames, h.sparseColumnId, h.fields⟩⟩, rfl⟩
        | none =>
            dsimp only
            cases (resolvedMapping.mapField column.columnName column.columnName).getFieldMapping
                column.columnName with
            | none => exact ⟨⟨added, h⟩, rfl⟩
            | some field =>
                obtain ⟨hstep, hmetadata⟩ := h.addField hnodup field
                exact ⟨⟨_, hstep⟩, hmetadata⟩

theorem foldl_mapDefaultField {names : List String} (hnodup : names.Nodup) (ids : List ℕ) :
    ∀ {added : List (FieldMapping S)} (state : Private S × TableMapping S),
      Resolved names added state.1 →
        (∃ later, Resolved names later
            (ids.foldl (fun state id => mapDefaultField id state) state).1) ∧
          (ids.foldl (fun state id => mapDefaultField id state) state).1.columnMetadata =
            state.1.columnMetadata := by
  induction ids with
  | nil => intro added state h; exact ⟨⟨added, h⟩, rfl⟩
  | cons id ids ih =>
      intro added state h
      obtain ⟨⟨later, hstep⟩, hmetadata⟩ := mapDefaultField_spec hnodup h id
      obtain ⟨hrun, hmetadata'⟩ := ih _ hstep
      exact ⟨hrun, hmetadata'.trans hmetadata⟩

/-- The state of the constructor after all fields have been added. -/
theorem resolved_addFields (dbTable : TableMetadata S) (mapping : TableMapping S) :
    (∃ added, Resolved (columnNames dbTable mapping) added (addFields dbTable mapping).1 ∧
        (mapping.mapAllColumns = false →
          added = mapping.fields.filter FieldMapping.persistent)) ∧
      (addFields dbTable mapping).1.columnMetadata = mappedColumns dbTable mapping := by
  obtain ⟨hmapped, hmetadata⟩ := resolved_addMappedFields dbTable mapping
  rw [addFields]
  split_ifs with hall
  · obtain ⟨⟨later, hrun⟩, hmetadata'⟩ := foldl_mapDefaultField
      (nodup_columnNames dbTable mapping)
      (List.range (addMappedFields dbTable mapping).columns.length)
      (addMappedFields dbTable mapping, mapping) hmapped
    exact ⟨⟨later, hrun, fun h => absurd hall (by simp [h])⟩, hmetadata'.trans hmetadata⟩
  · exact ⟨⟨_, hmapped, fun _ => rfl⟩, hmetadata⟩

/-- What the loop over all columns leaves as it is. -/
structure SameColumns (before after : Private S) : Prop where
  names : after.columns.map DBTColumn.columnName = before.columns.map DBTColumn.columnName
  columnMetadata : after.columnMetadata = before.columnMetadata
  fields : after.fields = before.fields

theorem SameColumns.refl (priv : Private S) : SameColumns priv priv := ⟨rfl, rfl, rfl⟩

theorem SameColumns.trans {first second third : Private S} (h : SameColumns first second)
    (h' : SameColumns second third) : SameColumns first third :=
  ⟨h'.names.trans h.names, h'.columnMetadata.trans h.columnMetadata, h'.fields.trans h.fields⟩

/-- The sparse container takes the place of a column with the same name. -/
theorem setContainer_spec (dbTable : TableMetadata S) (jsonConverter : Converter S)
    (notable : Notable S) {id : ℕ} {column : DBTColumn S}
    (hcolumn : notable.priv.columns[id]? = some column) :
    SameColumns notable.priv (notable.setContainer dbTable jsonConverter id column).priv ∧
      (notable.setContainer dbTable jsonConverter id column).autoIncColumnNumber =
        notable.autoIncColumnNumber := by
  rw [Notable.setContainer]
  split_ifs
  · exact ⟨⟨map_columnName_set hcolumn rfl, rfl, rfl⟩, rfl⟩
  · exact ⟨⟨map_columnName_set hcolumn rfl, rfl, rfl⟩, rfl⟩
  · exact ⟨.refl _, rfl⟩

/-- One step of the loop over all columns. -/
theorem setNotable_spec (dbTable : TableMetadata S) (jsonConverter : Converter S) (i : ℕ)
    (notable : Notable S) (id : ℕ)
    (hlength : notable.priv.columns.length = notable.priv.columnMetadata.length) :
    SameColumns notable.priv (setNotable dbTable jsonConverter i notable id).priv ∧
      (setNotable dbTable jsonConverter i notable id).autoIncColumnNumber =
        if (notable.priv.columnMetadata[id]?).any ColumnMetadata.isAutoincrement then some i
        else notable.autoIncColumnNumber := by
  rw [setNotable]
  cases hcolumn : notable.priv.columns[id]? with
  | none =>
      have hnone : notable.priv.columnMetadata[id]? = none := by
        rw [List.getElem?_eq_none_iff, ← hlength]
        exact List.getElem?_eq_none_iff.mp hcolumn
      rw [hnone]
      exact ⟨.refl _, rfl⟩
  | some column =>
      cases hmetadata : notable.priv.columnMetadata[id]? with
      | none => exact ⟨.refl _, rfl⟩
      | some columnMetadata =>
          obtain ⟨hsame, hauto⟩ := setContainer_spec dbTable jsonConverter notable hcolumn
          dsimp only
          generalize notable.setContainer dbTable jsonConverter id column = sparse at hsame hauto
          rw [Option.any_some]
          -- the other notes are in fields of their own
          refine ⟨?_, ?_⟩
          · split_ifs <;> exact hsame
          · split_ifs <;> first
              | rfl
              | exact hauto

theorem foldl_setNotable (dbTable : TableMetadata S) (jsonConverter : Converter S) (i : ℕ)
    (ids : List ℕ) :
    ∀ notable : Notable S, notable.priv.columns.length = notable.priv.columnMetadata.length →
      SameColumns notable.priv (ids.foldl (setNotable dbTable jsonConverter i) notable).priv ∧
        (ids.foldl (setNotable dbTable jsonConverter i) notable).autoIncColumnNumber =
          if ids.any fun id =>
            (notable.priv.columnMetadata[id]?).any ColumnMetadata.isAutoincrement then some i
          else notable.autoIncColumnNumber := by
  induction ids with
  | nil => intro notable _; exact ⟨.refl _, rfl⟩
  | cons id ids ih =>
      intro notable hlength
      obtain ⟨hsame, hauto⟩ := setNotable_spec dbTable jsonConverter i notable id hlength
      have hlength' : (setNotable dbTable jsonConverter i notable id).priv.columns.length =
          (setNotable dbTable jsonConverter i notable id).priv.columnMetadata.length := by
        rw [hsame.columnMetadata, ← hlength]
        simpa using congrArg List.length hsame.names
      obtain ⟨hsame', hauto'⟩ := ih _ hlength'
      refine ⟨hsame.trans hsame', hauto'.trans ?_⟩
      rw [hauto, hsame.columnMetadata, List.any_cons]
      by_cases hid : (notable.priv.columnMetadata[id]?).any ColumnMetadata.isAutoincrement
      · simp [hid]
      · simp only [hid, Bool.false_or]
        rfl

/-- What the constructor leaves in the columns, fields and numbers of a handler. -/
theorem create_spec (jsonConverter : Converter S) (dbTable : TableMetadata S)
    (mapping : TableMapping S) :
    (DBTableHandler.create jsonConverter dbTable mapping).priv.columnMetadata =
        mappedColumns dbTable mapping ∧
      (∃ added : List (FieldMapping S),
        (∀ name, (DBTableHandler.create jsonConverter dbTable mapping).priv.field? name =
          (added.find? fun field => field.fieldName == name).map
            (DBTField.resolved (columnNames dbTable mapping))) ∧
        (mapping.mapAllColumns = false →
          added = mapping.fields.filter FieldMapping.persistent)) ∧
      (DBTableHandler.create jsonConverter dbTable mapping).autoIncColumnNumber =
        if (mappedColumns dbTable mapping).any ColumnMetadata.isAutoincrement then
          some (iteratorAfterFields dbTable mapping)
        else none := by
  obtain ⟨⟨added, hresolved, hadded⟩, hmetadata⟩ := resolved_addFields dbTable mapping
  have hlength : (addFields dbTable mapping).1.columns.length =
      (addFields dbTable mapping).1.columnMetadata.length := by
    rw [hmetadata, ← List.length_map DBTColumn.columnName, hresolved.columnNames,
      ← map_name_mappedColumns, List.length_map]
  obtain ⟨hsame, hauto⟩ := foldl_setNotable dbTable jsonConverter
    (iteratorAfterFields dbTable mapping)
    (List.range (addFields dbTable mapping).1.columns.length)
    { priv := (addFields dbTable mapping).1, resolvedMapping := (addFields dbTable mapping).2 }
    hlength
  refine ⟨hsame.columnMetadata.trans hmetadata, ⟨added, fun name => ?_, hadded⟩, hauto.trans ?_⟩
  · rw [← hresolved.fields name]
    exact congrArg (List.lookup name) hsame.fields
  · rw [hmetadata, hlength, hmetadata]
    congr 1
    rw [eq_iff_iff, List.any_eq_true, List.any_eq_true]
    constructor
    · rintro ⟨id, _, hid⟩
      obtain ⟨column, hcolumn, hauto⟩ := (Option.any_eq_true _ _).mp hid
      exact ⟨column, List.mem_of_getElem? hcolumn, hauto⟩
    · rintro ⟨column, hcolumn, hauto⟩
      obtain ⟨id, hid⟩ := List.mem_iff_getElem?.mp hcolumn
      refine ⟨id, List.mem_range.mpr (List.getElem?_eq_some_iff.mp hid).1, ?_⟩
      rw [hid]
      exact hauto

end DatabaseJones.TableHandler
