import DatabaseJones.Library.OptionLists
import DatabaseJones.MySQLDictionary.Lines

/-!
# The lines of a statement

The statement is cut into its lines, and their commas are taken away.  For a definition with
plain names the loop adds one column, key or foreign key after the other, so that what is
parsed is known: `parseCreateTable_showCreateTable`.
-/

namespace DatabaseJones.MySQLDictionary

open DatabaseJones.Library

/-! ## Definitions that are supported -/

structure ForeignKeyDefinition.IsSupported (databaseName : Text) (key : ForeignKeyDefinition) :
    Prop where
  length : key.targetColumns.length = key.columns.length
  targetDatabase : key.targetDatabase ≠ some databaseName
  actions : ∀ action ∈ key.actions, IsWord action

/-- What the server prints for a table of this database. -/
structure TableDefinition.IsSupported (databaseName : Text) (table : TableDefinition) : Prop where
  columns : ∀ column ∈ table.columns, column.IsSupported
  distinct : (table.columns.map ColumnDefinition.name).Nodup
  primaryKey : ∀ key ∈ table.primaryKey, ∀ name ∈ key.columns,
    name ∈ table.columns.map ColumnDefinition.name
  keys : ∀ key ∈ table.keys, ∀ name ∈ key.columns, name ∈ table.columns.map ColumnDefinition.name
  foreignKeys : ∀ key ∈ table.foreignKeys, key.IsSupported databaseName
  options : ∀ option ∈ table.options, '\n' ∉ option

structure TableDefinition.HasPlainNames (table : TableDefinition) : Prop where
  columns : ∀ column ∈ table.columns, IsPlainName column.name
  keys : ∀ key ∈ table.keys, IsPlainName key.name
  foreignKeys : ∀ key ∈ table.foreignKeys, key.HasPlainNames

variable {databaseName : Text} {table : TableDefinition}

theorem TableDefinition.HasPlainNames.names (h : table.HasPlainNames) {names : List Text}
    (hnames : ∀ name ∈ names, name ∈ table.columns.map ColumnDefinition.name) :
    ∀ name ∈ names, IsPlainName name := by
  intro name hname
  obtain ⟨column, hcolumn, rfl⟩ := List.mem_map.mp (hnames name hname)
  exact h.columns column hcolumn

theorem TableDefinition.HasPlainNames.key (h : table.HasPlainNames)
    (hsupported : table.IsSupported databaseName) {key : KeyDefinition} (hkey : key ∈ table.keys) :
    key.HasPlainNames :=
  ⟨h.keys key hkey, h.names (hsupported.keys key hkey)⟩

/-! ## Lines -/

/-- The lines between the first and the last one, without their commas. -/
def TableDefinition.lines (table : TableDefinition) : List Text := table.elements.map lineOf

/-- The line after the definitions. -/
def TableDefinition.lastLine (table : TableDefinition) : Text :=
  [' '].intercalate ([')'] :: table.options)

theorem foldlM_withCommas {lines : List Text} (h : ∀ line ∈ lines, withoutComma line = line)
    (state : State) :
    (withCommas lines).foldlM (parseLine databaseName) state =
      lines.foldlM (parseLine databaseName) state := by
  induction lines generalizing state with
  | nil => rfl
  | cons line lines ih =>
      cases lines with
      | nil => rfl
      | cons next lines =>
          have hline : parseLine databaseName state (line ++ [',']) =
              parseLine databaseName state line := by
            unfold parseLine
            rw [withoutComma_concat, h line List.mem_cons_self]
          change (withCommas (line :: next :: lines)).foldlM _ _ = _
          rw [withCommas, List.foldlM_cons, List.foldlM_cons, hline]
          · exact congrArg _ (funext (ih fun other hother => h other (List.mem_cons_of_mem _ hother)))
          · simp

theorem mem_withCommas {lines : List Text} {line : Text} (h : line ∈ withCommas lines) :
    ∃ other ∈ lines, line = other ∨ line = other ++ [','] := by
  induction lines with
  | nil => exact absurd h List.not_mem_nil
  | cons first lines ih =>
      cases lines with
      | nil => exact ⟨first, List.mem_cons_self, Or.inl (List.mem_singleton.mp h)⟩
      | cons next lines =>
          obtain rfl | h := List.mem_cons.mp h
          · exact ⟨first, List.mem_cons_self, Or.inr rfl⟩
          · obtain ⟨other, hother, heq⟩ := ih h
            exact ⟨other, List.mem_cons_of_mem _ hother, heq⟩

/-- All tokens of a definition are tokens. -/
theorem isToken_elements (h : table.IsSupported databaseName) (hplain : table.HasPlainNames) :
    ∀ tokens ∈ table.elements, tokens ≠ [] ∧ ∀ token ∈ tokens, IsToken token := by
  intro tokens htokens
  simp only [TableDefinition.elements, List.mem_append, List.mem_map] at htokens
  obtain ⟨column, hcolumn, rfl⟩ | ⟨key, hkey, rfl⟩ | ⟨key, hkey, rfl⟩ | ⟨key, hkey, rfl⟩ := htokens
  · exact ⟨List.cons_ne_nil _ _,
      ColumnDefinition.isToken (h.columns column hcolumn) (hplain.columns column hcolumn)⟩
  · exact ⟨List.cons_ne_nil _ _,
      PrimaryKey.isToken (hplain.names (h.primaryKey key (by simpa using hkey)))⟩
  · refine ⟨?_, KeyDefinition.isToken (hplain.key h hkey)⟩
    simp [KeyDefinition.tokens]
  · exact ⟨List.cons_ne_nil _ _,
      ForeignKeyDefinition.isToken (hplain.foreignKeys key hkey) (h.foreignKeys key hkey).actions⟩

theorem withoutComma_lines (h : table.IsSupported databaseName) (hplain : table.HasPlainNames) :
    ∀ line ∈ table.lines, withoutComma line = line := by
  intro line hline
  obtain ⟨tokens, htokens, rfl⟩ := List.mem_map.mp hline
  obtain ⟨hne, hall⟩ := isToken_elements h hplain tokens htokens
  exact withoutComma_lineOf hne hall

theorem lineBreak_lastLine (h : table.IsSupported databaseName) : '\n' ∉ table.lastLine := by
  intro hmem
  obtain hblank | ⟨option, hoption, hin⟩ := mem_intercalate hmem
  · exact absurd hblank (by decide)
  · obtain rfl | hoption := List.mem_cons.mp hoption
    · exact absurd hin (by decide)
    · exact h.options option hoption hin

/-- The statement is cut into the lines that it was made of. -/
theorem splitOn_showCreateTable (h : table.IsSupported databaseName) (hplain : table.HasPlainNames)
    (hname : '\n' ∉ table.name) :
    ((showCreateTable table).splitOn '\n').tail = withCommas table.lines ++ [table.lastLine] := by
  have hfirst : '\n' ∉ "CREATE TABLE ".toList ++ quoteName table.name ++ " (".toList := by
    have hcreate : '\n' ∉ "CREATE TABLE ".toList := by decide
    have hopening : '\n' ∉ " (".toList := by decide
    have hquoted : '\n' ∉ quoteName table.name := by
      intro hmem
      have hquote : '\n' ≠ Char.ofNat 0x60 := by decide
      unfold quoteName at hmem
      simp only [List.mem_append, List.mem_cons, List.mem_flatMap, hquote, false_or,
        List.not_mem_nil, or_false] at hmem
      obtain ⟨char, hchar, hin⟩ := hmem
      split at hin
      · next heq =>
        rw [heq] at hin
        exact absurd hin (by decide)
      · exact hname (List.mem_singleton.mp hin ▸ hchar)
    intro hmem
    obtain hmem | hmem := List.mem_append.mp hmem
    · exact (List.mem_append.mp hmem).elim hcreate hquoted
    · exact hopening hmem
  have hlines : ∀ line ∈ withCommas table.lines, '\n' ∉ line := by
    intro line hline
    obtain ⟨other, hother, heq⟩ := mem_withCommas hline
    obtain ⟨tokens, htokens, rfl⟩ := List.mem_map.mp hother
    obtain ⟨-, hall⟩ := isToken_elements h hplain tokens htokens
    have hbreak : '\n' ∉ lineOf tokens :=
      notMem_lineOf (by decide) fun token htoken => (hall token htoken).lineBreak
    obtain rfl | rfl := heq
    · exact hbreak
    · have hcomma : '\n' ∉ [','] := by decide
      exact fun hmem => (List.mem_append.mp hmem).elim hbreak hcomma
  have hlast := lineBreak_lastLine h
  unfold showCreateTable
  rw [List.splitOn_intercalate]
  · rfl
  · intro line hline
    obtain rfl | hline := List.mem_cons.mp hline
    · exact hfirst
    · obtain hline | hline := List.mem_append.mp hline
      · exact hlines line hline
      · rw [List.mem_singleton.mp hline]
        exact hlast
  · exact List.cons_ne_nil _ _

/-! ## The loop -/

/-- The last line adds nothing. -/
theorem parseLine_lastLine (state : State) :
    parseLine databaseName state table.lastLine = some state := by
  have hclosing : ' ' ∉ [')'] := by decide
  -- a comma can only be the end of an option
  have hline : withoutComma table.lastLine = [')'] ∨
      ∃ rest, withoutComma table.lastLine = [')'] ++ ' ' :: rest := by
    unfold TableDefinition.lastLine
    cases table.options with
    | nil => exact Or.inl rfl
    | cons option options =>
        rw [List.intercalate_cons_cons, List.append_assoc]
        refine Or.inr ?_
        unfold withoutComma
        split
        · next hcomma =>
          cases hrest : [' '].intercalate (option :: options) with
          | nil =>
              rw [hrest] at hcomma
              exact absurd hcomma (by decide)
          | cons char rest => exact ⟨(char :: rest).dropLast, rfl⟩
        · exact ⟨_, rfl⟩
  have htokens : ∃ tokens, ((withoutComma table.lastLine).splitOn ' ').dropWhile (· = []) =
      ")".toList :: tokens := by
    obtain heq | ⟨rest, heq⟩ := hline
    · exact ⟨[], by rw [heq, List.splitOn_eq_singleton hclosing]; rfl⟩
    · exact ⟨rest.splitOn ' ',
        by rw [heq, List.splitOn_append_cons_self_of_not_mem hclosing]; rfl⟩
  obtain ⟨tokens, htokens⟩ := htokens
  unfold parseLine
  rw [htokens]
  rfl

/-- The variables after the loop. -/
def TableDefinition.finalState (databaseName : Text) (table : TableDefinition) : State :=
  table.foreignKeys.foldl (State.addForeignKey databaseName)
    (table.keys.foldl State.addKey
      (table.primaryKey.toList.foldl State.addPrimary
        (table.columns.foldl State.addColumn .init)))

theorem foldlM_statement (h : table.IsSupported databaseName) (hplain : table.HasPlainNames)
    (hname : '\n' ∉ table.name) :
    ((showCreateTable table).splitOn '\n').tail.foldlM (parseLine databaseName) .init =
      some (table.finalState databaseName) := by
  have hcolumns : ∀ column ∈ table.columns, ∀ state,
      parseLine databaseName state (lineOf column.tokens) = some (state.addColumn column) :=
    fun column hcolumn =>
      parseLine_column (h.columns column hcolumn) (hplain.columns column hcolumn) databaseName
  have hprimary : ∀ key ∈ table.primaryKey.toList, ∀ state,
      parseLine databaseName state (lineOf key.tokens) = some (state.addPrimary key) :=
    fun key hkey =>
      parseLine_primary (hplain.names (h.primaryKey key (by simpa using hkey))) databaseName
  have hkeys : ∀ key ∈ table.keys, ∀ state,
      parseLine databaseName state (lineOf key.tokens) = some (state.addKey key) :=
    fun key hkey => parseLine_key (hplain.key h hkey) databaseName
  have hforeign : ∀ key ∈ table.foreignKeys, ∀ state,
      parseLine databaseName state (lineOf key.tokens) =
        some (state.addForeignKey databaseName key) :=
    fun key hkey => parseLine_foreignKey (hplain.foreignKeys key hkey)
      (h.foreignKeys key hkey).actions (h.foreignKeys key hkey).length databaseName
  rw [splitOn_showCreateTable h hplain hname, List.foldlM_append,
    foldlM_withCommas (withoutComma_lines h hplain)]
  unfold TableDefinition.lines TableDefinition.elements
  simp only [List.foldlM_map, List.foldlM_append, foldlM_eq_some_foldl hcolumns, Option.bind_eq_bind,
    Option.bind_some, foldlM_eq_some_foldl hprimary, foldlM_eq_some_foldl hkeys,
    foldlM_eq_some_foldl hforeign]
  change [table.lastLine].foldlM (parseLine databaseName) (table.finalState databaseName) = _
  rw [List.foldlM_cons, parseLine_lastLine]
  rfl

end DatabaseJones.MySQLDictionary

/-!
## The metadata that is read back

The variables after the loop, one after the other, and when they are what the definition
states: the columns when each is kept, the indexes when there is a primary key that is no
hash, and the foreign keys when none is cut apart.
-/

namespace DatabaseJones.MySQLDictionary

open DatabaseJones.Library

variable {databaseName : Text} {table : TableDefinition}

/-! ## Columns -/

theorem columns_foldl_addColumn (columns : List ColumnDefinition) (state : State) :
    (columns.foldl State.addColumn state).columns =
      state.columns ++ columns.mapIdx fun index column =>
        column.parsed (state.columnNumber + index) := by
  induction columns generalizing state with
  | nil => simp
  | cons column columns ih =>
      have hnumber : (fun (index : ℕ) (column : ColumnDefinition) =>
          column.parsed (state.columnNumber + 1 + index)) =
          fun index column => column.parsed (state.columnNumber + (index + 1)) := by
        funext index column
        rw [Nat.add_assoc, Nat.add_comm 1]
      rw [List.foldl_cons, ih, List.mapIdx_cons]
      change state.columns ++ [column.parsed state.columnNumber] ++
        columns.mapIdx (fun index column => column.parsed (state.columnNumber + 1 + index)) = _
      rw [hnumber, List.append_assoc]
      rfl

theorem sparseContainer_foldl_addColumn (columns : List ColumnDefinition) (state : State) :
    (columns.foldl State.addColumn state).sparseContainer =
      if "SPARSE_FIELDS".toList ∈ columns.map ColumnDefinition.name then
        some "SPARSE_FIELDS".toList
      else state.sparseContainer := by
  induction columns generalizing state with
  | nil => rfl
  | cons column columns ih =>
      rw [List.foldl_cons, ih, List.map_cons]
      change (if _ then _ else if column.name = "SPARSE_FIELDS".toList then some column.name
        else state.sparseContainer) = _
      by_cases hrest : "SPARSE_FIELDS".toList ∈ columns.map ColumnDefinition.name
      · rw [if_pos hrest, if_pos (List.mem_cons_of_mem _ hrest)]
      · rw [if_neg hrest]
        by_cases hname : column.name = "SPARSE_FIELDS".toList
        · rw [if_pos hname, hname, if_pos List.mem_cons_self]
        · rw [if_neg hname, if_neg]
          exact fun hmem => (List.mem_cons.mp hmem).elim (fun heq => hname heq.symm) hrest

/-- Nothing else is added by the lines of columns. -/
theorem foldl_addColumn_frame (columns : List ColumnDefinition) (state : State) :
    (columns.foldl State.addColumn state).indexes = state.indexes ∧
      (columns.foldl State.addColumn state).foreignKeys = state.foreignKeys := by
  induction columns generalizing state with
  | nil => exact ⟨rfl, rfl⟩
  | cons column columns ih => exact ih (state.addColumn column)

/-! ## Column numbers -/

/-- The numbers depend on the names of the columns only. -/
theorem convertColumnNamesToNumbers_eq {columns : List Column}
    (h : columns.map Column.name = table.columns.map ColumnDefinition.name) (names : List Text) :
    convertColumnNamesToNumbers names columns = table.columnNumbers names := by
  have hindex : ∀ name : Text,
      columns.findIdx? (fun column => decide (column.name = name)) =
        table.columns.findIdx? fun column => decide (column.name = name) := by
    intro name
    calc columns.findIdx? (fun column => decide (column.name = name))
        = (columns.map Column.name).findIdx? fun other => decide (other = name) := by
          rw [List.findIdx?_map]
          rfl
      _ = (table.columns.map ColumnDefinition.name).findIdx? fun other => decide (other = name) := by
          rw [h]
      _ = table.columns.findIdx? fun column => decide (column.name = name) := by
          rw [List.findIdx?_map]
          rfl
  unfold convertColumnNamesToNumbers TableDefinition.columnNumbers
  simp only [hindex]

/-- The numbers of some names are those of the columns with these names. -/
theorem mem_columnNumbers (h : (table.columns.map ColumnDefinition.name).Nodup) (names : List Text)
    {index : ℕ} (hindex : index < table.columns.length) :
    index ∈ table.columnNumbers names ↔ table.columns[index].name ∈ names := by
  unfold TableDefinition.columnNumbers
  rw [List.mem_filterMap]
  constructor
  · rintro ⟨name, hname, hfind⟩
    obtain ⟨hlt, heq, -⟩ := List.findIdx?_eq_some_iff_getElem.mp hfind
    rw [of_decide_eq_true heq]
    exact hname
  · intro hname
    refine ⟨table.columns[index].name, hname, ?_⟩
    rw [List.findIdx?_eq_some_iff_getElem]
    refine ⟨hindex, decide_eq_true rfl, fun other hother => ?_⟩
    simp only [decide_eq_true_eq]
    intro heq
    have hlength : (table.columns.map ColumnDefinition.name).length = table.columns.length :=
      List.length_map _
    have hlt : other < (table.columns.map ColumnDefinition.name).length := by omega
    have hle : index < (table.columns.map ColumnDefinition.name).length := by omega
    have hsame : (table.columns.map ColumnDefinition.name)[other] =
        (table.columns.map ColumnDefinition.name)[index] := by
      rw [List.getElem_map, List.getElem_map]
      exact heq
    exact absurd (h.getElem_inj_iff.mp hsame) (Nat.ne_of_lt hother)

/-- The columns of these numbers are marked. -/
theorem markPrimary_eq (columns : List Column) (numbers : List ℕ) :
    markPrimary columns numbers = columns.mapIdx fun index column =>
      if index ∈ numbers then { column with isInPrimaryKey := true } else column := by
  induction numbers generalizing columns with
  | nil =>
      apply List.ext_getElem
      · simp [markPrimary]
      · intro index hleft hright
        simp [markPrimary]
  | cons number numbers ih =>
      change markPrimary _ numbers = _
      rw [ih]
      apply List.ext_getElem
      · simp
      · intro index hleft hright
        simp only [List.getElem_mapIdx, List.getElem_modify, List.mem_cons]
        by_cases heq : number = index
        · by_cases hmem : index ∈ numbers <;> simp [heq, hmem]
        · by_cases hmem : index ∈ numbers <;> simp [heq, hmem, Ne.symm heq]

theorem name_markPrimary (columns : List Column) (numbers : List ℕ) :
    (markPrimary columns numbers).map Column.name = columns.map Column.name := by
  rw [markPrimary_eq]
  apply List.ext_getElem
  · simp
  · intro index hleft hright
    simp only [List.getElem_map, List.getElem_mapIdx]
    split <;> rfl

/-! ## Keys and foreign keys -/

/-- A key before the ordered index of a unique key is split off. -/
def KeyDefinition.read (table : TableDefinition) (key : KeyDefinition) : Index :=
  ⟨some key.name, false, key.isUnique, key.isOrdered, some (table.columnNumbers key.columns)⟩

/-- The index of the primary key, or what stands in its place without one. -/
def TableDefinition.firstIndex (table : TableDefinition) : Index :=
  match table.primaryKey with
  | none => placeholder
  | some key =>
      ⟨some "PRIMARY".toList, true, true, true, some (table.columnNumbers key.columns)⟩

theorem foldl_addKey (keys : List KeyDefinition) {state : State}
    (h : state.columns.map Column.name = table.columns.map ColumnDefinition.name) :
    keys.foldl State.addKey state =
      { state with indexes := state.indexes ++ keys.map (KeyDefinition.read table) } := by
  induction keys generalizing state with
  | nil => simp
  | cons key keys ih =>
      have hkey : state.addKey key =
          { state with indexes := state.indexes ++ [key.read table] } := by
        unfold State.addKey
        rw [convertColumnNamesToNumbers_eq h]
        rfl
      have hsame : { state with indexes := state.indexes ++ [key.read table] }.columns.map Column.name =
          table.columns.map ColumnDefinition.name := h
      rw [List.foldl_cons, hkey, ih hsame, List.map_cons, List.append_assoc]
      rfl

theorem foldl_addForeignKey (keys : List ForeignKeyDefinition) (state : State) :
    keys.foldl (State.addForeignKey databaseName) state =
      { state with
        foreignKeys := state.foreignKeys ++
          (keys.filter fun key => ¬ key.IsCut).map (ForeignKeyDefinition.metadata databaseName) } := by
  induction keys generalizing state with
  | nil => simp
  | cons key keys ih =>
      rw [List.foldl_cons, ih]
      unfold State.addForeignKey
      by_cases hcut : key.IsCut
      · rw [if_pos hcut, List.filter_cons_of_neg (by simpa using hcut)]
      · rw [if_neg hcut, List.filter_cons_of_pos (by simpa using hcut), List.map_cons,
          List.append_assoc]
        rfl

/-! ## What is parsed -/

local instance lawfulBEq_text : LawfulBEq Text := List.instLawfulBEq

/-- Whether the primary key has this name. -/
def TableDefinition.inPrimaryKey (table : TableDefinition) (name : Text) : Bool :=
  table.primaryKey.any fun key => name ∈ key.columns

/-- The metadata that is parsed. -/
def TableDefinition.parsed (databaseName : Text) (table : TableDefinition) : Table where
  name := table.name
  database := databaseName
  columns := table.columns.mapIdx fun columnNumber column =>
    { column.parsed columnNumber with isInPrimaryKey := table.inPrimaryKey column.name }
  indexes := splitIndexes (table.firstIndex :: table.keys.map (KeyDefinition.read table))
  foreignKeys :=
    (table.foreignKeys.filter fun key => ¬ key.IsCut).map (ForeignKeyDefinition.metadata databaseName)
  sparseContainer :=
    if "SPARSE_FIELDS".toList ∈ table.columns.map ColumnDefinition.name then
      some "SPARSE_FIELDS".toList
    else none

/-- The columns before the primary key is looked at. -/
def TableDefinition.columnState (table : TableDefinition) : State :=
  table.columns.foldl State.addColumn .init

theorem columns_columnState (table : TableDefinition) :
    table.columnState.columns =
      table.columns.mapIdx fun columnNumber column => column.parsed columnNumber := by
  have h := columns_foldl_addColumn table.columns .init
  have hnumber : (fun (index : ℕ) (column : ColumnDefinition) =>
      column.parsed (State.init.columnNumber + index)) = fun index column => column.parsed index := by
    funext index column
    exact congrArg column.parsed (Nat.zero_add index)
  rw [hnumber] at h
  exact h

theorem parseCharset_frame (column : Column) (tokens : List Text) :
    (parseCharset column tokens).1.name = column.name ∧
      (parseCharset column tokens).1.isInPrimaryKey = column.isInPrimaryKey := by
  unfold parseCharset
  dsimp only
  split_ifs <;> exact ⟨rfl, rfl⟩

theorem parseNotNull_frame (column : Column) (tokens : List Text) :
    (parseNotNull column tokens).1.name = column.name ∧
      (parseNotNull column tokens).1.isInPrimaryKey = column.isInPrimaryKey := by
  unfold parseNotNull
  split_ifs <;> exact ⟨rfl, rfl⟩

theorem parseDefault_frame (line : Text) (column : Column) (tokens : List Text) :
    (parseDefault line column tokens).1.name = column.name ∧
      (parseDefault line column tokens).1.isInPrimaryKey = column.isInPrimaryKey := by
  unfold parseDefault
  split <;> exact ⟨rfl, rfl⟩

theorem parseAutoIncrement_frame (column : Column) (tokens : List Text) :
    (parseAutoIncrement column tokens).name = column.name ∧
      (parseAutoIncrement column tokens).isInPrimaryKey = column.isInPrimaryKey := by
  unfold parseAutoIncrement
  split_ifs <;> exact ⟨rfl, rfl⟩

/-- The clauses leave the name and the mark as they are. -/
theorem parseClauses_frame (line : Text) (column : Column) (tokens : List Text) :
    (parseClauses line column tokens).name = column.name ∧
      (parseClauses line column tokens).isInPrimaryKey = column.isInPrimaryKey := by
  have hcharset := parseCharset_frame column tokens
  have hnotNull := fun column tokens => parseNotNull_frame column tokens
  have hdefault := fun column tokens => parseDefault_frame line column tokens
  have hauto := fun column tokens => parseAutoIncrement_frame column tokens
  exact ⟨(hauto _ _).1.trans ((hdefault _ _).1.trans ((hnotNull _ _).1.trans hcharset.1)),
    (hauto _ _).2.trans ((hdefault _ _).2.trans ((hnotNull _ _).2.trans hcharset.2))⟩

theorem ColumnDefinition.parsed_name (column : ColumnDefinition) (columnNumber : ℕ) :
    (column.parsed columnNumber).name = column.name :=
  (parseClauses_frame _ _ _).1

theorem ColumnDefinition.parsed_isInPrimaryKey (column : ColumnDefinition) (columnNumber : ℕ) :
    (column.parsed columnNumber).isInPrimaryKey = false :=
  (parseClauses_frame _ _ _).2

theorem name_columnState (table : TableDefinition) :
    table.columnState.columns.map Column.name = table.columns.map ColumnDefinition.name := by
  rw [columns_columnState]
  apply List.ext_getElem
  · simp
  · intro index hleft hright
    simp only [List.getElem_map, List.getElem_mapIdx]
    exact ColumnDefinition.parsed_name _ _

/-- The columns after the line of the primary key, if there is one. -/
theorem columns_marked (h : (table.columns.map ColumnDefinition.name).Nodup) :
    (table.primaryKey.toList.foldl State.addPrimary table.columnState).columns =
      (table.parsed databaseName).columns := by
  unfold TableDefinition.parsed TableDefinition.inPrimaryKey
  cases table.primaryKey with
  | none =>
      change table.columnState.columns = _
      rw [columns_columnState]
      apply List.ext_getElem
      · simp
      · intro index hleft hright
        have hlt : index < table.columns.length := by simpa using hleft
        have hmarked := ColumnDefinition.parsed_isInPrimaryKey table.columns[index] index
        simp only [List.getElem_mapIdx]
        rw [Option.any_none, ← hmarked]
  | some key =>
      change markPrimary table.columnState.columns
        (convertColumnNamesToNumbers key.columns table.columnState.columns) = _
      rw [convertColumnNamesToNumbers_eq (name_columnState table), columns_columnState, markPrimary_eq]
      apply List.ext_getElem
      · simp
      · intro index hleft hright
        have hlt : index < table.columns.length := by simpa using hleft
        have hmarked := ColumnDefinition.parsed_isInPrimaryKey table.columns[index] index
        simp only [List.getElem_mapIdx, mem_columnNumbers h key.columns hlt, Option.any_some]
        by_cases hmem : table.columns[index].name ∈ key.columns
        · rw [if_pos hmem, decide_eq_true hmem]
        · rw [if_neg hmem, decide_eq_false hmem, ← hmarked]

theorem name_marked (table : TableDefinition) :
    (table.primaryKey.toList.foldl State.addPrimary table.columnState).columns.map Column.name =
      table.columns.map ColumnDefinition.name := by
  cases table.primaryKey with
  | none => exact name_columnState table
  | some key => exact (name_markPrimary _ _).trans (name_columnState table)

theorem indexes_marked (table : TableDefinition) :
    (table.primaryKey.toList.foldl State.addPrimary table.columnState).indexes =
      [table.firstIndex] := by
  have hindexes : table.columnState.indexes = [placeholder] :=
    (foldl_addColumn_frame table.columns .init).1
  unfold TableDefinition.firstIndex
  cases table.primaryKey with
  | none => exact hindexes
  | some key =>
      change table.columnState.indexes.set 0 ⟨_, _, _, _, some (convertColumnNamesToNumbers
        key.columns table.columnState.columns)⟩ = _
      rw [hindexes, convertColumnNamesToNumbers_eq (name_columnState table)]
      rfl

theorem others_marked (databaseName : Text) (table : TableDefinition) :
    (table.primaryKey.toList.foldl State.addPrimary table.columnState).foreignKeys = [] ∧
      (table.primaryKey.toList.foldl State.addPrimary table.columnState).sparseContainer =
        (table.parsed databaseName).sparseContainer := by
  have hforeign : table.columnState.foreignKeys = [] :=
    (foldl_addColumn_frame table.columns .init).2
  have hsparse := sparseContainer_foldl_addColumn table.columns .init
  cases table.primaryKey with
  | none => exact ⟨hforeign, hsparse⟩
  | some key => exact ⟨hforeign, hsparse⟩

/-- What is parsed from the statement of a definition. -/
theorem parseCreateTable_showCreateTable (h : table.IsSupported databaseName)
    (hplain : table.HasPlainNames) (hname : '\n' ∉ table.name) :
    parseCreateTable databaseName table.name (showCreateTable table) =
      some (table.parsed databaseName) := by
  obtain ⟨hforeign, hsparse⟩ := others_marked databaseName table
  have hfinal : table.finalState databaseName =
      { table.primaryKey.toList.foldl State.addPrimary table.columnState with
        columns := (table.parsed databaseName).columns
        indexes := table.firstIndex :: table.keys.map (KeyDefinition.read table)
        foreignKeys := (table.parsed databaseName).foreignKeys
        sparseContainer := (table.parsed databaseName).sparseContainer } := by
    unfold TableDefinition.finalState
    change table.foreignKeys.foldl _ (table.keys.foldl State.addKey
      (table.primaryKey.toList.foldl State.addPrimary table.columnState)) = _
    rw [foldl_addKey table.keys (name_marked table), foldl_addForeignKey, indexes_marked, hforeign]
    rw [← columns_marked h.distinct, ← hsparse]
    rfl
  unfold parseCreateTable
  rw [foldlM_statement h hplain hname, hfinal]
  rfl

/-! ## What is parsed and what is stated -/

theorem ColumnDefinition.metadata_marked (column : ColumnDefinition) (columnNumber : ℕ)
    (isInPrimaryKey : Bool) :
    column.metadata columnNumber isInPrimaryKey =
      { column.metadata columnNumber false with isInPrimaryKey } := rfl

/-- The mark is put on both, so it does not matter. -/
theorem marked_inj {column other : Column} (h : column.isInPrimaryKey = other.isInPrimaryKey)
    {mark : Bool} (heq : { column with isInPrimaryKey := mark } =
      { other with isInPrimaryKey := mark }) : column = other := by
  calc column = { { column with isInPrimaryKey := mark } with
        isInPrimaryKey := other.isInPrimaryKey } := by rw [← h]
    _ = { { other with isInPrimaryKey := mark } with isInPrimaryKey := other.isInPrimaryKey } := by
        rw [heq]
    _ = other := rfl

theorem columns_eq_iff :
    (table.parsed databaseName).columns = (table.metadata databaseName).columns ↔
      ∀ (index : ℕ) (h : index < table.columns.length),
        table.columns[index].parsed index = table.columns[index].metadata index false := by
  unfold TableDefinition.parsed TableDefinition.metadata
  dsimp only
  rw [List.mapIdx_eq_mapIdx_iff]
  apply forall₂_congr
  intro index hlt
  constructor
  · intro h
    rw [ColumnDefinition.metadata_marked] at h
    exact marked_inj (ColumnDefinition.parsed_isInPrimaryKey _ _) h
  · intro h
    rw [h]
    rfl

theorem index_split (key : KeyDefinition) :
    ({ key.read table with isOrdered := (key.read table).isOrdered && !(key.read table).isUnique } :
      Index) = key.index table false := rfl

theorem orderedIndexes_eq (keys : List KeyDefinition) :
    ((keys.map (KeyDefinition.read table)).filter
        fun index => index.isUnique && index.isOrdered).map
      (fun index => { index with isUnique := false, isPrimaryKey := false }) =
      keys.filterMap (KeyDefinition.orderedIndex table) := by
  induction keys with
  | nil => rfl
  | cons key keys ih =>
      rw [List.map_cons, List.filterMap_cons]
      unfold KeyDefinition.orderedIndex
      cases hsplit : (key.isUnique && key.isOrdered) with
      | false =>
          rw [List.filter_cons_of_neg (by simpa [KeyDefinition.read] using hsplit), ih]
          rfl
      | true =>
          have hordered : key.isOrdered = true := (Bool.and_eq_true_iff.mp hsplit).2
          rw [List.filter_cons_of_pos (by simpa [KeyDefinition.read] using hsplit), List.map_cons, ih]
          unfold KeyDefinition.read
          rw [hordered]
          rfl

/-- The indexes that are parsed: the first one, those of the keys, and the ordered ones. -/
theorem parsed_indexes (table : TableDefinition) :
    (table.parsed databaseName).indexes =
      { table.firstIndex with
          isOrdered := table.firstIndex.isOrdered && !table.firstIndex.isUnique } ::
        (table.keys.map (KeyDefinition.index table false) ++
          ((if (table.firstIndex.isUnique && table.firstIndex.isOrdered) = true then
              [{ table.firstIndex with isUnique := false, isPrimaryKey := false }] else []) ++
            table.keys.filterMap (KeyDefinition.orderedIndex table))) := by
  have hmap : (table.keys.map (KeyDefinition.read table)).map
      (fun index => { index with isOrdered := index.isOrdered && !index.isUnique }) =
      table.keys.map (KeyDefinition.index table false) := by
    rw [List.map_map]
    rfl
  change splitIndexes (table.firstIndex :: table.keys.map (KeyDefinition.read table)) = _
  unfold splitIndexes
  rw [List.map_cons, hmap, List.filter_cons, List.cons_append, ← orderedIndexes_eq]
  split
  · rfl
  · rfl

/-- The indexes are the stated ones when there is a primary key that is no hash. -/
theorem indexes_eq_iff :
    (table.parsed databaseName).indexes = (table.metadata databaseName).indexes ↔
      ∃ key, table.primaryKey = some key ∧ key.method ≠ some .hash := by
  rw [parsed_indexes]
  unfold TableDefinition.firstIndex TableDefinition.metadata
  dsimp only
  cases table.primaryKey with
  | none =>
      constructor
      · intro h
        -- the placeholder is one index too many
        have hlength := congrArg List.length h
        simp [placeholder] at hlength
      · rintro ⟨key, hkey, -⟩
        exact absurd hkey (by simp)
  | some key =>
      by_cases hhash : key.method = some .hash
      · constructor
        · intro h
          -- the hash has no ordered index
          have hordered : key.key.orderedIndex table = none := by
            unfold KeyDefinition.orderedIndex KeyDefinition.isOrdered PrimaryKey.key
            simp [hhash]
          have hlength := congrArg List.length h
          simp [hordered] at hlength
        · rintro ⟨other, hother, hmethod⟩
          rw [← Option.some.inj hother] at hmethod
          exact absurd hhash hmethod
      · have hordered : key.key.isOrdered = true := decide_eq_true hhash
        refine iff_of_true ?_ ⟨key, rfl, hhash⟩
        have hindex : key.key.orderedIndex table =
            some ⟨some "PRIMARY".toList, false, false, true,
              some (table.columnNumbers key.columns)⟩ := by
          unfold KeyDefinition.orderedIndex
          rw [hordered]
          rfl
        simp only [Option.toList_some, List.map_cons, List.map_nil, List.filterMap_cons, hindex,
          List.cons_append]
        unfold KeyDefinition.index
        rw [hordered]
        rfl

/-- The foreign keys are the stated ones when none is cut. -/
theorem foreignKeys_eq_iff :
    (table.parsed databaseName).foreignKeys = (table.metadata databaseName).foreignKeys ↔
      ∀ key ∈ table.foreignKeys, ¬ key.IsCut := by
  unfold TableDefinition.parsed TableDefinition.metadata
  dsimp only
  constructor
  · intro h
    have hlength := congrArg List.length h
    rw [List.length_map, List.length_map, List.length_filter_eq_length_iff] at hlength
    intro key hkey
    simpa using hlength key hkey
  · intro h
    have hfilter : (table.foreignKeys.filter fun key => ¬ key.IsCut) = table.foreignKeys :=
      List.filter_eq_self.mpr fun key hkey => decide_eq_true (h key hkey)
    rw [hfilter]

theorem table_eq_iff {left right : Table} :
    left = right ↔ left.name = right.name ∧ left.database = right.database ∧
      left.columns = right.columns ∧ left.indexes = right.indexes ∧
      left.foreignKeys = right.foreignKeys ∧ left.sparseContainer = right.sparseContainer := by
  cases left
  cases right
  simp

/-- For plain names it is known what is read back. -/
theorem parsesBack_iff (h : table.IsSupported databaseName) (hplain : table.HasPlainNames)
    (hname : '\n' ∉ table.name) :
    ParsesBack databaseName table ↔
      (∀ (index : ℕ) (h : index < table.columns.length),
        table.columns[index].parsed index = table.columns[index].metadata index false) ∧
      (∃ key, table.primaryKey = some key ∧ key.method ≠ some .hash) ∧
      ∀ key ∈ table.foreignKeys, ¬ key.IsCut := by
  unfold ParsesBack
  rw [parseCreateTable_showCreateTable h hplain hname, Option.some_inj, table_eq_iff,
    columns_eq_iff, indexes_eq_iff, foreignKeys_eq_iff]
  constructor
  · rintro ⟨-, -, hcolumns, hindexes, hforeign, -⟩
    exact ⟨hcolumns, hindexes, hforeign⟩
  · rintro ⟨hcolumns, hindexes, hforeign⟩
    exact ⟨rfl, rfl, hcolumns, hindexes, hforeign, rfl⟩

end DatabaseJones.MySQLDictionary
