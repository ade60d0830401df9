import DatabaseJones.Library.Words
import DatabaseJones.MySQLConnection.Writing

/-!
# Written statements

A statement names the columns whose value is defined, with one placeholder for each value, in any
state of the kept statements.  It is valid unless a name needs quotes, or ON DUPLICATE KEY UPDATE or
SET has no column: the object has values for key columns only.
-/

namespace DatabaseJones.MySQLConnection

open DatabaseJones.Library

/-! ## Statements -/

/-- The characters of SQL texts without quotes. -/
def sql : Alphabet where
  isWord char := char.isAlphanum || char == '_' || char == '$' ||
    (0x80 ≤ char.toNat && char.toNat ≤ 0xFFFF)
  isSymbol char := ['(', ')', ',', '.', '=', '?'].contains char
  isBlank char := char == ' '

/-- A name that needs no quotes. -/
structure IsName (reserved : List Char → Bool) (name : List Char) : Prop where
  ne_nil : name ≠ []
  isWord : ∀ char ∈ name, sql.isWord char = true
  notNumber : ∃ char ∈ name, char.isDigit = false
  notReserved : reserved name = false

inductive Statement
  | insert (database table : List Char) (columns : List (List Char)) (placeholders : ℕ)
  | insertOrUpdate (database table : List Char) (columns : List (List Char)) (placeholders : ℕ)
      (updates : List (List Char))
  | update (database table : List Char) (assignments conditions : List (List Char))

def keyword (text : String) : Lexeme := .word text.toList

def comma : List Lexeme := [.symbol ',']

def placeholder : Lexeme := .symbol '?'

/-- `column = ?` -/
def equation (column : List Char) : List Lexeme := [.word column, .symbol '=', placeholder]

/-- `column = VALUES (column)` -/
def assignment (column : List Char) : List Lexeme :=
  [.word column, .symbol '=', keyword "VALUES", .symbol '(', .word column, .symbol ')']

def insertLexemes (database table : List Char) (columns : List (List Char)) (placeholders : ℕ) :
    List Lexeme :=
  [keyword "INSERT", keyword "INTO", .word database, .symbol '.', .word table, .symbol '('] ++
    (separated comma (columns.map fun column => [.word column]) ++
      ([.symbol ')', keyword "VALUES", .symbol '('] ++
        (separated comma ((List.replicate placeholders ()).map fun _ => [placeholder]) ++
          [.symbol ')'])))

/-- The words and symbols of a statement. -/
def Statement.lexemes : Statement → List Lexeme
  | .insert database table columns placeholders =>
      insertLexemes database table columns placeholders
  | .insertOrUpdate database table columns placeholders updates =>
      insertLexemes database table columns placeholders ++
        ([keyword "ON", keyword "DUPLICATE", keyword "KEY", keyword "UPDATE"] ++
          separated comma (updates.map assignment))
  | .update database table assignments conditions =>
      [keyword "UPDATE", .word database, .symbol '.', .word table, keyword "SET"] ++
        (separated comma (assignments.map equation) ++
          ([keyword "WHERE"] ++ separated [keyword "AND"] (conditions.map equation)))

/-- There are as many values as columns, and lists that must not be empty are not. -/
def Statement.Valid (reserved : List Char → Bool) : Statement → Prop
  | .insert database table columns placeholders =>
      IsName reserved database ∧ IsName reserved table ∧
        (∀ column ∈ columns, IsName reserved column) ∧ columns.length = placeholders
  | .insertOrUpdate database table columns placeholders updates =>
      IsName reserved database ∧ IsName reserved table ∧
        (∀ column ∈ columns, IsName reserved column) ∧ columns.length = placeholders ∧
        updates ≠ [] ∧ ∀ column ∈ updates, IsName reserved column
  | .update database table assignments conditions =>
      IsName reserved database ∧ IsName reserved table ∧ assignments ≠ [] ∧
        (∀ column ∈ assignments, IsName reserved column) ∧ conditions ≠ [] ∧
        ∀ column ∈ conditions, IsName reserved column

/-! ## What is expected -/

variable {ν : Type} {tableHandler : DBTableHandler}

/-- The columns whose value is defined, with their numbers. -/
def definedColumns (tableHandler : DBTableHandler) (object : DomainObject ν) :
    List (ColumnMetadata × ℕ) :=
  tableHandler.columns.zipIdx.filter fun (_, i) => (object i).isSome

/-- The statement that is asked for. -/
def Request.statement : Request tableHandler ν → Statement
  | .persist object =>
      .insert tableHandler.database tableHandler.name
        ((definedColumns tableHandler object).map fun (column, _) => column.name)
        (definedColumns tableHandler object).length
  | .save object =>
      .insertOrUpdate tableHandler.database tableHandler.name
        ((definedColumns tableHandler object).map fun (column, _) => column.name)
        (definedColumns tableHandler object).length
        (((definedColumns tableHandler object).filter fun (column, _) =>
          !column.isInPrimaryKey).map fun (column, _) => column.name)
  | .update index _ _ object =>
      .update tableHandler.database tableHandler.name
        (((definedColumns tableHandler object).filter fun (_, i) =>
          i ∉ index.indexColumnNumbers.map Fin.val).map fun (column, _) => column.name)
        (index.indexColumnNumbers.map fun i => (tableHandler.columns.get i).name)

/-- The values of the columns that it names. -/
def Request.values : Request tableHandler ν → List (Option (ColumnValue ν))
  | .persist object | .save object => (definedColumns tableHandler object).map fun (_, i) => object i
  | .update index keys _ object =>
      ((definedColumns tableHandler object).filter fun (_, i) =>
        i ∉ index.indexColumnNumbers.map Fin.val).map (fun (_, i) => object i) ++ keys

/-- A value of a binary column has to be a buffer. -/
def ColumnMetadata.rejects (column : ColumnMetadata) : Option (ColumnValue ν) → Bool
  | some (.value (some constructorName) _) =>
      column.isBinary && constructorName ≠ "Buffer".toList
  | _ => false

/-- The column of an object has a value that is in error. -/
def isError (object : DomainObject ν) (column : ColumnMetadata × ℕ) : Bool :=
  column.1.rejects (object column.2)

/-- An error is due to a value that is not a buffer. -/
def Request.HasError : Request tableHandler ν → Prop
  | .persist object | .save object => ∃ column ∈ tableHandler.columns.zipIdx, isError object column
  | .update _ _ _ _ => False

/-- What is built is the text of the statement that is asked for, which is valid, with its values; or
an error about a value. -/
def Matches (reserved : List Char → Bool) (request : Request tableHandler ν) : Built ν → Prop
  | .statement text values =>
      request.statement.Valid reserved ∧ sql.lex text = some request.statement.lexemes ∧
        request.statement.lexemes.count placeholder = values.length ∧ values = request.values
  | .error _ => request.HasError
  | .threw => False

/-- A value of a binary column that is null. -/
def ColumnMetadata.throws (column : ColumnMetadata) : Option (ColumnValue ν) → Bool
  | some .null => column.isBinary
  | _ => false

/-- The column of an object is binary and has null. -/
def isNullBinary (object : DomainObject ν) (column : ColumnMetadata × ℕ) : Bool :=
  column.1.throws (object column.2)

/-- When a request is built as expected: no binary column has null, and the names need no quotes, and
there is a column to update; if a value is in error, only the first. -/
def Request.Writable (reserved : List Char → Bool) : Request tableHandler ν → Prop
  | .persist object =>
      (∀ column ∈ tableHandler.columns.zipIdx, isNullBinary object column = false) ∧
        ((∃ column ∈ tableHandler.columns.zipIdx, isError object column = true) ∨
          IsName reserved tableHandler.database ∧ IsName reserved tableHandler.name ∧
            ∀ column ∈ definedColumns tableHandler object, IsName reserved column.1.name)
  | .save object =>
      (∀ column ∈ tableHandler.columns.zipIdx, isNullBinary object column = false) ∧
        ((∃ column ∈ tableHandler.columns.zipIdx, isError object column = true) ∨
          IsName reserved tableHandler.database ∧ IsName reserved tableHandler.name ∧
            (∀ column ∈ definedColumns tableHandler object, IsName reserved column.1.name) ∧
            ∃ column ∈ definedColumns tableHandler object, column.1.isInPrimaryKey = false)
  | .update index _ _ object =>
      IsName reserved tableHandler.database ∧ IsName reserved tableHandler.name ∧
        (∀ i ∈ index.indexColumnNumbers, IsName reserved (tableHandler.columns.get i).name) ∧
        (∀ column ∈ definedColumns tableHandler object,
          column.2 ∉ index.indexColumnNumbers.map Fin.val → IsName reserved column.1.name) ∧
        ∃ column ∈ definedColumns tableHandler object,
          column.2 ∉ index.indexColumnNumbers.map Fin.val

/-! ## What the listener records -/

section
variable {object : DomainObject ν} {columns : List ColumnMetadata} {n : ℕ}

/-- The mark of a column. -/
def mark (object : DomainObject ν) (i : ℕ) : Char := if (object i).isSome then 'D' else 'U'

/-- The key of the first columns: none if all of their values are defined. -/
def keyOf (object : DomainObject ν) (n : ℕ) : Option (List Char) :=
  if ∀ i < n, (object i).isSome = true then none else some ((List.range n).map (mark object))

theorem keyOf_zero : keyOf object 0 = none := if_pos fun _ h => absurd h (Nat.not_lt_zero _)

theorem map_mark_of_defined (h : ∀ i < n, (object i).isSome = true) :
    (List.range n).map (mark object) = List.replicate n 'D' := by
  rw [List.eq_replicate_iff]
  refine ⟨by rw [List.length_map, List.length_range], fun char hchar => ?_⟩
  obtain ⟨i, hi, rfl⟩ := List.mem_map.mp hchar
  exact if_pos (h i (List.mem_range.mp hi))

theorem keyOf_succ_of_isSome (h : (object n).isSome = true) :
    keyOf object (n + 1) = (keyOf object n).map (· ++ ['D']) := by
  unfold keyOf
  by_cases hall : ∀ i < n, (object i).isSome = true
  · rw [if_pos hall, if_pos]
    · rfl
    · intro i hi
      rcases Nat.lt_succ_iff_lt_or_eq.mp hi with hi | rfl
      · exact hall i hi
      · exact h
  · rw [if_neg hall, if_neg fun hsucc => hall fun i hi => hsucc i (Nat.lt_succ_of_lt hi),
      List.range_succ, List.map_append, List.map_singleton, Option.map_some]
    rw [show mark object n = 'D' from if_pos h]

theorem keyOf_succ_of_isNone (h : object n = none) :
    keyOf object (n + 1) = some ((keyOf object n).getD (List.replicate n 'D') ++ ['U']) := by
  have hnot : ¬ (object n).isSome = true := by
    rw [h]
    exact Bool.false_ne_true
  have hmarks : (List.range (n + 1)).map (mark object) =
      (List.range n).map (mark object) ++ ['U'] := by
    rw [List.range_succ, List.map_append, List.map_singleton]
    rw [show mark object n = 'U' from if_neg hnot]
  unfold keyOf
  rw [if_neg fun hall => hnot (hall n (Nat.lt_succ_self n)), hmarks]
  by_cases hall : ∀ i < n, (object i).isSome = true
  · rw [if_pos hall, map_mark_of_defined hall]
    rfl
  · rw [if_neg hall]
    rfl

/-- What the listener has recorded when a column has been read. -/
theorem get_keyOf (column : ColumnMetadata) (errors : List (List Char)) :
    get column (object n) n ⟨keyOf object n, errors⟩ =
      if isNullBinary object (column, n) then none
      else some ⟨keyOf object (n + 1),
        errors ++ if isError object (column, n) then [column.name] else []⟩ := by
  change get column (object n) n _ = if column.throws (object n) = true then none
    else some ⟨keyOf object (n + 1),
      errors ++ if column.rejects (object n) = true then [column.name] else []⟩
  cases hvalue : object n with
  | none =>
      rw [keyOf_succ_of_isNone hvalue]
      exact congrArg (fun errors => some (FieldValueDefinedListener.mk _ errors))
        (List.append_nil errors).symm
  | some value =>
      rw [@keyOf_succ_of_isSome ν object n (by rw [hvalue]; rfl)]
      unfold get ColumnMetadata.throws ColumnMetadata.rejects
      cases value with
      | null =>
          cases column.isBinary with
          | true => rfl
          | false =>
              exact congrArg (fun errors => some (FieldValueDefinedListener.mk _ errors))
                (List.append_nil errors).symm
      | value constructorName value =>
          cases column.isBinary <;> cases constructorName <;>
            simp only [Bool.false_and, Bool.true_and, Bool.false_eq_true, if_false, if_true,
              List.append_nil, decide_eq_true_eq, FieldValueDefinedListener.setDefined]
          split_ifs <;> simp [FieldValueDefinedListener.setError]

/-- What the listener has recorded when some more columns have been read. -/
theorem listen_keyOf (errors : List (List Char)) :
    listen object columns n ⟨keyOf object n, errors⟩ =
      if (columns.zipIdx n).any (isNullBinary object) then none
      else some ⟨keyOf object (n + columns.length),
        errors ++ ((columns.zipIdx n).filter (isError object)).map fun (column, _) =>
          column.name⟩ := by
  induction columns generalizing n errors with
  | nil => simp [listen]
  | cons column columns ih =>
      unfold listen
      rw [get_keyOf, List.zipIdx_cons, List.any_cons]
      by_cases hnull : isNullBinary object (column, n) = true
      · rw [if_pos hnull, hnull]
        rfl
      · rw [if_neg hnull, Option.bind_some, ih, Bool.not_eq_true _ |>.mp hnull, Bool.false_or,
          List.length_cons, Nat.add_right_comm, Nat.add_assoc]
        by_cases herror : isError object (column, n) = true
        · rw [if_pos herror, List.filter_cons_of_pos herror, List.map_cons, List.append_assoc]
          rfl
        · rw [if_neg herror, List.filter_cons_of_neg herror, List.append_nil]

end

/-! ## Columns and values of a key -/

section
variable {object : DomainObject ν} {tableHandler : DBTableHandler}

theorem map_snd_definedColumns :
    (definedColumns tableHandler object).map Prod.snd =
      (List.range tableHandler.columns.length).filter fun i => (object i).isSome := by
  unfold definedColumns
  have hsnd : tableHandler.columns.zipIdx.map Prod.snd =
      List.range tableHandler.columns.length := by
    rw [List.zipIdx_map_snd, List.range_eq_range']
  rw [← hsnd, List.filter_map]
  rfl

theorem map_values_definedColumns :
    (definedColumns tableHandler object).map (fun (_, i) => object i) =
      ((List.range tableHandler.columns.length).filter fun i => (object i).isSome).map object := by
  rw [← map_snd_definedColumns, List.map_map]
  rfl

theorem zipIdx_map_range {α : Type} (f : ℕ → α) (n : ℕ) :
    ((List.range n).map f).zipIdx = (List.range n).map fun i => (f i, i) := by
  apply List.ext_getElem
  · simp
  · intro i h _
    simp

theorem mark_eq_iff (i : ℕ) : mark object i = 'D' ↔ (object i).isSome = true := by
  unfold mark
  cases (object i).isSome <;> decide

/-- With a key, the values that are defined are passed. -/
theorem extractValues_eq :
    extractValues (tableHandler.getColumns object)
        ((List.range tableHandler.columns.length).map (mark object)) =
      (definedColumns tableHandler object).map fun (_, i) => object i := by
  unfold extractValues
  rw [zipIdx_map_range, List.filter_map, List.map_map, map_values_definedColumns]
  refine (congrArg (List.map _) (List.filter_congr (q := fun i => (object i).isSome)
    fun i _ => ?_)).trans (List.map_congr_left fun i hi => ?_)
  · exact Bool.eq_iff_iff.mpr (decide_eq_true_iff.trans (mark_eq_iff i))
  have hlt : i < tableHandler.columns.length := List.mem_range.mp (List.mem_filter.mp hi).1
  have hget : (tableHandler.getColumns object)[i]? = some (object i) := by
    unfold DBTableHandler.getColumns
    rw [List.getElem?_map, List.getElem?_range hlt, Option.map_some]
  exact congrArg Option.join hget

/-- Without a key, all values are defined and passed. -/
theorem getColumns_eq (h : ∀ i < tableHandler.columns.length, (object i).isSome = true) :
    tableHandler.getColumns object =
      (definedColumns tableHandler object).map fun (_, i) => object i := by
  rw [map_values_definedColumns, List.filter_eq_self.mpr fun i hi => h i (List.mem_range.mp hi)]
  rfl

/-- The columns of a key are those with a value. -/
theorem isInKey_keyOf {i : ℕ} (hi : i < tableHandler.columns.length) :
    isInKey (keyOf object tableHandler.columns.length) i = (object i).isSome := by
  unfold keyOf
  by_cases hall : ∀ i < tableHandler.columns.length, (object i).isSome = true
  · rw [if_pos hall, hall i hi]
    rfl
  · rw [if_neg hall]
    have hget : ((List.range tableHandler.columns.length).map (mark object))[i]? =
        some (mark object i) := by
      rw [List.getElem?_map, List.getElem?_range hi, Option.map_some]
    obtain ⟨char, key, hkey⟩ : ∃ char key,
        (List.range tableHandler.columns.length).map (mark object) = char :: key :=
      List.exists_cons_of_ne_nil fun hnil => by
        rw [hnil] at hget
        cases hget
    rw [hkey] at hget ⊢
    change decide ((char :: key)[i]? = some 'D') = _
    rw [hget]
    refine Bool.eq_iff_iff.mpr (decide_eq_true_iff.trans ?_)
    rw [Option.some.injEq]
    exact mark_eq_iff i

end

/-! ## The texts of the loops -/

section
variable {columns : List ColumnMetadata}

/-- The text for a column behind ON DUPLICATE KEY UPDATE. -/
def duplicateText (name : List Char) : List Char :=
  name ++ (" = VALUES (".toList ++ (name ++ ") ".toList))

theorem insertSQL_foldl (texts : InsertTexts) :
    (columns.foldl InsertTexts.addColumn texts).insertSQL =
      texts.insertSQL ++
        separatedFrom texts.columnSeparator ", ".toList (columns.map ColumnMetadata.name) := by
  induction columns generalizing texts with
  | nil => exact (List.append_nil _).symm
  | cons column columns ih =>
      rw [List.foldl_cons, ih]
      have hinsert : (texts.addColumn column).insertSQL =
          texts.insertSQL ++ texts.columnSeparator ++ column.name := by
        unfold InsertTexts.addColumn
        dsimp only
        split_ifs <;> rfl
      have hseparator : (texts.addColumn column).columnSeparator = ", ".toList := by
        unfold InsertTexts.addColumn
        dsimp only
        split_ifs <;> rfl
      rw [hinsert, hseparator, List.map_cons, separatedFrom_cons]
      simp only [List.append_assoc]

theorem valuesSQL_foldl (texts : InsertTexts) :
    (columns.foldl InsertTexts.addColumn texts).valuesSQL =
      texts.valuesSQL ++
        separatedFrom texts.columnSeparator ", ".toList (columns.map fun _ => "?".toList) := by
  induction columns generalizing texts with
  | nil => exact (List.append_nil _).symm
  | cons column columns ih =>
      rw [List.foldl_cons, ih]
      have hvalues : (texts.addColumn column).valuesSQL =
          texts.valuesSQL ++ texts.columnSeparator ++ "?".toList := by
        unfold InsertTexts.addColumn
        dsimp only
        split_ifs <;> rfl
      have hseparator : (texts.addColumn column).columnSeparator = ", ".toList := by
        unfold InsertTexts.addColumn
        dsimp only
        split_ifs <;> rfl
      rw [hvalues, hseparator, List.map_cons, separatedFrom_cons]
      simp only [List.append_assoc]

theorem duplicateSQL_foldl (texts : InsertTexts) :
    (columns.foldl InsertTexts.addColumn texts).duplicateSQL =
      texts.duplicateSQL ++ separatedFrom texts.duplicateSeparator ", ".toList
        ((columns.filter fun column => !column.isInPrimaryKey).map fun column =>
          duplicateText column.name) := by
  induction columns generalizing texts with
  | nil => exact (List.append_nil _).symm
  | cons column columns ih =>
      rw [List.foldl_cons, ih]
      cases hkey : column.isInPrimaryKey with
      | true =>
          have hsame : texts.addColumn column = { texts with
              insertSQL := texts.insertSQL ++ texts.columnSeparator ++ column.name
              valuesSQL := texts.valuesSQL ++ texts.columnSeparator ++ "?".toList
              columnSeparator := ", ".toList } := if_pos hkey
          rw [hsame, List.filter_cons_of_neg (by rw [hkey]; decide)]
      | false =>
          have hduplicate : (texts.addColumn column).duplicateSQL =
              texts.duplicateSQL ++ texts.duplicateSeparator ++ column.name ++
                " = VALUES (".toList ++ column.name ++ ") ".toList := by
            unfold InsertTexts.addColumn
            rw [hkey]
            rfl
          have hseparator : (texts.addColumn column).duplicateSeparator = ", ".toList := by
            unfold InsertTexts.addColumn
            rw [hkey]
            rfl
          rw [hduplicate, hseparator, List.filter_cons_of_pos (by rw [hkey]; rfl), List.map_cons,
            separatedFrom_cons]
          unfold duplicateText
          simp only [List.append_assoc]

/-- The text of `createInsertSQL` for some columns. -/
def insertText (tableHandler : DBTableHandler) (columns : List ColumnMetadata) : List Char :=
  "INSERT INTO ".toList ++ (tableHandler.database ++ (".".toList ++ (tableHandler.name ++
    (" (".toList ++ (separated ", ".toList (columns.map ColumnMetadata.name) ++
      (") VALUES (".toList ++ (separated ", ".toList (columns.map fun _ => "?".toList) ++
        ")".toList)))))))

/-- What follows it in the statement with ON DUPLICATE KEY UPDATE. -/
def duplicatesText (columns : List ColumnMetadata) : List Char :=
  " ON DUPLICATE KEY UPDATE ".toList ++ separated ", ".toList
    ((columns.filter fun column => !column.isInPrimaryKey).map fun column =>
      duplicateText column.name)

/-- The statements for a key are about its columns. -/
theorem createInsertSQL_eq {object : DomainObject ν} {tableHandler : DBTableHandler}
    {key : Option (List Char)}
    (hkey : ∀ i < tableHandler.columns.length, isInKey key i = (object i).isSome) :
    createInsertSQL tableHandler key =
      (insertText tableHandler ((definedColumns tableHandler object).map Prod.fst),
        insertText tableHandler ((definedColumns tableHandler object).map Prod.fst) ++
          duplicatesText ((definedColumns tableHandler object).map Prod.fst)) := by
  have hcolumns : tableHandler.columns.zipIdx.filter (fun (_, i) => isInKey key i) =
      definedColumns tableHandler object := by
    refine List.filter_congr fun column hcolumn => ?_
    obtain ⟨_, hlt, _⟩ := List.mem_zipIdx hcolumn
    exact hkey column.2 (by simpa using hlt)
  have hfold : ∀ texts : InsertTexts, (tableHandler.columns.zipIdx).foldl
      (fun (texts : InsertTexts) (column, i) =>
        if isInKey key i then texts.addColumn column else texts) texts =
      ((definedColumns tableHandler object).map Prod.fst).foldl InsertTexts.addColumn texts := by
    intro texts
    rw [← hcolumns, List.foldl_map, List.foldl_filter]
  unfold createInsertSQL
  dsimp only
  rw [hfold]
  have htext : ∀ texts : InsertTexts, texts.insertSQL = "INSERT INTO ".toList ++
        tableHandler.database ++ ".".toList ++ tableHandler.name ++ " (".toList →
      texts.valuesSQL = " VALUES (".toList → texts.columnSeparator = [] →
      (((definedColumns tableHandler object).map Prod.fst).foldl InsertTexts.addColumn
          texts).insertSQL ++ (")".toList ++
        ((((definedColumns tableHandler object).map Prod.fst).foldl InsertTexts.addColumn
          texts).valuesSQL ++ ")".toList)) =
      insertText tableHandler ((definedColumns tableHandler object).map Prod.fst) := by
    intro texts hinsert hvalues hseparator
    rw [insertSQL_foldl, valuesSQL_foldl, hinsert, hvalues, hseparator]
    unfold insertText separated
    simp only [List.append_assoc]
    rfl
  rw [htext _ rfl rfl rfl, duplicateSQL_foldl]
  rfl

end

/-! ## The texts are read back -/

section
variable {reserved : List Char → Bool} {tableHandler : DBTableHandler} {name : List Char}
  {columns : List ColumnMetadata}

theorem IsName.lex (h : IsName reserved name) : sql.lex name = some [.word name] :=
  Alphabet.lex_word h.ne_nil h.isWord

/-! The pieces of text between the names. -/

theorem lex_insertInto : sql.lex "INSERT INTO ".toList = some [keyword "INSERT", keyword "INTO"] := by
  rfl

theorem lex_dot : sql.lex ".".toList = some [.symbol '.'] := by rfl

theorem lex_opening : sql.lex " (".toList = some [.symbol '('] := by rfl

theorem lex_closing : sql.lex ")".toList = some [.symbol ')'] := by rfl

theorem lex_closingBlank : sql.lex ") ".toList = some [.symbol ')'] := by rfl

theorem lex_values :
    sql.lex ") VALUES (".toList = some [.symbol ')', keyword "VALUES", .symbol '('] := by
  rfl

theorem lex_isValues :
    sql.lex " = VALUES (".toList = some [.symbol '=', keyword "VALUES", .symbol '('] := by
  rfl

theorem lex_onDuplicate : sql.lex " ON DUPLICATE KEY UPDATE ".toList =
    some [keyword "ON", keyword "DUPLICATE", keyword "KEY", keyword "UPDATE"] := by
  rfl

theorem lex_placeholder : sql.lex "?".toList = some [placeholder] := by rfl

theorem lex_comma : sql.lex ", ".toList = some comma := by rfl

theorem ends_comma : sql.ends ", ".toList = false := by rfl

theorem starts_comma : sql.starts ", ".toList = false := by rfl

/-- Items with commas between them are read one after another. -/
theorem lex_separated {ι : Type} {f : ι → List Char} {g : ι → List Lexeme} {items : List ι}
    (hitems : ∀ item ∈ items, sql.lex (f item) = some (g item)) :
    sql.lex (separated ", ".toList (items.map f)) = some (separated comma (items.map g)) :=
  Alphabet.lex_separatedFrom rfl rfl lex_comma ends_comma (by decide) hitems
    fun _ _ => .inr starts_comma

theorem lex_insertText (hdatabase : IsName reserved tableHandler.database)
    (htable : IsName reserved tableHandler.name)
    (hcolumns : ∀ column ∈ columns, IsName reserved column.name) :
    sql.lex (insertText tableHandler columns) = some (insertLexemes tableHandler.database
      tableHandler.name (columns.map ColumnMetadata.name) columns.length) := by
  have hnames : sql.lex (separated ", ".toList (columns.map ColumnMetadata.name)) =
      some (separated comma (columns.map fun column => [.word column.name])) :=
    lex_separated fun column hcolumn => (hcolumns column hcolumn).lex
  have hplaceholders : sql.lex (separated ", ".toList (columns.map fun _ => "?".toList)) =
      some (separated comma (columns.map fun _ => [placeholder])) :=
    lex_separated fun _ _ => lex_placeholder
  have hclosed := Alphabet.lex_append hplaceholders lex_closing (.inr rfl)
  have hvalues := Alphabet.lex_append lex_values hclosed (.inl rfl)
  have hlisted := Alphabet.lex_append hnames hvalues (.inr rfl)
  have hopened := Alphabet.lex_append lex_opening hlisted (.inl rfl)
  have hnamed := Alphabet.lex_append htable.lex hopened (.inr rfl)
  have hqualified := Alphabet.lex_append lex_dot hnamed (.inl rfl)
  have hdatabases := Alphabet.lex_append hdatabase.lex hqualified (.inr rfl)
  have hwhole := Alphabet.lex_append lex_insertInto hdatabases (.inl rfl)
  unfold insertText
  rw [hwhole]
  unfold insertLexemes
  rw [List.map_map, List.map_replicate, List.map_const']
  rfl

theorem lex_duplicateText (h : IsName reserved name) :
    sql.lex (duplicateText name) = some (assignment name) := by
  have hclosed := Alphabet.lex_append h.lex lex_closingBlank (.inr rfl)
  have hvalues := Alphabet.lex_append lex_isValues hclosed (.inl rfl)
  exact Alphabet.lex_append h.lex hvalues (.inr rfl)

theorem lex_duplicatesText (hcolumns : ∀ column ∈ columns, IsName reserved column.name) :
    sql.lex (duplicatesText columns) =
      some ([keyword "ON", keyword "DUPLICATE", keyword "KEY", keyword "UPDATE"] ++
        separated comma (((columns.filter fun column => !column.isInPrimaryKey).map
          ColumnMetadata.name).map assignment)) := by
  have hupdates : sql.lex (separated ", ".toList
      ((columns.filter fun column => !column.isInPrimaryKey).map fun column =>
        duplicateText column.name)) =
      some (separated comma ((columns.filter fun column => !column.isInPrimaryKey).map
        fun column => assignment column.name)) :=
    lex_separated fun column hcolumn => lex_duplicateText (hcolumns column (List.mem_filter.mp hcolumn).1)
  have hwhole := Alphabet.lex_append lex_onDuplicate hupdates (.inl rfl)
  unfold duplicatesText
  rw [hwhole, List.map_map]
  rfl

/-- The WHERE clause, with each column of the index. -/
theorem updateWhereSQL_eq (names : List (List Char)) (separator text : List Char) :
    updateWhereSQL names separator text =
      text ++ separatedFrom separator "AND ".toList (names.map (· ++ " = ? ".toList)) := by
  induction names generalizing separator text with
  | nil => exact (List.append_nil _).symm
  | cons name names ih =>
      unfold updateWhereSQL
      rw [ih, List.map_cons, separatedFrom_cons]
      simp only [List.append_assoc]

/-- The SET clause, with each column that has a value and is not in the index. -/
theorem updateSetSQL_eq {object : DomainObject ν} (mask : List ℕ)
    (columns : List (ColumnMetadata × ℕ)) (separator text : List Char) :
    updateSetSQL mask (columns.map fun (column, i) => (column, object i, i)) separator text =
      (text ++ separatedFrom separator ", ".toList
          ((columns.filter fun (_, i) => (object i).isSome && i ∉ mask).map fun (column, _) =>
            column.name ++ " = ?".toList),
        (columns.filter fun (_, i) => (object i).isSome && i ∉ mask).map fun (_, i) => object i) := by
  induction columns generalizing separator text with
  | nil => exact congrArg (·, _) (List.append_nil _).symm
  | cons column columns ih =>
      obtain ⟨column, i⟩ := column
      rw [List.map_cons]
      dsimp only
      cases hvalue : object i with
      | none =>
          have hnot : ¬ ((object i).isSome && decide (i ∉ mask)) = true := by simp [hvalue]
          rw [List.filter_cons_of_neg (by exact hnot)]
          unfold updateSetSQL
          exact ih separator text
      | some value =>
          unfold updateSetSQL
          by_cases hmask : i ∈ mask
          · have hnot : ¬ ((object i).isSome && decide (i ∉ mask)) = true := by simp [hmask]
            rw [if_pos hmask, List.filter_cons_of_neg (by exact hnot)]
            exact ih separator text
          · have hpos : ((object i).isSome && decide (i ∉ mask)) = true := by simp [hmask, hvalue]
            rw [if_neg hmask, List.filter_cons_of_pos (by exact hpos), ih, List.map_cons,
              List.map_cons, separatedFrom_cons]
            dsimp only
            rw [hvalue]
            simp only [List.append_assoc]

theorem lex_where : sql.lex " WHERE ".toList = some [keyword "WHERE"] := by rfl

theorem lex_and : sql.lex "AND ".toList = some [keyword "AND"] := by rfl

theorem lex_set : sql.lex " SET ".toList = some [keyword "SET"] := by rfl

theorem lex_update : sql.lex "UPDATE ".toList = some [keyword "UPDATE"] := by rfl

theorem lex_isPlaceholder : sql.lex " = ?".toList = some [.symbol '=', placeholder] := by
  rfl

theorem lex_isPlaceholderBlank : sql.lex " = ? ".toList = some [.symbol '=', placeholder] := by
  rfl

theorem lex_whereText {names : List (List Char)} (hnames : ∀ name ∈ names, IsName reserved name) :
    sql.lex (updateWhereSQL names [] " WHERE ".toList) =
      some ([keyword "WHERE"] ++ separated [keyword "AND"] (names.map equation)) := by
  have hequations : sql.lex (separatedFrom [] "AND ".toList (names.map (· ++ " = ? ".toList))) =
      some (separatedFrom [] [keyword "AND"] (names.map equation)) :=
    Alphabet.lex_separatedFrom rfl rfl lex_and rfl (by decide)
      (fun name hname =>
        Alphabet.lex_append (hnames name hname).lex lex_isPlaceholderBlank (.inr rfl))
      fun name _ => .inl ((Alphabet.ends_append name (by decide)).trans rfl)
  rw [updateWhereSQL_eq]
  exact Alphabet.lex_append lex_where hequations (.inl rfl)

theorem lex_updateText (hdatabase : IsName reserved tableHandler.database)
    (htable : IsName reserved tableHandler.name) {names : List (List Char)}
    (hnames : ∀ name ∈ names, IsName reserved name) {whereText : List Char}
    {lexemes : List Lexeme} (hwhere : sql.lex (" WHERE ".toList ++ whereText) = some lexemes) :
    sql.lex ("UPDATE ".toList ++ tableHandler.database ++ ".".toList ++ tableHandler.name ++
        " SET ".toList ++ separatedFrom [] ", ".toList (names.map (· ++ " = ?".toList)) ++
        (" WHERE ".toList ++ whereText)) =
      some ([keyword "UPDATE", .word tableHandler.database, .symbol '.', .word tableHandler.name,
        keyword "SET"] ++ (separated comma (names.map equation) ++ lexemes)) := by
  have hequations : sql.lex (separated ", ".toList (names.map (· ++ " = ?".toList))) =
      some (separated comma (names.map equation)) :=
    lex_separated fun name hname =>
      Alphabet.lex_append (hnames name hname).lex lex_isPlaceholder (.inr rfl)
  have hrest := Alphabet.lex_append hequations hwhere (.inr rfl)
  have hset := Alphabet.lex_append lex_set hrest (.inl rfl)
  have hnamed := Alphabet.lex_append htable.lex hset (.inr rfl)
  have hqualified := Alphabet.lex_append lex_dot hnamed (.inl rfl)
  have hdatabases := Alphabet.lex_append hdatabase.lex hqualified (.inr rfl)
  have hwhole := Alphabet.lex_append lex_update hdatabases (.inl rfl)
  simp only [List.append_assoc]
  exact hwhole

end

/-! ## Placeholders -/

theorem count_separated {ι : Type} {separator : List Lexeme} (hseparator : placeholder ∉ separator)
    {f : ι → List Lexeme} {n : ℕ} (hf : ∀ item, (f item).count placeholder = n) (items : List ι) :
    (separated separator (items.map f)).count placeholder = items.length * n := by
  unfold separated
  rw [count_separatedFrom List.not_mem_nil hseparator, List.map_map]
  have hconst : List.count placeholder ∘ f = fun _ => n := funext hf
  rw [hconst, List.map_const', List.sum_replicate_nat]

theorem count_insertLexemes (database table : List Char) (columns : List (List Char)) (n : ℕ) :
    (insertLexemes database table columns n).count placeholder = n := by
  unfold insertLexemes
  simp only [List.count_append]
  rw [count_separated (by decide) (n := 0) fun _ => rfl,
    count_separated (by decide) (n := 1) fun _ => rfl, List.length_replicate]
  change 0 + (columns.length * 0 + (0 + (n * 1 + 0))) = n
  omega

/-- Each statement has as many placeholders as there are values. -/
theorem Request.count_lexemes {tableHandler : DBTableHandler} (request : Request tableHandler ν) :
    request.statement.lexemes.count placeholder = request.values.length := by
  cases request with
  | persist object =>
      rw [show (Request.persist object).statement.lexemes = insertLexemes _ _ _ _ from rfl,
        count_insertLexemes]
      exact (List.length_map ..).symm
  | save object =>
      rw [show (Request.save object).statement.lexemes = insertLexemes _ _ _ _ ++ (_ ++ _) from rfl,
        List.count_append, count_insertLexemes, List.count_append,
        count_separated (by decide) (n := 0) fun _ => rfl]
      have hvalues : (Request.save object).values.length =
          (definedColumns tableHandler object).length := List.length_map ..
      rw [hvalues, Nat.mul_zero]
      rfl
  | update index keys hlength object =>
      rw [show (Request.update index keys hlength object).statement.lexemes =
        _ ++ (separated comma _ ++ (_ ++ separated [keyword "AND"] _)) from rfl]
      rw [List.count_append, List.count_append, List.count_append,
        count_separated (by decide) (n := 1) fun _ => rfl,
        count_separated (by decide) (n := 1) fun _ => rfl]
      change 0 + (_ + (0 + _)) = (List.map _ _ ++ keys).length
      rw [List.length_append, List.length_map, List.length_map, List.length_map, hlength]
      omega

/-! ## The statements that are kept -/

/-- Each statement that is kept is the one for its key. -/
structure Metadata.Kept (tableHandler : DBTableHandler) (mysql : Metadata) : Prop where
  insertSQL : mysql.insertSQL = (createInsertSQL tableHandler none).1
  duplicateSQL : mysql.duplicateSQL = (createInsertSQL tableHandler none).2
  insertPartialSQL : ∀ key text, mysql.insertPartialSQL key = some text →
    text = (createInsertSQL tableHandler (some key)).1
  duplicatePartialSQL : ∀ key text, mysql.duplicatePartialSQL key = some text →
    text = (createInsertSQL tableHandler (some key)).2

section
variable {tableHandler : DBTableHandler} {mysql : Metadata}

theorem Metadata.Kept.put (h : mysql.Kept tableHandler) (key : List Char) :
    (mysql.put tableHandler key).Kept tableHandler where
  insertSQL := h.insertSQL
  duplicateSQL := h.duplicateSQL
  insertPartialSQL other text htext := by
    unfold Metadata.put at htext
    dsimp only at htext
    split_ifs at htext with heq
    · cases htext
      rw [heq]
    · exact h.insertPartialSQL other text htext
  duplicatePartialSQL other text htext := by
    unfold Metadata.put at htext
    dsimp only at htext
    split_ifs at htext with heq
    · cases htext
      rw [heq]
    · exact h.duplicatePartialSQL other text htext

theorem Metadata.Kept.getInsertSQL (h : mysql.Kept tableHandler) (key : List Char) :
    (getInsertSQL tableHandler mysql key).1 = (createInsertSQL tableHandler (some key)).1 ∧
      (getInsertSQL tableHandler mysql key).2.Kept tableHandler := by
  unfold MySQLConnection.getInsertSQL
  split
  · next text htext => exact ⟨h.insertPartialSQL key text htext, h⟩
  · exact ⟨rfl, h.put key⟩

theorem Metadata.Kept.getDuplicateSQL (h : mysql.Kept tableHandler) (key : List Char) :
    (getDuplicateSQL tableHandler mysql key).1 = (createInsertSQL tableHandler (some key)).2 ∧
      (getDuplicateSQL tableHandler mysql key).2.Kept tableHandler := by
  unfold MySQLConnection.getDuplicateSQL
  split
  · next text htext => exact ⟨h.duplicatePartialSQL key text htext, h⟩
  · exact ⟨rfl, h.put key⟩

theorem kept_getMetadata {before : Option Metadata}
    (h : ∀ mysql, before = some mysql → mysql.Kept tableHandler) :
    (getMetadata tableHandler before).Kept tableHandler := by
  cases before with
  | none => exact ⟨rfl, rfl, fun _ _ h => (nomatch h), fun _ _ h => (nomatch h)⟩
  | some mysql => exact h mysql rfl

theorem kept_buildInsert (h : mysql.Kept tableHandler) (object : DomainObject ν) (all : List Char)
    {find : List Char → List Char × Metadata} (hfind : ∀ key, (find key).2.Kept tableHandler) :
    (buildInsert tableHandler mysql object all find).2.Kept tableHandler := by
  unfold buildInsert
  split
  · exact h
  · exact h
  · exact h
  · exact hfind _

theorem kept_build {before : Option Metadata}
    (h : ∀ mysql, before = some mysql → mysql.Kept tableHandler)
    (request : Request tableHandler ν) : (build tableHandler before request).2.Kept tableHandler := by
  have hkept := kept_getMetadata h
  cases request with
  | persist object => exact kept_buildInsert hkept object _ fun key => (hkept.getInsertSQL key).2
  | save object => exact kept_buildInsert hkept object _ fun key => (hkept.getDuplicateSQL key).2
  | update index keys hlength object => exact hkept

/-- In every run, each statement that is kept is the one for its key. -/
theorem kept_metadataAfter (requests : List (Request tableHandler ν)) :
    ∀ mysql, metadataAfter tableHandler requests = some mysql → mysql.Kept tableHandler := by
  unfold metadataAfter
  have hrun : ∀ before : Option Metadata,
      (∀ mysql, before = some mysql → mysql.Kept tableHandler) →
      ∀ mysql, requests.foldl (fun mysql request => some (build tableHandler mysql request).2)
        before = some mysql → mysql.Kept tableHandler := by
    induction requests with
    | nil => exact fun before h => h
    | cons request requests ih =>
        intro before h
        refine ih _ fun mysql hmysql => ?_
        cases hmysql
        exact kept_build h request
  exact hrun none fun _ h => (nomatch h)

end

/-! ## What is built -/

section
variable {tableHandler : DBTableHandler} {mysql : Metadata} {object : DomainObject ν}
  {all : List Char} {find : List Char → List Char × Metadata}

theorem buildInsert_threw
    (h : ∃ column ∈ tableHandler.columns.zipIdx, isNullBinary object column = true) :
    (buildInsert tableHandler mysql object all find).1 = .threw := by
  have hlisten := @listen_keyOf ν object tableHandler.columns 0 []
  rw [keyOf_zero, if_pos (List.any_eq_true.mpr h)] at hlisten
  unfold buildInsert
  rw [show (FieldValueDefinedListener.mk none [] : FieldValueDefinedListener) = {} from rfl]
    at hlisten
  rw [hlisten]

theorem listen_eq
    (h : ∀ column ∈ tableHandler.columns.zipIdx, isNullBinary object column = false) :
    listen object tableHandler.columns 0 {} =
      some ⟨keyOf object tableHandler.columns.length,
        (tableHandler.columns.zipIdx.filter (isError object)).map fun (column, _) =>
          column.name⟩ := by
  have hlisten := @listen_keyOf ν object tableHandler.columns 0 []
  rw [keyOf_zero, if_neg, Nat.zero_add, List.nil_append] at hlisten
  · exact hlisten
  · intro hany
    obtain ⟨column, hcolumn, hnull⟩ := List.any_eq_true.mp hany
    rw [h column hcolumn] at hnull
    cases hnull

theorem buildInsert_error
    (hnull : ∀ column ∈ tableHandler.columns.zipIdx, isNullBinary object column = false)
    (herror : ∃ column ∈ tableHandler.columns.zipIdx, isError object column = true) :
    ∃ columnName, (buildInsert tableHandler mysql object all find).1 = .error columnName := by
  obtain ⟨column, hcolumn, herror⟩ := herror
  obtain ⟨first, rest, hfirst⟩ := List.exists_cons_of_ne_nil
    (List.ne_nil_of_mem (List.mem_filter.mpr ⟨hcolumn, herror⟩))
  unfold buildInsert
  rw [listen_eq hnull, hfirst, List.map_cons]
  exact ⟨_, rfl⟩

/-- Without errors, the statement is the one for the columns that have values. -/
theorem buildInsert_statement {pick : List Char × List Char → List Char}
    (hnull : ∀ column ∈ tableHandler.columns.zipIdx, isNullBinary object column = false)
    (herror : ∀ column ∈ tableHandler.columns.zipIdx, isError object column = false)
    (hall : all = pick (createInsertSQL tableHandler none))
    (hfind : ∀ key, (find key).1 = pick (createInsertSQL tableHandler (some key))) :
    (buildInsert tableHandler mysql object all find).1 = .statement
      (pick (insertText tableHandler ((definedColumns tableHandler object).map Prod.fst),
        insertText tableHandler ((definedColumns tableHandler object).map Prod.fst) ++
          duplicatesText ((definedColumns tableHandler object).map Prod.fst)))
      ((definedColumns tableHandler object).map fun (_, i) => object i) := by
  have hnone : tableHandler.columns.zipIdx.filter (isError object) = [] := by
    refine List.filter_eq_nil_iff.mpr fun column hcolumn => ?_
    rw [herror column hcolumn]
    exact Bool.false_ne_true
  unfold buildInsert
  rw [listen_eq hnull, hnone, List.map_nil]
  have hkey : ∀ i < tableHandler.columns.length,
      isInKey (keyOf object tableHandler.columns.length) i = (object i).isSome :=
    fun i hi => isInKey_keyOf hi
  have hcreate := createInsertSQL_eq hkey
  by_cases hdefined : ∀ i < tableHandler.columns.length, (object i).isSome = true
  · have hkeyOf : keyOf object tableHandler.columns.length = none := if_pos hdefined
    rw [hkeyOf] at hcreate ⊢
    dsimp only
    rw [hall, hcreate, getColumns_eq hdefined]
  · have hkeyOf : keyOf object tableHandler.columns.length =
        some ((List.range tableHandler.columns.length).map (mark object)) := if_neg hdefined
    rw [hkeyOf] at hcreate ⊢
    dsimp only
    rw [hfind, hcreate, extractValues_eq]

end

section
variable {reserved : List Char → Bool} {tableHandler : DBTableHandler}

theorem lex_statement_persist {object : DomainObject ν}
    (hvalid : (Request.persist object : Request tableHandler ν).statement.Valid reserved) :
    sql.lex (insertText tableHandler ((definedColumns tableHandler object).map Prod.fst)) =
      some (Request.persist object : Request tableHandler ν).statement.lexemes := by
  obtain ⟨hdatabase, htable, hcolumns, _⟩ := hvalid
  have hnames : ∀ column ∈ (definedColumns tableHandler object).map Prod.fst,
      IsName reserved column.name := by
    intro column hcolumn
    obtain ⟨pair, hpair, rfl⟩ := List.mem_map.mp hcolumn
    exact hcolumns _ (List.mem_map_of_mem hpair)
  rw [lex_insertText hdatabase htable hnames, List.map_map, List.length_map]
  rfl

theorem lex_statement_save {object : DomainObject ν}
    (hvalid : (Request.save object : Request tableHandler ν).statement.Valid reserved) :
    sql.lex (insertText tableHandler ((definedColumns tableHandler object).map Prod.fst) ++
        duplicatesText ((definedColumns tableHandler object).map Prod.fst)) =
      some (Request.save object : Request tableHandler ν).statement.lexemes := by
  obtain ⟨hdatabase, htable, hcolumns, _⟩ := hvalid
  have hnames : ∀ column ∈ (definedColumns tableHandler object).map Prod.fst,
      IsName reserved column.name := by
    intro column hcolumn
    obtain ⟨pair, hpair, rfl⟩ := List.mem_map.mp hcolumn
    exact hcolumns _ (List.mem_map_of_mem hpair)
  have hduplicates : (((definedColumns tableHandler object).map Prod.fst).filter
      fun column => !column.isInPrimaryKey).map ColumnMetadata.name =
        ((definedColumns tableHandler object).filter fun (column, _) =>
          !column.isInPrimaryKey).map fun (column, _) => column.name := by
    rw [List.filter_map, List.map_map]
    rfl
  rw [Alphabet.lex_append (lex_insertText hdatabase htable hnames) (lex_duplicatesText hnames)
    (.inr rfl), List.map_map, List.length_map, hduplicates]
  rfl

/-- What is built for INSERT is as expected if the statement is, unless there is an error. -/
theorem matches_statement_iff {request : Request tableHandler ν} {text : List Char}
    (hlex : request.statement.Valid reserved → sql.lex text = some request.statement.lexemes) :
    Matches reserved request (.statement text request.values) ↔
      request.statement.Valid reserved :=
  ⟨fun h => h.1, fun hvalid => ⟨hvalid, hlex hvalid, request.count_lexemes, rfl⟩⟩

theorem matches_persist_iff {mysql : Metadata} (hkept : mysql.Kept tableHandler)
    (object : DomainObject ν) :
    Matches reserved (Request.persist object : Request tableHandler ν)
        (buildInsertOperation tableHandler mysql object).1 ↔
      (Request.persist object : Request tableHandler ν).Writable reserved := by
  unfold buildInsertOperation
  by_cases hnull : ∀ column ∈ tableHandler.columns.zipIdx, isNullBinary object column = false
  · by_cases herror : ∃ column ∈ tableHandler.columns.zipIdx, isError object column = true
    · obtain ⟨columnName, hbuilt⟩ := @buildInsert_error ν tableHandler mysql object mysql.insertSQL
        (getInsertSQL tableHandler mysql) hnull herror
      rw [hbuilt]
      exact iff_of_true herror ⟨hnull, .inl herror⟩
    · have hclean : ∀ column ∈ tableHandler.columns.zipIdx, isError object column = false :=
        fun column hcolumn => Bool.eq_false_iff.mpr fun h => herror ⟨column, hcolumn, h⟩
      rw [@buildInsert_statement ν tableHandler mysql object mysql.insertSQL
        (getInsertSQL tableHandler mysql) Prod.fst hnull hclean hkept.insertSQL fun key =>
          (hkept.getInsertSQL key).1]
      refine (@matches_statement_iff ν reserved tableHandler (.persist object) _
        lex_statement_persist).trans ?_
      constructor
      · rintro ⟨hdatabase, htable, hcolumns, _⟩
        exact ⟨hnull, .inr ⟨hdatabase, htable, fun column hcolumn =>
          hcolumns _ (List.mem_map_of_mem hcolumn)⟩⟩
      · rintro ⟨_, hnames⟩
        obtain ⟨hdatabase, htable, hcolumns⟩ := hnames.resolve_left herror
        refine ⟨hdatabase, htable, fun column hcolumn => ?_, List.length_map ..⟩
        obtain ⟨pair, hpair, rfl⟩ := List.mem_map.mp hcolumn
        exact hcolumns pair hpair
  · have hthrew : ∃ column ∈ tableHandler.columns.zipIdx, isNullBinary object column = true := by
      by_contra hall
      exact hnull fun column hcolumn => Bool.eq_false_iff.mpr fun h => hall ⟨column, hcolumn, h⟩
    rw [buildInsert_threw hthrew]
    exact iff_of_false not_false fun h => hnull h.1

theorem matches_save_iff {mysql : Metadata} (hkept : mysql.Kept tableHandler)
    (object : DomainObject ν) :
    Matches reserved (Request.save object : Request tableHandler ν)
        (buildWriteOperation tableHandler mysql object).1 ↔
      (Request.save object : Request tableHandler ν).Writable reserved := by
  unfold buildWriteOperation
  by_cases hnull : ∀ column ∈ tableHandler.columns.zipIdx, isNullBinary object column = false
  · by_cases herror : ∃ column ∈ tableHandler.columns.zipIdx, isError object column = true
    · obtain ⟨columnName, hbuilt⟩ := @buildInsert_error ν tableHandler mysql object
        mysql.duplicateSQL (getDuplicateSQL tableHandler mysql) hnull herror
      rw [hbuilt]
      exact iff_of_true herror ⟨hnull, .inl herror⟩
    · have hclean : ∀ column ∈ tableHandler.columns.zipIdx, isError object column = false :=
        fun column hcolumn => Bool.eq_false_iff.mpr fun h => herror ⟨column, hcolumn, h⟩
      rw [@buildInsert_statement ν tableHandler mysql object mysql.duplicateSQL
        (getDuplicateSQL tableHandler mysql) Prod.snd hnull hclean hkept.duplicateSQL fun key =>
          (hkept.getDuplicateSQL key).1]
      refine (@matches_statement_iff ν reserved tableHandler (.save object) _
        lex_statement_save).trans ?_
      constructor
      · rintro ⟨hdatabase, htable, hcolumns, _, hupdates, _⟩
        obtain ⟨_, hname⟩ := List.exists_mem_of_ne_nil _ hupdates
        obtain ⟨column, hcolumn, _⟩ := List.mem_map.mp hname
        obtain ⟨hdefined, hkey⟩ := List.mem_filter.mp hcolumn
        exact ⟨hnull, .inr ⟨hdatabase, htable,
          fun column hcolumn => hcolumns _ (List.mem_map_of_mem hcolumn),
          column, hdefined, (Bool.not_eq_true' _).mp hkey⟩⟩
      · rintro ⟨_, hnames⟩
        obtain ⟨hdatabase, htable, hcolumns, column, hdefined, hkey⟩ := hnames.resolve_left herror
        refine ⟨hdatabase, htable, fun name hname => ?_, List.length_map .., ?_, fun name hname => ?_⟩
        · obtain ⟨pair, hpair, rfl⟩ := List.mem_map.mp hname
          exact hcolumns pair hpair
        · exact List.ne_nil_of_mem (List.mem_map_of_mem (List.mem_filter.mpr
            ⟨hdefined, (Bool.not_eq_true' _).mpr hkey⟩))
        · obtain ⟨pair, hpair, rfl⟩ := List.mem_map.mp hname
          exact hcolumns pair (List.mem_filter.mp hpair).1
  · have hthrew : ∃ column ∈ tableHandler.columns.zipIdx, isNullBinary object column = true := by
      by_contra hall
      exact hnull fun column hcolumn => Bool.eq_false_iff.mpr fun h => hall ⟨column, hcolumn, h⟩
    rw [buildInsert_threw hthrew]
    exact iff_of_false not_false fun h => hnull h.1

/-- The columns of an UPDATE: with a value, and not in the index. -/
theorem filter_definedColumns (object : DomainObject ν) (mask : List ℕ) :
    ((definedColumns tableHandler object).filter fun (_, i) => i ∉ mask) =
      tableHandler.columns.zipIdx.filter fun (_, i) => (object i).isSome && i ∉ mask := by
  unfold definedColumns
  rw [List.filter_filter]
  exact List.filter_congr fun _ _ => Bool.and_comm ..

theorem buildUpdateOperation_eq (index : DBIndexHandler tableHandler)
    (keys : List (Option (ColumnValue ν)))
    (hlength : keys.length = index.indexColumnNumbers.length) (object : DomainObject ν) :
    buildUpdateOperation tableHandler index keys object = .statement
      ("UPDATE ".toList ++ tableHandler.database ++ ".".toList ++ tableHandler.name ++
        " SET ".toList ++ separatedFrom [] ", ".toList
          ((((definedColumns tableHandler object).filter fun (_, i) =>
            i ∉ index.indexColumnNumbers.map Fin.val).map fun (column, _) => column.name).map
              (· ++ " = ?".toList)) ++
        updateWhereSQL (index.indexColumnNumbers.map fun i => (tableHandler.columns.get i).name) []
          " WHERE ".toList)
      (Request.update index keys hlength object).values := by
  have hvalues : (Request.update index keys hlength object).values =
      (tableHandler.columns.zipIdx.filter fun (_, i) =>
        (object i).isSome && i ∉ index.indexColumnNumbers.map Fin.val).map
          (fun (_, i) => object i) ++ keys :=
    congrArg (List.map _ · ++ keys) (filter_definedColumns object _)
  unfold buildUpdateOperation
  rw [hvalues, filter_definedColumns, List.map_map]
  dsimp only
  rw [updateSetSQL_eq]
  rfl

theorem matches_update_iff (index : DBIndexHandler tableHandler)
    (keys : List (Option (ColumnValue ν)))
    (hlength : keys.length = index.indexColumnNumbers.length) (object : DomainObject ν) :
    Matches reserved (Request.update index keys hlength object)
        (buildUpdateOperation tableHandler index keys object) ↔
      (Request.update index keys hlength object).Writable reserved := by
  rw [buildUpdateOperation_eq index keys hlength object]
  refine (matches_statement_iff fun hvalid => ?_).trans ?_
  · obtain ⟨hdatabase, htable, _, hassignments, _, hconditions⟩ := hvalid
    have hwhere := lex_whereText hconditions
    rw [updateWhereSQL_eq] at hwhere ⊢
    exact lex_updateText hdatabase htable hassignments hwhere
  · constructor
    · rintro ⟨hdatabase, htable, hne, hassignments, _, hconditions⟩
      refine ⟨hdatabase, htable, fun i hi => ?_, fun column hcolumn hout => ?_, ?_⟩
      · exact hconditions _ (List.mem_map_of_mem hi)
      · exact hassignments _ (List.mem_map_of_mem (List.mem_filter.mpr
          ⟨hcolumn, decide_eq_true hout⟩))
      · obtain ⟨_, hname⟩ := List.exists_mem_of_ne_nil _ hne
        obtain ⟨column, hcolumn, _⟩ := List.mem_map.mp hname
        obtain ⟨hdefined, hout⟩ := List.mem_filter.mp hcolumn
        exact ⟨column, hdefined, of_decide_eq_true hout⟩
    · rintro ⟨hdatabase, htable, hkeys, hcolumns, column, hdefined, hout⟩
      refine ⟨hdatabase, htable, ?_, fun name hname => ?_, ?_, fun name hname => ?_⟩
      · exact List.ne_nil_of_mem (List.mem_map_of_mem (List.mem_filter.mpr
          ⟨hdefined, decide_eq_true hout⟩))
      · obtain ⟨pair, hpair, rfl⟩ := List.mem_map.mp hname
        obtain ⟨hdefined, hout⟩ := List.mem_filter.mp hpair
        exact hcolumns pair hdefined (of_decide_eq_true hout)
      · exact fun hnil => index.ne_nil (List.map_eq_nil_iff.mp hnil)
      · obtain ⟨i, hi, rfl⟩ := List.mem_map.mp hname
        exact hkeys i hi

end

end DatabaseJones.MySQLConnection
