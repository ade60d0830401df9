import DatabaseJones.TableCreation.Reading

/-!
# The table that a mapping creates

The statement of a mapping creates the table that the mapping states exactly if nothing is
lost on the way.  For a column this means, beyond a meta that is no literal and a default
that counts as true:

* `BINARY` has neither `lob` nor null values, as `isLob` comes in the place of `isNullable`,
* `DATETIME` has a precision, `TIMESTAMP` has none, and `TIME` is never written,
* an integer of less than 8 bits has one bit, no sign and no generation,
* a generated time has no default, a key is not unique as well, and there is no hash.

An index has columns, a meta of its own in the array of the table, and a unique one gets
`isUnique` from a method, as the factory function sets another property.  Every field has
its column, so that all fields have to be stored.
-/

namespace DatabaseJones.TableCreation

open Library Library.QuotedAlphabet

/-! ## Conditions -/

/-- The kinds whose type is written as it is stated. -/
def ColumnKind.KeepsType (stated : Meta) : ColumnKind → Prop
  | .binary _ => stated.isLob = false
  | .datetime fsp => fsp ≠ none
  | .integer bits => 8 ≤ bits.getD 32 ∨ bits = some 1
  | .time _ => False
  | .timestamp fsp => fsp = none ∨ fsp = some 0
  | _ => True

/-- The properties that kinds have of their own. -/
def ColumnKind.KeepsProperties (stated : Meta) : ColumnKind → Prop
  | .binary _ => stated.isNullable = false
  | .integer bits =>
      8 ≤ bits.getD 32 ∨ (stated.isUnsigned = false ∧ stated.isGenerated = false)
  | .datetime _ => stated.isGenerated = true → stated.defaultVal = none
  | .timestamp _ => stated.isGenerated = true → stated.defaultVal = none
  | _ => True

/-- A column's meta of which nothing is lost. -/
structure Built.IsKept (built : Built ColumnKind) : Prop where
  object : built.isLiteral = false
  type : built.kind.KeepsType built.stated
  properties : built.kind.KeepsProperties built.stated
  default : ∀ val ∈ built.stated.defaultVal, val.isTruthy = true
  keys : ¬(built.stated.isUnique = true ∧ built.stated.isPrimaryKey = true)
  hash : built.stated.isHash = false

/-- A table's meta of which nothing is lost. -/
structure Built.IsKeptIndex (built : Built IndexFactory) : Prop where
  object : built.isLiteral = false
  unique : built.kind.kind = .uniqueIndex →
    built.statedIndex.isPrimaryKey = true ∨ built.statedIndex.isUnique = true
  columns : built.kind.columns ≠ []

/-- A mapping of which nothing is lost. -/
structure TableMapping.IsKept (tableMapping : TableMapping) : Prop where
  stored : ∀ field ∈ tableMapping.fields, field.persistent = true ∧ field.relationship = false
  metas : ∀ field ∈ tableMapping.defined, ∃ built ∈ field.fieldMeta, built.IsKept
  indexes : ∀ built ∈ tableMapping.tableMetas, built.IsKeptIndex
  array : tableMapping.isArray = true ∨ tableMapping.tableMetas = []
  delimiters : tableMapping.defined ≠ [] ∨ tableMapping.tableMetas.length = 1
  distinct : (tableMapping.defined.map Field.column).Nodup

/-! ## Columns -/

theorem integerType_keyword_eq_iff (bits : Option ℕ) :
    (⟨(integerType (bits.getD 32)).keyword, []⟩ : ColumnType) = integerType (bits.getD 32) ↔
      8 ≤ bits.getD 32 ∨ bits = some 1 := by
  by_cases hbit : bits.getD 32 < 8
  · have hsome : ∃ value, bits = some value := by
      cases bits with
      | none => exact absurd hbit (by decide)
      | some value => exact ⟨value, rfl⟩
    obtain ⟨value, rfl⟩ := hsome
    have hlt : value < 8 := hbit
    have hnot : ¬8 ≤ value := by omega
    by_cases hone : value = 1
    · simp [integerType, hone]
    · simp [integerType, hlt, hone, hnot]
  · have hle : 8 ≤ bits.getD 32 := by omega
    refine iff_of_true ?_ (Or.inl hle)
    unfold integerType
    rw [if_neg hbit]
    split_ifs <;> rfl

theorem writtenType_eq_iff (stated : Meta) (kind : ColumnKind) :
    kind.writtenType stated = statedType stated kind ↔ kind.KeepsType stated := by
  unfold ColumnKind.writtenType statedType ColumnKind.KeepsType
  cases kind with
  | binary length => cases stated.isLob <;> simp
  | datetime fsp => cases fsp <;> simp [argumentText]
  | integer bits => exact integerType_keyword_eq_iff bits
  | time fsp => simp
  | timestamp fsp =>
      cases fsp with
      | none => simp
      | some value => by_cases hzero : value = 0 <;> simp [hzero]
  | _ => simp

theorem writtenDefault_eq_iff (stated : Meta) :
    stated.writtenDefault = stated.defaultVal.map DefaultValue.toText ↔
      ∀ val ∈ stated.defaultVal, val.isTruthy = true := by
  unfold Meta.writtenDefault
  cases stated.defaultVal with
  | none => simp
  | some val => by_cases htruthy : val.isTruthy = true <;> simp [htruthy]

theorem writtenDefault_of_truthy {stated : Meta}
    (h : ∀ val ∈ stated.defaultVal, val.isTruthy = true) :
    stated.writtenDefault.isNone = stated.defaultVal.isNone := by
  rw [(writtenDefault_eq_iff stated).mpr h, Option.isNone_map]

/-- The sign, the nullability and the generation, for a kind whose type is kept. -/
theorem properties_eq_iff {stated : Meta} {kind : ColumnKind} (htype : kind.KeepsType stated)
    (hdefault : ∀ val ∈ stated.defaultVal, val.isTruthy = true) :
    ((kind.isInteger && stated.isUnsigned) = (kind.isSigned && stated.isUnsigned) ∧
      kind.writtenNullable stated = stated.isNullable ∧
      (kind.isSigned && stated.isGenerated ||
          kind.hasCurrentTimestamp && stated.isGenerated && stated.writtenDefault.isNone) =
        (kind.isGeneratable && stated.isGenerated)) ↔
      kind.KeepsProperties stated := by
  rw [writtenDefault_of_truthy hdefault]
  cases kind with
  | binary length =>
      have hlob : stated.isLob = false := htype
      simp [ColumnKind.isInteger, ColumnKind.isSigned, ColumnKind.writtenNullable, hlob,
        ColumnKind.hasCurrentTimestamp, ColumnKind.isGeneratable, ColumnKind.KeepsProperties]
  | integer bits =>
      by_cases hbits : 8 ≤ bits.getD 32
      · simp [ColumnKind.isInteger, ColumnKind.isSigned, ColumnKind.writtenNullable, hbits,
          ColumnKind.hasCurrentTimestamp, ColumnKind.isGeneratable, ColumnKind.KeepsProperties]
      · simp [ColumnKind.isInteger, ColumnKind.isSigned, ColumnKind.writtenNullable, hbits,
          ColumnKind.hasCurrentTimestamp, ColumnKind.isGeneratable, ColumnKind.KeepsProperties]
  | datetime fsp =>
      cases hgenerated : stated.isGenerated <;>
        simp [ColumnKind.isInteger, ColumnKind.isSigned, ColumnKind.writtenNullable, hgenerated,
          ColumnKind.hasCurrentTimestamp, ColumnKind.isGeneratable, ColumnKind.KeepsProperties]
  | timestamp fsp =>
      cases hgenerated : stated.isGenerated <;>
        simp [ColumnKind.isInteger, ColumnKind.isSigned, ColumnKind.writtenNullable, hgenerated,
          ColumnKind.hasCurrentTimestamp, ColumnKind.isGeneratable, ColumnKind.KeepsProperties]
  | time fsp => exact absurd htype id
  | _ =>
      simp [ColumnKind.isInteger, ColumnKind.isSigned, ColumnKind.writtenNullable,
        ColumnKind.hasCurrentTimestamp, ColumnKind.isGeneratable, ColumnKind.KeepsProperties]

/-- The column that is written is the one that is stated if nothing is lost. -/
theorem written_eq_column_iff {built : Built ColumnKind} (hobject : built.isLiteral = false)
    (name : List Char) : built.written name = built.column name ↔ built.IsKept := by
  have hunique := built.hasIndex_eq_isUnique
  have hkeys : (!built.stated.hasIndex && built.stated.isPrimaryKey) = built.stated.isPrimaryKey ↔
      ¬(built.stated.isUnique = true ∧ built.stated.isPrimaryKey = true) := by
    rw [hunique]
    cases built.stated.isUnique <;> cases built.stated.isPrimaryKey <;> simp
  have hparts : built.written name = built.column name ↔
      built.kind.writtenType built.stated = statedType built.stated built.kind ∧
      built.stated.writtenDefault = built.stated.defaultVal.map DefaultValue.toText ∧
      ((built.kind.isInteger && built.stated.isUnsigned) =
          (built.kind.isSigned && built.stated.isUnsigned) ∧
        built.kind.writtenNullable built.stated = built.stated.isNullable ∧
        (built.kind.isSigned && built.stated.isGenerated ||
            built.kind.hasCurrentTimestamp && built.stated.isGenerated &&
              built.stated.writtenDefault.isNone) =
          (built.kind.isGeneratable && built.stated.isGenerated)) ∧
      (!built.stated.hasIndex && built.stated.isPrimaryKey) = built.stated.isPrimaryKey ∧
      built.stated.isHash = false := by
    unfold Built.written Built.column Attributes.define
    simp only [ColumnDefinition.mk.injEq, ColumnKind.writtenAttributes, Bool.not_not, true_and,
      hunique]
    constructor
    · rintro ⟨htype, hunsigned, hnullable, hgenerated, hdefault, hprimary, hhash⟩
      exact ⟨htype, hdefault, ⟨hunsigned, hnullable, hgenerated⟩, hprimary, hhash.symm⟩
    · rintro ⟨htype, hdefault, ⟨hunsigned, hnullable, hgenerated⟩, hprimary, hhash⟩
      exact ⟨htype, hunsigned, hnullable, hgenerated, hdefault, hprimary, hhash.symm⟩
  rw [hparts, writtenType_eq_iff, writtenDefault_eq_iff, hkeys]
  constructor
  · rintro ⟨htype, hdefault, hproperties, hkeys, hhash⟩
    exact ⟨hobject, htype, (properties_eq_iff htype hdefault).mp hproperties, hdefault, hkeys, hhash⟩
  · intro h
    exact ⟨h.type, h.default, (properties_eq_iff h.type h.default).mpr h.properties, h.keys, h.hash⟩

/-! ## Indexes -/

theorem writtenIndex_eq_iff {built : Built IndexFactory} (hobject : built.isLiteral = false) :
    (built.statedIndex.writtenIndex = built.index ∧ built.kind.columns ≠ []) ↔
      built.IsKeptIndex := by
  have hunique : built.statedIndex.writtenIndex = built.index ↔
      (built.kind.kind = .uniqueIndex →
        built.statedIndex.isPrimaryKey = true ∨ built.statedIndex.isUnique = true) := by
    unfold Meta.writtenIndex Built.index
    cases hprimary : built.statedIndex.isPrimaryKey with
    | true => simp
    | false => cases hset : built.statedIndex.isUnique <;>
        by_cases hkind : built.kind.kind = .uniqueIndex <;> simp [hkind]
  rw [hunique]
  constructor
  · rintro ⟨hunique, hcolumns⟩
    exact ⟨hobject, hunique, hcolumns⟩
  · intro h
    exact ⟨h.unique, h.columns⟩

/-! ## The table -/

theorem mapM_eq_some_iff {α β : Type} {f : α → Option β} {items : List α} {read : List β} :
    items.mapM f = some read ↔ items.map f = read.map some := by
  induction items generalizing read with
  | nil => cases read <;> simp
  | cons item items ih =>
      simp only [List.mapM_cons, Option.bind_eq_bind, Option.bind_eq_some_iff, Option.pure_def,
        Option.some_inj, List.map_cons]
      constructor
      · rintro ⟨value, hvalue, values, hvalues, rfl⟩
        rw [hvalue, ih.mp hvalues, List.map_cons]
      · intro h
        cases read with
        | nil => exact absurd h (by simp)
        | cons value values =>
            obtain ⟨hvalue, hvalues⟩ := List.cons.inj h
            exact ⟨value, hvalue, values, ih.mpr hvalues, rfl⟩

theorem mapM_option_map {α β γ : Type} {f : α → Option γ} {g : α → Option β} {k : β → γ}
    {items : List α} (h : ∀ item ∈ items, f item = (g item).map k) :
    items.mapM f = (items.mapM g).map (List.map k) := by
  induction items with
  | nil => rfl
  | cons item items ih =>
      rw [List.mapM_cons, List.mapM_cons, h item List.mem_cons_self,
        ih fun other hother => h other (List.mem_cons_of_mem _ hother)]
      cases g item with
      | none => rfl
      | some value => cases items.mapM g <;> rfl

/-- What stands between the commas; without columns there are none. -/
def TableMapping.elements (tableMapping : TableMapping) : List Tokens :=
  if tableMapping.defined = [] then [tableMapping.indexes.flatMap indexTokens]
  else tableMapping.defined.map Field.tokens ++ tableMapping.indexes.map indexTokens

/-- Only metas that are no literals are indexes. -/
theorem mem_indexes {tableMapping : TableMapping} {tableMeta : Meta}
    (h : tableMeta ∈ tableMapping.indexes) :
    ∃ built ∈ tableMapping.tableMetas, built.isLiteral = false ∧ tableMeta = built.statedIndex := by
  unfold TableMapping.indexes at h
  split at h
  · obtain ⟨hmem, hindex⟩ := List.mem_filter.mp h
    obtain ⟨built, hbuilt, rfl⟩ := List.mem_map.mp hmem
    cases hliteral : built.isLiteral with
    | false =>
        exact ⟨built, hbuilt, hliteral, by simp [Built.indexObject, hliteral]⟩
    | true =>
        rw [Built.indexObject, hliteral, if_pos rfl] at hindex
        exact absurd hindex Bool.false_ne_true
  · exact absurd h List.not_mem_nil

theorem TableMapping.Plain.index {tableMapping : TableMapping} (h : tableMapping.Plain)
    {tableMeta : Meta} (hmem : tableMeta ∈ tableMapping.indexes) : tableMeta.PlainIndex := by
  obtain ⟨built, hbuilt, -, rfl⟩ := mem_indexes hmem
  exact h.indexes built hbuilt

theorem isPiece_flatMap {α : Type} (text : α → List Char) (read : α → Tokens) (items : List α)
    (h : ∀ item ∈ items, sql.IsPiece (text item) (read item)) :
    sql.IsPiece (items.flatMap text) (items.flatMap read) := by
  induction items with
  | nil => exact isPiece_nil
  | cons item items ih =>
      exact (h item List.mem_cons_self).append
        (ih fun other hother => h other (List.mem_cons_of_mem _ hother))

/-- The elements of a statement as a text. -/
theorem isChunk_elements {tableMapping : TableMapping} (hplain : tableMapping.Plain)
    {definitions : List (List Char)}
    (hdefinitions : tableMapping.defined.mapM fieldDefinition = some definitions) :
    sql.IsChunk (delimited [] definitions ++ tableMapping.indexes.flatMap fun tableMeta =>
        (if definitions = [] then [] else ", ".toList) ++ indexDefinition tableMeta)
      (elementTokens tableMapping.elements) := by
  have hmap := mapM_eq_some_iff.mp hdefinitions
  have hindexes : ∀ tableMeta ∈ tableMapping.indexes,
      sql.IsPiece (indexDefinition tableMeta) (indexTokens tableMeta) :=
    fun tableMeta hmem => isChunk_indexDefinition (hplain.index hmem)
  unfold TableMapping.elements
  cases hdefined : tableMapping.defined with
  | nil =>
      rw [hdefined] at hmap
      obtain rfl : definitions = [] := List.map_eq_nil_iff.mp hmap.symm
      exact (isPiece_flatMap _ _ _ hindexes).chunk
  | cons field fields =>
      rw [hdefined] at hmap
      cases definitions with
      | nil => exact absurd hmap (by simp)
      | cons text texts =>
          obtain ⟨htext, htexts⟩ := List.cons.inj hmap
          have hplainField : ∀ other ∈ field :: fields, other.Plain := by
            rw [← hdefined]
            exact hplain.fields
          have hfirst := isChunk_fieldDefinition (hplainField field List.mem_cons_self) htext
          have hfields : sql.IsPiece (delimited ", ".toList texts)
              (fields.flatMap fun other => .symbol ',' :: other.tokens) :=
            isPiece_delimited htexts fun other hother _ =>
              isChunk_fieldDefinition (hplainField other (List.mem_cons_of_mem _ hother))
          have hothers := isPiece_flatMap _ _ _ fun tableMeta hmem =>
            isPiece_delimiter (hindexes tableMeta hmem).chunk
          have happend := hfirst.append_isPiece (hfields.append hothers)
          rw [if_neg (by simp), if_neg (by simp), List.map_cons, List.cons_append, elementTokens_cons,
            List.flatMap_append, List.flatMap_map, List.flatMap_map]
          simpa [delimited] using happend

/-- The statement of a plain mapping is read element by element. -/
theorem createdTable_eq {tableMapping : TableMapping} {engine : Option (List Char)}
    {text : List Char} (hplain : tableMapping.Plain) (hengine : ∀ name ∈ engine, IsWord name)
    (htext : getSqlForTableCreation tableMapping engine = some text) :
    createdTable text = (tableMapping.elements.mapM readElement).map fun read =>
      { database := tableMapping.database
        table := tableMapping.table
        columns := read.filterMap Sum.getLeft?
        indexes := read.filterMap Sum.getRight?
        engine } := by
  obtain ⟨definitions, hdefinitions, rfl⟩ := Option.map_eq_some_iff.mp htext
  have htokens := tokens_statement hplain.database hplain.table
    (isChunk_elements hplain hdefinitions) hengine
  have hbalanced : ∀ element ∈ tableMapping.elements, Balanced element := by
    intro element helement
    unfold TableMapping.elements at helement
    split at helement
    · rw [List.mem_singleton.mp helement]
      exact balanced_flatMap _ fun tableMeta _ => balanced_index tableMeta
    · obtain h | h := List.mem_append.mp helement
      · obtain ⟨field, -, rfl⟩ := List.mem_map.mp h
        exact balanced_field field
      · obtain ⟨tableMeta, -, rfl⟩ := List.mem_map.mp h
        exact balanced_index tableMeta
  have hne : tableMapping.elements ≠ [] := by
    unfold TableMapping.elements
    split
    · exact List.cons_ne_nil _ _
    · next hdefined => simp [hdefined]
  obtain ⟨element, elements, helements⟩ := List.exists_cons_of_ne_nil hne
  rw [helements] at htokens hbalanced ⊢
  rw [← readTable_statementTokens _ _ _ _ _ hbalanced]
  unfold createdTable
  simp only [List.append_assoc] at htokens ⊢
  rw [htokens]
  rfl

/-- The column that is written for a field. -/
def Field.writtenColumn (field : Field) : Option ColumnDefinition :=
  field.fieldMeta.map fun built => built.written field.column

/-- The index that is written for a meta, which needs columns. -/
def Meta.readIndex (tableMeta : Meta) : Option IndexDefinition :=
  if tableMeta.columns ≠ [] then some tableMeta.writtenIndex else none

theorem indexTokens_ne_nil (tableMeta : Meta) : indexTokens tableMeta ≠ [] := by
  simp [indexTokens, listTokens]

theorem readElement_indexTokens {tableMeta : Meta} (h : tableMeta.PlainIndex) :
    readElement (indexTokens tableMeta) = tableMeta.readIndex.map .inr := by
  have hread := readElement_index h []
  rw [List.append_nil] at hread
  rw [hread]
  unfold Meta.readIndex
  by_cases hcolumns : tableMeta.columns = [] <;> simp [hcolumns]

/-- Without columns, two indexes are not told apart, and no index is no element. -/
theorem readElement_flatMap {tableMetas : List Meta} (h : ∀ tableMeta ∈ tableMetas, tableMeta.PlainIndex) :
    readElement (tableMetas.flatMap indexTokens) =
      if tableMetas.length = 1 then (tableMetas.mapM Meta.readIndex).bind fun read =>
        read.head?.map .inr
      else none := by
  cases tableMetas with
  | nil => rfl
  | cons tableMeta tableMetas =>
      have hplain := h tableMeta List.mem_cons_self
      cases tableMetas with
      | nil =>
          change readElement (indexTokens tableMeta ++ []) = _
          rw [List.append_nil, readElement_indexTokens hplain]
          cases hread : tableMeta.readIndex <;> simp [hread]
      | cons other tableMetas =>
          rw [if_neg (by simp), List.flatMap_cons, readElement_index hplain, if_neg]
          rintro ⟨-, hmore⟩
          exact indexTokens_ne_nil other (List.append_eq_nil_iff.mp hmore).1

/-- What is read of a statement, in the words of the mapping. -/
theorem createdTable_eq_some_iff {tableMapping : TableMapping} {engine : Option (List Char)}
    {text : List Char} (hplain : tableMapping.Plain) (hengine : ∀ name ∈ engine, IsWord name)
    (htext : getSqlForTableCreation tableMapping engine = some text) (columns : List ColumnDefinition)
    (indexes : List IndexDefinition) :
    createdTable text =
        some ⟨tableMapping.database, tableMapping.table, columns, indexes, engine⟩ ↔
      tableMapping.defined.mapM Field.writtenColumn = some columns ∧
        tableMapping.indexes.mapM Meta.readIndex = some indexes ∧
        (tableMapping.defined ≠ [] ∨ tableMapping.indexes.length = 1) := by
  have hfields : ∀ field ∈ tableMapping.defined,
      (readElement ∘ Field.tokens) field = field.writtenColumn.map .inl :=
    fun field hfield => readElement_field (hplain.fields field hfield)
  have hindexes : ∀ tableMeta ∈ tableMapping.indexes,
      (readElement ∘ indexTokens) tableMeta = tableMeta.readIndex.map .inr :=
    fun tableMeta hmem => readElement_indexTokens (hplain.index hmem)
  rw [createdTable_eq hplain hengine htext]
  unfold TableMapping.elements
  by_cases hdefined : tableMapping.defined = []
  · have hflat := readElement_flatMap fun tableMeta hmem => hplain.index hmem
    simp only [hdefined, if_true, List.mapM_cons, List.mapM_nil, hflat]
    by_cases hlength : tableMapping.indexes.length = 1
    · obtain ⟨tableMeta, htableMeta⟩ := List.length_eq_one_iff.mp hlength
      rw [htableMeta]
      cases hread : tableMeta.readIndex with
      | none => simp [hread]
      | some definition =>
          simp only [List.mapM_cons, List.mapM_nil, hread]
          change some (TableDefinition.mk _ _ [] [definition] _) = some _ ↔
            some [] = some columns ∧ some [definition] = some indexes ∧ _
          simp
    · simp [hlength]
  · rw [if_neg hdefined, List.mapM_append, List.mapM_map, List.mapM_map, mapM_option_map hfields,
      mapM_option_map hindexes]
    cases hcolumns : tableMapping.defined.mapM Field.writtenColumn with
    | none => simp
    | some read =>
        cases hread : tableMapping.indexes.mapM Meta.readIndex with
        | none => simp
        | some readIndexes =>
            simp [hdefined, List.filterMap_append, List.filterMap_map, Function.comp_def]

/-! ## What is lost -/

/-- A field whose statement has the column that the field states. -/
theorem field_isKept_iff (field : Field) :
    ((∃ text, fieldDefinition field = some text) ∧
        field.writtenColumn = some field.definition) ↔
      ∃ built ∈ field.fieldMeta, built.IsKept := by
  unfold Field.writtenColumn Field.definition
  cases hmeta : field.fieldMeta with
  | none => simp
  | some built =>
      cases hliteral : built.isLiteral with
      | true =>
          rw [fieldDefinition_of_literal hmeta hliteral]
          have hlost : ¬built.IsKept := fun h => absurd (h.object.symm.trans hliteral) (by decide)
          simp [hlost]
      | false =>
          rw [fieldDefinition_of_meta hmeta hliteral]
          simp [written_eq_column_iff hliteral]

/-- Every field is stored if as many columns are stored as are written. -/
theorem stored_of_length {tableMapping : TableMapping}
    (h : tableMapping.stored.length = tableMapping.defined.length) :
    ∀ field ∈ tableMapping.fields, field.persistent = true ∧ field.relationship = false := by
  unfold TableMapping.stored TableMapping.defined at h
  rw [List.length_append, List.length_append, Nat.add_right_cancel_iff,
    List.length_filter_eq_length_iff] at h
  intro field hfield
  simpa using h field hfield

theorem stored_eq_defined {tableMapping : TableMapping}
    (h : ∀ field ∈ tableMapping.fields, field.persistent = true ∧ field.relationship = false) :
    tableMapping.stored = tableMapping.defined := by
  unfold TableMapping.stored TableMapping.defined
  rw [List.filter_eq_self.mpr]
  intro field hfield
  simpa using h field hfield

/-- As many indexes are written as are stated if there is an array without literals. -/
theorem indexes_of_length {tableMapping : TableMapping}
    (h : tableMapping.indexes.length = tableMapping.tableMetas.length) :
    (tableMapping.isArray = true ∨ tableMapping.tableMetas = []) ∧
      ∀ built ∈ tableMapping.tableMetas, built.isLiteral = false := by
  unfold TableMapping.indexes at h
  split at h
  · next harray =>
      refine ⟨Or.inl harray, fun built hbuilt => ?_⟩
      rw [← List.length_map Built.indexObject, List.length_filter_eq_length_iff] at h
      have hindex := h built.indexObject (List.mem_map_of_mem hbuilt)
      by_contra hliteral
      rw [Built.indexObject, if_pos (by simpa using hliteral)] at hindex
      exact absurd hindex Bool.false_ne_true
  · have hnone : tableMapping.tableMetas = [] := List.length_eq_zero_iff.mp h.symm
    exact ⟨Or.inr hnone, by simp [hnone]⟩

theorem indexes_eq {tableMapping : TableMapping}
    (harray : tableMapping.isArray = true ∨ tableMapping.tableMetas = [])
    (hobject : ∀ built ∈ tableMapping.tableMetas, built.isLiteral = false) :
    tableMapping.indexes = tableMapping.tableMetas.map Built.statedIndex := by
  have hobjects : tableMapping.tableMetas.map Built.indexObject =
      tableMapping.tableMetas.map Built.statedIndex := by
    apply List.map_congr_left
    intro built hbuilt
    rw [Built.indexObject, if_neg (by simp [hobject built hbuilt])]
  unfold TableMapping.indexes
  rw [hobjects]
  obtain harray | hnone := harray
  · rw [if_pos harray, List.filter_eq_self.mpr]
    intro tableMeta hmem
    obtain ⟨built, -, rfl⟩ := List.mem_map.mp hmem
    exact built.statedIndex_isIndex
  · simp [hnone]

theorem exists_sql_iff (tableMapping : TableMapping) (engine : Option (List Char)) :
    (∃ text, getSqlForTableCreation tableMapping engine = some text) ↔
      ∀ field ∈ tableMapping.defined, ∃ text, fieldDefinition field = some text := by
  unfold getSqlForTableCreation
  constructor
  · rintro ⟨text, htext⟩ field hfield
    obtain ⟨definitions, hdefinitions, -⟩ := Option.map_eq_some_iff.mp htext
    have hmem : fieldDefinition field ∈ tableMapping.defined.map fieldDefinition :=
      List.mem_map_of_mem hfield
    rw [mapM_eq_some_iff.mp hdefinitions] at hmem
    obtain ⟨definition, -, hdefinition⟩ := List.mem_map.mp hmem
    exact ⟨definition, hdefinition.symm⟩
  · intro h
    choose! written hwritten using h
    have hdefinitions : tableMapping.defined.mapM fieldDefinition =
        some (tableMapping.defined.map written) := by
      rw [mapM_eq_some_iff, List.map_map]
      exact List.map_congr_left hwritten
    exact ⟨_, by rw [hdefinitions]; rfl⟩

theorem index_isKept_iff {built : Built IndexFactory} (hobject : built.isLiteral = false) :
    built.statedIndex.readIndex = some built.index ↔ built.IsKeptIndex := by
  rw [← writtenIndex_eq_iff hobject]
  unfold Meta.readIndex
  rw [built.statedIndex_columns]
  by_cases hcolumns : built.kind.columns = [] <;> simp [hcolumns]

/-- `meta.int(64).unsigned().primaryKey()` and `meta.varchar(20).lob().charset('latin1')`, with
a unique index. -/
def personMapping : TableMapping where
  database := "test".toList
  table := "person".toList
  fields :=
    [⟨"id".toList, [], true, false,
        some ⟨.integer (some 64), [.unsigned, .primaryKey], false⟩⟩,
      ⟨"name".toList, "full_name".toList, true, false,
        some ⟨.varchar 20, [.lob, .charset "latin1".toList []], false⟩⟩]
  sparseContainer := none
  tableMetas := [⟨⟨.uniqueIndex, ["full_name".toList, "id".toList], "by_name".toList⟩,
    [.uniqueKey], false⟩]
  isArray := true

theorem plain_personMapping : personMapping.Plain where
  database := isWord_of_all rfl
  table := isWord_of_all rfl
  fields := by
    intro field hfield
    obtain rfl | rfl : _ ∨ _ := by simpa [personMapping, TableMapping.defined] using hfield
    · exact ⟨⟨isWord_of_all rfl, by decide⟩, by simp, fun built hbuilt => by
        obtain rfl := Option.some.inj hbuilt
        exact ⟨nofun, nofun, nofun⟩⟩
    · refine ⟨⟨isWord_of_all rfl, by decide⟩, by simp, fun built hbuilt => ?_⟩
      obtain rfl := Option.some.inj hbuilt
      refine ⟨fun text htext => ?_, nofun, nofun⟩
      obtain rfl := Option.some.inj htext
      exact isWord_of_all rfl
  indexes := by
    intro built hbuilt
    obtain rfl := List.mem_singleton.mp hbuilt
    refine ⟨Or.inr ⟨isWord_of_all rfl, by decide⟩, fun column hcolumn => ?_⟩
    obtain rfl | hcolumn := List.mem_cons.mp hcolumn
    · exact isWord_of_all rfl
    · obtain rfl := List.mem_singleton.mp hcolumn
      exact isWord_of_all rfl

/-- A column of `meta.binary(4)`, which can be null. -/
def nullableBinary : TableMapping where
  database := "test".toList
  table := "t".toList
  fields := [⟨"data".toList, [], true, false, some ⟨.binary 4, [], false⟩⟩]
  sparseContainer := none
  tableMetas := []
  isArray := true

end DatabaseJones.TableCreation
