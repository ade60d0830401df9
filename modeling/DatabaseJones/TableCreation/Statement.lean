import DatabaseJones.TableCreation.Written

/-!
# The words of the statement

The statement of a mapping with plain names is read as `CREATE TABLE`, the names of the
database and of the table, the tokens of each column and of each index with commas between
them, and the engine.  The commas before indexes are missing if there is no column.
-/

namespace DatabaseJones.TableCreation

open Library Library.QuotedAlphabet

/-! ## Plain mappings -/

/-- The words that the grammar uses where a name could be. -/
def grammarWords : List (List Char) := ["PRIMARY", "UNIQUE", "INDEX", "USING"].map String.toList

/-- A name that can be written without quotes. -/
def IsName (text : List Char) : Prop := IsWord text ∧ text ∉ grammarWords

structure Built.Plain (built : Built ColumnKind) : Prop where
  characterset : ∀ text ∈ built.stated.characterset, IsWord text
  collate : ∀ text ∈ built.stated.collate, IsWord text
  default : ∀ text, built.stated.defaultVal = some (.text text) → IsQuotable text

structure Field.Plain (field : Field) : Prop where
  column : IsName field.column
  fieldName : field.fieldMeta = none → IsWord field.fieldName
  plainMeta : ∀ built ∈ field.fieldMeta, built.Plain

structure Meta.PlainIndex (tableMeta : Meta) : Prop where
  name : tableMeta.name = [] ∨ IsName tableMeta.name
  columns : ∀ column ∈ tableMeta.columns, IsWord column

/-- A mapping whose names need no quotes and whose default texts have nothing to escape. -/
structure TableMapping.Plain (tableMapping : TableMapping) : Prop where
  database : IsWord tableMapping.database
  table : IsWord tableMapping.table
  fields : ∀ field ∈ tableMapping.defined, field.Plain
  indexes : ∀ built ∈ tableMapping.tableMetas, built.statedIndex.PlainIndex

/-! ## Columns -/

theorem isQuotable_of_all {text : List Char}
    (h : ∀ char ∈ text, char = '-' ∨ char.isDigit = true) : IsQuotable text := by
  refine ⟨fun hquote => ?_, fun hescape => ?_⟩
  · exact absurd (h _ hquote) (by decide)
  · exact absurd (h _ hescape) (by decide)

/-- The text of a number is a sign and digits. -/
theorem isQuotable_number (value : ℤ) : IsQuotable (toString value).toList := by
  apply isQuotable_of_all
  have hdigits : ∀ (n : ℕ), ∀ char ∈ (toString n).toList, char.isDigit = true := by
    intro n char hchar
    have hchar' : char ∈ numberText n := hchar
    rw [numberText_eq] at hchar'
    exact Nat.isDigit_of_mem_toDigits (by norm_num) (by norm_num) hchar'
  intro char hchar
  cases value with
  | ofNat n => exact Or.inr (hdigits n char hchar)
  | negSucc n =>
      have htext : (toString (Int.negSucc n)).toList = '-' :: (toString (n + 1)).toList := by
        change ("-" ++ toString (n + 1)).toList = _
        simp
      rw [htext, List.mem_cons] at hchar
      exact hchar.imp id (hdigits (n + 1) char)

/-- What a plain meta writes names words only. -/
theorem Built.Plain.attributes {built : Built ColumnKind} (h : built.Plain) :
    (built.kind.writtenAttributes built.stated).Plain where
  characterset := by
    intro text htext
    change text ∈ (if _ then built.stated.characterset else none) at htext
    split at htext
    · exact h.characterset text htext
    · exact absurd htext (by simp)
  collate := by
    intro text htext
    change text ∈ (if _ then built.stated.collate else none) at htext
    split at htext
    · exact h.collate text htext
    · exact absurd htext (by simp)
  default := by
    intro text htext
    change text ∈ built.stated.writtenDefault at htext
    unfold Meta.writtenDefault at htext
    obtain ⟨val, hval, rfl⟩ := Option.map_eq_some_iff.mp htext
    obtain ⟨hval, -⟩ := Option.filter_eq_some_iff.mp hval
    cases val with
    | text text => exact h.default text hval
    | number value => exact isQuotable_number value

theorem isWord_integerType (bits : ℕ) : IsWord (integerType bits).keyword := by
  unfold integerType
  split_ifs <;> exact isWord_of_all rfl

theorem isWord_keyword (this : Meta) (kind : ColumnKind) :
    IsWord (kind.writtenType this).keyword := by
  unfold ColumnKind.writtenType
  cases kind with
  | integer bits => exact isWord_integerType _
  | char length => cases this.isLob <;> exact isWord_of_all rfl
  | varbinary length => cases this.isLob <;> exact isWord_of_all rfl
  | varchar length => cases this.isLob <;> exact isWord_of_all rfl
  | _ => exact isWord_of_all rfl

theorem isWord_argument (this : Meta) (kind : ColumnKind) :
    ∀ argument ∈ (kind.writtenType this).arguments, IsWord argument := by
  intro argument hargument
  unfold ColumnKind.writtenType at hargument
  have hnumber : ∀ {value : ℕ}, argument ∈ [numberText value] → IsWord argument := by
    intro value h
    rw [List.mem_singleton.mp h]
    exact isWord_numberText value
  cases kind with
  | binary length => exact hnumber hargument
  | char length => exact hnumber hargument
  | varbinary length => exact hnumber hargument
  | varchar length => exact hnumber hargument
  | datetime fsp =>
      rw [List.mem_singleton.mp hargument]
      exact isWord_argumentText fsp
  | decimal precision scale =>
      obtain h | h := List.mem_cons.mp hargument
      · exact hnumber (List.mem_singleton.mpr h)
      · exact hnumber h
  | _ => exact absurd hargument List.not_mem_nil

/-- The tokens of the column that is written for a field. -/
def Field.tokens (field : Field) : Tokens :=
  match field.fieldMeta with
  | some built =>
      .word field.column :: ((built.kind.writtenType built.stated).tokens ++
        (built.kind.writtenAttributes built.stated).tokens)
  | none =>
      .word field.column ::
        (if field.fieldName = "id".toList then keywords ["id", "INT", "PRIMARY", "KEY"]
          else .word field.fieldName :: keyword "VARCHAR" :: listTokens ["32".toList])

/-- A meta that is no literal writes the type and the attributes of its kind. -/
theorem fieldDefinition_of_meta {field : Field} {built : Built ColumnKind}
    (hmeta : field.fieldMeta = some built) (hliteral : built.isLiteral = false) :
    fieldDefinition field = some (field.column ++ " ".toList ++
      ((built.kind.writtenType built.stated).text ++
        ((built.kind.writtenAttributes built.stated).visitText ++
          (built.kind.writtenAttributes built.stated).appendedText))) := by
  have hobject : built.object = built.stated := by
    simp only [Built.object, hliteral, Bool.false_eq_true, if_false]
  simp only [fieldDefinition, hmeta, hobject, built.stated_doit, Option.map_some]
  rw [visit_text, ← appended_text _ built.kind built.hasIndex_eq_isUnique]
  simp only [List.append_assoc]

/-- A literal has no `doit`. -/
theorem fieldDefinition_of_literal {field : Field} {built : Built ColumnKind}
    (hmeta : field.fieldMeta = some built) (hliteral : built.isLiteral = true) :
    fieldDefinition field = none := by
  simp only [fieldDefinition, hmeta, Built.object, hliteral, if_true]
  rfl

/-- The definition of a plain field is read as the tokens of its column. -/
theorem isChunk_fieldDefinition {field : Field} {text : List Char} (hplain : field.Plain)
    (h : fieldDefinition field = some text) : sql.IsChunk text field.tokens := by
  unfold Field.tokens
  have hcolumn := hplain.column.1
  have hblank : sql.ReadsToGap " ".toList [] := readsToGap_of_feed rfl
  cases hmeta : field.fieldMeta with
  | some built =>
      have hliteral : built.isLiteral = false := by
        by_contra hliteral
        rw [fieldDefinition_of_literal hmeta (by simpa using hliteral)] at h
        exact absurd h (by simp)
      rw [fieldDefinition_of_meta hmeta hliteral, Option.some_inj] at h
      subst h
      exact isChunk_column hcolumn (isWord_keyword _ _) (isWord_argument _ _)
        (hplain.plainMeta built hmeta).attributes
  | none =>
      simp only [fieldDefinition, hmeta, Option.some_inj] at h
      subst h
      have hdefault : sql.IsChunk (defaultFieldMeta field)
          (if field.fieldName = "id".toList then keywords ["id", "INT", "PRIMARY", "KEY"]
            else .word field.fieldName :: keyword "VARCHAR" :: listTokens ["32".toList]) := by
        unfold defaultFieldMeta
        by_cases hid : field.fieldName = "id".toList
        · rw [if_pos hid, if_pos hid]
          exact isChunk_of_tokens rfl
        · rw [if_neg hid, if_neg hid]
          have htype : sql.IsPiece " VARCHAR(32) ".toList
              (keyword "VARCHAR" :: listTokens ["32".toList]) := isPiece_of_tokens rfl rfl
          exact (hplain.fieldName hmeta).isChunk.append_isPiece htype
      rw [List.append_assoc]
      exact hcolumn.isChunk.append_isPiece (hblank.append_isPiece rfl (by decide) hdefault)

/-! ## Indexes -/

theorem isChunk_indexDefinition {tableMeta : Meta} (h : tableMeta.PlainIndex) :
    sql.IsPiece (indexDefinition tableMeta) (indexTokens tableMeta) := by
  have hhash : sql.IsPiece (if tableMeta.isHash then " USING HASH".toList else [])
      (flagTokens tableMeta.isHash ["USING", "HASH"]) := by
    cases tableMeta.isHash with
    | false => exact isPiece_nil
    | true => exact isPiece_of_tokens rfl rfl
  have hopening : sql.ReadsToGap " ( ".toList [.symbol '('] := readsToGap_of_feed rfl
  have hclosing : sql.IsPiece ") ".toList [.symbol ')'] := isPiece_of_tokens rfl rfl
  have hnames : sql.IsChunk (",".toList.intercalate tableMeta.columns)
      (nameTokens tableMeta.columns) :=
    isChunk_names (readsToGap_of_feed rfl) rfl (by decide) _ h.columns
  have hlist : sql.IsPiece (" ( ".toList ++ (",".toList.intercalate tableMeta.columns ++ ") ".toList))
      (listTokens tableMeta.columns) :=
    hopening.append_isPiece rfl (by decide) (hnames.append_isPiece hclosing)
  have htype : sql.IsPiece (if tableMeta.isPrimaryKey then " PRIMARY KEY ".toList
        else (if tableMeta.isUnique then " UNIQUE ".toList else " ".toList) ++ "INDEX ".toList ++
          tableMeta.name)
      (if tableMeta.isPrimaryKey then keywords ["PRIMARY", "KEY"]
        else flagTokens tableMeta.isUnique ["UNIQUE"] ++ keywords ["INDEX"] ++
          (if tableMeta.name = [] then [] else [.word tableMeta.name])) := by
    have hstart : ∀ isUnique : Bool, sql.ReadsToGap
        ((if isUnique then " UNIQUE ".toList else " ".toList) ++ "INDEX ".toList)
        (flagTokens isUnique ["UNIQUE"] ++ keywords ["INDEX"]) := by
      intro isUnique
      cases isUnique with
      | false => exact readsToGap_of_feed rfl
      | true => exact readsToGap_of_feed rfl
    have hstarts : ∀ isUnique : Bool, sql.starts
        ((if isUnique then " UNIQUE ".toList else " ".toList) ++ "INDEX ".toList) = false := by
      decide
    split
    · exact isPiece_of_tokens rfl rfl
    · apply (hstart _).append_isPiece (hstarts _) (by cases tableMeta.isUnique <;> decide)
      split
      · next hname => simpa only [hname] using isChunk_nil
      · next hname => exact (h.name.resolve_left hname).1.isChunk
  unfold indexDefinition indexTokens
  have happend := htype.append (hhash.append hlist)
  simpa only [List.append_assoc] using happend

/-! ## The statement -/

/-- Elements with commas between them. -/
def elementTokens : List Tokens → Tokens
  | [] => []
  | [element] => element
  | element :: elements => element ++ .symbol ',' :: elementTokens elements

def engineTokens (engine : Option (List Char)) : Tokens :=
  ((engine.map fun name => keywords ["ENGINE"] ++ [.symbol '=', .word name]).getD []) ++
    [.symbol ';']

def statementTokens (database table : List Char) (elements : Tokens)
    (engine : Option (List Char)) : Tokens :=
  keywords ["CREATE", "TABLE"] ++ (.word database :: .symbol '.' :: .word table :: .symbol '(' ::
    (elements ++ .symbol ')' :: engineTokens engine))

theorem isPiece_delimiter {text : List Char} {read : Tokens} (h : sql.IsChunk text read) :
    sql.IsPiece (", ".toList ++ text) (.symbol ',' :: read) := by
  have hcomma : sql.ReadsToGap ", ".toList [.symbol ','] := readsToGap_of_feed rfl
  exact hcomma.append_isPiece rfl (by decide) h

/-- Delimiters stand before all texts but the first. -/
theorem isPiece_delimited {α : Type} {written : α → Option (List Char)} {read : α → Tokens}
    {items : List α} {texts : List (List Char)} (hwritten : items.map written = texts.map some)
    (h : ∀ item ∈ items, ∀ text, written item = some text → sql.IsChunk text (read item)) :
    sql.IsPiece (delimited ", ".toList texts)
      (items.flatMap fun item => .symbol ',' :: read item) := by
  induction items generalizing texts with
  | nil =>
      obtain rfl : texts = [] := List.map_eq_nil_iff.mp hwritten.symm
      exact isPiece_nil
  | cons item items ih =>
      cases texts with
      | nil => exact absurd hwritten (by simp)
      | cons text texts =>
          obtain ⟨hitem, hitems⟩ := List.cons.inj hwritten
          have hfirst := isPiece_delimiter (h item List.mem_cons_self text hitem)
          exact hfirst.append (ih hitems fun other hother => h other (List.mem_cons_of_mem _ hother))

theorem elementTokens_cons (element : Tokens) (elements : List Tokens) :
    elementTokens (element :: elements) =
      element ++ elements.flatMap fun other => .symbol ',' :: other := by
  induction elements generalizing element with
  | nil => exact (List.append_nil _).symm
  | cons other elements ih =>
      change element ++ .symbol ',' :: elementTokens (other :: elements) = _
      rw [ih]
      rfl

/-- The statement as a whole: its elements are a chunk. -/
theorem tokens_statement {database table elements : List Char} {read : Tokens}
    {engine : Option (List Char)} (hdatabase : IsWord database) (htable : IsWord table)
    (helements : sql.IsChunk elements read) (hengine : ∀ name ∈ engine, IsWord name) :
    sql.tokens ("CREATE TABLE ".toList ++ database ++ ".".toList ++ table ++ "(".toList ++
        elements ++ ")".toList ++ (engine.map fun name => " ENGINE=".toList ++ name).getD [] ++
        ";".toList) =
      some (statementTokens database table read engine) := by
  have hstart : sql.ReadsToGap "CREATE TABLE ".toList (keywords ["CREATE", "TABLE"]) :=
    readsToGap_of_feed rfl
  have hdot : sql.ReadsToGap ".".toList [.symbol '.'] := readsToGap_of_feed rfl
  have hopening : sql.ReadsToGap "(".toList [.symbol '('] := readsToGap_of_feed rfl
  have hclosing : sql.ReadsToGap ")".toList [.symbol ')'] := readsToGap_of_feed rfl
  have hsemicolon : sql.ReadsToGap ";".toList [.symbol ';'] := readsToGap_of_feed rfl
  have hname : sql.IsPiece ((engine.map fun name => " ENGINE=".toList ++ name).getD [])
      ((engine.map fun name => keywords ["ENGINE"] ++ [.symbol '=', .word name]).getD []) := by
    cases engine with
    | none => exact isPiece_nil
    | some name =>
        have hequals : sql.ReadsToGap " ENGINE=".toList (keywords ["ENGINE"] ++ [.symbol '=']) :=
          readsToGap_of_feed rfl
        exact hequals.append_isPiece rfl (by decide) (hengine name rfl).isChunk
  have hend := hclosing.append (hname.chunk.readsToGap hsemicolon rfl (by decide))
  have hlist := hopening.append (helements.readsToGap hend rfl (by simp))
  have hnames := hdatabase.isChunk.readsToGap
    (hdot.append (htable.isChunk.readsToGap hlist rfl (by simp))) rfl (by simp)
  have hwhole := (hstart.append hnames).tokens_eq
  simpa only [List.append_assoc, statementTokens, engineTokens, List.cons_append,
    List.nil_append] using hwhole

end DatabaseJones.TableCreation
