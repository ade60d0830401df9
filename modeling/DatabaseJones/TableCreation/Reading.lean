import DatabaseJones.Library.OptionLists
import DatabaseJones.TableCreation.Statement

/-!
# Reading what is written

The reader takes the attributes of a column one after the other.  Each part of them starts
with a keyword that none of the later parts starts with, so a part that is missing is not
found; only the time stamp and the default start alike.  Columns and indexes are read as
they are written, and a statement is cut into them.
-/

namespace DatabaseJones.TableCreation

open Library

/-! ## Parts -/

theorem after_append (expected rest : Tokens) : after expected (expected ++ rest) = some rest := by
  unfold after
  rw [if_pos (List.isPrefixOf_iff_prefix.mpr (List.prefix_append expected rest)),
    List.drop_left]

variable {rest : Tokens} {heads : List QuotedToken}

theorem headIn_flag (h : HeadIn rest heads) (first : String) (texts : List String)
    (isSet : Bool) :
    HeadIn (flagTokens isSet (first :: texts) ++ rest) (keyword first :: heads) := by
  apply h.append
  cases isSet with
  | false => simp [flagTokens]
  | true => simp [flagTokens, keywords]

theorem headIn_clause (h : HeadIn rest heads) (first : String) (texts : List String)
    (value : Option QuotedToken) :
    HeadIn (clauseTokens value (first :: texts) ++ rest) (keyword first :: heads) := by
  apply h.append
  cases value with
  | none => simp [clauseTokens]
  | some token => simp [clauseTokens, keywords]

theorem after_of_headIn {first : String} (h : HeadIn rest heads) (hfirst : keyword first ∉ heads)
    (texts : List String) :
    after (keywords (first :: texts)) rest = none := by
  unfold after
  rw [if_neg]
  intro hprefix
  obtain ⟨others, rfl⟩ := List.isPrefixOf_iff_prefix.mp hprefix
  exact hfirst (h (keyword first) rfl)

theorem readFlag_flag (h : HeadIn rest heads) (first : String) (texts : List String)
    (hfirst : keyword first ∉ heads) (isSet : Bool) :
    readFlag (keywords (first :: texts)) (flagTokens isSet (first :: texts) ++ rest) =
      (isSet, rest) := by
  unfold readFlag
  cases isSet with
  | false =>
      have htokens : flagTokens false (first :: texts) ++ rest = rest := rfl
      rw [htokens, after_of_headIn h hfirst texts]
  | true =>
      have htokens : flagTokens true (first :: texts) ++ rest =
          keywords (first :: texts) ++ rest := rfl
      rw [htokens, after_append]

theorem readWord_clause (h : HeadIn rest heads) (first : String) (texts : List String)
    (hfirst : keyword first ∉ heads) (value : Option (List Char)) :
    readWord (keywords (first :: texts)) (clauseTokens (value.map .word) (first :: texts) ++ rest) =
      (value, rest) := by
  unfold readWord
  cases value with
  | none =>
      have htokens : clauseTokens ((none : Option (List Char)).map .word) (first :: texts) ++
          rest = rest := rfl
      rw [htokens, after_of_headIn h hfirst texts]
  | some text =>
      have htokens : clauseTokens (some (.word text)) (first :: texts) ++ rest =
          keywords (first :: texts) ++ (.word text :: rest) := by
        simp [clauseTokens]
      rw [Option.map_some, htokens, after_append]

theorem readString_clause (h : HeadIn rest heads) (first : String) (texts : List String)
    (hfirst : keyword first ∉ heads) (value : Option (List Char)) :
    readString (keywords (first :: texts))
        (clauseTokens (value.map .string) (first :: texts) ++ rest) =
      (value, rest) := by
  unfold readString
  cases value with
  | none =>
      have htokens : clauseTokens ((none : Option (List Char)).map .string) (first :: texts) ++
          rest = rest := rfl
      rw [htokens, after_of_headIn h hfirst texts]
  | some text =>
      have htokens : clauseTokens (some (.string text)) (first :: texts) ++ rest =
          keywords (first :: texts) ++ (.string text :: rest) := by
        simp [clauseTokens]
      rw [Option.map_some, htokens, after_append]

/-- `DEFAULT` before a string is not the time stamp. -/
theorem readFlag_currentTimestamp (h : HeadIn rest heads) (hfirst : keyword "DEFAULT" ∉ heads)
    (isSet : Bool) (default : Option (List Char)) :
    readFlag (keywords ["DEFAULT", "CURRENT_TIMESTAMP"])
        (flagTokens isSet ["DEFAULT", "CURRENT_TIMESTAMP"] ++
          (clauseTokens (default.map .string) ["DEFAULT"] ++ rest)) =
      (isSet, clauseTokens (default.map .string) ["DEFAULT"] ++ rest) := by
  cases default with
  | none => exact readFlag_flag h _ _ hfirst isSet
  | some text =>
      cases isSet with
      | false => rfl
      | true => rfl

/-- The attributes are read as they are written. -/
theorem readAttributes_tokens (attributes : Attributes) :
    readAttributes attributes.tokens = some attributes := by
  obtain ⟨unsigned, notNull, characterset, collate, autoIncrement, currentTimestamp, default,
    uniqueKey, primaryKey⟩ := attributes
  have hprimary : HeadIn (flagTokens primaryKey ["PRIMARY", "KEY"] ++ []) [keyword "PRIMARY"] :=
    headIn_flag headIn_nil _ _ primaryKey
  have hunique := headIn_flag hprimary "UNIQUE" ["KEY"] uniqueKey
  have hdefault := headIn_clause hunique "DEFAULT" [] (default.map .string)
  have htimestamp := headIn_flag hdefault "DEFAULT" ["CURRENT_TIMESTAMP"] currentTimestamp
  have hincrement := headIn_flag htimestamp "AUTO_INCREMENT" [] autoIncrement
  have hcollate := headIn_clause hincrement "COLLATE" [] (collate.map .word)
  have hcharset := headIn_clause hcollate "CHARACTER" ["SET"] (characterset.map .word)
  have hnotNull := headIn_flag hcharset "NOT" ["NULL"] notNull
  have hreadUnsigned := readFlag_flag hnotNull "UNSIGNED" [] (by decide) unsigned
  have hreadNotNull := readFlag_flag hcharset "NOT" ["NULL"] (by decide) notNull
  have hreadCharset := readWord_clause hcollate "CHARACTER" ["SET"] (by decide)
    characterset
  have hreadCollate := readWord_clause hincrement "COLLATE" [] (by decide) collate
  have hreadIncrement := readFlag_flag htimestamp "AUTO_INCREMENT" [] (by decide)
    autoIncrement
  have hreadTimestamp := readFlag_currentTimestamp hunique (by decide) currentTimestamp default
  have hreadDefault := readString_clause hunique "DEFAULT" [] (by decide) default
  have hreadUnique := readFlag_flag hprimary "UNIQUE" ["KEY"] (by decide) uniqueKey
  have hreadPrimary := readFlag_flag (headIn_nil : HeadIn [] []) "PRIMARY" ["KEY"] (by decide)
    primaryKey
  rw [← List.append_nil (Attributes.tokens _)]
  simp only [Attributes.tokens, List.append_assoc]
  simp only [readAttributes, hreadUnsigned, hreadNotNull, hreadCharset, hreadCollate,
    hreadIncrement, hreadTimestamp, hreadDefault, hreadUnique, hreadPrimary, if_true]

/-! ## Names -/

theorem readNames_nameTokens (names : List (List Char)) (hne : names ≠ []) :
    readNames (nameTokens names ++ .symbol ')' :: rest) = some (names, rest) := by
  induction names with
  | nil => exact absurd rfl hne
  | cons name names ih =>
      cases names with
      | nil => rfl
      | cons other names =>
          change (if ',' = ')' then _ else if ',' = ',' then
            (readNames (nameTokens (other :: names) ++ .symbol ')' :: rest)).map _ else none) = _
          rw [if_neg (by decide), if_pos rfl, ih (by simp)]
          rfl

theorem readNames_listTokens (names : List (List Char)) :
    readNames (nameTokens names ++ [.symbol ')'] ++ rest) =
      if names = [] then none else some (names, rest) := by
  rw [List.append_assoc]
  split
  · next hnames =>
      rw [hnames]
      rfl
  · next hnames => exact readNames_nameTokens names hnames

/-! ## Columns -/

/-- Attributes start with a keyword. -/
theorem headIn_attributes (attributes : Attributes) :
    HeadIn attributes.tokens (keywords ["UNSIGNED", "NOT", "CHARACTER", "COLLATE",
      "AUTO_INCREMENT", "DEFAULT", "DEFAULT", "UNIQUE", "PRIMARY"]) := by
  rw [← List.append_nil attributes.tokens]
  simp only [Attributes.tokens, List.append_assoc]
  apply headIn_flag
  apply headIn_flag
  apply headIn_clause
  apply headIn_clause
  apply headIn_flag
  apply headIn_flag
  apply headIn_clause
  apply headIn_flag
  exact headIn_flag headIn_nil _ _ _

theorem readArguments_type (type : ColumnType) (attributes : Attributes) :
    readArguments ((if type.arguments = [] then [] else listTokens type.arguments) ++
      attributes.tokens) = some (type.arguments, attributes.tokens) := by
  by_cases hnone : type.arguments = []
  · rw [if_pos hnone, hnone, List.nil_append]
    have hhead := headIn_attributes attributes
    cases htokens : attributes.tokens with
    | nil => rfl
    | cons token tokens =>
        cases token with
        | symbol char =>
            rw [htokens] at hhead
            exact absurd (hhead _ rfl) (by simp [keywords, keyword])
        | _ => rfl
  · rw [if_neg hnone]
    change readNames (nameTokens type.arguments ++ [.symbol ')'] ++ attributes.tokens) = _
    rw [readNames_listTokens, if_neg hnone]

theorem readColumn_tokens (name : List Char) (type : ColumnType) (attributes : Attributes) :
    readColumn (.word name :: (type.tokens ++ attributes.tokens)) =
      some (attributes.define name type) := by
  change (readArguments ((if type.arguments = [] then [] else listTokens type.arguments) ++
    attributes.tokens)).bind _ = _
  rw [readArguments_type, Option.bind_some, readAttributes_tokens]
  rfl

/-- An element that starts with a name is a column. -/
theorem readElement_of_name {name : List Char} (hname : name ∉ grammarWords) :
    readElement (.word name :: rest) = (readColumn (.word name :: rest)).map .inl := by
  have hhead : HeadIn (.word name :: rest) [.word name] := by
    intro head hhead
    obtain rfl := Option.some.inj hhead
    exact List.mem_cons_self
  have hword : ∀ text : String, text.toList ∈ grammarWords → keyword text ∉ [.word name] := by
    intro text htext hmem
    obtain h := QuotedToken.word.inj (List.mem_singleton.mp hmem)
    exact hname (h ▸ htext)
  unfold readElement
  rw [after_of_headIn hhead (hword "PRIMARY" (by decide)),
    after_of_headIn hhead (hword "UNIQUE" (by decide)),
    after_of_headIn hhead (hword "INDEX" (by decide))]

/-- The column that is written for a field with a meta. -/
def Built.written (built : Built ColumnKind) (name : List Char) : ColumnDefinition :=
  (built.kind.writtenAttributes built.stated).define name (built.kind.writtenType built.stated)

/-- A field without a meta is written as no column: its name stands twice. -/
theorem readElement_field {field : Field} (h : field.Plain) :
    readElement field.tokens =
      (field.fieldMeta.map fun built => built.written field.column).map .inl := by
  unfold Field.tokens
  cases hmeta : field.fieldMeta with
  | some built =>
      change readElement (.word field.column :: _) = _
      rw [readElement_of_name h.column.2, readColumn_tokens]
      rfl
  | none =>
      change readElement (.word field.column :: _) = _
      rw [readElement_of_name h.column.2]
      split
      · rfl
      · rfl

/-! ## Indexes -/

/-- The index that is written for a meta. -/
def Meta.writtenIndex (this : Meta) : IndexDefinition :=
  if this.isPrimaryKey then ⟨.primary, none, this.isHash, this.columns⟩
  else
    ⟨if this.isUnique then .unique else .ordinary,
      if this.name = [] then none else some this.name, this.isHash, this.columns⟩

/-- An index needs columns, and nothing may follow them. -/
theorem readIndexColumns_tokens (type : IndexType) (name : Option (List Char)) (isHash : Bool)
    (columns : List (List Char)) (more : Tokens) :
    readIndexColumns type name (flagTokens isHash ["USING", "HASH"] ++
        (listTokens columns ++ more)) =
      if columns ≠ [] ∧ more = [] then some ⟨type, name, isHash, columns⟩ else none := by
  have hhead : HeadIn (listTokens columns ++ more) [.symbol '('] := by
    intro head hhead
    obtain rfl := Option.some.inj hhead
    exact List.mem_cons_self
  unfold readIndexColumns
  rw [readFlag_flag hhead "USING" ["HASH"] (by decide)]
  dsimp only [listTokens, List.cons_append]
  rw [if_pos rfl, readNames_listTokens]
  by_cases hcolumns : columns = []
  · simp [hcolumns]
  · cases more with
    | nil => simp [hcolumns]
    | cons token more => simp [hcolumns]

theorem readIndex_tokens (type : IndexType) (name : List Char) (hname : name ∉ grammarWords)
    (isHash : Bool) (columns : List (List Char)) (more : Tokens) :
    readIndex type ((if name = [] then [] else [.word name]) ++
        (flagTokens isHash ["USING", "HASH"] ++ (listTokens columns ++ more))) =
      if columns ≠ [] ∧ more = [] then
        some ⟨type, if name = [] then none else some name, isHash, columns⟩
      else none := by
  by_cases hnone : name = []
  · rw [if_pos hnone, if_pos hnone, List.nil_append, ← readIndexColumns_tokens]
    cases isHash with
    | false => rfl
    | true => rfl
  · rw [if_neg hnone, if_neg hnone, ← readIndexColumns_tokens]
    have husing : name ≠ "USING".toList := by
      rintro rfl
      exact hname (by decide)
    exact if_neg husing

/-- The tokens of an index, and what else stands before the next comma. -/
theorem readElement_index {tableMeta : Meta} (h : tableMeta.PlainIndex) (more : Tokens) :
    readElement (indexTokens tableMeta ++ more) =
      if tableMeta.columns ≠ [] ∧ more = [] then some (.inr tableMeta.writtenIndex) else none := by
  have hmap : ∀ (condition : Prop) [Decidable condition] (definition : IndexDefinition),
      (if condition then some definition else none).map
          (Sum.inr : _ → ColumnDefinition ⊕ IndexDefinition) =
        if condition then some (.inr definition) else none := by
    intro condition _ definition
    split <;> rfl
  have hname : tableMeta.name ∉ grammarWords := by
    obtain hname | hname := h.name
    · rw [hname]
      decide
    · exact hname.2
  unfold indexTokens Meta.writtenIndex readElement
  simp only [List.append_assoc]
  by_cases hprimary : tableMeta.isPrimaryKey = true
  · rw [if_pos hprimary, if_pos hprimary, after_append]
    change (readIndexColumns _ _ _).map _ = _
    rw [readIndexColumns_tokens, hmap]
  · rw [if_neg hprimary, if_neg hprimary]
    cases hunique : tableMeta.isUnique with
    | true =>
        have hread := readIndex_tokens .unique _ hname tableMeta.isHash tableMeta.columns more
        refine (congrArg (Option.map Sum.inr) hread).trans ?_
        rw [hmap]
        rfl
    | false =>
        have hread := readIndex_tokens .ordinary _ hname tableMeta.isHash tableMeta.columns more
        refine (congrArg (Option.map Sum.inr) hread).trans ?_
        rw [hmap]
        rfl

/-! ## Cutting a statement into its elements -/

/-- Tokens within which no comma and no parenthesis ends an element. -/
def Balanced (element : Tokens) : Prop :=
  ∀ depth current rest, splitElements depth current (element ++ rest) =
    splitElements depth (current ++ element) rest

variable {element element' : Tokens}

theorem Balanced.append (h : Balanced element) (h' : Balanced element') :
    Balanced (element ++ element') := by
  intro depth current rest
  rw [List.append_assoc, h, h', List.append_assoc]

/-- Words and strings are kept. -/
theorem balanced_of_no_symbol (h : ∀ char, .symbol char ∉ element) : Balanced element := by
  intro depth current rest
  induction element generalizing current with
  | nil => rw [List.append_nil, List.nil_append]
  | cons token element ih =>
      have hkept : splitElements depth current (token :: (element ++ rest)) =
          splitElements depth (current ++ [token]) (element ++ rest) := by
        cases token with
        | symbol char => exact absurd List.mem_cons_self (h char)
        | word text => cases depth <;> rfl
        | string text => cases depth <;> rfl
      rw [List.cons_append, hkept, ih fun char hchar => h char (List.mem_cons_of_mem _ hchar)]
      simp

/-- Within parentheses commas are kept. -/
theorem splitElements_nameTokens (depth : ℕ) (current : Tokens) (names : List (List Char)) :
    splitElements (depth + 1) current (nameTokens names ++ rest) =
      splitElements (depth + 1) (current ++ nameTokens names) rest := by
  induction names generalizing current with
  | nil => rw [nameTokens, List.append_nil, List.nil_append]
  | cons name names ih =>
      cases names with
      | nil => rfl
      | cons other names =>
          change splitElements (depth + 1) (current ++ [.word name] ++ [.symbol ','])
            (nameTokens (other :: names) ++ rest) = _
          rw [ih]
          simp [nameTokens]

theorem balanced_listTokens (names : List (List Char)) : Balanced (listTokens names) := by
  intro depth current rest
  change splitElements (depth + 1) (current ++ [.symbol '('])
    (nameTokens names ++ [.symbol ')'] ++ rest) = _
  rw [List.append_assoc, splitElements_nameTokens]
  change splitElements depth _ rest = _
  simp [listTokens]

theorem symbol_notMem_flag (isSet : Bool) (texts : List String) (char : Char) :
    .symbol char ∉ flagTokens isSet texts := by
  cases isSet with
  | false => exact List.not_mem_nil
  | true => simp [flagTokens, keywords, keyword]

theorem symbol_notMem_clause (value : Option QuotedToken) (texts : List String) (char : Char)
    (hvalue : .symbol char ∉ value) : .symbol char ∉ clauseTokens value texts := by
  cases value with
  | none => exact List.not_mem_nil
  | some token =>
      intro hmem
      obtain hmem | hmem := List.mem_append.mp hmem
      · exact absurd hmem (by simp [keywords, keyword])
      · exact hvalue (List.mem_singleton.mp hmem ▸ rfl)

theorem balanced_attributes (attributes : Attributes) : Balanced attributes.tokens := by
  apply balanced_of_no_symbol
  intro char
  have hword : ∀ value : Option (List Char), .symbol char ∉ value.map QuotedToken.word := by
    intro value
    cases value <;> simp
  have hstring : ∀ value : Option (List Char), .symbol char ∉ value.map QuotedToken.string := by
    intro value
    cases value <;> simp
  simp only [Attributes.tokens, List.mem_append, not_or]
  exact ⟨symbol_notMem_flag _ _ _, symbol_notMem_flag _ _ _,
    symbol_notMem_clause _ _ _ (hword _), symbol_notMem_clause _ _ _ (hword _),
    symbol_notMem_flag _ _ _, symbol_notMem_flag _ _ _, symbol_notMem_clause _ _ _ (hstring _),
    symbol_notMem_flag _ _ _, symbol_notMem_flag _ _ _⟩

theorem balanced_word (text : List Char) : Balanced [.word text] :=
  balanced_of_no_symbol (by simp)

theorem balanced_keywords (texts : List String) : Balanced (keywords texts) :=
  balanced_of_no_symbol (by simp [keywords, keyword])

theorem balanced_field (field : Field) : Balanced field.tokens := by
  unfold Field.tokens
  cases field.fieldMeta with
  | some built =>
      have harguments : ∀ arguments : List (List Char),
          Balanced (if arguments = [] then [] else listTokens arguments) := by
        intro arguments
        split
        · exact balanced_keywords []
        · exact balanced_listTokens _
      have htype : Balanced (built.kind.writtenType built.stated).tokens :=
        (balanced_word _).append (harguments _)
      exact (balanced_word _).append (htype.append (balanced_attributes _))
  | none =>
      have hdefault : Balanced
          (if field.fieldName = "id".toList then keywords ["id", "INT", "PRIMARY", "KEY"]
            else .word field.fieldName :: keyword "VARCHAR" :: listTokens ["32".toList]) := by
        split
        · exact balanced_keywords _
        · exact (balanced_word _).append ((balanced_keywords ["VARCHAR"]).append
            (balanced_listTokens _))
      exact (balanced_word _).append hdefault

theorem balanced_index (tableMeta : Meta) : Balanced (indexTokens tableMeta) := by
  have hflag : ∀ (isSet : Bool) (texts : List String), Balanced (flagTokens isSet texts) :=
    fun isSet texts => balanced_of_no_symbol (symbol_notMem_flag isSet texts)
  unfold indexTokens
  refine Balanced.append ?_ ((hflag _ _).append (balanced_listTokens _))
  split
  · exact balanced_keywords _
  · apply ((hflag _ _).append (balanced_keywords _)).append
    split
    · exact balanced_keywords []
    · exact balanced_word _

theorem balanced_flatMap {α : Type} {read : α → Tokens} (items : List α)
    (h : ∀ item ∈ items, Balanced (read item)) : Balanced (items.flatMap read) := by
  induction items with
  | nil => exact balanced_keywords []
  | cons item items ih =>
      exact (h item List.mem_cons_self).append
        (ih fun other hother => h other (List.mem_cons_of_mem _ hother))

/-- Balanced elements are found between the commas. -/
theorem splitElements_elementTokens (element : Tokens) (elements : List Tokens)
    (h : ∀ other ∈ element :: elements, Balanced other) :
    splitElements 0 [] (elementTokens (element :: elements) ++ .symbol ')' :: rest) =
      some (element :: elements, rest) := by
  induction elements generalizing element with
  | nil =>
      change splitElements 0 [] (element ++ .symbol ')' :: rest) = _
      rw [h element List.mem_cons_self]
      rfl
  | cons other elements ih =>
      have hrest := ih other fun item hitem => h item (List.mem_cons_of_mem _ hitem)
      change splitElements 0 [] (element ++ .symbol ',' :: elementTokens (other :: elements) ++
        .symbol ')' :: rest) = _
      rw [List.append_assoc, h element List.mem_cons_self]
      change (splitElements 0 [] (elementTokens (other :: elements) ++ .symbol ')' :: rest)).map _ =
        _
      rw [hrest]
      rfl

theorem readEngine_engineTokens (engine : Option (List Char)) :
    readEngine (engineTokens engine) = some engine := by
  cases engine with
  | none => rfl
  | some name => rfl

/-- A statement is read as its elements are read. -/
theorem readTable_statementTokens (database table : List Char) (element : Tokens)
    (elements : List Tokens) (engine : Option (List Char))
    (h : ∀ other ∈ element :: elements, Balanced other) :
    readTable (statementTokens database table (elementTokens (element :: elements)) engine) =
      ((element :: elements).mapM readElement).map fun read =>
        { database
          table
          columns := read.filterMap Sum.getLeft?
          indexes := read.filterMap Sum.getRight?
          engine } := by
  unfold readTable statementTokens
  rw [after_append]
  change (splitElements 0 [] (elementTokens (element :: elements) ++
    .symbol ')' :: engineTokens engine)).bind _ = _
  rw [splitElements_elementTokens element elements h]
  simp only [Option.bind_some, readEngine_engineTokens]
  cases (element :: elements).mapM readElement <;> rfl

end DatabaseJones.TableCreation
