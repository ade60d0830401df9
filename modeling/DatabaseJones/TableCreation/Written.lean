import DatabaseJones.TableCreation.Definitions

/-!
# The texts of definitions

The text of a column is its name, a type and attributes, the text of an index its keywords, a
name and columns.  Each of them is put together from chunks, so that the words, the symbols
and the strings of a statement are those of its pieces.  Names have to be words, and default
values have to be free of double quotes and backslashes.
-/

namespace DatabaseJones.TableCreation

open Library Library.QuotedAlphabet

/-- A text that is read as one word. -/
def IsWord (text : List Char) : Prop := text ≠ [] ∧ ∀ char ∈ text, sql.isWord char = true

/-- A text that can stand between double quotes. -/
def IsQuotable (text : List Char) : Prop := sql.quote ∉ text ∧ sql.escape ∉ text

/-! ## Tokens -/

def flagTokens (isSet : Bool) (texts : List String) : Tokens :=
  if isSet then keywords texts else []

def clauseTokens (value : Option QuotedToken) (texts : List String) : Tokens :=
  (value.map fun token => keywords texts ++ [token]).getD []

/-- Names with commas between them. -/
def nameTokens : List (List Char) → Tokens
  | [] => []
  | [name] => [.word name]
  | name :: names => .word name :: .symbol ',' :: nameTokens names

def listTokens (names : List (List Char)) : Tokens :=
  .symbol '(' :: (nameTokens names ++ [.symbol ')'])

def ColumnType.tokens (type : ColumnType) : Tokens :=
  .word type.keyword :: (if type.arguments = [] then [] else listTokens type.arguments)

def Attributes.tokens (attributes : Attributes) : Tokens :=
  flagTokens attributes.unsigned ["UNSIGNED"] ++
    (flagTokens attributes.notNull ["NOT", "NULL"] ++
    (clauseTokens (attributes.characterset.map .word) ["CHARACTER", "SET"] ++
    (clauseTokens (attributes.collate.map .word) ["COLLATE"] ++
    (flagTokens attributes.autoIncrement ["AUTO_INCREMENT"] ++
    (flagTokens attributes.currentTimestamp ["DEFAULT", "CURRENT_TIMESTAMP"] ++
    (clauseTokens (attributes.default.map .string) ["DEFAULT"] ++
    (flagTokens attributes.uniqueKey ["UNIQUE", "KEY"] ++
    flagTokens attributes.primaryKey ["PRIMARY", "KEY"])))))))

def indexTokens (tableMeta : Meta) : Tokens :=
  (if tableMeta.isPrimaryKey then keywords ["PRIMARY", "KEY"]
    else flagTokens tableMeta.isUnique ["UNIQUE"] ++ keywords ["INDEX"] ++
      (if tableMeta.name = [] then [] else [.word tableMeta.name])) ++
  (flagTokens tableMeta.isHash ["USING", "HASH"] ++ listTokens tableMeta.columns)

/-! ## What is written -/

/-- The type that a visitor method writes. -/
def ColumnKind.writtenType (this : Meta) : ColumnKind → ColumnType
  | .binary length => ⟨"BINARY".toList, [numberText length]⟩
  | .char length => ⟨(if this.isLob then "TEXT" else "CHAR").toList, [numberText length]⟩
  | .date => ⟨"DATE".toList, []⟩
  | .datetime fsp => ⟨"DATETIME".toList, [argumentText fsp]⟩
  | .decimal precision scale => ⟨"DECIMAL".toList, [numberText precision, numberText scale]⟩
  | .double => ⟨"DOUBLE".toList, []⟩
  | .float => ⟨"FLOAT".toList, []⟩
  | .integer bits => ⟨(integerType (bits.getD 32)).keyword, []⟩
  | .time _ => ⟨"TIMESTAMP".toList, []⟩
  | .timestamp _ => ⟨"TIMESTAMP".toList, []⟩
  | .varbinary length =>
      ⟨(if this.isLob then "BLOB" else "VARBINARY").toList, [numberText length]⟩
  | .varchar length => ⟨(if this.isLob then "TEXT" else "VARCHAR").toList, [numberText length]⟩
  | .year => ⟨"YEAR".toList, []⟩

def ColumnKind.isInteger : ColumnKind → Bool
  | .integer _ => true
  | _ => false

/-- The kinds for which the time of the row's creation can be written. -/
def ColumnKind.hasCurrentTimestamp : ColumnKind → Bool
  | .datetime _ => true
  | .timestamp _ => true
  | _ => false

/-- Whether the column is written without `NOT NULL`. -/
def ColumnKind.writtenNullable (this : Meta) : ColumnKind → Bool
  | .binary _ => this.isLob
  | _ => this.isNullable

/-- The default that is written, which has to be true. -/
def Meta.writtenDefault (this : Meta) : Option (List Char) :=
  (this.defaultVal.filter DefaultValue.isTruthy).map DefaultValue.toText

def ColumnKind.writtenAttributes (this : Meta) (kind : ColumnKind) : Attributes where
  unsigned := kind.isInteger && this.isUnsigned
  notNull := !kind.writtenNullable this
  characterset := if kind.isCharacter then this.characterset else none
  collate := if kind.isCharacter then this.collate else none
  autoIncrement := kind.isSigned && this.isGenerated
  currentTimestamp := kind.hasCurrentTimestamp && this.isGenerated
  default := this.writtenDefault
  uniqueKey := this.hasIndex
  primaryKey := !this.hasIndex && this.isPrimaryKey

def ColumnType.text (type : ColumnType) : List Char :=
  type.keyword ++
    (if type.arguments = [] then []
      else "(".toList ++ (", ".toList.intercalate type.arguments ++ ")".toList))

/-- The attributes that a visitor method writes. -/
def Attributes.visitText (attributes : Attributes) : List Char :=
  pu attributes.unsigned ++ (pn (!attributes.notNull) ++
    (TranslateMeta.charsetText attributes.characterset attributes.collate ++
    ((if attributes.autoIncrement then " AUTO_INCREMENT".toList else []) ++
    TranslateMeta.currentTimestamp attributes.currentTimestamp)))

/-- The attributes that are appended to it. -/
def Attributes.appendedText (attributes : Attributes) : List Char :=
  (attributes.default.map fun text => " DEFAULT \"".toList ++ text ++ "\"".toList).getD [] ++
    ((if attributes.uniqueKey then " UNIQUE KEY ".toList else []) ++
    (if attributes.primaryKey then " PRIMARY KEY".toList else []))

/-- The texts of the integer types. -/
theorem integer_text (bits : ℕ) (unsigned nullable generated : Bool) :
    TranslateMeta.integer bits unsigned nullable generated =
      (integerType bits).keyword ++ (pu unsigned ++ (pn nullable ++
        (if decide (8 ≤ bits) && generated then " AUTO_INCREMENT".toList else []))) := by
  unfold TranslateMeta.integer integerType
  dsimp only
  by_cases hbit : bits < 8
  · have hnot : ¬8 ≤ bits := by omega
    rw [if_pos hbit, if_pos hbit, decide_eq_false hnot, Bool.false_and,
      if_neg Bool.false_ne_true, List.append_nil, List.append_assoc]
  · have hle : 8 ≤ bits := by omega
    rw [if_neg hbit, if_neg hbit, decide_eq_true hle, Bool.true_and]
    generalize (if generated then " AUTO_INCREMENT".toList else []) = autoinc
    split_ifs <;> simp only [List.append_assoc]

theorem ColumnType.text_nil (keyword : List Char) : ColumnType.text ⟨keyword, []⟩ = keyword := by
  simp only [ColumnType.text, if_true, List.append_nil]

theorem ColumnType.text_one (keyword argument : List Char) :
    ColumnType.text ⟨keyword, [argument]⟩ = TranslateMeta.sized keyword argument := by
  simp only [ColumnType.text, TranslateMeta.sized, reduceCtorEq, if_false, List.append_assoc,
    List.intercalate_singleton]

theorem ColumnType.text_two (keyword first second : List Char) :
    ColumnType.text ⟨keyword, [first, second]⟩ =
      TranslateMeta.sized keyword (first ++ ", ".toList ++ second) := by
  simp only [ColumnType.text, TranslateMeta.sized, reduceCtorEq, if_false, List.append_assoc,
    List.intercalate_cons_cons, List.intercalate_singleton]

/-- The attributes of a kind that has no sign and no character set and is not generated. -/
theorem visitText_of_plain (this : Meta) (kind : ColumnKind) (hinteger : kind.isInteger = false)
    (hcharacter : kind.isCharacter = false) (hsigned : kind.isSigned = false) :
    (kind.writtenAttributes this).visitText =
      pn (kind.writtenNullable this) ++
        TranslateMeta.currentTimestamp (kind.hasCurrentTimestamp && this.isGenerated) := by
  simp only [ColumnKind.writtenAttributes, Attributes.visitText, hinteger, hcharacter, hsigned,
    Bool.false_and, Bool.not_not, Bool.false_eq_true, if_false, List.nil_append]
  rfl

/-- The attributes of a kind with a character set. -/
theorem visitText_of_character (this : Meta) (kind : ColumnKind)
    (hcharacter : kind.isCharacter = true) :
    (kind.writtenAttributes this).visitText =
      pn this.isNullable ++ TranslateMeta.charsetText this.characterset this.collate := by
  cases kind with
  | char length =>
      simp only [ColumnKind.writtenAttributes, Attributes.visitText, hcharacter, Bool.not_not,
        if_true, ColumnKind.isInteger, ColumnKind.isSigned, ColumnKind.hasCurrentTimestamp,
        Bool.false_and, Bool.false_eq_true, if_false, List.nil_append]
      exact congrArg (fun rest => pn this.isNullable ++ rest) (List.append_nil _)
  | varchar length =>
      simp only [ColumnKind.writtenAttributes, Attributes.visitText, hcharacter, Bool.not_not,
        if_true, ColumnKind.isInteger, ColumnKind.isSigned, ColumnKind.hasCurrentTimestamp,
        Bool.false_and, Bool.false_eq_true, if_false, List.nil_append]
      exact congrArg (fun rest => pn this.isNullable ++ rest) (List.append_nil _)
  | _ => exact absurd hcharacter (by simp [ColumnKind.isCharacter])

theorem visitText_integer (this : Meta) (bits : Option ℕ) :
    ((ColumnKind.integer bits).writtenAttributes this).visitText =
      pu this.isUnsigned ++ (pn this.isNullable ++
        (if decide (8 ≤ bits.getD 32) && this.isGenerated then " AUTO_INCREMENT".toList
          else [])) := by
  simp only [ColumnKind.writtenAttributes, Attributes.visitText, Bool.not_not,
    ColumnKind.isInteger, ColumnKind.isSigned, ColumnKind.isCharacter,
    ColumnKind.hasCurrentTimestamp, Bool.false_and, Bool.true_and, Bool.false_eq_true, if_false]
  exact congrArg (fun rest => pu this.isUnsigned ++ (pn this.isNullable ++ rest))
    (List.append_nil _)

/-- A kind of which the visitor method writes the type and the nullability only. -/
theorem visitText_of_pn (this : Meta) (kind : ColumnKind) (hinteger : kind.isInteger = false)
    (hcharacter : kind.isCharacter = false) (hsigned : kind.isSigned = false)
    (htimestamp : kind.hasCurrentTimestamp = false) :
    (kind.writtenAttributes this).visitText = pn (kind.writtenNullable this) := by
  rw [visitText_of_plain this kind hinteger hcharacter hsigned, htimestamp, Bool.false_and]
  exact List.append_nil _

/-- Whatever the order of the properties, a visitor method writes a type and attributes. -/
theorem visit_text (this : Meta) (kind : ColumnKind) :
    kind.visit this =
      (kind.writtenType this).text ++ (kind.writtenAttributes this).visitText := by
  cases kind with
  | binary length =>
      rw [visitText_of_pn this (.binary length) rfl rfl rfl rfl]
      unfold ColumnKind.writtenType
      simp only [ColumnType.text_one]
      rfl
  | char length =>
      rw [visitText_of_character this (.char length) rfl]
      unfold ColumnKind.writtenType
      simp only [ColumnType.text_one, ← List.append_assoc]
      change TranslateMeta.char _ _ _ this.isGenerated _ _ = _
      cases this.isLob <;> rfl
  | integer bits =>
      rw [visitText_integer]
      unfold ColumnKind.writtenType
      simp only [ColumnType.text_nil]
      exact integer_text _ _ _ _
  | varbinary length =>
      rw [visitText_of_pn this (.varbinary length) rfl rfl rfl rfl]
      unfold ColumnKind.writtenType
      simp only [ColumnType.text_one]
      change TranslateMeta.varbinary _ _ _ = _ ++ pn this.isNullable
      cases this.isLob <;> rfl
  | varchar length =>
      rw [visitText_of_character this (.varchar length) rfl]
      unfold ColumnKind.writtenType
      simp only [ColumnType.text_one, ← List.append_assoc]
      change TranslateMeta.varchar _ _ _ _ _ = _
      cases this.isLob <;> rfl
  | datetime fsp =>
      rw [visitText_of_plain this (.datetime fsp) rfl rfl rfl]
      unfold ColumnKind.writtenType
      simp only [ColumnType.text_one, ← List.append_assoc]
      rfl
  | timestamp fsp =>
      rw [visitText_of_plain this (.timestamp fsp) rfl rfl rfl]
      unfold ColumnKind.writtenType
      simp only [ColumnType.text_nil, ← List.append_assoc]
      rfl
  | time fsp =>
      rw [visitText_of_pn this (.time fsp) rfl rfl rfl rfl]
      unfold ColumnKind.writtenType
      simp only [ColumnType.text_nil]
      exact List.append_nil _
  | decimal precision scale =>
      rw [visitText_of_pn this (.decimal precision scale) rfl rfl rfl rfl]
      unfold ColumnKind.writtenType
      simp only [ColumnType.text_two]
      rfl
  | _ =>
      rw [visitText_of_pn _ _ rfl rfl rfl rfl]
      unfold ColumnKind.writtenType
      simp only [ColumnType.text_nil]
      rfl

/-- What the separate code appends: a key is unique if it is an index. -/
theorem appended_text (this : Meta) (kind : ColumnKind) (h : this.hasIndex = this.isUnique) :
    defaultText this ++ keyText this = (kind.writtenAttributes this).appendedText := by
  have hdefault : defaultText this = ((kind.writtenAttributes this).default.map fun text =>
      " DEFAULT \"".toList ++ text ++ "\"".toList).getD [] := by
    change _ = (this.writtenDefault.map _).getD []
    unfold defaultText Meta.writtenDefault
    cases this.defaultVal with
    | none => rfl
    | some val =>
        by_cases htruthy : val.isTruthy = true
        · simp only [htruthy, if_true, Option.filter_some, Option.map_some, Option.getD_some]
        · simp only [htruthy, Bool.false_eq_true, if_false, Option.filter_some, Option.map_none,
            Option.getD_none]
  have hkey : keyText this = (if this.hasIndex then " UNIQUE KEY ".toList else []) ++
      (if !this.hasIndex && this.isPrimaryKey then " PRIMARY KEY".toList else []) := by
    unfold keyText
    rw [← h]
    cases this.hasIndex with
    | false => rfl
    | true => rfl
  rw [hdefault, hkey]
  rfl

/-! ## Chunks -/

section Chunks

variable {text : List Char}

theorem IsWord.isChunk (h : IsWord text) : sql.IsChunk text [.word text] :=
  isChunk_word h.1 h.2

theorem isWord_of_all (h : (text ≠ [] && text.all sql.isWord) = true) : IsWord text := by
  rw [Bool.and_eq_true, decide_eq_true_eq, List.all_eq_true] at h
  exact h

theorem isWordChar_of_isDigit {char : Char} (h : char.isDigit = true) : sql.isWord char = true := by
  change (char.isAlphanum || _ || _ || _) = true
  simp [Char.isAlphanum, h]

theorem numberText_eq (value : ℕ) : numberText value = Nat.toDigits 10 value := by
  simp [numberText]

theorem isWord_numberText (value : ℕ) : IsWord (numberText value) := by
  rw [numberText_eq]
  refine ⟨?_, fun char hchar => ?_⟩
  · exact Nat.toDigits_ne_nil
  · exact isWordChar_of_isDigit (Nat.isDigit_of_mem_toDigits (by norm_num) (by norm_num) hchar)

theorem isWord_argumentText (value : Option ℕ) : IsWord (argumentText value) := by
  cases value with
  | none => exact isWord_of_all rfl
  | some value => exact isWord_numberText value

/-- A fixed text that does not start within a word. -/
theorem isPiece_of_tokens {read : Tokens} (h : sql.tokens text = some read)
    (hstarts : sql.starts text = false) : sql.IsPiece text read :=
  ⟨isChunk_of_tokens h, hstarts⟩

theorem isPiece_pu (unsigned : Bool) : sql.IsPiece (pu unsigned) (flagTokens unsigned ["UNSIGNED"]) := by
  cases unsigned with
  | false => exact isPiece_nil
  | true => exact isPiece_of_tokens rfl rfl

theorem isPiece_pn (nullable : Bool) :
    sql.IsPiece (pn nullable) (flagTokens (!nullable) ["NOT", "NULL"]) := by
  cases nullable with
  | false => exact isPiece_of_tokens rfl rfl
  | true => exact isPiece_nil

theorem isPiece_currentTimestamp (generated : Bool) :
    sql.IsPiece (TranslateMeta.currentTimestamp generated)
      (flagTokens generated ["DEFAULT", "CURRENT_TIMESTAMP"]) := by
  cases generated with
  | false => exact isPiece_nil
  | true => exact isPiece_of_tokens rfl rfl

theorem isPiece_autoIncrement (generated : Bool) :
    sql.IsPiece (if generated then " AUTO_INCREMENT".toList else [])
      (flagTokens generated ["AUTO_INCREMENT"]) := by
  cases generated with
  | false => exact isPiece_nil
  | true => exact isPiece_of_tokens rfl rfl

/-- A word after fixed keywords with a blank at the end. -/
theorem isPiece_clause {start : List Char} {texts : List String}
    (hstart : sql.feed ([], .gap) start = some (keywords texts, .gap))
    (hstarts : sql.starts start = false) (hne : start ≠ []) (value : Option (List Char))
    (hvalue : ∀ text ∈ value, IsWord text) :
    sql.IsPiece ((value.map fun text => start ++ text).getD [])
      (clauseTokens (value.map .word) texts) := by
  cases value with
  | none => exact isPiece_nil
  | some text =>
      exact (readsToGap_of_feed hstart).append_isPiece hstarts hne (hvalue text rfl).isChunk

theorem isPiece_charset (characterset collate : Option (List Char))
    (hcharacterset : ∀ text ∈ characterset, IsWord text) (hcollate : ∀ text ∈ collate, IsWord text) :
    sql.IsPiece (TranslateMeta.charsetText characterset collate)
      (clauseTokens (characterset.map .word) ["CHARACTER", "SET"] ++
        clauseTokens (collate.map .word) ["COLLATE"]) :=
  (isPiece_clause rfl rfl (by decide) characterset hcharacterset).append
    (isPiece_clause rfl rfl (by decide) collate hcollate)

/-- `" DEFAULT "`, a double quote, the value and another one. -/
theorem isPiece_default (h : IsQuotable text) :
    sql.IsPiece (" DEFAULT \"".toList ++ text ++ "\"".toList)
      (clauseTokens (some (.string text)) ["DEFAULT"]) := by
  have hstart : sql.ReadsToGap " DEFAULT ".toList (keywords ["DEFAULT"]) := readsToGap_of_feed rfl
  have hstring : sql.ReadsToGap (sql.quote :: (text ++ [sql.quote])) [.string text] :=
    readsToGap_string (fun _ => rfl) h.1 h.2
  have happend : sql.IsPiece (" DEFAULT ".toList ++ sql.quote :: (text ++ [sql.quote]))
      (keywords ["DEFAULT"] ++ [.string text]) :=
    hstart.append_isPiece rfl (by decide) hstring.isChunk
  have htext : " DEFAULT \"".toList ++ text ++ "\"".toList =
      " DEFAULT ".toList ++ sql.quote :: (text ++ [sql.quote]) := by
    simp [show sql.quote = Char.ofNat 0x22 from rfl]
  rw [htext]
  exact happend

theorem isPiece_uniqueKey (isUnique : Bool) :
    sql.IsPiece (if isUnique then " UNIQUE KEY ".toList else [])
      (flagTokens isUnique ["UNIQUE", "KEY"]) := by
  cases isUnique with
  | false => exact isPiece_nil
  | true => exact isPiece_of_tokens rfl rfl

theorem isPiece_primaryKey (isPrimaryKey : Bool) :
    sql.IsPiece (if isPrimaryKey then " PRIMARY KEY".toList else [])
      (flagTokens isPrimaryKey ["PRIMARY", "KEY"]) := by
  cases isPrimaryKey with
  | false => exact isPiece_nil
  | true => exact isPiece_of_tokens rfl rfl

/-- Names with a text between them that is read as a comma. -/
theorem isChunk_names {separator : List Char} (hseparator : sql.ReadsToGap separator [.symbol ','])
    (hstarts : sql.starts separator = false) (hne : separator ≠ []) (names : List (List Char))
    (hnames : ∀ name ∈ names, IsWord name) :
    sql.IsChunk (separator.intercalate names) (nameTokens names) := by
  induction names with
  | nil => exact isChunk_nil
  | cons name names ih =>
      have hname := (hnames name List.mem_cons_self).isChunk
      have hrest := ih fun other hother => hnames other (List.mem_cons_of_mem _ hother)
      cases names with
      | nil => simpa [nameTokens] using hname
      | cons other names =>
          have happend := hname.append_isPiece (hseparator.append_isPiece hstarts hne hrest)
          simpa [List.intercalate, nameTokens] using happend

theorem isChunk_type {type : ColumnType} (hkeyword : IsWord type.keyword)
    (harguments : ∀ argument ∈ type.arguments, IsWord argument) :
    sql.IsChunk type.text type.tokens := by
  unfold ColumnType.text ColumnType.tokens
  by_cases hnone : type.arguments = []
  · simpa only [hnone, if_true, List.append_nil] using hkeyword.isChunk
  · have hopening : sql.ReadsToGap "(".toList [.symbol '('] := readsToGap_of_feed rfl
    have hclosing : sql.IsPiece ")".toList [.symbol ')'] := isPiece_of_tokens rfl rfl
    have hnames : sql.IsChunk (", ".toList.intercalate type.arguments)
        (nameTokens type.arguments) :=
      isChunk_names (readsToGap_of_feed rfl) rfl (by decide) _ harguments
    rw [if_neg hnone, if_neg hnone]
    exact hkeyword.isChunk.append_isPiece
      (hopening.append_isPiece rfl (by decide) (hnames.append_isPiece hclosing))

end Chunks

/-- The texts that attributes name. -/
structure Attributes.Plain (attributes : Attributes) : Prop where
  characterset : ∀ text ∈ attributes.characterset, IsWord text
  collate : ∀ text ∈ attributes.collate, IsWord text
  default : ∀ text ∈ attributes.default, IsQuotable text

/-- The attributes of a column are pieces in the order in which they are read. -/
theorem isPiece_attributes {attributes : Attributes} (h : attributes.Plain) :
    sql.IsPiece (attributes.visitText ++ attributes.appendedText) attributes.tokens := by
  have hunsigned := isPiece_pu attributes.unsigned
  have hnotNull : sql.IsPiece (pn (!attributes.notNull))
      (flagTokens attributes.notNull ["NOT", "NULL"]) := by
    simpa using isPiece_pn (!attributes.notNull)
  have hcharset := isPiece_charset _ _ h.characterset h.collate
  have hautoIncrement := isPiece_autoIncrement attributes.autoIncrement
  have hcurrentTimestamp := isPiece_currentTimestamp attributes.currentTimestamp
  have hdefault : sql.IsPiece
      ((attributes.default.map fun text => " DEFAULT \"".toList ++ text ++ "\"".toList).getD [])
      (clauseTokens (attributes.default.map .string) ["DEFAULT"]) := by
    cases hvalue : attributes.default with
    | none => exact isPiece_nil
    | some text => exact isPiece_default (h.default text hvalue)
  have huniqueKey := isPiece_uniqueKey attributes.uniqueKey
  have hprimaryKey := isPiece_primaryKey attributes.primaryKey
  have happend := hunsigned.append (hnotNull.append (hcharset.append (hautoIncrement.append
    (hcurrentTimestamp.append (hdefault.append (huniqueKey.append hprimaryKey))))))
  unfold Attributes.visitText Attributes.appendedText Attributes.tokens
  simpa only [List.append_assoc] using happend

/-- The text of a column is read as its name, its type and its attributes. -/
theorem isChunk_column {name : List Char} {type : ColumnType} {attributes : Attributes}
    (hname : IsWord name) (hkeyword : IsWord type.keyword)
    (harguments : ∀ argument ∈ type.arguments, IsWord argument) (h : attributes.Plain) :
    sql.IsChunk (name ++ " ".toList ++
        (type.text ++ (attributes.visitText ++ attributes.appendedText)))
      (.word name :: (type.tokens ++ attributes.tokens)) := by
  have hblank : sql.ReadsToGap " ".toList [] := readsToGap_of_feed rfl
  have htype := (isChunk_type hkeyword harguments).append_isPiece (isPiece_attributes h)
  have happend := hname.isChunk.append_isPiece (hblank.append_isPiece rfl (by decide) htype)
  rw [List.append_assoc]
  exact happend

end DatabaseJones.TableCreation
