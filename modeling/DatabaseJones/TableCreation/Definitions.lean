import DatabaseJones.Library.QuotedWords
import DatabaseJones.TableCreation.SQLBuilder

/-!
# Reading the definition of a table

A reader for the part of `CREATE TABLE` that the statements use: columns with a type and
attributes in the order type, sign, nullability, character set, generation, default and
keys, and indexes.  Of two defaults the last one counts.  What a mapping states is a table
definition as well, to be compared with the one that is read.
-/

namespace DatabaseJones.TableCreation

open Library

/-! ## Definitions -/

/-- A type as it is written, with its arguments. -/
structure ColumnType where
  keyword : List Char
  arguments : List (List Char)
deriving DecidableEq

/-- The attributes of a column as they are written. -/
structure Attributes where
  unsigned : Bool
  notNull : Bool
  characterset : Option (List Char)
  collate : Option (List Char)
  autoIncrement : Bool
  currentTimestamp : Bool
  default : Option (List Char)
  uniqueKey : Bool
  primaryKey : Bool
deriving DecidableEq

/-- What a definition of a column says. -/
structure ColumnDefinition where
  name : List Char
  type : ColumnType
  unsigned : Bool
  nullable : Bool
  characterset : Option (List Char)
  collate : Option (List Char)
  generated : Bool
  default : Option (List Char)
  unique : Bool
  primary : Bool
  hash : Bool
deriving DecidableEq

inductive IndexType
  | primary
  | unique
  | ordinary
deriving DecidableEq

structure IndexDefinition where
  type : IndexType
  name : Option (List Char)
  hash : Bool
  columns : List (List Char)
deriving DecidableEq

structure TableDefinition where
  database : List Char
  table : List Char
  columns : List ColumnDefinition
  indexes : List IndexDefinition
  engine : Option (List Char)
deriving DecidableEq

/-- The meaning of a written definition; a later default replaces the time stamp. -/
def Attributes.define (attributes : Attributes) (name : List Char) (type : ColumnType) :
    ColumnDefinition where
  name
  type
  unsigned := attributes.unsigned
  nullable := !attributes.notNull
  characterset := attributes.characterset
  collate := attributes.collate
  generated := attributes.autoIncrement ||
    (attributes.currentTimestamp && attributes.default.isNone)
  default := attributes.default
  unique := attributes.uniqueKey
  primary := attributes.primaryKey
  hash := false

/-! ## The reader -/

/-- The characters of statements. -/
def sql : QuotedAlphabet where
  isWord char := char.isAlphanum || char == '_' || char == '$' ||
    (0x80 ≤ char.toNat && char.toNat ≤ 0xFFFF)
  isSymbol char := ['(', ')', ',', '.', '=', ';'].contains char
  isBlank char := char == ' '
  quote := Char.ofNat 0x22
  escape := Char.ofNat 0x5C

abbrev Tokens : Type := List QuotedToken

def keyword (text : String) : QuotedToken := .word text.toList

def keywords (texts : List String) : Tokens := texts.map keyword

/-- The tokens after these keywords, if there are any such. -/
def after (expected tokens : Tokens) : Option Tokens :=
  if expected.isPrefixOf tokens then some (tokens.drop expected.length) else none

/-- Whether the keywords come next. -/
def readFlag (expected tokens : Tokens) : Bool × Tokens :=
  match after expected tokens with
  | some rest => (true, rest)
  | none => (false, tokens)

/-- The word after the keywords, if they come next. -/
def readWord (expected tokens : Tokens) : Option (List Char) × Tokens :=
  match after expected tokens with
  | some (.word text :: rest) => (some text, rest)
  | _ => (none, tokens)

/-- The string after the keyword, if it comes next. -/
def readString (expected tokens : Tokens) : Option (List Char) × Tokens :=
  match after expected tokens with
  | some (.string text :: rest) => (some text, rest)
  | _ => (none, tokens)

/-- Names with commas between them up to a closing parenthesis, and the rest. -/
def readNames : Tokens → Option (List (List Char) × Tokens)
  | .word name :: .symbol char :: rest =>
      if char = ')' then some ([name], rest)
      else if char = ',' then (readNames rest).map fun read => (name :: read.1, read.2)
      else none
  | _ => none

/-- The arguments of a type, which may have none. -/
def readArguments : Tokens → Option (List (List Char) × Tokens)
  | .symbol char :: rest => if char = '(' then readNames rest else none
  | tokens => some ([], tokens)

/-- The attributes of a column, which have to be all that is left. -/
def readAttributes (tokens : Tokens) : Option Attributes :=
  let unsigned := readFlag (keywords ["UNSIGNED"]) tokens
  let notNull := readFlag (keywords ["NOT", "NULL"]) unsigned.2
  let characterset := readWord (keywords ["CHARACTER", "SET"]) notNull.2
  let collate := readWord (keywords ["COLLATE"]) characterset.2
  let autoIncrement := readFlag (keywords ["AUTO_INCREMENT"]) collate.2
  let currentTimestamp := readFlag (keywords ["DEFAULT", "CURRENT_TIMESTAMP"]) autoIncrement.2
  let default := readString (keywords ["DEFAULT"]) currentTimestamp.2
  let uniqueKey := readFlag (keywords ["UNIQUE", "KEY"]) default.2
  let primaryKey := readFlag (keywords ["PRIMARY", "KEY"]) uniqueKey.2
  if primaryKey.2 = [] then
    some
      { unsigned := unsigned.1
        notNull := notNull.1
        characterset := characterset.1
        collate := collate.1
        autoIncrement := autoIncrement.1
        currentTimestamp := currentTimestamp.1
        default := default.1
        uniqueKey := uniqueKey.1
        primaryKey := primaryKey.1 }
  else none

/-- A name, a type and attributes. -/
def readColumn : Tokens → Option ColumnDefinition
  | .word name :: .word type :: tokens =>
      (readArguments tokens).bind fun arguments =>
        (readAttributes arguments.2).map fun attributes =>
          attributes.define name ⟨type, arguments.1⟩
  | _ => none

/-- The method and the columns of an index, which have to be all that is left. -/
def readIndexColumns (type : IndexType) (name : Option (List Char)) (tokens : Tokens) :
    Option IndexDefinition :=
  let hash := readFlag (keywords ["USING", "HASH"]) tokens
  match hash.2 with
  | .symbol char :: rest =>
      if char = '(' then
        match readNames rest with
        | some (columns, []) => some ⟨type, name, hash.1, columns⟩
        | _ => none
      else none
  | _ => none

/-- An index after `INDEX`, with or without a name. -/
def readIndex (type : IndexType) : Tokens → Option IndexDefinition
  | .word name :: tokens =>
      if name = "USING".toList then readIndexColumns type none (.word name :: tokens)
      else readIndexColumns type (some name) tokens
  | tokens => readIndexColumns type none tokens

/-- A column or an index. -/
def readElement (tokens : Tokens) : Option (ColumnDefinition ⊕ IndexDefinition) :=
  match after (keywords ["PRIMARY", "KEY"]) tokens with
  | some rest => (readIndexColumns .primary none rest).map .inr
  | none =>
      match after (keywords ["UNIQUE", "INDEX"]) tokens with
      | some rest => (readIndex .unique rest).map .inr
      | none =>
          match after (keywords ["INDEX"]) tokens with
          | some rest => (readIndex .ordinary rest).map .inr
          | none => (readColumn tokens).map .inl

/-- The elements up to the closing parenthesis, cut at the commas outside of parentheses,
and what comes after it. -/
def splitElements : ℕ → Tokens → Tokens → Option (List Tokens × Tokens)
  | _, _, [] => none
  | depth, current, .symbol char :: rest =>
      if char = '(' then splitElements (depth + 1) (current ++ [.symbol char]) rest
      else if char = ')' then
        match depth with
        | 0 => some ([current], rest)
        | depth + 1 => splitElements depth (current ++ [.symbol char]) rest
      else if char = ',' ∧ depth = 0 then
        (splitElements 0 [] rest).map fun split => (current :: split.1, split.2)
      else splitElements depth (current ++ [.symbol char]) rest
  | depth, current, token :: rest => splitElements depth (current ++ [token]) rest

/-- The end of the statement. -/
def readEngine (tokens : Tokens) : Option (Option (List Char)) :=
  match tokens with
  | [.symbol char] => if char = ';' then some none else none
  | [.word engine, .symbol equals, .word name, .symbol char] =>
      if engine = "ENGINE".toList ∧ equals = '=' ∧ char = ';' then some (some name) else none
  | _ => none

/-- The table that a list of tokens creates. -/
def readTable (tokens : Tokens) : Option TableDefinition :=
  match after (keywords ["CREATE", "TABLE"]) tokens with
  | some (.word database :: .symbol dot :: .word table :: .symbol opening :: rest) =>
      if dot = '.' ∧ opening = '(' then
        (splitElements 0 [] rest).bind fun split =>
          (split.1.mapM readElement).bind fun elements =>
            (readEngine split.2).map fun engine =>
              { database
                table
                columns := elements.filterMap Sum.getLeft?
                indexes := elements.filterMap Sum.getRight?
                engine }
      else none
  | _ => none

/-- The table that a statement creates. -/
def createdTable (text : List Char) : Option TableDefinition := (sql.tokens text).bind readTable

/-! ## What a mapping states -/

/-- The smallest integer type; `BIT` is `BIT(1)`. -/
def integerType (bits : ℕ) : ColumnType :=
  if bits < 8 then ⟨"BIT".toList, if bits = 1 then [] else [numberText bits]⟩
  else if bits = 8 then ⟨"TINYINT".toList, []⟩
  else if bits ≤ 16 then ⟨"SMALLINT".toList, []⟩
  else if bits ≤ 24 then ⟨"MEDIUMINT".toList, []⟩
  else if bits ≤ 32 then ⟨"INT".toList, []⟩
  else ⟨"BIGINT".toList, []⟩

/-- The type that a meta states: a large object has the type for these. -/
def statedType (stated : Meta) : ColumnKind → ColumnType
  | .binary length =>
      ⟨(if stated.isLob then "BLOB" else "BINARY").toList, [numberText length]⟩
  | .char length => ⟨(if stated.isLob then "TEXT" else "CHAR").toList, [numberText length]⟩
  | .date => ⟨"DATE".toList, []⟩
  | .datetime fsp => ⟨"DATETIME".toList, (fsp.map numberText).toList⟩
  | .decimal precision scale => ⟨"DECIMAL".toList, [numberText precision, numberText scale]⟩
  | .double => ⟨"DOUBLE".toList, []⟩
  | .float => ⟨"FLOAT".toList, []⟩
  | .integer bits => integerType (bits.getD 32)
  | .time fsp => ⟨"TIME".toList, (fsp.map numberText).toList⟩
  | .timestamp fsp =>
      ⟨"TIMESTAMP".toList, ((fsp.filter (· ≠ 0)).map numberText).toList⟩
  | .varbinary length =>
      ⟨(if stated.isLob then "BLOB" else "VARBINARY").toList, [numberText length]⟩
  | .varchar length =>
      ⟨(if stated.isLob then "TEXT" else "VARCHAR").toList, [numberText length]⟩
  | .year => ⟨"YEAR".toList, []⟩

/-- The kinds that have a character set. -/
def ColumnKind.isCharacter : ColumnKind → Bool
  | .char _ => true
  | .varchar _ => true
  | _ => false

/-- The kinds that can be unsigned; `BIT` has no sign. -/
def ColumnKind.isSigned : ColumnKind → Bool
  | .integer bits => 8 ≤ bits.getD 32
  | _ => false

/-- The kinds whose values the server can generate. -/
def ColumnKind.isGeneratable : ColumnKind → Bool
  | .integer _ => true
  | .datetime _ => true
  | .timestamp _ => true
  | _ => false

/-- The definition of a column that a meta states. -/
def Built.column (built : Built ColumnKind) (name : List Char) : ColumnDefinition where
  name
  type := statedType built.stated built.kind
  unsigned := built.kind.isSigned && built.stated.isUnsigned
  nullable := built.stated.isNullable
  characterset := if built.kind.isCharacter then built.stated.characterset else none
  collate := if built.kind.isCharacter then built.stated.collate else none
  generated := built.kind.isGeneratable && built.stated.isGenerated
  default := built.stated.defaultVal.map DefaultValue.toText
  unique := built.stated.isUnique
  primary := built.stated.isPrimaryKey
  hash := built.stated.isHash

/-- A column without a meta: an integer key of the name `id`, or a short text. -/
def plainColumn (name : List Char) (isId : Bool) : ColumnDefinition where
  name
  type := if isId then ⟨"INT".toList, []⟩ else ⟨"VARCHAR".toList, ["32".toList]⟩
  unsigned := false
  nullable := true
  characterset := none
  collate := none
  generated := false
  default := none
  unique := false
  primary := isId
  hash := false

/-- The definition of the column of a field. -/
def Field.definition (field : Field) : ColumnDefinition :=
  match field.fieldMeta with
  | some built => built.column field.column
  | none => plainColumn field.column (field.fieldName = "id".toList)

/-- The index that a meta of the table states. -/
def Built.index (built : Built IndexFactory) : IndexDefinition :=
  if built.statedIndex.isPrimaryKey then
    ⟨.primary, none, built.statedIndex.isHash, built.statedIndex.columns⟩
  else
    ⟨if built.statedIndex.isUnique || built.kind.kind = .uniqueIndex then .unique else .ordinary,
      if built.statedIndex.name = [] then none else some built.statedIndex.name,
      built.statedIndex.isHash, built.statedIndex.columns⟩

/-- The fields that have a column: the persistent ones that are no relationship. -/
def TableMapping.stored (tableMapping : TableMapping) : List Field :=
  (tableMapping.fields.filter fun field => field.persistent && !field.relationship) ++
    tableMapping.sparseContainer.toList

/-- The table that a mapping states. -/
def TableMapping.definition (tableMapping : TableMapping) (engine : Option (List Char)) :
    TableDefinition where
  database := tableMapping.database
  table := tableMapping.table
  columns := tableMapping.stored.map Field.definition
  indexes := tableMapping.tableMetas.map Built.index
  engine

/-- The statement creates the table that the mapping states, each column once. -/
def Creates (tableMapping : TableMapping) (engine : Option (List Char)) : Prop :=
  ∃ text, getSqlForTableCreation tableMapping engine = some text ∧
    createdTable text = some (tableMapping.definition engine) ∧
    (tableMapping.stored.map Field.column).Nodup

end DatabaseJones.TableCreation
