import DatabaseJones.Ndb.IntegerRoundTrip

/-!
# Table metadata from `SHOW CREATE TABLE`

`parseCreateTable` cuts the text into lines, and each line at blanks into tokens, which it
takes one after the other: `tokens[j]` is here the head of the tokens that are left, and
`j += n` drops `n` of them.  A method of `undefined` is a TypeError, for which the functions
return `none`; a number that is `none` is not finite.
-/

namespace DatabaseJones.MySQLDictionary

open DatabaseJones.Ndb (roundToDouble)

abbrev Text : Type := List Char

/-! ## Metadata -/

inductive DefaultValue
  | null
  | text (value : Text)
  | number (value : Option ℤ)
deriving DecidableEq

/-- The metadata of a column; properties that may be missing are options. -/
structure Column where
  columnNumber : ℕ
  name : Text
  columnType : Text
  isUnsigned : Bool
  intSize : Option ℕ
  isIntegral : Bool
  precision : Option (Option ℤ)
  scale : Option (Option ℤ)
  isBinary : Bool
  length : Option (Option ℤ)
  charsetName : Option Text
  collationName : Option Text
  isNullable : Bool
  defaultValue : Option DefaultValue
  isAutoincrement : Bool
  isInPrimaryKey : Bool
deriving DecidableEq

structure Index where
  name : Option Text
  isPrimaryKey : Bool
  isUnique : Bool
  isOrdered : Bool
  columnNumbers : Option (List ℕ)
deriving DecidableEq

structure ForeignKey where
  name : Option Text
  columnNames : List Text
  targetDatabase : Option Text
  targetTable : Option Text
  targetColumnNames : List Text
deriving DecidableEq

structure Table where
  name : Text
  database : Text
  columns : List Column
  indexes : List Index
  foreignKeys : List ForeignKey
  sparseContainer : Option Text
deriving DecidableEq

/-! ## Texts and numbers -/

/-- `text.split(separator)[index]` -/
def piece (separator : Char) (index : ℕ) (text : Text) : Option Text :=
  (text.splitOn separator)[index]?

/-- The number of an integer: the double that is next to it. -/
def toNumber (value : ℤ) : Option ℤ :=
  (roundToDouble value.natAbs).map fun magnitude : ℕ => value.sign * (magnitude : ℤ)

/-- The value of a text of digits. -/
def digitsValue (digits : Text) : ℕ :=
  digits.foldl (fun value char => 10 * value + (char.toNat - '0'.toNat)) 0

/-- `parseInt(text, 10)` -/
def parseInt (text : Text) : Option ℤ :=
  let trimmed := text.dropWhile Char.isWhitespace
  let unsigned := if trimmed.head? = some '-' ∨ trimmed.head? = some '+' then trimmed.tail else trimmed
  let digits := unsigned.takeWhile Char.isDigit
  if digits = [] then none
  else
    toNumber
      (if trimmed.head? = some '-' then -(digitsValue digits : ℤ) else (digitsValue digits : ℤ))

/-- `getPrecision(columnSize)`; the first piece is always there. -/
def getPrecision (columnSize : Text) : Option ℤ := (piece ',' 0 columnSize).bind parseInt

/-- `getScale(columnSize)` -/
def getScale (columnSize : Text) : Option ℤ := (piece ',' 1 columnSize).bind parseInt

/-- Every second piece of a text that is cut at back-quotes. -/
def everySecond : List Text → List Text
  | _ :: name :: pieces => name :: everySecond pieces
  | _ => []

def decodeIndexColumnNames (columnNames : Text) : List Text :=
  everySecond (columnNames.splitOn (Char.ofNat 0x60))

/-- The positions of the names in the columns; a name that is not there is left out. -/
def convertColumnNamesToNumbers (columnNames : List Text) (columns : List Column) : List ℕ :=
  columnNames.filterMap fun name => columns.findIdx? fun column => column.name = name

/-! ## Lines -/

/-- The variables of the loop over the lines. -/
structure State where
  columns : List Column
  indexes : List Index
  foreignKeys : List ForeignKey
  sparseContainer : Option Text
  columnNumber : ℕ
  columnSize : Option Text
deriving DecidableEq

/-- `{'name': 'PRIMARY PLACEHOLDER'}` -/
def placeholder : Index := ⟨some "PRIMARY PLACEHOLDER".toList, false, false, false, none⟩

def State.init : State := ⟨[], [placeholder], [], none, 0, none⟩

/-- `column.isInPrimaryKey = true` for the columns of these numbers. -/
def markPrimary (columns : List Column) (numbers : List ℕ) : List Column :=
  numbers.foldl (fun columns number =>
    columns.modify number fun column => { column with isInPrimaryKey := true }) columns

/-- The tokens after `PRIMARY`. -/
def parsePrimary (state : State) (tokens : List Text) : Option State :=
  tokens[1]?.map fun columnNames =>
    let numbers :=
      convertColumnNamesToNumbers (decodeIndexColumnNames columnNames) state.columns
    { state with
      columns := markPrimary state.columns numbers
      indexes := state.indexes.set 0 ⟨some "PRIMARY".toList, true, true, true, some numbers⟩
      columnNumber := numbers.getLast?.getD state.columnNumber }

/-- Whether a method is named that is a hash. -/
def usesHash : List Text → Option Bool
  | [] => some false
  | _ :: tokens => tokens.head?.map fun method => decide ("HASH".toList <:+: method)

/-- The tokens after `KEY`. -/
def parseKey (unique : Bool) (state : State) : List Text → Option State
  | indexName :: columnNames :: tokens =>
      (usesHash tokens).map fun usingHash =>
        { state with
          indexes := state.indexes ++
            [⟨piece (Char.ofNat 0x60) 1 indexName, false, unique, !usingHash,
              some (convertColumnNamesToNumbers (decodeIndexColumnNames columnNames)
                state.columns)⟩] }
  | _ => none

/-- The database and the table that are referred to. -/
def parseTarget (databaseName target : Text) : Option Text × Option Text :=
  match target.splitOn '.' with
  | [database, table] => (piece (Char.ofNat 0x60) 1 database, piece (Char.ofNat 0x60) 1 table)
  | parts => (some databaseName, parts.head?.bind (piece (Char.ofNat 0x60) 1))

/-- The tokens after `FOREIGN KEY`. -/
def parseForeignKey (databaseName : Text) (name : Option Text) (state : State) :
    List Text → Option State
  | [] => none
  | columnNames :: tokens =>
      if tokens.head? = some "REFERENCES".toList then
        match tokens.tail with
        | target :: targetColumnNames :: _ =>
            some
              { state with
                foreignKeys := state.foreignKeys ++
                  [⟨name, decodeIndexColumnNames columnNames,
                    (parseTarget databaseName target).1, (parseTarget databaseName target).2,
                    decodeIndexColumnNames targetColumnNames⟩] }
        | _ => none
      else some state

/-- The tokens after `CONSTRAINT`; constraints that are no foreign keys are ignored. -/
def parseConstraint (databaseName : Text) (state : State) : List Text → Option State
  | [] => none
  | name :: tokens =>
      if tokens.head? = some "FOREIGN".toList then
        let afterForeign := tokens.tail
        parseForeignKey databaseName (piece (Char.ofNat 0x60) 1 name) state
          (if afterForeign.head? = some "KEY".toList then afterForeign.tail else afterForeign)
      else some state

/-- The metadata that is specific to a type; a decimal without a size is a TypeError. -/
def typeMetadata (columnType : Text) (columnSize : Option Text) (column : Column) :
    Option Column :=
  if columnType = "tinyint".toList then some { column with intSize := some 1, isIntegral := true }
  else if columnType = "smallint".toList then
    some { column with intSize := some 2, isIntegral := true }
  else if columnType = "mediumint".toList then
    some { column with intSize := some 3, isIntegral := true }
  else if columnType = "int".toList then some { column with intSize := some 4, isIntegral := true }
  else if columnType = "bigint".toList then
    some { column with intSize := some 8, isIntegral := true }
  else if columnType = "json".toList then some column
  else if columnType = "decimal".toList then
    columnSize.map fun size =>
      { column with precision := some (getPrecision size), scale := some (getScale size) }
  else if columnType = "binary".toList ∨ columnType = "varbinary".toList then
    some { column with isBinary := true, length := some (columnSize.bind parseInt) }
  else if columnType = "char".toList ∨ columnType = "varchar".toList then
    some { column with length := some (columnSize.bind parseInt) }
  else if columnType = "blob".toList then some { column with isBinary := true }
  else if columnType = "bit".toList then
    some { column with length := some (columnSize.bind parseInt), isIntegral := true }
  else some column

/-- The clauses `CHARACTER SET` and, only after it, `COLLATE`. -/
def parseCharset (column : Column) (tokens : List Text) : Column × List Text :=
  if tokens.head? = some "CHARACTER".toList then
    let rest := tokens.drop 3
    if rest.head? = some "COLLATE".toList then
      ({ column with charsetName := tokens[2]?, collationName := rest[1]? }, rest.drop 2)
    else ({ column with charsetName := tokens[2]? }, rest)
  else (column, tokens)

def parseNotNull (column : Column) (tokens : List Text) : Column × List Text :=
  if tokens.head? = some "NOT".toList then ({ column with isNullable := false }, tokens.drop 2)
  else ({ column with isNullable := true }, tokens)

/-- The value of a default that is not `NULL`: the first quoted text of the line. -/
def literalDefault (column : Column) (line : Text) : Option DefaultValue :=
  let raw := piece (Char.ofNat 0x27) 1 line
  if column.isIntegral then some (.number (raw.bind parseInt)) else raw.map .text

def parseDefault (line : Text) (column : Column) (tokens : List Text) : Column × List Text :=
  if tokens.head? = some "DEFAULT".toList then
    ({ column with
        defaultValue :=
          if tokens[1]? = some "NULL".toList then some .null else literalDefault column line },
      tokens.drop 2)
  else (column, tokens)

def parseAutoIncrement (column : Column) (tokens : List Text) : Column :=
  if tokens.head? = some "AUTO_INCREMENT".toList then { column with isAutoincrement := true }
  else column

/-- The column before its type is looked at. -/
def Column.new (columnNumber : ℕ) (name columnType : Text) (isUnsigned : Bool) : Column where
  columnNumber
  name
  columnType := columnType.map Char.toUpper
  isUnsigned
  intSize := none
  isIntegral := false
  precision := none
  scale := none
  isBinary := false
  length := none
  charsetName := none
  collationName := none
  isNullable := true
  defaultValue := none
  isAutoincrement := false
  isInPrimaryKey := false

/-- The clauses after the type. -/
def parseClauses (line : Text) (column : Column) (tokens : List Text) : Column :=
  let charset := parseCharset column tokens
  let notNull := parseNotNull charset.1 charset.2
  let default := parseDefault line notNull.1 notNull.2
  parseAutoIncrement default.1 default.2

/-- The size of a type between parentheses; without one the last size is kept. -/
def sizeOf (columnTypeAndSize : Text) (columnSize : Option Text) : Option Text :=
  match piece '(' 1 columnTypeAndSize with
  | some size => piece ')' 0 size
  | none => columnSize

/-- The tokens after the name of a column. -/
def parseColumn (line : Text) (state : State) (columnName : Text) : List Text → Option State
  | [] => none
  | columnTypeAndSize :: tokens =>
      let columnType := (piece '(' 0 columnTypeAndSize).getD []
      let columnSize := sizeOf columnTypeAndSize state.columnSize
      let unsigned : Bool := tokens.head? = some "unsigned".toList
      let rest := if unsigned then tokens.tail else tokens
      (typeMetadata columnType columnSize
        (.new state.columnNumber columnName columnType unsigned)).map fun column =>
        { state with
          columns := state.columns ++ [parseClauses line column rest]
          sparseContainer :=
            if columnName = "SPARSE_FIELDS".toList then some columnName
            else state.sparseContainer
          columnNumber := state.columnNumber + 1
          columnSize }

/-- The line without a comma at its end. -/
def withoutComma (line : Text) : Text :=
  if line.getLast? = some ',' then line.dropLast else line

/-- The cases of the first token; a line without tokens is a TypeError. -/
def parseTokens (databaseName : Text) (state : State) (line : Text) : List Text → Option State
  | [] => none
  | token :: tokens =>
      if token = "PRIMARY".toList then parsePrimary state tokens
      else if token = "UNIQUE".toList then parseKey true state tokens.tail
      else if token = "KEY".toList then parseKey false state tokens
      else if token = ")".toList then some state
      else if token = "CONSTRAINT".toList then parseConstraint databaseName state tokens
      else
        match piece (Char.ofNat 0x60) 1 token with
        | none => some state
        | some columnName => parseColumn line state columnName tokens

/-- One turn of the loop. -/
def parseLine (databaseName : Text) (state : State) (line : Text) : Option State :=
  parseTokens databaseName state (withoutComma line)
    (((withoutComma line).splitOn ' ').dropWhile (· = []))

/-! ## The statement -/

/-- Each unique and ordered index becomes a unique one, and an ordered one at the end. -/
def splitIndexes (indexes : List Index) : List Index :=
  indexes.map (fun index => { index with isOrdered := index.isOrdered && !index.isUnique }) ++
    (indexes.filter fun index => index.isUnique && index.isOrdered).map fun index =>
      { index with isUnique := false, isPrimaryKey := false }

/-- `parseCreateTable(tableName, statement)` -/
def parseCreateTable (databaseName tableName statement : Text) : Option Table :=
  ((statement.splitOn '\n').tail.foldlM (parseLine databaseName) .init).map fun state =>
    { name := tableName
      database := databaseName
      columns := state.columns
      indexes := splitIndexes state.indexes
      foreignKeys := state.foreignKeys
      sparseContainer := state.sparseContainer }

end DatabaseJones.MySQLDictionary
