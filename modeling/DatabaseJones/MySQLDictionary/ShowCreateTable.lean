import DatabaseJones.MySQLDictionary.ParseCreateTable

/-!
# Table definitions and `SHOW CREATE TABLE`

A table definition with its columns, keys and foreign keys, the statement that the server
prints for it, one definition to a line, and the metadata that the definition states.  The
server writes `COLLATE` also without `CHARACTER SET`, `NULL` for a time stamp that can be
null, doubles quotes in texts, and writes some characters with a backslash.
-/

namespace DatabaseJones.MySQLDictionary

/-! ## Definitions -/

inductive IntegerSize
  | tinyint
  | smallint
  | mediumint
  | int
  | bigint
deriving DecidableEq

inductive ColumnType
  | integer (size : IntegerSize) (width : Option ℕ)
  | decimal (precision scale : ℕ)
  | binary (length : ℕ)
  | varbinary (length : ℕ)
  | char (length : ℕ)
  | varchar (length : ℕ)
  | text
  | blob
  | bit (length : ℕ)
  | json
  | date
  | time (fsp : ℕ)
  | datetime (fsp : ℕ)
  | timestamp (fsp : ℕ)
  | year (width : Option ℕ)
deriving DecidableEq

inductive Default
  | null
  | text (value : Text)
  | integer (value : ℤ)
  | bits (value : ℕ)
  | currentTimestamp
deriving DecidableEq

structure ColumnDefinition where
  name : Text
  type : ColumnType
  isUnsigned : Bool
  characterSet : Option Text
  collation : Option Text
  isNullable : Bool
  default : Option Default
  isAutoIncrement : Bool
deriving DecidableEq

/-- A method after `USING`. -/
inductive IndexMethod
  | btree
  | hash
deriving DecidableEq

structure PrimaryKey where
  columns : List Text
  method : Option IndexMethod
deriving DecidableEq

structure KeyDefinition where
  name : Text
  isUnique : Bool
  columns : List Text
  method : Option IndexMethod
deriving DecidableEq

/-- A foreign key; the storage engine writes a blank after the commas in its lists or not. -/
structure ForeignKeyDefinition where
  name : Text
  columns : List Text
  targetDatabase : Option Text
  targetTable : Text
  targetColumns : List Text
  hasBlanks : Bool
  actions : List Text
deriving DecidableEq

structure TableDefinition where
  name : Text
  columns : List ColumnDefinition
  primaryKey : Option PrimaryKey
  keys : List KeyDefinition
  foreignKeys : List ForeignKeyDefinition
  options : List Text
deriving DecidableEq

/-! ## Printing -/

def digits (value : ℕ) : Text := (toString value).toList

/-- A name between back-quotes, which are doubled within. -/
def quoteName (name : Text) : Text :=
  Char.ofNat 0x60 :: (name.flatMap fun char =>
    if char = Char.ofNat 0x60 then [char, char] else [char]) ++ [Char.ofNat 0x60]

/-- A character in a quoted text. -/
def escapeChar (char : Char) : Text :=
  if char = Char.ofNat 0x5C then [char, char]
  else if char = Char.ofNat 0x27 then [char, char]
  else if char = '\n' then [Char.ofNat 0x5C, 'n']
  else if char = '\r' then [Char.ofNat 0x5C, 'r']
  else if char = Char.ofNat 0 then [Char.ofNat 0x5C, '0']
  else [char]

def quoteText (value : Text) : Text :=
  Char.ofNat 0x27 :: value.flatMap escapeChar ++ [Char.ofNat 0x27]

def IntegerSize.word : IntegerSize → Text
  | .tinyint => "tinyint".toList
  | .smallint => "smallint".toList
  | .mediumint => "mediumint".toList
  | .int => "int".toList
  | .bigint => "bigint".toList

def ColumnType.word : ColumnType → Text
  | .integer size _ => size.word
  | .decimal _ _ => "decimal".toList
  | .binary _ => "binary".toList
  | .varbinary _ => "varbinary".toList
  | .char _ => "char".toList
  | .varchar _ => "varchar".toList
  | .text => "text".toList
  | .blob => "blob".toList
  | .bit _ => "bit".toList
  | .json => "json".toList
  | .date => "date".toList
  | .time _ => "time".toList
  | .datetime _ => "datetime".toList
  | .timestamp _ => "timestamp".toList
  | .year _ => "year".toList

/-- What stands between the parentheses of a type; a precision of 0 is not written. -/
def ColumnType.size : ColumnType → Option Text
  | .integer _ width => width.map digits
  | .decimal precision scale => some (digits precision ++ ',' :: digits scale)
  | .binary length => some (digits length)
  | .varbinary length => some (digits length)
  | .char length => some (digits length)
  | .varchar length => some (digits length)
  | .bit length => some (digits length)
  | .time fsp => if fsp = 0 then none else some (digits fsp)
  | .datetime fsp => if fsp = 0 then none else some (digits fsp)
  | .timestamp fsp => if fsp = 0 then none else some (digits fsp)
  | .year width => width.map digits
  | _ => none

def ColumnType.token (type : ColumnType) : Text :=
  type.word ++ (type.size.map fun size => '(' :: size ++ [')']).getD []

def ColumnType.isTimestamp : ColumnType → Bool
  | .timestamp _ => true
  | _ => false

def Default.token : Default → Text
  | .null => "NULL".toList
  | .text value => quoteText value
  | .integer value => quoteText (toString value).toList
  | .bits value => 'b' :: quoteText (Nat.toDigits 2 value)
  | .currentTimestamp => "CURRENT_TIMESTAMP".toList

def flag (isSet : Bool) (words : List String) : List Text :=
  if isSet then words.map String.toList else []

def clause (words : List String) (value : Option Text) : List Text :=
  (value.map fun token => words.map String.toList ++ [token]).getD []

/-- The tokens after the type of a column. -/
def ColumnDefinition.clauses (column : ColumnDefinition) : List Text :=
  clause ["CHARACTER", "SET"] column.characterSet ++
    (clause ["COLLATE"] column.collation ++
    (flag (!column.isNullable) ["NOT", "NULL"] ++
    (flag (column.isNullable && column.type.isTimestamp) ["NULL"] ++
    (clause ["DEFAULT"] (column.default.map Default.token) ++
    flag column.isAutoIncrement ["AUTO_INCREMENT"]))))

def ColumnDefinition.tokens (column : ColumnDefinition) : List Text :=
  quoteName column.name :: column.type.token ::
    (flag column.isUnsigned ["unsigned"] ++ column.clauses)

/-- Names in parentheses. -/
def nameList (separator : Text) (names : List Text) : Text :=
  '(' :: separator.intercalate (names.map quoteName) ++ [')']

def methodTokens : Option IndexMethod → List Text
  | none => []
  | some .btree => ["USING".toList, "BTREE".toList]
  | some .hash => ["USING".toList, "HASH".toList]

def PrimaryKey.tokens (key : PrimaryKey) : List Text :=
  "PRIMARY".toList :: "KEY".toList :: nameList [','] key.columns :: methodTokens key.method

def KeyDefinition.tokens (key : KeyDefinition) : List Text :=
  flag key.isUnique ["UNIQUE"] ++ "KEY".toList :: quoteName key.name ::
    nameList [','] key.columns :: methodTokens key.method

def ForeignKeyDefinition.separator (key : ForeignKeyDefinition) : Text :=
  if key.hasBlanks then [',', ' '] else [',']

def ForeignKeyDefinition.target (key : ForeignKeyDefinition) : Text :=
  (key.targetDatabase.map fun database => quoteName database ++ ['.']).getD [] ++
    quoteName key.targetTable

def ForeignKeyDefinition.tokens (key : ForeignKeyDefinition) : List Text :=
  "CONSTRAINT".toList :: quoteName key.name :: "FOREIGN".toList :: "KEY".toList ::
    nameList key.separator key.columns :: "REFERENCES".toList :: key.target ::
    nameList key.separator key.targetColumns :: key.actions

/-- A line of the statement, with two blanks at its start. -/
def lineOf (tokens : List Text) : Text := [' '].intercalate ([] :: [] :: tokens)

def TableDefinition.elements (table : TableDefinition) : List (List Text) :=
  table.columns.map ColumnDefinition.tokens ++ (table.primaryKey.toList.map PrimaryKey.tokens ++
    (table.keys.map KeyDefinition.tokens ++ table.foreignKeys.map ForeignKeyDefinition.tokens))

/-- A comma stands at the end of all lines but the last. -/
def withCommas : List Text → List Text
  | [] => []
  | [line] => [line]
  | line :: lines => (line ++ [',']) :: withCommas lines

/-- The text that `SHOW CREATE TABLE` returns. -/
def showCreateTable (table : TableDefinition) : Text :=
  ['\n'].intercalate
    (("CREATE TABLE ".toList ++ quoteName table.name ++ " (".toList) ::
      (withCommas (table.elements.map lineOf) ++ [[' '].intercalate ([')'] :: table.options)]))

/-! ## The metadata that is stated -/

/-- The value of a default; the current time is stated by its name. -/
def Default.value : Default → DefaultValue
  | .null => .null
  | .text value => .text value
  | .integer value => .number (some value)
  | .bits value => .number (some value)
  | .currentTimestamp => .text "CURRENT_TIMESTAMP".toList

def IntegerSize.bytes : IntegerSize → ℕ
  | .tinyint => 1
  | .smallint => 2
  | .mediumint => 3
  | .int => 4
  | .bigint => 8

def ColumnType.intSize : ColumnType → Option ℕ
  | .integer size _ => some size.bytes
  | _ => none

def ColumnType.isIntegral : ColumnType → Bool
  | .integer _ _ => true
  | .bit _ => true
  | _ => false

def ColumnType.isBinary : ColumnType → Bool
  | .binary _ => true
  | .varbinary _ => true
  | .blob => true
  | _ => false

def ColumnType.length : ColumnType → Option ℕ
  | .binary length => some length
  | .varbinary length => some length
  | .char length => some length
  | .varchar length => some length
  | .bit length => some length
  | _ => none

def ColumnType.precision : ColumnType → Option ℕ
  | .decimal precision _ => some precision
  | _ => none

def ColumnType.scale : ColumnType → Option ℕ
  | .decimal _ scale => some scale
  | _ => none

/-- A number as a property. -/
def property (value : Option ℕ) : Option (Option ℤ) := value.map fun number => some (number : ℤ)

def ColumnDefinition.metadata (column : ColumnDefinition) (columnNumber : ℕ)
    (isInPrimaryKey : Bool) : Column where
  columnNumber
  name := column.name
  columnType := column.type.word.map Char.toUpper
  isUnsigned := column.isUnsigned
  intSize := column.type.intSize
  isIntegral := column.type.isIntegral
  precision := property column.type.precision
  scale := property column.type.scale
  isBinary := column.type.isBinary
  length := property column.type.length
  charsetName := column.characterSet
  collationName := column.collation
  isNullable := column.isNullable
  defaultValue := column.default.map Default.value
  isAutoincrement := column.isAutoIncrement
  isInPrimaryKey

/-- The numbers of columns with these names. -/
def TableDefinition.columnNumbers (table : TableDefinition) (names : List Text) : List ℕ :=
  names.filterMap fun name => table.columns.findIdx? fun column => column.name = name

/-- The primary key as a key. -/
def PrimaryKey.key (key : PrimaryKey) : KeyDefinition :=
  ⟨"PRIMARY".toList, true, key.columns, key.method⟩

/-- A key that is no hash is ordered. -/
def KeyDefinition.isOrdered (key : KeyDefinition) : Bool := key.method ≠ some .hash

/-- The index of a key; a unique key has its ordered index apart. -/
def KeyDefinition.index (table : TableDefinition) (isPrimaryKey : Bool) (key : KeyDefinition) :
    Index :=
  ⟨some key.name, isPrimaryKey, key.isUnique, key.isOrdered && !key.isUnique,
    some (table.columnNumbers key.columns)⟩

/-- The ordered index of a unique key. -/
def KeyDefinition.orderedIndex (table : TableDefinition) (key : KeyDefinition) : Option Index :=
  if key.isUnique && key.isOrdered then
    some ⟨some key.name, false, false, true, some (table.columnNumbers key.columns)⟩
  else none

def ForeignKeyDefinition.metadata (databaseName : Text) (key : ForeignKeyDefinition) :
    ForeignKey where
  name := some key.name
  columnNames := key.columns
  targetDatabase := some (key.targetDatabase.getD databaseName)
  targetTable := some key.targetTable
  targetColumnNames := key.targetColumns

/-- The metadata of a table: the index of the primary key first, then those of the keys, and
then the ordered indexes of unique keys. -/
def TableDefinition.metadata (table : TableDefinition) (databaseName : Text) : Table where
  name := table.name
  database := databaseName
  columns := table.columns.mapIdx fun columnNumber column =>
    column.metadata columnNumber
      (table.primaryKey.any fun key => column.name ∈ key.columns)
  indexes :=
    table.primaryKey.toList.map (fun key => key.key.index table true) ++
      table.keys.map (KeyDefinition.index table false) ++
      (table.primaryKey.toList.map PrimaryKey.key ++ table.keys).filterMap
        (KeyDefinition.orderedIndex table)
  foreignKeys := table.foreignKeys.map (ForeignKeyDefinition.metadata databaseName)
  sparseContainer :=
    if "SPARSE_FIELDS".toList ∈ table.columns.map ColumnDefinition.name then
      some "SPARSE_FIELDS".toList
    else none

/-- The metadata that is parsed from the text of the definition is what the definition
states. -/
def ParsesBack (databaseName : Text) (table : TableDefinition) : Prop :=
  parseCreateTable databaseName table.name (showCreateTable table) =
    some (table.metadata databaseName)

instance (databaseName : Text) (table : TableDefinition) :
    Decidable (ParsesBack databaseName table) :=
  inferInstanceAs (Decidable (_ = _))

end DatabaseJones.MySQLDictionary
