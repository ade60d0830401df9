import Mathlib.Data.List.Basic
import Mathlib.Tactic

/-!
# Meta objects

`meta` makes objects of type `Meta` that describe columns and indexes, and the methods of
`Meta` annotate them.  A meta for a column has a function `doit`, which calls the visitor
method of its kind; `doit` here is the kind.  `fromLiteralMeta` makes a `Meta` that has
none of the properties of the literal.
-/

namespace DatabaseJones.TableCreation

/-- A value for `DEFAULT`. -/
inductive DefaultValue
  | text (text : List Char)
  | number (value : ℤ)
deriving DecidableEq

/-- What `if(value)` takes for true. -/
def DefaultValue.isTruthy : DefaultValue → Bool
  | .text value => value ≠ []
  | .number value => value ≠ 0

/-- `'' + value` -/
def DefaultValue.toText : DefaultValue → List Char
  | .text value => value
  | .number value => (toString value).toList

/-- The factory functions for columns.  `fsp` and the bits of an integer need not be given. -/
inductive ColumnKind
  | binary (length : ℕ)
  | char (length : ℕ)
  | date
  | datetime (fsp : Option ℕ)
  | decimal (precision scale : ℕ)
  | double
  | float
  | integer (bits : Option ℕ)
  | time (fsp : Option ℕ)
  | timestamp (fsp : Option ℕ)
  | varbinary (length : ℕ)
  | varchar (length : ℕ)
  | year
deriving DecidableEq

/-- The properties of a `Meta`. -/
structure Meta where
  /-- The kind whose visitor method `doit` calls. -/
  doit : Option ColumnKind
  isNullable : Bool
  isGenerated : Bool
  characterset : Option (List Char)
  collate : Option (List Char)
  isHash : Bool
  isLob : Bool
  isPrimaryKey : Bool
  hasIndex : Bool
  isUnique : Bool
  isUnsigned : Bool
  defaultVal : Option DefaultValue
  isIndex : Bool
  name : List Char
  columns : List (List Char)

/-- `new Meta()` -/
def Meta.new : Meta where
  doit := none
  isNullable := true
  isGenerated := false
  characterset := none
  collate := none
  isHash := false
  isLob := false
  isPrimaryKey := false
  hasIndex := false
  isUnique := false
  isUnsigned := false
  defaultVal := none
  isIndex := false
  name := []
  columns := []

/-- The methods of `Meta`; `sparseContainer` and `shared` set properties that the creation
of tables does not read. -/
inductive Method
  | sparseContainer
  | generated
  | autoincrement
  | charset (characterset collate : List Char)
  | hash
  | lob
  | notNull
  | primaryKey
  | uniqueKey
  | unsigned
  | defaultValue (val : DefaultValue)
  | shared
deriving DecidableEq

def Meta.call (target : Meta) : Method → Meta
  | .sparseContainer => target
  | .generated => { target with isGenerated := true }
  | .autoincrement => { target with isGenerated := true }
  | .charset characterset collate =>
      { target with
        characterset := if characterset ≠ [] then some characterset else target.characterset
        collate := if collate ≠ [] then some collate else target.collate }
  | .hash => { target with isHash := true }
  | .lob => { target with isLob := true }
  | .notNull => { target with isNullable := false }
  | .primaryKey => { target with isPrimaryKey := true, isNullable := false }
  | .uniqueKey => { target with hasIndex := true, isUnique := true }
  | .unsigned => { target with isUnsigned := true }
  | .defaultValue val => { target with defaultVal := some val }
  | .shared => target

/-- The result of a factory function for columns. -/
def ColumnKind.new (kind : ColumnKind) : Meta := { Meta.new with doit := some kind }

/-- The factory functions for indexes. -/
inductive IndexKind
  | hashKey
  | index
  | primaryKey
  | uniqueIndex
deriving DecidableEq

/-- The result of a factory function for indexes; `uniqueIndex` sets a property `unique`,
which nothing reads. -/
def IndexKind.new (columns : List (List Char)) (name : List Char) : IndexKind → Meta
  | .hashKey =>
      { Meta.new with isIndex := true, isHash := true, isUnique := true, columns, name }
  | .index => { Meta.new with isIndex := true, columns, name }
  | .primaryKey => { Meta.new with isIndex := true, isPrimaryKey := true, columns }
  | .uniqueIndex => { Meta.new with isIndex := true, columns, name }

/-- A meta as a program builds it: a factory function, a chain of methods, and whether the
result is given as a literal that `fromLiteralMeta` turns into a `Meta`. -/
structure Built (κ : Type) where
  kind : κ
  methods : List Method
  isLiteral : Bool

/-- The object with the properties of the chain. -/
def Built.stated (built : Built ColumnKind) : Meta := built.methods.foldl Meta.call built.kind.new

/-- An index with its columns and its name. -/
structure IndexFactory where
  kind : IndexKind
  columns : List (List Char)
  name : List Char

def IndexFactory.new (factory : IndexFactory) : Meta :=
  factory.kind.new factory.columns factory.name

def Built.statedIndex (built : Built IndexFactory) : Meta :=
  built.methods.foldl Meta.call built.kind.new

/-- `fromLiteralMeta(literal)`: the properties of the literal are lost. -/
def fromLiteralMeta (_ : Meta) : Meta := Meta.new

/-- The object that the mapping holds. -/
def Built.object (built : Built ColumnKind) : Meta :=
  if built.isLiteral then fromLiteralMeta built.stated else built.stated

def Built.indexObject (built : Built IndexFactory) : Meta :=
  if built.isLiteral then fromLiteralMeta built.statedIndex else built.statedIndex

/-! ## Chains of methods -/

/-- What no method changes, no chain changes. -/
theorem foldl_call_of_call {α : Type} (property : Meta → α)
    (h : ∀ target method, property (target.call method) = property target)
    (methods : List Method) (target : Meta) :
    property (methods.foldl Meta.call target) = property target := by
  induction methods generalizing target with
  | nil => rfl
  | cons method methods ih => exact (ih (target.call method)).trans (h target method)

theorem Built.stated_doit (built : Built ColumnKind) : built.stated.doit = some built.kind :=
  foldl_call_of_call Meta.doit (fun _ method => by cases method <;> rfl) built.methods
    built.kind.new

theorem Built.statedIndex_isIndex (built : Built IndexFactory) :
    built.statedIndex.isIndex = true := by
  have hkept : built.statedIndex.isIndex = built.kind.new.isIndex :=
    foldl_call_of_call Meta.isIndex (fun _ method => by cases method <;> rfl) built.methods _
  rw [hkept]
  unfold IndexFactory.new
  cases built.kind.kind <;> rfl

theorem Built.statedIndex_columns (built : Built IndexFactory) :
    built.statedIndex.columns = built.kind.columns := by
  have hkept : built.statedIndex.columns = built.kind.new.columns :=
    foldl_call_of_call Meta.columns (fun _ method => by cases method <;> rfl) built.methods _
  rw [hkept]
  unfold IndexFactory.new
  cases built.kind.kind <;> rfl

/-- `uniqueKey` is the only method that makes a key, and it makes it unique. -/
theorem Built.hasIndex_eq_isUnique (built : Built ColumnKind) :
    built.stated.hasIndex = built.stated.isUnique := by
  have hchain : ∀ (methods : List Method) (target : Meta), target.hasIndex = target.isUnique →
      (methods.foldl Meta.call target).hasIndex = (methods.foldl Meta.call target).isUnique := by
    intro methods
    induction methods with
    | nil => exact fun _ h => h
    | cons method methods ih =>
        intro target h
        apply ih
        cases method <;> first | exact h | rfl
  exact hchain built.methods built.kind.new rfl

end DatabaseJones.TableCreation

/-!
## The statement that creates a table

`translateMeta` has a visitor method for each kind of column, whose parameters are bound by
their places; `doit` passes the properties of the meta in an order of its own.
`getSqlForTableCreation` writes a definition for each field of the mapping, for the sparse
container, and for each meta of the table that is an index.
-/

namespace DatabaseJones.TableCreation

/-- The text of a number. -/
def numberText (value : ℕ) : List Char := (toString value).toList

/-- The text of an argument that may not be given. -/
def argumentText (value : Option ℕ) : List Char := (value.map numberText).getD "undefined".toList

def pn (nullable : Bool) : List Char := if nullable then [] else " NOT NULL ".toList

def pu (unsigned : Bool) : List Char := if unsigned then " UNSIGNED".toList else []

/-! ## Visitor methods -/

namespace TranslateMeta

/-- A text in parentheses. -/
def sized (type length : List Char) : List Char := type ++ "(".toList ++ length ++ ")".toList

/-- The clauses of a character set and of a collation. -/
def charsetText (characterset collate : Option (List Char)) : List Char :=
  (characterset.map fun name => " CHARACTER SET ".toList ++ name).getD [] ++
    (collate.map fun name => " COLLATE ".toList ++ name).getD []

def binary (length : ℕ) (nullable : Bool) : List Char :=
  sized "BINARY".toList (numberText length) ++ pn nullable

def char (length : ℕ) (lob nullable : Bool) (_generated : Bool)
    (characterset collate : Option (List Char)) : List Char :=
  (if !lob then sized "CHAR".toList (numberText length) ++ pn nullable
    else sized "TEXT".toList (numberText length) ++ pn nullable) ++
  charsetText characterset collate

def date (nullable : Bool) : List Char := "DATE".toList ++ pn nullable

def currentTimestamp (generated : Bool) : List Char :=
  if generated then " DEFAULT CURRENT_TIMESTAMP".toList else []

def datetime (fsp : Option ℕ) (nullable generated : Bool) : List Char :=
  sized "DATETIME".toList (argumentText fsp) ++ pn nullable ++ currentTimestamp generated

def decimal (precision scale : ℕ) (nullable : Bool) : List Char :=
  sized "DECIMAL".toList (numberText precision ++ ", ".toList ++ numberText scale) ++ pn nullable

def double (nullable : Bool) : List Char := "DOUBLE".toList ++ pn nullable

def float (nullable : Bool) : List Char := "FLOAT".toList ++ pn nullable

def integer (bits : ℕ) (unsigned nullable generated : Bool) : List Char :=
  let u := pu unsigned
  let n := pn nullable
  let autoinc := if generated then " AUTO_INCREMENT".toList else []
  if bits < 8 then "BIT".toList ++ u ++ n
  else if bits = 8 then "TINYINT".toList ++ u ++ n ++ autoinc
  else if bits ≤ 16 then "SMALLINT".toList ++ u ++ n ++ autoinc
  else if bits ≤ 24 then "MEDIUMINT".toList ++ u ++ n ++ autoinc
  else if bits ≤ 32 then "INT".toList ++ u ++ n ++ autoinc
  else "BIGINT".toList ++ u ++ n ++ autoinc

def timestamp (_fsp : Option ℕ) (nullable generated : Bool) : List Char :=
  "TIMESTAMP".toList ++ pn nullable ++ currentTimestamp generated

def varbinary (length : ℕ) (lob nullable : Bool) : List Char :=
  if lob then sized "BLOB".toList (numberText length) ++ pn nullable
  else sized "VARBINARY".toList (numberText length) ++ pn nullable

def varchar (length : ℕ) (lob nullable : Bool) (characterset collate : Option (List Char)) :
    List Char :=
  (if lob then sized "TEXT".toList (numberText length)
    else sized "VARCHAR".toList (numberText length)) ++
  pn nullable ++ charsetText characterset collate

def year (nullable : Bool) : List Char := "YEAR".toList ++ pn nullable

end TranslateMeta

/-- `doit(translateMeta)`: each kind passes the properties in its own order.  `binary`
passes `isLob` before `isNullable`, and the time calls the method of the timestamp. -/
def ColumnKind.visit (this : Meta) : ColumnKind → List Char
  | .binary length => TranslateMeta.binary length this.isLob
  | .char length =>
      TranslateMeta.char length this.isLob this.isNullable this.isGenerated this.characterset
        this.collate
  | .date => TranslateMeta.date this.isNullable
  | .datetime fsp => TranslateMeta.datetime fsp this.isNullable this.isGenerated
  | .decimal precision scale => TranslateMeta.decimal precision scale this.isNullable
  | .double => TranslateMeta.double this.isNullable
  | .float => TranslateMeta.float this.isNullable
  | .integer bits =>
      TranslateMeta.integer (bits.getD 32) this.isUnsigned this.isNullable this.isGenerated
  | .time fsp => TranslateMeta.timestamp fsp this.isNullable false
  | .timestamp fsp => TranslateMeta.timestamp fsp this.isNullable this.isGenerated
  | .varbinary length => TranslateMeta.varbinary length this.isLob this.isNullable
  | .varchar length =>
      TranslateMeta.varchar length this.isLob this.isNullable this.characterset this.collate
  | .year => TranslateMeta.year this.isNullable

/-! ## Table mappings -/

/-- A field of a table mapping, or its sparse container; `columnName` may be empty. -/
structure Field where
  fieldName : List Char
  columnName : List Char
  persistent : Bool
  relationship : Bool
  fieldMeta : Option (Built ColumnKind)

/-- `field.columnName || field.fieldName` -/
def Field.column (field : Field) : List Char :=
  if field.columnName ≠ [] then field.columnName else field.fieldName

/-- A table mapping; the metas of the table are in an array, unless a literal mapping gives
a single one. -/
structure TableMapping where
  database : List Char
  table : List Char
  fields : List Field
  sparseContainer : Option Field
  tableMetas : List (Built IndexFactory)
  isArray : Bool

/-! ## The statement -/

def defaultFieldMeta (field : Field) : List Char :=
  if field.fieldName = "id".toList then "id INT PRIMARY KEY".toList
  else field.fieldName ++ " VARCHAR(32) ".toList

/-- The default value, if it is true, between double quotes. -/
def defaultText (fieldMeta : Meta) : List Char :=
  match fieldMeta.defaultVal with
  | some val =>
      if val.isTruthy then " DEFAULT \"".toList ++ val.toText ++ "\"".toList else []
  | none => []

def keyText (fieldMeta : Meta) : List Char :=
  if fieldMeta.hasIndex then
    (if fieldMeta.isUnique then " UNIQUE".toList else []) ++ " KEY ".toList
  else if fieldMeta.isPrimaryKey then " PRIMARY KEY".toList
  else []

/-- What `appendFieldDefinition` appends after the delimiter; a meta without `doit` is a
TypeError. -/
def fieldDefinition (field : Field) : Option (List Char) :=
  match field.fieldMeta with
  | some built =>
      built.object.doit.map fun kind =>
        field.column ++ " ".toList ++
          (kind.visit built.object ++ defaultText built.object ++ keyText built.object)
  | none => some (field.column ++ " ".toList ++ defaultFieldMeta field)

/-- The definition of an index, after the delimiter. -/
def indexDefinition (tableMeta : Meta) : List Char :=
  (if tableMeta.isPrimaryKey then " PRIMARY KEY ".toList
    else (if tableMeta.isUnique then " UNIQUE ".toList else " ".toList) ++ "INDEX ".toList ++
      tableMeta.name) ++
  (if tableMeta.isHash then " USING HASH".toList else []) ++
  (" ( ".toList ++ ",".toList.intercalate tableMeta.columns ++ ") ".toList)

/-- Each text with a delimiter before it, which at first is empty. -/
def delimited : List Char → List (List Char) → List Char
  | _, [] => []
  | delimiter, text :: texts => delimiter ++ text ++ delimited ", ".toList texts

/-- The fields of which definitions are written. -/
def TableMapping.defined (tableMapping : TableMapping) : List Field :=
  tableMapping.fields ++ tableMapping.sparseContainer.toList

/-- The indexes that the loop over `tableMapping.meta` comes to. -/
def TableMapping.indexes (tableMapping : TableMapping) : List Meta :=
  if tableMapping.isArray then
    (tableMapping.tableMetas.map Built.indexObject).filter Meta.isIndex
  else []

/-- `getSqlForTableCreation(tableMapping, engine)`; an index never sets the delimiter. -/
def getSqlForTableCreation (tableMapping : TableMapping) (engine : Option (List Char)) :
    Option (List Char) :=
  (tableMapping.defined.mapM fieldDefinition).map fun definitions =>
    let delimiter := if definitions = [] then [] else ", ".toList
    "CREATE TABLE ".toList ++ tableMapping.database ++ ".".toList ++ tableMapping.table ++
      "(".toList ++ delimited [] definitions ++
      (tableMapping.indexes.flatMap fun tableMeta => delimiter ++ indexDefinition tableMeta) ++
      ")".toList ++ (engine.map fun name => " ENGINE=".toList ++ name).getD [] ++ ";".toList

end DatabaseJones.TableCreation
