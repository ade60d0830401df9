import Mathlib.Data.List.Basic
import Mathlib.Tactic

/-!
# Mapped columns

`DBT_Column` of `DBTableHandler.js`.  A column takes its value from the fields of a domain
object that are mapped to it, and sets them again, in one of four ways: from one field,
from one of several parts of a field, from several fields at once, or from all fields that
are not excluded.  The type `S` of scalar values is a parameter.
-/

namespace DatabaseJones.TableHandler

/-! ## Values -/

/-- The values of JavaScript: scalars of any kind, and objects by their properties. -/
inductive Value (S : Type)
  | undefined
  | null
  | scalar (scalar : S)
  | object (properties : List (String × Value S))

variable {S : Type}

/-- The properties of an object, in the order in which they were added. -/
abbrev Properties (S : Type) : Type := List (String × Value S)

namespace Properties

/-- `object[name]`. -/
def get (properties : Properties S) (name : String) : Value S :=
  (properties.lookup name).getD .undefined

/-- `object[name] = value`. -/
def set (name : String) (value : Value S) : Properties S → Properties S
  | [] => [(name, value)]
  | (key, old) :: properties =>
      if key = name then (key, value) :: properties else (key, old) :: set name value properties

@[simp] theorem get_nil (name : String) : get ([] : Properties S) name = .undefined := rfl

theorem get_cons (key name : String) (value : Value S) (properties : Properties S) :
    get ((key, value) :: properties) name = if name = key then value else get properties name := by
  rw [get, List.lookup_cons]
  by_cases h : name = key
  · simp [h]
  · rw [beq_false_of_ne h, if_neg h]
    rfl

/-- Only the property that is set changes. -/
theorem get_set (properties : Properties S) (name other : String) (value : Value S) :
    (properties.set name value).get other = if other = name then value else properties.get other := by
  induction properties with
  | nil => rw [set, get_cons]
  | cons property properties ih =>
      obtain ⟨key, old⟩ := property
      rw [set]
      split_ifs with hkey hother hother
      · rw [get_cons, if_pos (hother.trans hkey.symm)]
      · rw [get_cons, get_cons, if_neg (hkey ▸ hother), if_neg (hkey ▸ hother)]
      · rw [get_cons, if_neg (fun h => hkey (h.symm.trans hother)), ih, if_pos hother]
      · rw [get_cons, get_cons, ih, if_neg hother]

@[simp] theorem get_set_self (properties : Properties S) (name : String) (value : Value S) :
    (properties.set name value).get name = value := by
  rw [get_set, if_pos rfl]

theorem get_set_of_ne {name other : String} (hne : other ≠ name) (properties : Properties S)
    (value : Value S) : (properties.set name value).get other = properties.get other := by
  rw [get_set, if_neg hne]

end Properties

/-! ## Mappings and metadata -/

/-- A converter; either function can throw. -/
structure Converter (S : Type) where
  toDB : Value S → Option (Value S)
  fromDB : Value S → Option (Value S)

/-- `FieldMapping`; `isShared` is the flag of its `meta`, and an empty column name counts as
none. -/
structure FieldMapping (S : Type) where
  fieldName : String
  columnName : Option String := none
  toManyColumns : Option (List String) := none
  persistent : Bool := true
  relationship : Bool := false
  isShared : Bool := false
  converter : Option (Converter S) := none

/-- `field.columnName || field.fieldName`. -/
def FieldMapping.column (field : FieldMapping S) : String := field.columnName.getD field.fieldName

/-- The metadata of a column of a table. -/
structure ColumnMetadata (S : Type) where
  name : String
  isAutoincrement : Bool := false
  isLob : Bool := false
  typeConverter : Option (Converter S) := none

/-! ## DBT_Column -/

/-- Which functions `getColumnValue` and `setFieldValues` are. -/
inductive Shape
  | oneToOne | partialField | shared | sparse | unmapped
deriving DecidableEq, Repr

/-- `DBT_Column`. -/
structure DBTColumn (S : Type) where
  columnName : String
  fieldNames : List String := []
  fieldConverters : List (Option (Converter S)) := []
  isMapped : Bool := false
  isShared : Bool := false
  isPartial : Bool := false
  isFirst : Bool := false
  isLast : Bool := false
  excludedFieldNames : List String := []
  typeConverter : Option (Converter S)
  shape : Shape := .oneToOne

namespace DBTColumn

/-- `new DBT_Column(columnMetadata, converter)`. -/
def create (columnMetadata : ColumnMetadata S) (converter : Option (Converter S)) : DBTColumn S :=
  { columnName := columnMetadata.name, typeConverter := converter <|> columnMetadata.typeConverter }

/-- `addFieldMapping(mapping, reportError)`, and whether it reports that the column is not
marked as shared. -/
def addFieldMapping (column : DBTColumn S) (mapping : FieldMapping S) : DBTColumn S × Bool :=
  let column := if mapping.isShared then { column with isShared := true, shape := .shared } else column
  let column := { column with
    fieldNames := column.fieldNames ++ [mapping.fieldName]
    fieldConverters := column.fieldConverters ++ [mapping.converter] }
  if 1 < column.fieldNames.length ∧ column.isShared = false then (column, true)
  else ({ column with isMapped := true }, false)

/-- `mapPartial(mapping, n)`. -/
def mapPartial (column : DBTColumn S) (mapping : FieldMapping S) (n : ℕ) : DBTColumn S :=
  { column with
    isMapped := true
    isPartial := true
    isFirst := n == 0
    isLast := n + 1 == (mapping.toManyColumns.getD []).length
    fieldNames := column.fieldNames ++ [mapping.fieldName]
    fieldConverters := column.fieldConverters ++ [mapping.converter]
    shape := .partialField }

/-- `setSparse(tableMapping)`, with the converter of the sparse container, the excluded
fields and `JSONConverter`. -/
def setSparse (column : DBTColumn S) (containerConverter : Option (Converter S))
    (excludedFieldNames : List String) (jsonConverter : Converter S) : DBTColumn S :=
  { column with
    isMapped := true
    isShared := true
    excludedFieldNames
    typeConverter := containerConverter <|> column.typeConverter <|> some jsonConverter
    shape := .sparse }

/-- `setUnmappable()`. -/
def setUnmappable (column : DBTColumn S) : DBTColumn S := { column with shape := .unmapped }

def toDB (column : DBTColumn S) (value : Value S) : Option (Value S) :=
  match column.typeConverter with
  | some converter => converter.toDB value
  | none => some value

def fromDB (column : DBTColumn S) (value : Value S) : Option (Value S) :=
  match column.typeConverter with
  | some converter => converter.fromDB value
  | none => some value

/-- `this.fieldNames[0]`; a column without fields reads the property `undefined`. -/
def fieldName (column : DBTColumn S) : String := column.fieldNames.headD "undefined"

/-- `this.fieldConverters[i]`. -/
def fieldConverter (column : DBTColumn S) (i : ℕ) : Option (Converter S) :=
  (column.fieldConverters[i]?).getD none

end DBTColumn

/-- `toDB` of a field's converter, if there is one. -/
def convertToDB (converter : Option (Converter S)) (value : Value S) : Option (Value S) :=
  match converter with
  | some converter => converter.toDB value
  | none => some value

/-- `fromDB` of a field's converter, if there is one. -/
def convertFromDB (converter : Option (Converter S)) (value : Value S) : Option (Value S) :=
  match converter with
  | some converter => converter.fromDB value
  | none => some value

/-- `value[name]`, which throws for `undefined` and `null`; scalars have no property that is
the name of a field or column. -/
def Value.getProperty (value : Value S) (name : String) : Option (Value S) :=
  match value with
  | .undefined => none
  | .null => none
  | .scalar _ => some .undefined
  | .object properties => some (Properties.get properties name)

/-- `value[name] = member`, on what a property of the domain object holds.  In strict mode it
throws for everything that is no object. -/
def Value.setProperty (value : Value S) (name : String) (member : Value S) : Option (Value S) :=
  match value with
  | .undefined => none
  | .null => none
  | .scalar _ => none
  | .object properties => some (.object (Properties.set name member properties))

namespace DBTColumn

/-! ## Reading a domain object -/

/-- `getColumnValue_1to1(domainObject)`. -/
def getColumnValue1to1 (column : DBTColumn S) (domainObject : Properties S) : Option (Value S) := do
  let value ← convertToDB (column.fieldConverter 0) (domainObject.get column.fieldName)
  column.toDB value

/-- `getColumnValue_Partial(domainObject)`: the value, and the domain object, which holds the
intermediate value from the first part to the last.  `typeof null` is `'object'`. -/
def getColumnValuePartial (column : DBTColumn S) (domainObject : Properties S) :
    Option (Value S × Properties S) := do
  let domainObject ←
    match column.isFirst, column.fieldConverter 0 with
    | true, some converter => do
        let value ← converter.toDB (domainObject.get column.fieldName)
        pure (domainObject.set column.fieldName value)
    | _, _ => pure domainObject
  let intermediateValue := domainObject.get column.fieldName
  let domainObject ←
    match column.isLast, column.fieldConverter 0 with
    | true, some converter => do
        let value ← converter.fromDB intermediateValue
        pure (domainObject.set column.fieldName value)
    | _, _ => pure domainObject
  match intermediateValue with
  | .null => none
  | .object properties => do
      let value ← column.toDB (Properties.get properties column.columnName)
      pure (value, domainObject)
  | _ => pure (.undefined, domainObject)

/-- The loop of `getColumnValue_Shared`, from field `i` on. -/
def collectShared (column : DBTColumn S) (domainObject : Properties S) :
    ℕ → List String → Properties S → Option (Properties S)
  | _, [], value => some value
  | i, name :: names, value => do
      let member ← convertToDB (column.fieldConverter i) (domainObject.get name)
      collectShared column domainObject (i + 1) names (value.set name member)

/-- `getColumnValue_Shared(domainObject)`. -/
def getColumnValueShared (column : DBTColumn S) (domainObject : Properties S) :
    Option (Value S) := do
  let value ← column.collectShared domainObject 0 column.fieldNames []
  column.toDB (.object value)

/-- `getColumnValue_Sparse(domainObject)`. -/
def getColumnValueSparse (column : DBTColumn S) (domainObject : Properties S) : Option (Value S) :=
  column.toDB (.object
    (domainObject.filter fun property => !column.excludedFieldNames.contains property.1))

/-- `getColumnValue(domainObject)`. -/
def getColumnValue (column : DBTColumn S) (domainObject : Properties S) :
    Option (Value S × Properties S) :=
  match column.shape with
  | .oneToOne => (column.getColumnValue1to1 domainObject).map (·, domainObject)
  | .partialField => column.getColumnValuePartial domainObject
  | .shared => (column.getColumnValueShared domainObject).map (·, domainObject)
  | .sparse => (column.getColumnValueSparse domainObject).map (·, domainObject)
  | .unmapped => some (.undefined, domainObject)

/-! ## Writing a domain object -/

/-- `setFieldValues_1to1(domainObject, columnValue)`. -/
def setFieldValues1to1 (column : DBTColumn S) (domainObject : Properties S) (columnValue : Value S) :
    Option (Properties S) := do
  let columnValue ← column.fromDB columnValue
  let columnValue ← convertFromDB (column.fieldConverter 0) columnValue
  pure (domainObject.set column.fieldName columnValue)

/-- `setFieldValues_Partial(domainObject, columnValue)`. -/
def setFieldValuesPartial (column : DBTColumn S) (domainObject : Properties S)
    (columnValue : Value S) : Option (Properties S) := do
  let domainObject := if column.isFirst then domainObject.set column.fieldName (.object [])
    else domainObject
  let columnValue ← column.fromDB columnValue
  let value ← (domainObject.get column.fieldName).setProperty column.columnName columnValue
  let domainObject := domainObject.set column.fieldName value
  match column.isLast, column.fieldConverter 0 with
  | true, some converter => do
      let value ← converter.fromDB value
      pure (domainObject.set column.fieldName value)
  | _, _ => pure domainObject

/-- The loop of `setFieldValues_Shared`, from field `i` on. -/
def distributeShared (column : DBTColumn S) (columnValue : Value S) :
    ℕ → List String → Properties S → Option (Properties S)
  | _, [], domainObject => some domainObject
  | i, name :: names, domainObject => do
      let value ← columnValue.getProperty name
      let value ← convertFromDB (column.fieldConverter i) value
      distributeShared column columnValue (i + 1) names (domainObject.set name value)

/-- `setFieldValues_Shared(domainObject, columnValue)`. -/
def setFieldValuesShared (column : DBTColumn S) (domainObject : Properties S)
    (columnValue : Value S) : Option (Properties S) := do
  let columnValue ← column.fromDB columnValue
  column.distributeShared columnValue 0 column.fieldNames domainObject

/-- `setFieldValues_Sparse(domainObject, columnValue)`. -/
def setFieldValuesSparse (column : DBTColumn S) (domainObject : Properties S)
    (columnValue : Value S) : Option (Properties S) := do
  let columnValue ← column.fromDB columnValue
  match columnValue with
  | .object properties =>
      pure (properties.foldl (fun domainObject (name, value) => domainObject.set name value)
        domainObject)
  | _ => pure domainObject

/-- `setFieldValues(domainObject, columnValue)`. -/
def setFieldValues (column : DBTColumn S) (domainObject : Properties S) (columnValue : Value S) :
    Option (Properties S) :=
  match column.shape with
  | .oneToOne => column.setFieldValues1to1 domainObject columnValue
  | .partialField => column.setFieldValuesPartial domainObject columnValue
  | .shared => column.setFieldValuesShared domainObject columnValue
  | .sparse => column.setFieldValuesSparse domainObject columnValue
  | .unmapped => some domainObject

end DBTColumn

end DatabaseJones.TableHandler
