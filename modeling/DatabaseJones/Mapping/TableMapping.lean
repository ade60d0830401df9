import DatabaseJones.Mapping.Verifiers

/-!
# Table mappings

The constructor of `TableMapping` and the calls that map its fields.  A result `none` is a
TypeError, which leaves no object, or the mapping as it was.  Messages are added to `error`,
and a mapping is valid as long as this is empty.
-/

namespace DatabaseJones.Mapping

/-- A table mapping; `sparseContainer` and `user` are undefined until they are set. -/
structure TableMapping where
  table : Value
  database : Value
  mapAllColumns : Value
  fields : List Value
  excludedFieldNames : List Value
  metas : Value
  columnConverterMap : Value
  sparseContainer : Value
  user : Value
  error : String

/-- What `new` gives an object of a class before anything is set. -/
def Class.defaults : Class → List (String × Value)
  | .fieldMapping => [("persistent", .boolean true)]
  | .oneToOne => relationship false false
  | .oneToMany => relationship true false
  | .manyToOne => relationship false true
  | .manyToMany => relationship true true ++ [("joinTable", .string "")]
  | _ => []
where
  relationship (toMany manyTo : Bool) : List (String × Value) :=
    [("relationship", .boolean true), ("persistent", .boolean true),
      ("toMany", .boolean toMany), ("manyTo", .boolean manyTo), ("target", .null),
      ("targetField", .string ""), ("columnName", .string ""), ("foreignKey", .string ""),
      ("converter", .null), ("error", .string "")]

/-- `Meta.fromLiteralMeta(literal)`, which sets a property named `p`. -/
def fromLiteralMeta (literal : Value) : Value :=
  .object .metadata
    (literal.ownProperties.foldl (fun own _ => setProperty own "p" (literal.get "p"))
      [("isNullable", .boolean true)])
    [] true

namespace TableMapping

variable (texts : Texts)

def isValid (mapping : TableMapping) : Bool := mapping.error = ""

def addError (mapping : TableMapping) (message : String) : TableMapping :=
  { mapping with error := mapping.error ++ message }

/-! ## Construction -/

/-- A new object before its argument is looked at. -/
def fresh : TableMapping where
  table := .string ""
  database := .string ""
  mapAllColumns := .boolean true
  fields := []
  excludedFieldNames := []
  metas := .array []
  columnConverterMap := .object .literal [] [] false
  sparseContainer := .undefined
  user := .undefined
  error := ""

/-- The own properties of a mapping. -/
def properties (mapping : TableMapping) : List (String × Value) :=
  [("table", mapping.table), ("database", mapping.database),
    ("mapAllColumns", mapping.mapAllColumns), ("fields", .array mapping.fields),
    ("excludedFieldNames", .array mapping.excludedFieldNames), ("meta", mapping.metas),
    ("columnConverterMap", mapping.columnConverterMap), ("error", .string mapping.error)] ++
  (if mapping.sparseContainer.isUndefined then []
    else [("sparseContainer", mapping.sparseContainer)]) ++
  (if mapping.user.isUndefined then [] else [("user", mapping.user)])

/-- The mapping as an argument of the constructor. -/
def toValue (mapping : TableMapping) : Value := .object .tableMapping mapping.properties [] false

/-- The mapping with these own properties, once `fields` and `excludedFieldNames` are
copied with `slice`; a TypeError if one of them is no array. -/
def ofProperties (own : List (String × Value)) (error : String) : Option TableMapping :=
  let value name := (own.lookup name).getD .undefined
  match value "fields", value "excludedFieldNames" with
  | .array fields, .array excludedFieldNames =>
      some
        { table := value "table"
          database := value "database"
          mapAllColumns := value "mapAllColumns"
          fields
          excludedFieldNames
          metas := value "meta"
          columnConverterMap := value "columnConverterMap"
          sparseContainer := value "sparseContainer"
          user := value "user"
          error }
  | _, _ => none

/-- `literal[key] = value` -/
def withProperty (literal : Value) (key : String) (value : Value) : Value :=
  match literal with
  | .object ctor own inherited metaMethod =>
      .object ctor (setProperty own key value) inherited metaMethod
  | other => other

def isArray : Value → Bool
  | .array _ => true
  | _ => false

/-- A literal with one `field`, or whose `fields` are no array, gets an array. -/
def wrapFields (literal : Value) : Value :=
  if (literal.get "field").isTruthy && !(literal.get "fields").isTruthy then
    withProperty literal "fields" (.array [literal.get "field"])
  else if (literal.get "fields").isTruthy && !isArray (literal.get "fields") then
    withProperty literal "fields" (.array [literal.get "fields"])
  else literal

/-- The verifier of the sparse container throws for such a value. -/
def hasNoSparseContainer (literal : Value) : Bool :=
  literal.ownProperties.any fun property => property.1 == "sparseContainer" &&
    match property.2 with
    | .undefined => true
    | .null => true
    | _ => false

def constructFromObject (literal : Value) : Option TableMapping :=
  match literal with
  | .null => none
  | _ =>
      let literal := wrapFields literal
      if hasNoSparseContainer literal then none
      else
        ((tableMappingProperties texts).buildObjectFromLiteral texts fresh.properties
          literal).bind fun built => ofProperties built.1 built.2

def constructFromTableName (tableName : String) : TableMapping :=
  let parts := tableName.toList.splitOn '.'
  let part i : String := .ofList (parts.getD i [])
  if part 2 ≠ "" || tableName.toList.contains ' ' then
    { fresh with
      error := "MappingError: tableName must contain one or two parts: [database.]table" }
  else if part 0 ≠ "" && part 1 ≠ "" then
    { fresh with database := .string (part 0), table := .string (part 1) }
  else { fresh with table := .string (part 0) }

/-- `this.meta.push(meta)`, if there is an array. -/
def pushMeta (mapping : TableMapping) (pushed : Value) : Option TableMapping :=
  match mapping.metas with
  | .array metas => some { mapping with metas := .array (metas ++ [pushed]) }
  | _ => none

/-- `assignMeta`, for the arguments from index `i` on. -/
def assignMeta (mapping : TableMapping) : ℕ → List Value → Option TableMapping
  | _, [] => some mapping
  | i, arg :: args =>
      (if isMeta arg then mapping.pushMeta arg
        else if isLiteralMeta arg then mapping.pushMeta (fromLiteralMeta arg)
        else
          some (mapping.addError ("MappingError: valid arguments are meta; invalid argument " ++
            toString i ++ ": (" ++ arg.typeOf ++ ") " ++ texts.concat arg))).bind
        fun mapping => mapping.assignMeta (i + 1) args

/-- `new TableMapping(tableNameOrLiteral, ...metas)` -/
def construct (tableNameOrLiteral : Value) (metas : List Value) : Option TableMapping :=
  match tableNameOrLiteral with
  | .string tableName => (constructFromTableName tableName).assignMeta texts 1 metas
  | .null | .array _ | .object _ _ _ _ =>
      (constructFromObject texts tableNameOrLiteral).bind fun mapping =>
        mapping.assignMeta texts 1 metas
  | _ =>
      some { fresh with
        error := "TableMapping(): string tableName or " ++
          "literal tableMapping is a required parameter." }

/-! ## Fields -/

def getFieldMapping (mapping : TableMapping) (fieldName : Value) : Option Value :=
  mapping.fields.find? fun fm => (fm.get "fieldName").strictEquals fieldName

/-- The literal that is built up, and the messages, after an argument that cannot be used. -/
def invalidArgument (built : List (String × Value) × String) (arg : Value) :
    List (String × Value) × String :=
  (built.1, built.2 ++ ("mapField(): Invalid argument " ++ texts.concat arg))

/-- The case of an argument whose type is `object`. -/
def objectArgument (built : List (String × Value) × String) (arg : Value) :
    List (String × Value) × String :=
  if isMeta arg then (setProperty built.1 "meta" arg, built.2)
  else if isLiteralMeta arg then (setProperty built.1 "meta" (fromLiteralMeta arg), built.2)
  else if isConverter arg then (setProperty built.1 "converter" arg, built.2)
  else if isArrayOf isString arg then (setProperty built.1 "toManyColumns" arg, built.2)
  else invalidArgument texts built arg

/-- One argument after the name. -/
def positionalArgument (built : List (String × Value) × String) (arg : Value) :
    List (String × Value) × String :=
  match arg with
  | .string _ => (setProperty built.1 "columnName" arg, built.2)
  | .boolean _ => (setProperty built.1 "persistent" arg, built.2)
  | .null | .array _ | .object _ _ _ _ => objectArgument texts built arg
  | _ => invalidArgument texts built arg

/-- The field that `mapField` makes of a literal. -/
def newField (literal : Value) : Value :=
  .object .fieldMapping
    (fieldMappingProperties.copyProperties
      (("fieldName", literal.get "fieldName") :: Class.fieldMapping.defaults) literal)
    [] false

/-- The second half of `mapField`, from `getErrors` on. -/
def mapFieldLiteral (mapping : TableMapping) (literal : Value) : Option TableMapping :=
  (fieldMappingProperties.getErrors texts literal).map fun errors =>
    if errors ≠ "" then mapping.addError errors
    else if (mapping.getFieldMapping (literal.get "fieldName")).isSome then
      mapping.addError ("\nmapField(): \"" ++ texts.concat (literal.get "fieldName") ++
        "\" is duplicated; it cannot replace an existing field.")
    else
      { mapping with
        fields := mapping.fields ++ [newField literal]
        excludedFieldNames :=
          if ((newField literal).get "persistent").isTruthy then mapping.excludedFieldNames
          else mapping.excludedFieldNames ++ [(newField literal).get "fieldName"] }

/-- `mapField(nameOrLiteral, ...args)` -/
def mapField (mapping : TableMapping) (nameOrLiteral : Value) (args : List Value) :
    Option TableMapping :=
  match nameOrLiteral with
  | .string _ =>
      let built := args.foldl (positionalArgument texts) ([("fieldName", nameOrLiteral)], "")
      (mapping.addError built.2).mapFieldLiteral texts (.object .literal built.1 [] false)
  | .null | .array _ | .object _ _ _ _ => mapping.mapFieldLiteral texts nameOrLiteral
  | _ =>
      some (mapping.addError
        "mapField() expects a literal FieldMapping or valid arguments list")

/-! ## Relationships -/

/-- The four kinds of relationships. -/
inductive Relationship
  | oneToOne
  | oneToMany
  | manyToOne
  | manyToMany
  deriving DecidableEq

namespace Relationship

def type : Relationship → String
  | oneToOne => "OneToOne"
  | oneToMany => "OneToMany"
  | manyToOne => "ManyToOne"
  | manyToMany => "ManyToMany"

def ctor : Relationship → Class
  | oneToOne => .oneToOne
  | oneToMany => .oneToMany
  | manyToOne => .manyToOne
  | manyToMany => .manyToMany

def verifier : Relationship → LiteralObjectVerifier
  | oneToOne => oneToOneMappingProperties
  | oneToMany => oneToManyMappingProperties
  | manyToOne => manyToOneMappingProperties
  | manyToMany => manyToManyMappingProperties

end Relationship

/-- The field that a relationship call makes of a literal. -/
def newRelationship (kind : Relationship) (literal : Value) : Value :=
  .object kind.ctor (kind.verifier.copyProperties kind.ctor.defaults literal) [] false

/-- The messages of `createRelationshipField`. -/
def relationshipErrors (mapping : TableMapping) (kind : Relationship) (literal : Value) : String :=
  kind.verifier.errorsOf texts literal ++
    (if !(literal.get "targetField").isTruthy && !(literal.get "foreignKey").isTruthy &&
        !(literal.get "joinTable").isTruthy then
      "\nMappingError: targetField, foreignKey, or joinTable is a required field " ++
        "for relationship mapping"
    else "") ++
    (if (mapping.getFieldMapping (literal.get "fieldName")).isSome then
      "\nMappingError: relationship field \"" ++ texts.concat (literal.get "fieldName") ++
        "\" is duplicated."
    else "")

/-- `mapRelationship` of an object, with `createRelationshipField` -/
def mapRelationshipLiteral (mapping : TableMapping) (kind : Relationship)
    (literalMapping : Value) : TableMapping :=
  if (mapping.getFieldMapping (literalMapping.get "fieldName")).isSome then
    mapping.addError ("\"" ++ texts.concat (literalMapping.get "fieldName") ++
      "\" is duplicated; it cannot replace an existing field.")
  else if mapping.relationshipErrors texts kind literalMapping ≠ "" then
    mapping.addError (mapping.relationshipErrors texts kind literalMapping)
  else { mapping with fields := mapping.fields ++ [newRelationship kind literalMapping] }

/-- `mapRelationship` -/
def mapRelationship (mapping : TableMapping) (kind : Relationship) (literalMapping : Value) :
    Option TableMapping :=
  match literalMapping with
  | .null => none
  | .array _ | .object _ _ _ _ =>
      some (mapping.mapRelationshipLiteral texts kind literalMapping)
  | _ =>
      some (mapping.addError ("\nMappingError: map" ++ kind.type ++
        " supports only literal field mapping"))

/-! ## Excluded and sparse fields -/

def fieldIsNotSparse (mapping : TableMapping) (fieldName : Value) : TableMapping :=
  if mapping.excludedFieldNames.any fun name => name.strictEquals fieldName then mapping
  else { mapping with excludedFieldNames := mapping.excludedFieldNames ++ [fieldName] }

/-- One field name of `excludeFields`, or a message. -/
def excludeField (mapping : TableMapping) (fieldName : Value) : TableMapping :=
  if isString fieldName then mapping.fieldIsNotSparse fieldName
  else
    mapping.addError ("\nMappingError: excludeFields argument must be a field name or an " ++
      "array or list of field names: \"" ++ texts.concat fieldName ++ "\"")

/-- `excludeFields(...fieldNames)` -/
def excludeFields (mapping : TableMapping) (args : List Value) : TableMapping :=
  args.foldl (fun mapping fieldNames =>
    match fieldNames with
    | .array names => names.foldl (excludeField texts) mapping
    | fieldName => mapping.excludeField texts fieldName) mapping

/-- One argument of `mapSparseFields` after the column: the field and the messages. -/
def sparseArgument (built : List (String × Value) × String) (arg : Value) :
    List (String × Value) × String :=
  match arg with
  | .null | .array _ | .object _ _ _ _ =>
      if isMeta arg then (setProperty built.1 "meta" arg, built.2)
      else if isLiteralMeta arg then (setProperty built.1 "meta" (fromLiteralMeta arg), built.2)
      else if isConverter arg then (setProperty built.1 "converter" arg, built.2)
      else
        (built.1, built.2 ++ ("\nmapSparseFields Argument is an object " ++
          "that is not a meta or a converter object: \"" ++ texts.inspect arg ++ "\""))
  | _ =>
      (built.1, built.2 ++ ("\nmapSparseFields: Argument must be a meta or converter object: \"" ++
        texts.inspect arg ++ "\""))

/-- `mapSparseFields(columnName, ...args)` -/
def mapSparseFields (mapping : TableMapping) (columnName : Value) (args : List Value) :
    TableMapping :=
  if isString columnName then
    let built := args.foldl (sparseArgument texts)
      ([("fieldName", columnName), ("persistent", .boolean true), ("columnName", columnName)], "")
    { mapping.addError built.2 with
      sparseContainer := .object .fieldMapping built.1 [] false }
  else
    mapping.addError ("\nmapSparseFields() requires a valid arguments list with column name " ++
      "as the first argument")

/-! ## Calls and runs -/

/-- A call on a table mapping. -/
inductive Call
  | mapField (nameOrLiteral : Value) (args : List Value)
  | mapRelationship (kind : Relationship) (literalMapping : Value)
  | excludeFields (args : List Value)
  | mapSparseFields (columnName : Value) (args : List Value)

/-- The mapping after a call, which is as it was if the call throws. -/
def after (mapping : TableMapping) : Call → TableMapping
  | .mapField nameOrLiteral args => (mapping.mapField texts nameOrLiteral args).getD mapping
  | .mapRelationship kind literalMapping =>
      (mapping.mapRelationship texts kind literalMapping).getD mapping
  | .excludeFields args => mapping.excludeFields texts args
  | .mapSparseFields columnName args => mapping.mapSparseFields texts columnName args

end TableMapping

/-- What a program does with table mappings, which are numbered in the order of their
construction. -/
inductive Event
  | construct (tableNameOrLiteral : Value) (metas : List Value)
  | copy (source : ℕ) (metas : List Value)
  | call (target : ℕ) (call : TableMapping.Call)

/-- The mappings after an event; a constructor that throws makes none. -/
def step (texts : Texts) (mappings : List TableMapping) : Event → Option (List TableMapping)
  | .construct tableNameOrLiteral metas =>
      some (mappings ++ (TableMapping.construct texts tableNameOrLiteral metas).toList)
  | .copy source metas =>
      mappings[source]?.map fun mapping =>
        mappings ++ (TableMapping.construct texts mapping.toValue metas).toList
  | .call target call =>
      mappings[target]?.map fun mapping => mappings.set target (mapping.after texts call)

end DatabaseJones.Mapping
