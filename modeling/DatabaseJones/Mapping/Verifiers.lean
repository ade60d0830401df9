import Mathlib.Data.List.Basic
import Mathlib.Tactic

/-!
# Values and the verifiers of literals

What a caller can pass to a `TableMapping` are JavaScript values: an object has its own
properties and those that it inherits, and the constructor it was made with.  A
`LiteralObjectVerifier` has a check for each property that it knows, in the order of the
calls of `set`, and the names of the properties that are required.  Its `getErrors` looks
at the own properties of a literal only.
-/

namespace DatabaseJones.Mapping

/-! ## Values -/

/-- The constructor of an object. -/
inductive Class
  | literal
  | fieldMapping
  | oneToOne
  | oneToMany
  | manyToOne
  | manyToMany
  | tableMapping
  | metadata
  | other
  deriving DecidableEq

/-- A value; of the methods of an object only `isMeta()` is called, and `metaMethod` is
its answer. -/
inductive Value
  | undefined
  | null
  | boolean (value : Bool)
  | number (value : ℚ)
  | string (value : String)
  | function (name : String)
  | array (elements : List Value)
  | object (ctor : Class) (own inherited : List (String × Value)) (metaMethod : Bool)

namespace Value

def typeOf : Value → String
  | undefined => "undefined"
  | null => "object"
  | boolean _ => "boolean"
  | number _ => "number"
  | string _ => "string"
  | function _ => "function"
  | array _ => "object"
  | object _ _ _ _ => "object"

/-- What a condition takes for true. -/
def isTruthy : Value → Bool
  | undefined => false
  | null => false
  | boolean value => value
  | number value => value ≠ 0
  | string value => value ≠ ""
  | _ => true

def isUndefined : Value → Bool
  | undefined => true
  | _ => false

/-- The properties that `for(property in value)` comes to and `hasOwnProperty` is true of;
those of an array and of a string are its indices. -/
def ownProperties : Value → List (String × Value)
  | object _ own _ _ => own
  | array elements => elements.zipIdx.map fun entry => (toString entry.2, entry.1)
  | string value =>
      value.toList.zipIdx.map fun entry => (toString entry.2, .string (toString entry.1))
  | _ => []

/-- `value.hasOwnProperty(name)`, for the names that the module asks for: neither an array
nor a string has one of them. -/
def hasOwnProperty (value : Value) (name : String) : Bool :=
  match value with
  | object _ own _ _ => own.any fun property => property.1 == name
  | _ => false

/-- `value[name]`, for the same names. -/
def get (value : Value) (name : String) : Value :=
  match value with
  | object _ own inherited _ => ((own ++ inherited).lookup name).getD undefined
  | _ => undefined

/-- `===`, which is false of two objects made by different literals. -/
def strictEquals : Value → Value → Bool
  | undefined, undefined => true
  | null, null => true
  | boolean value, boolean other => value == other
  | number value, number other => value == other
  | string value, string other => value == other
  | _, _ => false

end Value

/-- `object[key] = value`. -/
def setProperty (own : List (String × Value)) (key : String) (value : Value) :
    List (String × Value) :=
  if own.any fun property => property.1 == key then
    own.map fun property => if property.1 = key then (key, value) else property
  else own ++ [(key, value)]

/-! ## Checks -/

open Value

def noCheck (_ : Value) : Bool := true

def isString : Value → Bool
  | .string _ => true
  | _ => false

def isNonEmptyString : Value → Bool
  | .string value => value ≠ ""
  | _ => false

def isEmptyString : Value → Bool
  | .string value => value = ""
  | _ => false

def isBool : Value → Bool
  | .boolean _ => true
  | _ => false

def isFunction : Value → Bool
  | .function _ => true
  | _ => false

def isConverter : Value → Bool
  | .null => true
  | .object ctor own inherited metaMethod =>
      isFunction (get (.object ctor own inherited metaMethod) "toDB") &&
        isFunction (get (.object ctor own inherited metaMethod) "fromDB")
  | _ => false

def isConverterMap (obj : Value) : Bool :=
  obj.ownProperties.all fun property => isConverter property.2

def isMeta : Value → Bool
  | .object _ _ _ metaMethod => metaMethod
  | _ => false

def isLiteralMeta (value : Value) : Bool := isBool (value.get "isNullable")

def isMetaOrLiteral (value : Value) : Bool := isMeta value || isLiteralMeta value

def isMinimalField (value : Value) : Bool := isString (value.get "fieldName")

def isArrayOf (elementVerifier : Value → Bool) : Value → Bool
  | .array elements => elements.all elementVerifier
  | _ => false

def isElementOrArrayOf (elementVerifier : Value → Bool) : Value → Bool
  | .array elements => elements.all elementVerifier
  | value => elementVerifier value

/-! ## Verifiers of literal objects -/

/-- The texts that JavaScript makes of values in messages: `JSON.stringify`,
`util.inspect` and the conversion of `+`. -/
structure Texts where
  stringify : Value → String
  inspect : Value → String
  concat : Value → String

/-- `properties` holds the allowed properties with their verifiers. -/
structure LiteralObjectVerifier where
  properties : List (String × (Value → Bool))
  requiredProperties : List String

/-- The methods of `Object.prototype` that the map of the verifiers inherits, and that
take every value. -/
def objectMethods : List String := ["constructor", "toString", "toLocaleString", "valueOf"]

namespace LiteralObjectVerifier

variable (texts : Texts) (verifier : LiteralObjectVerifier)

def checkProperty (property : String) (value : Value) : String :=
  match verifier.properties.lookup property with
  | some check =>
      if check value then ""
      else "property " ++ property ++ " invalid: " ++ texts.stringify value
  | none =>
      if objectMethods.contains property then ""
      else "unknown property " ++ property ++ "; "

/-- The messages for the own properties and for those that are missing. -/
def errorsOf (literal : Value) : String :=
  String.join (literal.ownProperties.map fun property =>
      verifier.checkProperty texts property.1 property.2) ++
    String.join (verifier.requiredProperties.map fun req =>
      if literal.hasOwnProperty req then ""
      else "Required property '" ++ req ++ "' is missing; ")

/-- `getErrors(literal)`; `none` is the TypeError for a value without `hasOwnProperty`. -/
def getErrors (literal : Value) : Option String :=
  match literal with
  | .undefined => none
  | .null => none
  | _ => some (verifier.errorsOf texts literal)

/-- One turn of the loop of `buildObjectFromLiteral` over the allowed properties. -/
def copyProperty (literal : Value) (own : List (String × Value)) (key : String) :
    List (String × Value) :=
  if (literal.get key).isUndefined then own else setProperty own key (literal.get key)

/-- The loop of `buildObjectFromLiteral` over the allowed properties. -/
def copyProperties (own : List (String × Value)) (literal : Value) : List (String × Value) :=
  (verifier.properties.map Prod.fst).foldl (copyProperty literal) own

/-- `buildObjectFromLiteral(object, literal)`: the properties of the object, and the errors. -/
def buildObjectFromLiteral (own : List (String × Value)) (literal : Value) :
    Option (List (String × Value) × String) :=
  (verifier.getErrors texts literal).map fun errors =>
    if errors = "" then (verifier.copyProperties own literal, errors) else (own, errors)

end LiteralObjectVerifier

/-- `getValidator(verifier)`; of the values that `getErrors` throws for the constructor
takes care. -/
def getValidator (texts : Texts) (verifier : LiteralObjectVerifier) (value : Value) : Bool :=
  verifier.getErrors texts value = some ""

/-! ## Allowed properties in literal values -/

def basicFieldProperties : List (String × (Value → Bool)) :=
  [("user", noCheck), ("fieldName", isNonEmptyString), ("columnName", isString),
    ("persistent", isBool), ("converter", isConverter), ("relationship", isBool)]

def fieldMappingProperties : LiteralObjectVerifier where
  properties := basicFieldProperties ++
    [("toManyColumns", isArrayOf isString), ("meta", isMetaOrLiteral)]
  requiredProperties := ["fieldName"]

/-- `RelationshipVerifier`, with the properties of one kind of relationship. -/
def relationshipVerifier (properties : List (String × (Value → Bool))) :
    LiteralObjectVerifier where
  properties := basicFieldProperties ++
    [("target", isFunction), ("targetField", isNonEmptyString)] ++ properties
  requiredProperties := ["fieldName", "target"]

def manyToOneMappingProperties : LiteralObjectVerifier :=
  relationshipVerifier [("foreignKey", isNonEmptyString)]

def oneToManyMappingProperties : LiteralObjectVerifier := relationshipVerifier []

def manyToManyMappingProperties : LiteralObjectVerifier :=
  relationshipVerifier [("joinTable", isNonEmptyString)]

def oneToOneMappingProperties : LiteralObjectVerifier :=
  relationshipVerifier [("foreignKey", isNonEmptyString)]

def tableMappingProperties (texts : Texts) : LiteralObjectVerifier where
  properties :=
    [("user", noCheck), ("table", isNonEmptyString), ("database", isString),
      ("mapAllColumns", isBool), ("fields", isArrayOf isMinimalField),
      ("excludedFieldNames", isArrayOf isNonEmptyString),
      ("meta", isElementOrArrayOf isMetaOrLiteral),
      ("sparseContainer", getValidator texts fieldMappingProperties),
      ("error", isEmptyString), ("columnConverterMap", isConverterMap)]
  requiredProperties := ["table"]

end DatabaseJones.Mapping
