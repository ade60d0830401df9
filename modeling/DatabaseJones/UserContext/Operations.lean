import DatabaseJones.TableHandler.Column

/-!
# Completion functions

What the functions of `UserContext` do with the result that a database adapter delivers for an
operation.  A function throws when it reads a property of `null` or `undefined`.
-/

namespace DatabaseJones.UserContext

open DatabaseJones.TableHandler (Value Properties)

variable {ν S : Type}

/-! ## Results -/

/-- An error object. -/
structure DBError where
  sqlstate : Option String := none
  message : String := ""
  code : Option ℤ := none
deriving DecidableEq, Repr

/-- `dbOperation.result`.  `success` is true only if the property is `true`; a missing value is
null. -/
structure Result (ν : Type) where
  success : Bool
  error : Option DBError := none
  value : Option ν := none
  autoincrementValue : Option ℕ := none

/-- The arguments with which an adapter calls a completion function: the error, and the
operation, by its result. -/
structure Delivered (ν : Type) where
  err : Option DBError := none
  dbOperation : Option (Result ν) := none

/-- The second argument of a user's callback, if it has two. -/
inductive Answer (ν : Type)
  | absent
  | null
  | value (value : ν)
  | list (values : List ν)
deriving DecidableEq, Repr

inductive Output (ν : Type)
  | setRollbackOnly
  | callback (err : Option DBError) (answer : Answer ν)
deriving DecidableEq, Repr

/-- The user's callback, and the promise. -/
def applyCallback (err : Option DBError) (answer : Answer ν) : List (Output ν) :=
  [.callback err answer]

/-- `if (tx.isActive()) { tx.setRollbackOnly(); }`. -/
def rollbackIfActive (isActive : Bool) : List (Output ν) :=
  if isActive then [.setRollbackOnly] else []

def Answer.ofValue (result : Option ν) : Answer ν := result.elim .null .value

/-! ## Completion functions -/

/-- The error that `checkOperation` makes of the error of the result. -/
def operationError : Option DBError → DBError
  | none => { sqlstate := some "22000", message := "Unknown Error" }
  | some error =>
      { error with message := if error.message = "" then "Operation error" else error.message }

def checkOperation (err : Option DBError) (dbOperation : Option (Result ν)) :
    Option (Option DBError) :=
  match err, dbOperation with
  | some err, _ => some (some err)
  | none, none => none
  | none, some result => some (if result.success then none else some (operationError result.error))

/-- `findOnResult`, and `findWithProjectionOnResult`, which is the same. -/
def findOnResult (isActive : Bool) (delivered : Delivered ν) : Option (List (Output ν)) := do
  let error ← checkOperation delivered.err delivered.dbOperation
  let result ← delivered.dbOperation
  match error with
  | none => some (applyCallback none (.ofValue result.value))
  | some _ =>
      let cause ← result.error
      if cause.sqlstate ≠ some "02000" then
        some (rollbackIfActive isActive ++ applyCallback delivered.err .null)
      else some (applyCallback none (.ofValue result.value))

/-- `saveOnResult`, `updateOnResult` and `removeOnResult`. -/
def saveOnResult (isActive : Bool) (delivered : Delivered ν) : Option (List (Output ν)) := do
  let error ← checkOperation delivered.err delivered.dbOperation
  match error with
  | some error => some (rollbackIfActive isActive ++ applyCallback (some error) .absent)
  | none => some (applyCallback none .absent)

/-- `setAutoincrement(object, value)`; the field has a name if the table has such a column. -/
def setAutoincrement (autoIncFieldName : Option String) (object : Value S) : Option (Value S) :=
  match autoIncFieldName with
  | none => some object
  | some fieldName => object.setProperty fieldName .undefined

def persistOnResult (autoIncFieldName : Option String) (values : Value S) (isActive : Bool)
    (delivered : Delivered ν) : Option (List (Output ν)) := do
  let error ← checkOperation delivered.err delivered.dbOperation
  match error with
  | some error => some (rollbackIfActive isActive ++ applyCallback (some error) .absent)
  | none =>
      let result ← delivered.dbOperation
      if result.autoincrementValue.isSome then
        let _ ← setAutoincrement autoIncFieldName values
        some (applyCallback none .absent)
      else some (applyCallback none .absent)

def loadOnResult (isActive : Bool) (delivered : Delivered ν) : Option (List (Output ν)) := do
  let error ← checkOperation delivered.err delivered.dbOperation
  match error with
  | some _ => some (rollbackIfActive isActive ++ applyCallback delivered.err .absent)
  | none => some (applyCallback none .absent)

def executeQueryKeyOnResult (delivered : Delivered ν) : Option (List (Output ν)) := do
  let error ← checkOperation delivered.err delivered.dbOperation
  match error with
  | some error =>
      if error.sqlstate = some "02000" then some (applyCallback none (.list []))
      else some (applyCallback (some error) .null)
  | none =>
      let result ← delivered.dbOperation
      some (applyCallback none (.list result.value.toList))

def executeQueryKeyProjectionOnResult (delivered : Delivered ν) : Option (List (Output ν)) :=
  match delivered.err with
  | some err =>
      if err.sqlstate = some "02000" then some (applyCallback none (.list []))
      else some (applyCallback (some err) .null)
  | none => do
      let result ← delivered.dbOperation
      match result.value with
      | some value => some (applyCallback none (.list [value]))
      | none => some []

def executeQueryScanOnResult (delivered : Delivered ν) : Option (List (Output ν)) := do
  let error ← checkOperation delivered.err delivered.dbOperation
  match error with
  | some _ =>
      let err ← delivered.err
      if err.sqlstate = some "02000" then some (applyCallback none (.list []))
      else some (applyCallback (some err) .null)
  | none =>
      let result ← delivered.dbOperation
      some (applyCallback none (.ofValue result.value))

/-! ## What a result says -/

/-- The error that an adapter gives, as an argument or in the result. -/
def Delivered.error (delivered : Delivered ν) : Option DBError :=
  delivered.err <|> delivered.dbOperation.bind Result.error

/-- The operation failed. -/
def Delivered.failed (delivered : Delivered ν) : Bool :=
  delivered.err.isSome || !(delivered.dbOperation.any Result.success)

/-- The row that was looked up does not exist. -/
def Delivered.missing (delivered : Delivered ν) : Bool :=
  delivered.failed && delivered.error.any fun error => error.sqlstate == some "02000"

/-- The results that an adapter delivers: there is an error or an operation, an error that is
given twice is the same, and the value of a row that is missing is null if it is looked up by
its key. -/
structure Delivered.Proper (delivered : Delivered ν) (isByKey : Bool) : Prop where
  delivers : delivered.err = none → delivered.dbOperation.isSome = true
  same : ∀ err result error, delivered.err = some err → delivered.dbOperation = some result →
    result.error = some error → err = error
  value_of_missing : isByKey = true → delivered.missing = true →
    delivered.dbOperation.bind Result.value = none

end DatabaseJones.UserContext

/-!
## The operations of a session

`find`, `load`, `persist`, `save`, `update`, `remove` and `executeQuery` of `UserContext`, from
the arguments of the user to the call of his callback.  A table handler chooses an index for
the keys, the database adapter builds an operation, and it delivers a result for it.
-/

namespace DatabaseJones.UserContext

open DatabaseJones.TableHandler (Value Properties)

variable {ν S : Type}

/-! ## Choosing an index -/

/-- A `DBIndexHandler`: `indexColumnNumbers` are the columns of its mask, too. -/
structure DBIndexHandler where
  isPrimaryKey : Bool
  isUnique : Bool
  isOrdered : Bool
  indexColumnNumbers : List ℕ
deriving DecidableEq, Repr

/-- What the operations use of a `DBTableHandler`. -/
structure DBTableHandler where
  name : String
  dbIndexHandlers : List DBIndexHandler
  columnMaskForField : String → Option (List ℕ)
  autoIncFieldName : Option String

/-- The masks `usedColumnMask` and `equalColumnMask`. -/
structure KeyMasks where
  used : List ℕ := []
  equal : List ℕ := []

/-- The columns of one property of the keys. -/
def DBTableHandler.addProperty (table : DBTableHandler) (masks : KeyMasks)
    (property : String × Value S) : KeyMasks :=
  let columns := (table.columnMaskForField property.1).getD []
  match property.2 with
  | .undefined => masks
  | .null => { masks with used := masks.used ++ columns }
  | _ => { used := masks.used ++ columns, equal := masks.equal ++ columns }

/-- The masks of the keys.  A number or a string is the first column of the first index, which
does not exist if the mapping leaves no index. -/
def DBTableHandler.keyMasks (isSimple : S → Bool) (table : DBTableHandler) :
    Value S → Option KeyMasks
  | .scalar scalar =>
      if isSimple scalar then
        table.dbIndexHandlers.head?.map fun index =>
          { used := index.indexColumnNumbers.take 1, equal := index.indexColumnNumbers.take 1 }
      else some {}
  | .object properties => some (properties.foldl table.addProperty {})
  | _ => some {}

def chooseUniqueIndexForPredicate (masks : KeyMasks) (indexes : List DBIndexHandler) :
    Option DBIndexHandler :=
  indexes.find? fun index => index.isUnique && index.indexColumnNumbers.all (masks.equal.contains ·)

/-- The score of an index whose columns are given. -/
def score (masks : KeyMasks) : List ℕ → ℕ
  | [] => 0
  | column :: columns =>
      if masks.used.contains column then
        (if masks.equal.contains column then 2 else 1) + score masks columns
      else 0

def chooseOrderedIndexForPredicate (masks : KeyMasks) (indexes : List DBIndexHandler) :
    Option DBIndexHandler :=
  ((indexes.filter DBIndexHandler.isOrdered).foldl (fun (best : Option DBIndexHandler × ℕ) index =>
    let indexScore := score masks index.indexColumnNumbers
    if indexScore > best.2 then (some index, indexScore) else best) (none, 0)).1

/-- `chooseIndex(keys, true, allowScan)`; `none` if it throws. -/
def DBTableHandler.chooseIndex (isSimple : S → Bool) (table : DBTableHandler) (keys : Value S)
    (allowScan : Bool) : Option (Option DBIndexHandler) :=
  (table.keyMasks isSimple keys).map fun masks =>
    let unique := chooseUniqueIndexForPredicate masks table.dbIndexHandlers
    if allowScan then unique <|> chooseOrderedIndexForPredicate masks table.dbIndexHandlers
    else unique

/-! ## Requests -/

inductive Order
  | undefined
  | string (order : String)
  | other (text : String) (isTruthy : Bool)
deriving DecidableEq, Repr

/-- The parameters of a query that are not parameters of its predicate. -/
structure QueryParameters where
  order : Order := .undefined
  skip : Option ℤ := none
  limit : Option ℤ := none
deriving DecidableEq, Repr

/-- What the user asks for.  An `update` has a domain object, or keys and values. -/
inductive Request (S : Type)
  | find (keys : Value S)
  | findWithProjection (keys : Value S)
  | load (isMapped : Bool) (instance_ : Value S)
  | persist (values : Value S)
  | save (values : Value S)
  | updateObject (object : Value S)
  | update (keys values : Value S)
  | remove (keys : Value S)
  | executeKeyQuery (isQueryProjectionDomainType : Bool)
  | executeScanQuery (params : QueryParameters)

/-- What the operations take from elsewhere: which scalars are numbers or strings, how values
and upper case are written, and whether the functions of the adapter that build an operation
return one or throw. -/
structure Environment (S : Type) where
  isSimple : S → Bool
  stringify : Value S → String
  toUpperCase : String → String
  builds : Request S → Option DBIndexHandler → Bool

/-- A callback with an error, or an operation that is executed. -/
inductive Step
  | answered (err : DBError)
  | executed
deriving DecidableEq, Repr

variable (environment : Environment S)

def userError (message : String) : Option Step := some (.answered { message })

/-- Build the operation, and execute it. -/
def build (request : Request S) (index : Option DBIndexHandler) : Option Step :=
  if environment.builds request index then some .executed else none

def findOnTableHandler (table : DBTableHandler) (request : Request S) (keys : Value S)
    (message : String) : Option Step := do
  let index ← table.chooseIndex environment.isSimple keys false
  match index with
  | none => userError (message ++ environment.stringify keys)
  | some index => build environment request (some index)

def saveOnTableHandler (table : DBTableHandler) (values : Value S) : Option Step := do
  let indexHandler ← table.chooseIndex environment.isSimple values false
  let indexHandler ← indexHandler
  if indexHandler.isPrimaryKey then build environment (.save values) (some indexHandler)
  else userError "Illegal argument: parameter of save must include all primary key columns."

/-- `updateOnTableHandler` for `update(object, callback)`. -/
def updateObjectOnTableHandler (table : DBTableHandler) (object : Value S) : Option Step := do
  let indexHandler ← table.chooseIndex environment.isSimple object true
  let indexHandler ← indexHandler
  if indexHandler.isPrimaryKey then build environment (.updateObject object) (some indexHandler)
  else userError "Illegal argument: parameter of update must include all primary key columns."

/-- `updateOnTableHandler` for keys and values; the adapters read a property of the index
handler. -/
def updateOnTableHandler (table : DBTableHandler) (keys values : Value S) : Option Step := do
  let indexHandler ← table.chooseIndex environment.isSimple keys true
  let indexHandler ← indexHandler
  build environment (.update keys values) (some indexHandler)

def maxLimit : ℤ := 2 ^ 52

/-- The error of the parameters `order`, `skip` and `limit`; a later one replaces an earlier
one. -/
def parameterError (params : QueryParameters) : Option String :=
  let limitError := params.limit.bind fun limit =>
    if limit < 0 ∨ limit > maxLimit then
      some ("Bad limit parameter '" ++ toString limit ++ "'; limit must be >= 0 and <= " ++
        toString maxLimit ++ ".")
    else none
  let hasOrder := match params.order with
    | .undefined => false
    | .string order => order ≠ ""
    | .other _ isTruthy => isTruthy
  let skipError := params.skip.bind fun skip =>
    if skip < 0 ∨ skip > maxLimit then
      some ("Bad skip parameter '" ++ toString skip ++ "'; skip must be >= 0 and <= " ++
        toString maxLimit ++ ".")
    else if hasOrder then none
    else
      some ("Bad skip parameter '" ++ toString skip ++
        "'; if skip is specified, order must be specified.")
  let orderError :=
    let message (order : String) : String :=
      "Bad order parameter '" ++ order ++ "'; order must be ignoreCase asc or desc."
    match params.order with
    | .undefined => none
    | .string order =>
        if environment.toUpperCase order = "ASC" ∨ environment.toUpperCase order = "DESC" then none
        else some (message order)
    | .other text _ => some (message text)
  orderError <|> skipError <|> limitError

/-- From the user's call to the execution of an operation; `none` if something throws. -/
def start (handler : Except DBError DBTableHandler) (request : Request S) : Option Step :=
  match request with
  | .executeKeyQuery _ => build environment request none
  | .executeScanQuery params =>
      match parameterError environment params with
      | some message => userError message
      | none => build environment request none
  | .find .undefined => userError "User error: find must have at least two arguments."
  | .findWithProjection .undefined =>
      userError "User error: find must have at least two arguments."
  | .load _ .undefined => none
  | .load _ .null => none
  | .load false _ => userError "Illegal argument: load requires a mapped domain object."
  | _ =>
      match handler with
      | .error err => some (.answered err)
      | .ok table =>
          match request with
          | .find keys =>
              findOnTableHandler environment table request keys
                "UserContext.find unable to get an index to use for "
          | .findWithProjection keys =>
              findOnTableHandler environment table request keys
                ("UserContext.find unable to get an index for " ++ table.name ++ " to use with ")
          | .load _ keys =>
              findOnTableHandler environment table request keys
                "Illegal argument: load unable to get a unique index to use for "
          | .remove keys =>
              findOnTableHandler environment table request keys
                "UserContext.remove unable to get an index to use for "
          | .persist _ => build environment request none
          | .save values => saveOnTableHandler environment table values
          | .updateObject object => updateObjectOnTableHandler environment table object
          | .update keys values => updateOnTableHandler environment table keys values
          | _ => none

/-- The completion function of a request. -/
def onResult (handler : Except DBError DBTableHandler) (isActive : Bool) (delivered : Delivered ν) :
    Request S → Option (List (Output ν))
  | .find _ => findOnResult isActive delivered
  | .findWithProjection _ => findOnResult isActive delivered
  | .load _ _ => loadOnResult isActive delivered
  | .persist values =>
      persistOnResult (handler.toOption.bind DBTableHandler.autoIncFieldName) values isActive delivered
  | .save _ => saveOnResult isActive delivered
  | .updateObject _ => saveOnResult isActive delivered
  | .update _ _ => saveOnResult isActive delivered
  | .remove _ => saveOnResult isActive delivered
  | .executeKeyQuery false => executeQueryKeyOnResult delivered
  | .executeKeyQuery true => executeQueryKeyProjectionOnResult delivered
  | .executeScanQuery _ => executeQueryScanOnResult delivered

/-- The answer that goes with an error. -/
def Request.noAnswer : Request S → Answer ν
  | .find _ => .null
  | .findWithProjection _ => .null
  | .executeKeyQuery _ => .null
  | .executeScanQuery _ => .null
  | _ => .absent

/-- Everything that happens for a request. -/
def operate (handler : Except DBError DBTableHandler) (isActive : Bool) (delivered : Delivered ν)
    (request : Request S) : Option (List (Output ν)) := do
  match ← start environment handler request with
  | .answered err => some (applyCallback (some err) request.noAnswer)
  | .executed => onResult handler isActive delivered request

/-! ## What an operation is for -/

/-- The requests that look a row up by its key. -/
def Request.isByKey : Request S → Bool
  | .find _ | .findWithProjection _ | .executeKeyQuery _ => true
  | _ => false

/-- The answer of a lookup without a row: null, or no results of a query. -/
def Request.noRow : Request S → Option (Answer ν)
  | .find _ | .findWithProjection _ => some .null
  | .executeKeyQuery _ | .executeScanQuery _ => some (.list [])
  | _ => none

/-- The operation of a request failed; a lookup does not fail because a row is missing. -/
def fails (noRow : Option (Answer ν)) (delivered : Delivered ν) : Bool :=
  delivered.failed && !(noRow.isSome && delivered.missing)

def Output.isCallback : Output ν → Bool
  | .setRollbackOnly => false
  | .callback _ _ => true

/-- Nothing throws.  The callback is called once: with an error exactly if the request was
answered with one or its operation failed, and without a row if a lookup has none.  An active
transaction is rollback-only after an operation that failed. -/
structure Reports (handler : Except DBError DBTableHandler) (isActive : Bool)
    (delivered : Delivered ν) (request : Request S) (step : Step) (outputs : List (Output ν))
    (err : Option DBError) (answer : Answer ν) : Prop where
  start : start environment handler request = some step
  operate : operate environment handler isActive delivered request = some outputs
  once : outputs.filter Output.isCallback = [.callback err answer]
  error : err.isSome = (step != .executed || fails request.noRow delivered)
  noRow : step = .executed → delivered.missing = true → ∀ noRow, request.noRow = some noRow →
    answer = noRow
  rollback : step = .executed → fails request.noRow delivered = true → isActive = true →
    .setRollbackOnly ∈ outputs

/-- A request is reported. -/
def Reported (handler : Except DBError DBTableHandler) (isActive : Bool) (delivered : Delivered ν)
    (request : Request S) : Prop :=
  ∃ step outputs err answer,
    Reports environment handler isActive delivered request step outputs err answer

/-! ## When it is -/

/-- An index is found for the keys, if `isNeeded`, and the adapter builds the operation for
every index that is used. -/
def Usable (table : DBTableHandler) (request : Request S) (keys : Value S) (allowScan isNeeded : Bool)
    (isUsed : DBIndexHandler → Bool) : Prop :=
  match table.chooseIndex environment.isSimple keys allowScan with
  | none => False
  | some none => isNeeded = false
  | some (some index) => isUsed index = true → environment.builds request (some index) = true

/-- The keys and values of a request do not make anything throw. -/
def Accepted (handler : Except DBError DBTableHandler) (request : Request S) : Prop :=
  match request with
  | .executeKeyQuery _ => environment.builds request none = true
  | .executeScanQuery params =>
      parameterError environment params = none → environment.builds request none = true
  | .find .undefined => True
  | .findWithProjection .undefined => True
  | .load _ .undefined => False
  | .load _ .null => False
  | .load false _ => True
  | _ =>
      match handler with
      | .error _ => True
      | .ok table =>
          match request with
          | .find keys => Usable environment table request keys false false fun _ => true
          | .findWithProjection keys => Usable environment table request keys false false fun _ => true
          | .load _ keys => Usable environment table request keys false false fun _ => true
          | .remove keys => Usable environment table request keys false false fun _ => true
          | .persist _ => environment.builds request none = true
          | .save values =>
              Usable environment table request values false true DBIndexHandler.isPrimaryKey
          | .updateObject object =>
              Usable environment table request object true true DBIndexHandler.isPrimaryKey
          | .update keys _ => Usable environment table request keys true true fun _ => true
          | _ => True

/-- The result is delivered in the way that the completion function of the request reads it. -/
def Readable (handler : Except DBError DBTableHandler) (isActive : Bool) (delivered : Delivered ν) :
    Request S → Prop
  | .find _ | .findWithProjection _ =>
      delivered.failed = true → (delivered.dbOperation.bind Result.error).isSome = true ∧
        (delivered.missing = true ∨ delivered.err.isSome = true)
  | .load _ _ => delivered.failed = true → delivered.err.isSome = true
  | .persist values =>
      delivered.failed = false → (delivered.dbOperation.bind Result.autoincrementValue).isSome = true →
        (setAutoincrement (handler.toOption.bind DBTableHandler.autoIncFieldName) values).isSome = true
  | .save _ | .updateObject _ | .update _ _ | .remove _ => True
  | .executeKeyQuery false =>
      delivered.failed = true → delivered.missing = true ∨ isActive = false
  | .executeKeyQuery true =>
      if delivered.failed then
        delivered.err.isSome = true ∧ (delivered.missing = true ∨ isActive = false)
      else (delivered.dbOperation.bind Result.value).isSome = true
  | .executeScanQuery _ =>
      delivered.failed = true →
        delivered.err.isSome = true ∧ (delivered.missing = true ∨ isActive = false)

end DatabaseJones.UserContext
