import DatabaseJones.NdbOperation.Builder

/-!
# The results of executed operations

`completeExecutedOps` of `NdbOperation.js` goes through a list of operations that NDB has
executed and gives each of them its result.  Four things are merged there: the error that the
encoder has reported, what NDB reports for the operation, the error of the transaction, and the
constructor of the user that is called for a row.  An error of one operation may become the error
of the transaction, which the operations behind it then report.

The pending operation set answers `true` for an operation that it does not have; such an
operation fails without an error, and `cascading` of no error throws.
-/

namespace DatabaseJones.NdbOperation.Results

/-! ## Operations -/

/-- What `getOperationError` returns: `null`, `true` if there is no NDB operation, or an error. -/
inductive OperationError
  | null
  | noOperation
  | ndbError (error : NdbError)
deriving DecidableEq

/-- `DBResult`, without the insert id. -/
structure DBResult (V : Type) where
  success : Option Bool := none
  error : Option DBOperationError := none
  value : Option V := none

/-- What is used of a table handler to make a value of a row: the constructor of value objects,
the converters, the constructor of the user, the number of writes to a value object, and the
row in the other form. -/
structure TableHandler (V B L : Type) where
  is1to1 : Bool
  valueObject : Option (Option B → Option L → V)
  convert : V → V
  newObjectConstructor : Option (V → V)
  valueObjectWriteCount : V → ℕ
  resultRow : Option V → Option B → Option L → V

/-- A `DBOperation`, and whether its callback is a function. -/
structure Operation (V B L : Type) where
  opcode : ℕ
  encoderError : Option DBOperationError := none
  result : DBResult V := {}
  tableHandler : TableHandler V B L
  useMappedNdbRecord : Bool := true
  keyBuffer : Option B := none
  rowBuffer : Option B := none
  blobs : Option L := none
  userCallback : Bool := true

variable {V B L : Type}

/-- `opcodes.OP_READ` and `opcodes.OP_INSERT`. -/
def OP_READ : ℕ := 1

def OP_INSERT : ℕ := 2

def Operation.isScanOperation (op : Operation V B L) : Bool := 32 ≤ op.opcode

/-- The set of operations that were executed; blobs are there for reads of BLOB columns. -/
structure PendingOperationSet (L : Type) where
  getOperationError : ℕ → OperationError
  readBlobResults : ℕ → Option L

/-- The transaction with the operations that are finished, and the callbacks that were called:
the error that each received, and its operation. -/
structure TransactionHandler (V B L : Type) where
  error : Option DBOperationError := none
  executedOperations : List (Operation V B L) := []
  called : List (Option DBOperationError × Operation V B L) := []

/-- What the code throws: it reads a property of `undefined` or `null`. -/
inductive Thrown
  | noPendingOperationSet
  | cascadingFromNull
deriving DecidableEq

/-! ## Values of rows -/

/-- `new DBOperationError().fromSqlState("WCTOR")`. -/
def constructorError : DBOperationError :=
  .mk ("A Domain Object Constructor has overwritten persistent properties " ++
    "that were read from the database.  The Domain Object Constructor " ++
    "is called with no arguments and its ``this'' parameter set to the " ++
    "newly read object.") (some "WCTOR") none none

/-- `buildValueObject`: the value, and the result with the error for a constructor that has
written to it. -/
def buildValueObject (result : DBResult V) (tableHandler : TableHandler V B L) (buffer : Option B)
    (blobs : Option L) : DBResult V × Option V :=
  match tableHandler.valueObject with
  | none => (result, none)
  | some newValueObject =>
      let value := tableHandler.convert (newValueObject buffer blobs)
      match tableHandler.newObjectConstructor with
      | none => (result, some value)
      | some construct =>
          let nWritesPre := tableHandler.valueObjectWriteCount value
          let value := construct value
          let nWritesPost := tableHandler.valueObjectWriteCount value
          if nWritesPre < nWritesPost then
            ({ result with error := some constructorError, success := some false }, some value)
          else (result, some value)

/-- `getResultValue`, with the assignment of the value to the result. -/
def getResultValue (op : Operation V B L) (result : DBResult V) (buffer : Option B)
    (blobs : Option L) : DBResult V :=
  let (result, value) :=
    if op.useMappedNdbRecord ∧ op.tableHandler.is1to1 ∧ op.result.value.isNone then
      buildValueObject result op.tableHandler buffer blobs
    else (result, some (op.tableHandler.resultRow op.result.value buffer blobs))
  { result with value }

/-! ## Results -/

/-- The result of an operation by its own error, if it has one. -/
def summarize (op : Operation V B L) (opNdbError : OperationError) : DBResult V :=
  match op.encoderError with
  | some error => { op.result with success := some false, error := some error }
  | none =>
      match opNdbError with
      | .null => { op.result with success := some true }
      | .noOperation => { op.result with success := some false }
      | .ndbError error =>
          { op.result with success := some false, error := some (.fromNdbError error) }

/-- The result after the error of the transaction was looked at, and the error of the
transaction then. -/
def handleTransactionError (transactionError : Option DBOperationError) (execMode : ExecMode)
    (opcode : ℕ) (result : DBResult V) :
    Except Thrown (DBResult V × Option DBOperationError) :=
  if result.success = some true then
    match transactionError with
    | some error =>
        .ok ({ result with success := some false, error := some error.cascading }, some error)
    | none => .ok (result, none)
  else
    match transactionError with
    | some error => .ok (result, some error)
    | none =>
        if opcode = OP_READ ∨ execMode = .noCommit then .ok (result, none)
        else
          match result.error with
          | some error => .ok (result, some error.cascading)
          | none => .error .cascadingFromNull

/-- `buildOperationResult`: the result of the operation, and the error of the transaction. -/
def buildOperationResult (transactionError : Option DBOperationError) (op : Operation V B L)
    (opNdbError : OperationError) (execMode : ExecMode) :
    Except Thrown (DBResult V × Option DBOperationError) :=
  let result := summarize op opNdbError
  if execMode = .rollback then .ok (result, transactionError)
  else do
    let (result, transactionError) ←
      handleTransactionError transactionError execMode op.opcode result
    if result.success = some true ∧ op.opcode = OP_READ then
      pure (getResultValue op result op.rowBuffer op.blobs, transactionError)
    else pure (result, transactionError)

/-- One round of the loop of `completeExecutedOps` up to the callback: the operation, and the
error of the transaction. -/
def completeOperation (transactionError : Option DBOperationError) (execMode : ExecMode)
    (pendingOperationSet : Option (PendingOperationSet L)) (n : ℕ) (op : Operation V B L) :
    Except Thrown (Operation V B L × Option DBOperationError) :=
  if op.isScanOperation then .ok (op, transactionError)
  else
    match pendingOperationSet with
    | none => .error .noPendingOperationSet
    | some pendingOperationSet => do
        let opErr := pendingOperationSet.getOperationError n
        -- all but insert use a key
        let op := if op.opcode ≠ OP_INSERT then { op with keyBuffer := none } else op
        let op := { op with blobs := pendingOperationSet.readBlobResults n }
        let (result, transactionError) ← buildOperationResult transactionError op opErr execMode
        pure ({ op with result, rowBuffer := none }, transactionError)

/-- An operation is finished, and its callback is called. -/
def TransactionHandler.push (dbTxHandler : TransactionHandler V B L)
    (completed : Operation V B L × Option DBOperationError) : TransactionHandler V B L :=
  { error := completed.2
    executedOperations := dbTxHandler.executedOperations ++ [completed.1]
    called :=
      if completed.1.userCallback then
        dbTxHandler.called ++ [(completed.1.result.error, completed.1)]
      else dbTxHandler.called }

/-- The loop of `completeExecutedOps` from the operation `n` on. -/
def completeFrom (execMode : ExecMode) (pendingOperationSet : Option (PendingOperationSet L)) :
    ℕ → List (Operation V B L) → TransactionHandler V B L →
      Except Thrown (TransactionHandler V B L)
  | _, [], dbTxHandler => .ok dbTxHandler
  | n, op :: operationList, dbTxHandler => do
      let completed ← completeOperation dbTxHandler.error execMode pendingOperationSet n op
      completeFrom execMode pendingOperationSet (n + 1) operationList (dbTxHandler.push completed)

/-- `completeExecutedOps(dbTxHandler, execMode, operations)`. -/
def completeExecutedOps (dbTxHandler : TransactionHandler V B L) (execMode : ExecMode)
    (operationList : List (Operation V B L))
    (pendingOperationSet : Option (PendingOperationSet L)) :
    Except Thrown (TransactionHandler V B L) :=
  completeFrom execMode pendingOperationSet 0 operationList dbTxHandler

end DatabaseJones.NdbOperation.Results

/-!
## What operations report

`completeExecutedOps` reports on all operations as it should exactly if the pending operation
set has every operation that was sent, a transaction that is rolled back had not failed before
(or every operation has an error of its own), and the scans in the list have got their results.

`completeFrom_get` says what becomes of the operation at one place of the list, whatever the
operations before it have left as the error of the transaction.
-/

namespace DatabaseJones.NdbOperation.Results

variable {V B L : Type}

/-! ## What is expected -/

/-- The operation's own error: from the encoder, or else from NDB. -/
def Operation.ownError (op : Operation V B L) (opNdbError : OperationError) :
    Option DBOperationError :=
  match op.encoderError, opNdbError with
  | some error, _ => some error
  | none, .ndbError error => some (.fromNdbError error)
  | none, _ => none

/-- What NDB reports for the operation `n`. -/
def errorAt (pendingOperationSet : Option (PendingOperationSet L)) (n : ℕ) : OperationError :=
  match pendingOperationSet with
  | some pendingOperationSet => pendingOperationSet.getOperationError n
  | none => .noOperation

/-- There is a result, and it is a success if and only if there is no error. -/
def DBResult.Definite (result : DBResult V) : Prop :=
  result.success = some result.error.isNone

/-- An operation reports what has happened: its result is definite; unless it is a scan, it
reports its own error if it has one, and some error if the transaction has failed. -/
structure Reports (transactionError : Option DBOperationError) (opNdbError : OperationError)
    (op completed : Operation V B L) : Prop where
  definite : completed.result.Definite
  ownError : ∀ error, op.isScanOperation = false → op.ownError opNdbError = some error →
    completed.result.error = some error
  failed : op.isScanOperation = false → transactionError ≠ none → completed.result.error ≠ none

/-- Every operation is finished once, in the order of the list, its callback is called once with
the error of its result, and it reports what has happened. -/
def ReportsAll (dbTxHandler : TransactionHandler V B L)
    (pendingOperationSet : Option (PendingOperationSet L))
    (operationList : List (Operation V B L)) (final : TransactionHandler V B L) : Prop :=
  ∃ completed, final.executedOperations = dbTxHandler.executedOperations ++ completed ∧
    final.called = dbTxHandler.called ++ (completed.filter Operation.userCallback).map
      (fun op => (op.result.error, op)) ∧
    List.Forall₂ (fun indexed op => Reports dbTxHandler.error
      (errorAt pendingOperationSet indexed.2) indexed.1 op) operationList.zipIdx completed

/-- When an operation reports what has happened: its NDB operation is there unless the encoder
has reported an error; in a rollback of a failed transaction it has an error of its own; a scan
has its result. -/
def Reportable (transactionError : Option DBOperationError) (execMode : ExecMode)
    (pendingOperationSet : Option (PendingOperationSet L)) (n : ℕ) (op : Operation V B L) : Prop :=
  if op.isScanOperation then op.result.Definite
  else
    (pendingOperationSet ≠ none ∧
      (op.encoderError = none → errorAt pendingOperationSet n ≠ .noOperation)) ∧
    (execMode = .rollback → transactionError ≠ none →
      op.ownError (errorAt pendingOperationSet n) ≠ none)

/-! ## One operation -/

section
variable {op : Operation V B L} {opNdbError : OperationError} {execMode : ExecMode}
  {transactionError : Option DBOperationError}

/-- A constructor that has written to the value is an error, and nothing else is one. -/
theorem definite_buildValueObject {result : DBResult V} (h : result.Definite)
    (tableHandler : TableHandler V B L) (buffer : Option B) (blobs : Option L) :
    (buildValueObject result tableHandler buffer blobs).1.Definite := by
  unfold buildValueObject
  split
  · exact h
  · dsimp only
    split
    · exact h
    · split
      · rfl
      · exact h

theorem definite_getResultValue {result : DBResult V} (h : result.Definite) (buffer : Option B)
    (blobs : Option L) : (getResultValue op result buffer blobs).Definite := by
  unfold getResultValue
  by_cases hnro : op.useMappedNdbRecord ∧ op.tableHandler.is1to1 ∧ op.result.value.isNone
  · rw [if_pos hnro]
    exact definite_buildValueObject h op.tableHandler buffer blobs
  · rw [if_neg hnro]
    exact h

/-- An operation with an error of its own reports it. -/
theorem buildOperationResult_of_ownError (transactionError : Option DBOperationError)
    (execMode : ExecMode) {error : DBOperationError}
    (h : op.ownError opNdbError = some error) :
    ∃ transactionError', buildOperationResult transactionError op opNdbError execMode =
      .ok ({ op.result with success := some false, error := some error }, transactionError') := by
  have hsummary : summarize op opNdbError =
      { op.result with success := some false, error := some error } := by
    unfold Operation.ownError at h
    unfold summarize
    split at h
    · next herror => rw [herror, Option.some.inj h]
    · next herror =>
        rw [herror]
        dsimp only
        rw [← Option.some.inj h]
    · cases h
  unfold buildOperationResult
  rw [hsummary]
  split
  · exact ⟨transactionError, rfl⟩
  · cases transactionError with
    | some cause => exact ⟨some cause, by simp [handleTransactionError, bind, Except.bind, pure, Except.pure]⟩
    | none =>
        by_cases hread : op.opcode = OP_READ ∨ execMode = .noCommit
        · exact ⟨none, by simp [handleTransactionError, hread, bind, Except.bind, pure, Except.pure]⟩
        · exact ⟨some error.cascading,
            by simp [handleTransactionError, hread, bind, Except.bind, pure, Except.pure]⟩

/-- An operation without an error succeeds, unless the transaction has failed. -/
theorem buildOperationResult_of_null (transactionError : Option DBOperationError)
    (execMode : ExecMode) (hencoder : op.encoderError = none) (hfresh : op.result.error = none) :
    ∃ result transactionError',
      buildOperationResult transactionError op .null execMode = .ok (result, transactionError') ∧
      result.Definite ∧ (execMode = .rollback → result.error = none) ∧
      (execMode ≠ .rollback → transactionError ≠ none → result.error ≠ none) := by
  have hsummary : summarize op .null = { op.result with success := some true } := by
    unfold summarize
    rw [hencoder]
  have hdefinite : ({ op.result with success := some true } : DBResult V).Definite := by
    simp [DBResult.Definite, hfresh]
  unfold buildOperationResult
  rw [hsummary]
  split
  case isTrue hmode =>
    exact ⟨_, _, rfl, hdefinite, fun _ => hfresh, fun hnot => absurd hmode hnot⟩
  case isFalse hmode =>
    cases transactionError with
    | some cause =>
        refine ⟨{ op.result with success := some false, error := some cause.cascading },
          some cause, ?_, rfl, fun h => absurd h hmode, fun _ _ => by simp⟩
        simp [handleTransactionError, bind, Except.bind, pure, Except.pure]
    | none =>
        by_cases hread : op.opcode = OP_READ
        · refine ⟨getResultValue op { op.result with success := some true } op.rowBuffer op.blobs,
            none, ?_, definite_getResultValue hdefinite _ _, fun h => absurd h hmode,
            fun _ h => absurd rfl h⟩
          simp [handleTransactionError, hread, bind, Except.bind, pure, Except.pure]
        · refine ⟨{ op.result with success := some true }, none, ?_, hdefinite,
            fun h => absurd h hmode, fun _ h => absurd rfl h⟩
          simp [handleTransactionError, hread, bind, Except.bind, pure, Except.pure]

/-- An operation that the set does not have fails without an error, if nothing is thrown. -/
theorem buildOperationResult_of_noOperation (hencoder : op.encoderError = none)
    (hfresh : op.result.error = none) {completed : DBResult V × Option DBOperationError}
    (h : buildOperationResult transactionError op .noOperation execMode = .ok completed) :
    completed.1.success = some false ∧ completed.1.error = none := by
  have hsummary : summarize op .noOperation = { op.result with success := some false } := by
    unfold summarize
    rw [hencoder]
  unfold buildOperationResult at h
  rw [hsummary] at h
  split at h
  · cases h
    exact ⟨rfl, hfresh⟩
  · cases transactionError with
    | some cause =>
        simp [handleTransactionError, bind, Except.bind, pure, Except.pure] at h
        subst h
        exact ⟨rfl, hfresh⟩
    | none =>
        by_cases hread : op.opcode = OP_READ ∨ execMode = .noCommit
        · simp [handleTransactionError, hread, bind, Except.bind, pure, Except.pure] at h
          subst h
          exact ⟨rfl, hfresh⟩
        · simp [handleTransactionError, hread, hfresh, bind, Except.bind] at h

/-- The error of a transaction stays until the end. -/
theorem buildOperationResult_error {completed : DBResult V × Option DBOperationError}
    (h : buildOperationResult transactionError op opNdbError execMode = .ok completed)
    (herror : transactionError ≠ none) : completed.2 ≠ none := by
  obtain ⟨cause, rfl⟩ := Option.ne_none_iff_exists'.mp herror
  unfold buildOperationResult at h
  split at h
  · cases h
    simp
  · have hhandled : ∃ result, handleTransactionError (some cause) execMode op.opcode
        (summarize op opNdbError) = .ok (result, some cause) := by
      unfold handleTransactionError
      split
      · exact ⟨_, rfl⟩
      · exact ⟨_, rfl⟩
    obtain ⟨result, hresult⟩ := hhandled
    dsimp only at h
    rw [hresult] at h
    simp only [bind, Except.bind] at h
    split at h
    · cases h
      simp
    · cases h
      simp

end

/-! ## One round of the loop -/

section
variable {op : Operation V B L} {n : ℕ} {execMode : ExecMode}
  {pendingOperationSet : Option (PendingOperationSet L)}
  {transactionError : Option DBOperationError}

/-- The operation whose result is built: its key buffer is released, and its blobs were read. -/
def Operation.withBlobs (op : Operation V B L) (pendingOperationSet : PendingOperationSet L)
    (n : ℕ) : Operation V B L :=
  let op := if op.opcode ≠ OP_INSERT then { op with keyBuffer := none } else op
  { op with blobs := pendingOperationSet.readBlobResults n }

@[simp] theorem encoderError_withBlobs (pendingOperationSet : PendingOperationSet L) (n : ℕ) :
    (op.withBlobs pendingOperationSet n).encoderError = op.encoderError := by
  unfold Operation.withBlobs
  split <;> rfl

@[simp] theorem result_withBlobs (pendingOperationSet : PendingOperationSet L) (n : ℕ) :
    (op.withBlobs pendingOperationSet n).result = op.result := by
  unfold Operation.withBlobs
  split <;> rfl

@[simp] theorem ownError_withBlobs (pendingOperationSet : PendingOperationSet L) (n : ℕ)
    (opNdbError : OperationError) :
    (op.withBlobs pendingOperationSet n).ownError opNdbError = op.ownError opNdbError := by
  unfold Operation.ownError
  rw [encoderError_withBlobs]

theorem completeOperation_of_scan (h : op.isScanOperation = true) :
    completeOperation transactionError execMode pendingOperationSet n op =
      .ok (op, transactionError) := by
  unfold completeOperation
  rw [if_pos h]

theorem completeOperation_of_key {pending : PendingOperationSet L}
    (h : op.isScanOperation = false) :
    completeOperation transactionError execMode (some pending) n op =
      (buildOperationResult transactionError (op.withBlobs pending n)
        (pending.getOperationError n) execMode).map
        fun built => ({ op.withBlobs pending n with result := built.1, rowBuffer := none },
          built.2) := by
  unfold completeOperation
  rw [if_neg (by simp [h])]
  change (buildOperationResult transactionError (op.withBlobs pending n)
    (pending.getOperationError n) execMode >>= _) = _
  cases buildOperationResult transactionError (op.withBlobs pending n)
    (pending.getOperationError n) execMode <;> rfl

theorem completeOperation_none (h : op.isScanOperation = false) :
    completeOperation (L := L) transactionError execMode none n op =
      .error .noPendingOperationSet := by
  unfold completeOperation
  rw [if_neg (by simp [h])]

/-- The error of a transaction stays until the end. -/
theorem completeOperation_error {completed : Operation V B L × Option DBOperationError}
    (h : completeOperation transactionError execMode pendingOperationSet n op = .ok completed)
    (herror : transactionError ≠ none) : completed.2 ≠ none := by
  cases hscan : op.isScanOperation with
  | true =>
      rw [completeOperation_of_scan hscan] at h
      cases h
      exact herror
  | false =>
      cases pendingOperationSet with
      | none =>
          rw [completeOperation_none hscan] at h
          cases h
      | some pending =>
          rw [completeOperation_of_key hscan] at h
          cases hbuilt : buildOperationResult transactionError (op.withBlobs pending n)
              (pending.getOperationError n) execMode with
          | error thrown =>
              rw [hbuilt] at h
              cases h
          | ok built =>
              rw [hbuilt] at h
              cases h
              exact buildOperationResult_error hbuilt herror

/-- Where an operation can be reported on, it is, whatever the error of the transaction is. -/
theorem exists_completed (transactionError : Option DBOperationError)
    {firstError : Option DBOperationError}
    (hfresh : op.isScanOperation = false → op.result.error = none)
    (h : Reportable firstError execMode pendingOperationSet n op)
    (herror : firstError ≠ none → transactionError ≠ none) :
    ∃ completed, completeOperation transactionError execMode pendingOperationSet n op =
      .ok completed ∧
      Reports firstError (errorAt pendingOperationSet n) op completed.1 := by
  unfold Reportable at h
  cases hscan : op.isScanOperation with
  | true =>
      rw [if_pos hscan] at h
      exact ⟨_, completeOperation_of_scan hscan, h, fun _ hno => by simp [hscan] at hno,
        fun hno => by simp [hscan] at hno⟩
  | false =>
      rw [if_neg (by simp [hscan])] at h
      obtain ⟨⟨hset, hthere⟩, hrollback⟩ := h
      obtain ⟨pending, rfl⟩ := Option.ne_none_iff_exists'.mp hset
      have hfresh := hfresh hscan
      change op.encoderError = none → pending.getOperationError n ≠ _ at hthere
      change _ → _ → op.ownError (pending.getOperationError n) ≠ none at hrollback
      rw [completeOperation_of_key hscan]
      cases hown : op.ownError (pending.getOperationError n) with
      | some error =>
          obtain ⟨transactionError', hbuilt⟩ := buildOperationResult_of_ownError transactionError
            execMode ((ownError_withBlobs pending n _).trans hown)
          rw [hbuilt]
          refine ⟨_, rfl, rfl, fun _ _ hno => ?_, fun _ _ => by simp⟩
          exact hown.symm.trans hno
      | none =>
          have hencoder : op.encoderError = none := by
            cases hencoder : op.encoderError with
            | none => rfl
            | some error => simp [Operation.ownError, hencoder] at hown
          have hnull : pending.getOperationError n = .null := by
            have := hthere hencoder
            cases hcase : pending.getOperationError n with
            | null => rfl
            | noOperation => exact absurd hcase this
            | ndbError error => simp [Operation.ownError, hencoder, hcase] at hown
          obtain ⟨result, transactionError', hbuilt, hdefinite, -, hfailed⟩ :=
            buildOperationResult_of_null transactionError execMode
              ((encoderError_withBlobs pending n).trans hencoder)
              ((congrArg DBResult.error (result_withBlobs pending n)).trans hfresh)
          rw [hnull, hbuilt]
          refine ⟨_, rfl, hdefinite, fun error _ hno => ?_, fun _ hfirst => ?_⟩
          · change op.ownError (pending.getOperationError n) = some error at hno
            rw [hown] at hno
            cases hno
          · apply hfailed
            · intro hmode
              exact hrollback hmode hfirst hown
            · exact herror hfirst

/-- An operation that was reported on could be. -/
theorem reportable_of_reports {firstError : Option DBOperationError}
    {completed : Operation V B L × Option DBOperationError}
    (hfresh : op.isScanOperation = false → op.result.error = none)
    (h : completeOperation transactionError execMode pendingOperationSet n op = .ok completed)
    (hreports : Reports firstError (errorAt pendingOperationSet n) op completed.1) :
    Reportable firstError execMode pendingOperationSet n op := by
  unfold Reportable
  cases hscan : op.isScanOperation with
  | true =>
      rw [if_pos rfl]
      rw [completeOperation_of_scan hscan] at h
      cases h
      exact hreports.definite
  | false =>
      rw [if_neg (by simp)]
      have hfresh := hfresh hscan
      cases pendingOperationSet with
      | none =>
          rw [completeOperation_none hscan] at h
          cases h
      | some pending =>
          rw [completeOperation_of_key hscan] at h
          cases hbuilt : buildOperationResult transactionError (op.withBlobs pending n)
              (pending.getOperationError n) execMode with
          | error thrown =>
              rw [hbuilt] at h
              cases h
          | ok built =>
              rw [hbuilt] at h
              cases h
              have hthere : op.encoderError = none → pending.getOperationError n ≠ .noOperation := by
                intro hencoder hno
                rw [hno] at hbuilt
                obtain ⟨hsuccess, hnone⟩ := buildOperationResult_of_noOperation
                  (by simpa using hencoder) (by simpa using hfresh) hbuilt
                have := hreports.definite
                simp [DBResult.Definite, hsuccess, hnone] at this
              refine ⟨⟨by simp, hthere⟩, fun hmode hfirst hown => ?_⟩
              change op.ownError (pending.getOperationError n) = none at hown
              have hencoder : op.encoderError = none := by
                cases hencoder : op.encoderError with
                | none => rfl
                | some error => simp [Operation.ownError, hencoder] at hown
              cases hcase : pending.getOperationError n with
              | noOperation => exact hthere hencoder hcase
              | ndbError error => simp [Operation.ownError, hencoder, hcase] at hown
              | null =>
                  rw [hcase] at hbuilt
                  obtain ⟨result, transactionError', hbuilt', -, hnone, -⟩ :=
                    buildOperationResult_of_null transactionError execMode
                      ((encoderError_withBlobs pending n).trans hencoder)
                      ((congrArg DBResult.error (result_withBlobs pending n)).trans hfresh)
                  rw [hbuilt] at hbuilt'
                  cases hbuilt'
                  exact hreports.failed hscan hfirst (hnone hmode)

end

/-! ## The whole list -/

section
variable {execMode : ExecMode} {pendingOperationSet : Option (PendingOperationSet L)}

/-- Without an exception every operation is finished as one round of the loop says, with some
error of the transaction that is there if there was one in the beginning. -/
theorem completeFrom_spec {operationList : List (Operation V B L)} :
    ∀ {n : ℕ} {dbTxHandler final : TransactionHandler V B L},
      completeFrom execMode pendingOperationSet n operationList dbTxHandler = .ok final →
      ∃ completed, final.executedOperations = dbTxHandler.executedOperations ++ completed ∧
        final.called = dbTxHandler.called ++ (completed.filter Operation.userCallback).map
          (fun op => (op.result.error, op)) ∧
        List.Forall₂ (fun indexed op => ∃ transactionError transactionError',
          completeOperation transactionError execMode pendingOperationSet indexed.2 indexed.1 =
            .ok (op, transactionError') ∧
          (dbTxHandler.error ≠ none → transactionError ≠ none))
          (operationList.zipIdx n) completed := by
  induction operationList with
  | nil =>
      intro n dbTxHandler final h
      cases h
      exact ⟨[], by simp, by simp, .nil⟩
  | cons op operationList ih =>
      intro n dbTxHandler final h
      unfold completeFrom at h
      cases hop : completeOperation dbTxHandler.error execMode pendingOperationSet n op with
      | error thrown =>
          rw [hop] at h
          cases h
      | ok first =>
          rw [hop] at h
          obtain ⟨completed, hexecuted, hcalled, hrest⟩ := ih h
          have hmono : dbTxHandler.error ≠ none → first.2 ≠ none := completeOperation_error hop
          refine ⟨first.1 :: completed, ?_, ?_, ?_⟩
          · rw [hexecuted]
            simp [TransactionHandler.push]
          · rw [hcalled]
            unfold TransactionHandler.push
            dsimp only
            cases hcallback : first.1.userCallback with
            | true => simp [hcallback]
            | false => simp [hcallback]
          · rw [List.zipIdx_cons]
            refine .cons ⟨dbTxHandler.error, first.2, hop, id⟩ (hrest.imp ?_)
            rintro indexed c ⟨transactionError, transactionError', hc, herror⟩
            exact ⟨transactionError, transactionError', hc, fun h => herror (hmono h)⟩

/-- Nothing is thrown if every operation can be reported on. -/
theorem exists_completeFrom {firstError : Option DBOperationError}
    {operationList : List (Operation V B L)} :
    ∀ {n : ℕ} (dbTxHandler : TransactionHandler V B L),
      (∀ op ∈ operationList, op.isScanOperation = false → op.result.error = none) →
      (∀ indexed ∈ operationList.zipIdx n,
        Reportable firstError execMode pendingOperationSet indexed.2 indexed.1) →
      (firstError ≠ none → dbTxHandler.error ≠ none) →
      ∃ final, completeFrom execMode pendingOperationSet n operationList dbTxHandler =
        .ok final := by
  induction operationList with
  | nil =>
      intro n dbTxHandler _ _ _
      exact ⟨dbTxHandler, rfl⟩
  | cons op operationList ih =>
      intro n dbTxHandler hfresh h herror
      rw [List.zipIdx_cons] at h
      obtain ⟨first, hop, -⟩ := exists_completed dbTxHandler.error
        (hfresh op (by simp)) (h (op, n) (by simp)) herror
      unfold completeFrom
      rw [hop]
      apply ih _ (fun other hother => hfresh other (by simp [hother]))
        (fun indexed hindexed => h indexed (by simp [hindexed]))
      exact fun hfirst => completeOperation_error hop (herror hfirst)

end

/-- The table handler of a table of numbers. -/
def numberTable : TableHandler ℕ Unit Unit where
  is1to1 := true
  valueObject := some fun _ _ => 7
  convert := id
  newObjectConstructor := none
  valueObjectWriteCount := fun _ => 0
  resultRow := fun _ _ _ => 7

/-- A read, an insert, and an insert with an encoder error. -/
def threeOperations : List (Operation ℕ Unit Unit) :=
  [{ opcode := 1, tableHandler := numberTable },
    { opcode := 2, tableHandler := numberTable },
    { opcode := 2, encoderError := some (.fromSqlState "22003"), tableHandler := numberTable }]

/-- The row of the first insert is there already. -/
def duplicateKey : PendingOperationSet Unit where
  getOperationError := fun n =>
    if n = 1 then .ndbError ⟨"Tuple already existed", 630, "ConstraintViolation"⟩ else .null
  readBlobResults := fun _ => none

/-- A projection of two tables that has been read, in one batch with an insert. -/
def projectionAndInsert : List (Operation ℕ Unit Unit) :=
  [{ opcode := 97, result := { success := some true }, tableHandler := numberTable },
    { opcode := 2, tableHandler := numberTable }]

/-- The set of pending operations after a scan. -/
def emptyOperationSet : PendingOperationSet Unit where
  getOperationError := fun _ => .noOperation
  readBlobResults := fun _ => none

/-- Up to the values that are read, operations that NDB has get the results that the other model
of `buildOperationResult` gives. -/
theorem handleTransactionError_summarize (transactionError : Option DBOperationError)
    (opcode : Opcode) {op : Operation V B L} (hopcode : op.opcode = opcode.code)
    (hfresh : op.result.error = none) (ndbError : Option NdbError) {execMode : ExecMode}
    (hmode : execMode ≠ .rollback) :
    let built := NdbOperation.buildOperationResult opcode execMode op.encoderError ndbError
      transactionError
    handleTransactionError transactionError execMode op.opcode
        (summarize op (ndbError.elim .null .ndbError)) =
      .ok ({ op.result with success := some built.1.success, error := built.1.error }, built.2) := by
  have hread : op.opcode = OP_READ ↔ opcode = .read := by
    rw [hopcode]
    cases opcode <;> decide
  unfold NdbOperation.buildOperationResult summarize handleTransactionError
  rw [if_neg hmode]
  cases op.encoderError with
  | some error =>
      cases transactionError with
      | some cause => simp
      | none =>
          by_cases hno : opcode = .read ∨ execMode = .noCommit
          · simp [hread, hno]
          · simp [hread, hno]
  | none =>
      cases ndbError with
      | none =>
          cases transactionError with
          | some cause => simp
          | none => simp [hfresh]
      | some error =>
          cases transactionError with
          | some cause => simp
          | none =>
              by_cases hno : opcode = .read ∨ execMode = .noCommit
              · simp [hread, hno]
              · simp [hread, hno]

end DatabaseJones.NdbOperation.Results
