import DatabaseJones.Library.Run

/-!
# The SQL transaction handler

`TransactionHandler` of `MySQLConnection.js` (and, line for line the same
machine, `SQLTransactionHandler.js`) keeps the batch it is executing in mutable
fields and the batches behind it in `pendingBatches`.  The driver reports the
outcome of a statement later, in an order the handler does not choose.

`World` is the handler together with the statements the driver has not answered
and a trace of everything that can be observed.  An event is a call by the user
or an answer of the driver.  The user may also call from inside a callback;
`Client` says which calls each callback makes, so that the theorems can quantify
over it.

Every place that runs an operation is the last action of its function, so an
operation that completes synchronously (`ErrorOperation`) is the run in which
the completion is the very next event.
-/

namespace DatabaseJones.Transaction

open DatabaseJones.Library

/-! ## Operations, batches and what can be observed -/

/-- An operation object, named by the batch it was submitted in and its place in
it.  `tx` is the explicit transaction it was submitted in (`none` in autocommit
mode); no code reads it. -/
structure Operation where
  batch : ℕ
  index : ℕ
  tx : Option ℕ
deriving DecidableEq, Repr

/-- The arguments of one `execute` call.  The callback is named by `number`. -/
structure Batch where
  number : ℕ
  size : ℕ
  tx : Option ℕ
deriving DecidableEq, Repr

/-- `operationsList` of a batch. -/
def Batch.list (batch : Batch) : List Operation :=
  (List.range batch.size).map fun index => ⟨batch.number, index, batch.tx⟩

/-- A statement handed to the driver. -/
inductive Query
  | begin
  | operation (op : Operation)
  | commit
  | rollback
deriving DecidableEq, Repr

/-- How an operation completed: `rolledBack cause` is the
`TransactionRolledBackError` built from the error of `cause`. -/
inductive Outcome
  | success
  | failed
  | rolledBack (cause : Operation)
deriving DecidableEq, Repr

/-- The first argument of `transactionExecuteCallback`. -/
inductive BatchError
  | beginFailed
  | rolledBack (cause : Operation)
deriving DecidableEq, Repr

/-- What can be observed of the handler. -/
inductive Output
  | submitted (batch : Batch)
  | sent (query : Query)
  | completed (op : Operation) (outcome : Outcome)
  | batchCallback (number : ℕ) (error : Option BatchError)
  | threw
deriving DecidableEq, Repr

/-- A call the user makes on the handler or on its session. -/
inductive Call
  | execute (size : ℕ)
  | begin
  | commit
  | rollback
deriving DecidableEq, Repr

/-- A callback the user has supplied. -/
inductive Callback
  | operation (op : Operation)
  | batch (number : ℕ)
deriving DecidableEq, Repr

/-- The calls the user makes from inside each callback. -/
abbrev Client := Callback → List Call

/-! ## State -/

/-- The fields of `TransactionHandler`.  `error` is the operation whose error
was recorded last. -/
structure Handler where
  firstTime : Bool
  autocommit : Bool
  operationsList : List Operation := []
  transactionExecuteCallback : ℕ := 0
  numberOfOperations : ℕ := 0
  currentOperation : ℕ := 0
  executedOperations : List Operation := []
  pendingBatches : List Batch := []
  error : Option Operation := none
deriving DecidableEq, Repr

/-- The handler, the statements the driver has not answered, and the trace.
`transactions` and `submissions` count the explicit transactions begun and the
`execute` calls made; they only name things. -/
structure World where
  handler : Handler
  inFlight : List Query := []
  transactions : ℕ := 0
  submissions : ℕ := 0
  trace : List Output := []
deriving DecidableEq, Repr

/-- A handler created by a session whose flag `autocommit` is as given. -/
def World.fresh (autocommit : Bool) : World :=
  { handler := { firstTime := !autocommit, autocommit } }

namespace World

/-- The explicit transaction the user is in. -/
def tx (world : World) : Option ℕ :=
  if world.handler.autocommit then none else some world.transactions

/-- Record an observation. -/
def emit (world : World) (output : Output) : World :=
  { world with trace := world.trace ++ [output] }

/-- `pooledConnection.query(...)`. -/
def send (world : World) (query : Query) : World :=
  { world with inFlight := world.inFlight ++ [query], trace := world.trace ++ [.sent query] }

/-! ## The functions of the handler -/

/-- `executeOperations`: reading `operationsList[0].execute` of an empty list
throws. -/
def executeOperations (world : World) : World :=
  let handler := { world.handler with
    numberOfOperations := world.handler.operationsList.length, currentOperation := 0 }
  match handler.operationsList[0]? with
  | none => { world with handler }.emit .threw
  | some op => { world with handler }.send (.operation op)

/-- `execute(operationsList, transactionExecuteCallback)`. -/
def execute (world : World) (size : ℕ) : World :=
  let batch : Batch := ⟨world.submissions, size, world.tx⟩
  let world := { world with submissions := world.submissions + 1 }.emit (.submitted batch)
  let handler := world.handler
  if handler.firstTime then
    { world with handler := { handler with
        operationsList := batch.list, transactionExecuteCallback := batch.number } }.send .begin
  else if 0 < handler.numberOfOperations then
    { world with handler := { handler with
        pendingBatches := handler.pendingBatches ++ [batch] } }
  else
    { world with handler := { handler with
        operationsList := batch.list,
        transactionExecuteCallback := batch.number } }.executeOperations

/-- `commit(callback)`. -/
def commit (world : World) : World :=
  { world.send .commit with handler := { world.handler with autocommit := true } }

/-- `rollback(callback)`. -/
def rollback (world : World) : World :=
  { world.send .rollback with handler := { world.handler with autocommit := true } }

/-- `dbSession.begin()` of a session that has this handler. -/
def begin (world : World) : World :=
  { world with
    transactions := world.transactions + 1
    handler := { world.handler with autocommit := false } }

/-- One call by the user. -/
def call (world : World) : Call → World
  | .execute size => world.execute size
  | .begin => world.begin
  | .commit => world.commit
  | .rollback => world.rollback

/-- Run a user callback: it makes its calls in order. -/
def runCallback (client : Client) (world : World) (callback : Callback) : World :=
  (client callback).foldl call world

/-- `transactionExecuteCallback(error)`. -/
def callBatch (client : Client) (world : World) (error : Option BatchError) : World :=
  (world.emit (.batchCallback world.handler.transactionExecuteCallback error)).runCallback client
    (.batch world.handler.transactionExecuteCallback)

/-- The operation's own callback, called with its result. -/
def callOperation (client : Client) (world : World) (op : Operation) (outcome : Outcome) :
    World :=
  (world.emit (.completed op outcome)).runCallback client (.operation op)

/-- `batchComplete`.  `isCommitting` is never set, so the handler stays with its
session. -/
def batchComplete (client : Client) (world : World) : World :=
  let world := world.callBatch client (world.handler.error.map .rolledBack)
  let handler := { world.handler with executedOperations := [], numberOfOperations := 0 }
  match handler.pendingBatches with
  | [] => { world with handler }
  | nextBatch :: pendingBatches =>
      { world with handler := { handler with
          pendingBatches, operationsList := nextBatch.list,
          transactionExecuteCallback := nextBatch.number, error := none } }.executeOperations

/-- The loop of `operationCompleteCallback` that does not execute the remaining
operations but completes them with the propagated error. -/
def abortOperations (client : Client) (cause : Operation) : List Operation → World → World
  | [], world => world
  | op :: ops, world =>
      let world := world.callOperation client op (.rolledBack cause)
      abortOperations client cause ops { world with handler := { world.handler with
        currentOperation := world.handler.currentOperation + 1
        executedOperations := world.handler.executedOperations ++ [op] } }

/-- `operationCompleteCallback(completedOperation)`. -/
def operationCompleteCallback (client : Client) (world : World) (op : Operation)
    (failed : Bool) : World :=
  let handler := { world.handler with
    error := if failed then some op else world.handler.error
    executedOperations := world.handler.executedOperations ++ [op] }
  if handler.executedOperations.length = handler.numberOfOperations then
    { world with handler }.batchComplete client
  else
    let current := handler.currentOperation + 1
    let world := { world with handler := { handler with currentOperation := current } }
    match handler.error with
    | some cause =>
        (world.abortOperations client cause
          ((handler.operationsList.take handler.numberOfOperations).drop current)).batchComplete
            client
    | none =>
        match handler.operationsList[current]? with
        | none => world.emit .threw
        | some next => world.send (.operation next)

/-- `executeOnBegin(err)`: with an error, the callback of the batch is called,
and then the batch is executed. -/
def executeOnBegin (client : Client) (world : World) (failed : Bool) : World :=
  let world := if failed then world.callBatch client (some .beginFailed) else world
  { world with handler := { world.handler with firstTime := false } }.executeOperations

/-- The driver's answer to a statement. -/
def answered (client : Client) (world : World) (query : Query) (failed : Bool) : World :=
  let world := { world with inFlight := world.inFlight.erase query }
  match query with
  | .begin => world.executeOnBegin client failed
  | .operation op =>
      (world.callOperation client op (if failed then .failed else .success))
        |>.operationCompleteCallback client op failed
  | .commit => world
  | .rollback => world

end World

/-! ## Events -/

/-- A call by the user, or the driver's answer to a statement in flight. -/
inductive Event
  | call (call : Call)
  | answer (query : Query) (failed : Bool)
deriving DecidableEq, Repr

/-- One event.  The driver only answers statements it was given. -/
def step (client : Client) (world : World) : Event → Option World
  | .call call => some (world.call call)
  | .answer query failed =>
      if query ∈ world.inFlight then some (world.answered client query failed) else none

end DatabaseJones.Transaction

/-!
## Reading the trace

What was submitted, executed, completed and called back, as lists read off the
trace, and the list of operations of a batch.
-/

namespace DatabaseJones.Transaction

/-! ## Reading the trace -/

/-- The batch an output submits. -/
def Output.submitted? : Output → Option Batch
  | .submitted batch => some batch
  | .sent _ => none
  | .completed _ _ => none
  | .batchCallback _ _ => none
  | .threw => none

/-- The operation an output hands to the driver. -/
def Output.executed? : Output → Option Operation
  | .submitted _ => none
  | .sent .begin => none
  | .sent (.operation op) => some op
  | .sent .commit => none
  | .sent .rollback => none
  | .completed _ _ => none
  | .batchCallback _ _ => none
  | .threw => none

/-- The completion an output reports. -/
def Output.completion? : Output → Option (Operation × Outcome)
  | .submitted _ => none
  | .sent _ => none
  | .completed op outcome => some (op, outcome)
  | .batchCallback _ _ => none
  | .threw => none

/-- The batch whose callback an output is. -/
def Output.calledBack? : Output → Option ℕ
  | .submitted _ => none
  | .sent _ => none
  | .completed _ _ => none
  | .batchCallback number _ => some number
  | .threw => none

attribute [simp] Output.submitted?.eq_1 Output.submitted?.eq_2 Output.submitted?.eq_3
  Output.submitted?.eq_4 Output.submitted?.eq_5
  Output.executed?.eq_1 Output.executed?.eq_2 Output.executed?.eq_3 Output.executed?.eq_4
  Output.executed?.eq_5 Output.executed?.eq_6 Output.executed?.eq_7 Output.executed?.eq_8
  Output.completion?.eq_1 Output.completion?.eq_2 Output.completion?.eq_3
  Output.completion?.eq_4 Output.completion?.eq_5
  Output.calledBack?.eq_1 Output.calledBack?.eq_2 Output.calledBack?.eq_3
  Output.calledBack?.eq_4 Output.calledBack?.eq_5

/-- The batches submitted, in order. -/
def submittedBatches (trace : List Output) : List Batch := trace.filterMap Output.submitted?

/-- The operations executed, in order. -/
def executedOps (trace : List Output) : List Operation := trace.filterMap Output.executed?

/-- The completions, in order. -/
def completions (trace : List Output) : List (Operation × Outcome) := trace.filterMap Output.completion?

/-- The batches whose callback was called, in order. -/
def calledBack (trace : List Output) : List ℕ := trace.filterMap Output.calledBack?

@[simp] theorem submittedBatches_nil : submittedBatches [] = [] := rfl

@[simp] theorem submittedBatches_cons (output : Output) (rest : List Output) :
    submittedBatches (output :: rest) = output.submitted?.toList ++ submittedBatches rest := by
  unfold submittedBatches
  cases h : output.submitted? <;> simp [h]

@[simp] theorem submittedBatches_append (first second : List Output) :
    submittedBatches (first ++ second) = submittedBatches first ++ submittedBatches second :=
  List.filterMap_append

@[simp] theorem executedOps_nil : executedOps [] = [] := rfl

@[simp] theorem executedOps_cons (output : Output) (rest : List Output) :
    executedOps (output :: rest) = output.executed?.toList ++ executedOps rest := by
  unfold executedOps
  cases h : output.executed? <;> simp [h]

@[simp] theorem executedOps_append (first second : List Output) :
    executedOps (first ++ second) = executedOps first ++ executedOps second :=
  List.filterMap_append

@[simp] theorem completions_nil : completions [] = [] := rfl

@[simp] theorem completions_cons (output : Output) (rest : List Output) :
    completions (output :: rest) = output.completion?.toList ++ completions rest := by
  unfold completions
  cases h : output.completion? <;> simp [h]

@[simp] theorem completions_append (first second : List Output) :
    completions (first ++ second) = completions first ++ completions second :=
  List.filterMap_append

@[simp] theorem calledBack_nil : calledBack [] = [] := rfl

@[simp] theorem calledBack_cons (output : Output) (rest : List Output) :
    calledBack (output :: rest) = output.calledBack?.toList ++ calledBack rest := by
  unfold calledBack
  cases h : output.calledBack? <;> simp [h]

@[simp] theorem calledBack_append (first second : List Output) :
    calledBack (first ++ second) = calledBack first ++ calledBack second :=
  List.filterMap_append

/-- The `begin`s and operations the driver has not answered. -/
def World.work (world : World) : List Query :=
  world.inFlight.filter fun query => match query with
    | .begin => true
    | .operation _ => true
    | .commit => false
    | .rollback => false

/-! ## Operations of a batch -/

/-- The operation at a place of a batch. -/
def Batch.op (batch : Batch) (index : ℕ) : Operation := ⟨batch.number, index, batch.tx⟩

@[simp] theorem Batch.op_batch (batch : Batch) (index : ℕ) :
    (batch.op index).batch = batch.number := rfl

@[simp] theorem Batch.op_tx (batch : Batch) (index : ℕ) : (batch.op index).tx = batch.tx := rfl

@[simp] theorem Batch.length_list (batch : Batch) : batch.list.length = batch.size := by
  simp [Batch.list]

theorem Batch.getElem?_list (batch : Batch) {index : ℕ} (hindex : index < batch.size) :
    batch.list[index]? = some (batch.op index) := by
  simp [Batch.list, hindex, Batch.op]

theorem Batch.take_succ_list {batch : Batch} {index : ℕ} (hindex : index < batch.size) :
    batch.list.take (index + 1) = batch.list.take index ++ [batch.op index] := by
  rw [List.take_add_one, batch.getElem?_list hindex]
  rfl

theorem Batch.drop_list {batch : Batch} {index : ℕ} (hindex : index < batch.size) :
    batch.list.drop index = batch.op index :: batch.list.drop (index + 1) := by
  rw [List.drop_eq_getElem_cons (by simpa using hindex)]
  simp [Batch.list, Batch.op]

theorem Batch.mem_list {batch : Batch} {op : Operation} :
    op ∈ batch.list ↔ ∃ index < batch.size, batch.op index = op := by
  simp [Batch.list, Batch.op]

theorem Batch.tx_of_mem_list {batch : Batch} {op : Operation} (hop : op ∈ batch.list) :
    op.tx = batch.tx := by
  obtain ⟨index, _, rfl⟩ := Batch.mem_list.mp hop
  rfl

theorem Batch.batch_of_mem_list {batch : Batch} {op : Operation} (hop : op ∈ batch.list) :
    op.batch = batch.number := by
  obtain ⟨index, _, rfl⟩ := Batch.mem_list.mp hop
  rfl

end DatabaseJones.Transaction
