import DatabaseJones.Transaction.Trace

/-!
# A MySQL session and the server's transaction

`DBSession` of `MySQLConnection.js` creates its transaction handler when it is first
needed, by an operation or by `begin()`, and never lets go of it: `isCommitting` is not
set anywhere.  So the flags of the handler have to be right for all transactions of the
session.

A transaction of the server is opened by the statement `begin` and ended by `commit`
and `rollback`.  `Bracketed` says that it is open for the operations of the user's
transactions, and only for those.
-/

namespace DatabaseJones.Transaction

open DatabaseJones.Library

/-! ## The session -/

/-- A session: its handler with the statements and the trace, or nothing while
`transactionHandler` is null.  The session's flag `autocommit` is read when the handler
is created. -/
abbrev Session := Option World

/-- One event.  Without a handler, `commit()` and `rollback()` throw. -/
def Session.step (client : Client) : Session → Event → Option Session
  | none, .call (.execute size) => some (some ((World.fresh true).execute size))
  | none, .call .begin => some (some (World.fresh false).begin)
  | none, .call .commit => some none
  | none, .call .rollback => some none
  | none, .answer _ _ => none
  | some world, event => (Transaction.step client world event).map some

/-! ## The server -/

/-- Whether the server is in a transaction after an output, if it was before. -/
def openAfter (wasOpen : Bool) : Output → Bool
  | .sent .begin => true
  | .sent .commit => false
  | .sent .rollback => false
  | _ => wasOpen

/-- `begin` was sent since `commit` or `rollback` was sent last. -/
def serverOpen (trace : List Output) : Bool := trace.foldl openAfter false

/-- An output that ends a transaction. -/
def Output.ends : Output → Bool
  | .sent .commit => true
  | .sent .rollback => true
  | _ => false

/-- Neither `commit` nor `rollback` was sent since a batch was submitted. -/
def NotEndedSince (trace : List Output) (number : ℕ) : Prop :=
  ∃ first batch rest, trace = first ++ .submitted batch :: rest ∧ batch.number = number ∧
    ∀ output ∈ rest, output.ends = false

/-- An operation can be sent: in the transaction it was submitted in, or outside of all. -/
def Sendable (trace : List Output) (op : Operation) : Prop :=
  (op.tx ≠ none → serverOpen trace = true ∧ NotEndedSince trace op.batch) ∧
    (op.tx = none → serverOpen trace = false)

/-- Every operation of a transaction is sent after the `begin` and before the `commit` or
`rollback` of the transaction, and all others while no transaction is open. -/
def Bracketed (trace : List Output) : Prop :=
  ∀ first op rest, trace = first ++ .sent (.operation op) :: rest → Sendable first op

/-! ## The calls of a run -/

/-- What the handler is about to do when a call is made: nothing, abort the batch of an
operation that failed, or execute the batch behind an answered `begin`. -/
inductive Moment
  | settled
  | failing
  | beginning
deriving DecidableEq, Repr

/-- The operations that the handler still has to send. -/
def World.unsent (world : World) (moment : Moment) : List Operation :=
  let handler := world.handler
  (if handler.firstTime = true ∨ .begin ∈ world.inFlight ∨ moment = .beginning then
      handler.operationsList else []) ++
    (if moment = .failing ∨ handler.error.isSome = true then []
      else handler.operationsList.drop (handler.currentOperation + 1)) ++
    handler.pendingBatches.flatMap Batch.list

/-- A call by the user, and the world it is made in. -/
structure CallMade where
  moment : Moment
  world : World
  call : Call

/-- The calls of a callback. -/
def callsAt (moment : Moment) (world : World) : List Call → List CallMade
  | [] => []
  | call :: calls => ⟨moment, world, call⟩ :: callsAt moment (world.call call) calls

namespace World

variable (client : Client)

/-- The calls made from inside `callBatch`. -/
def callsInBatch (moment : Moment) (world : World) (error : Option BatchError) : List CallMade :=
  callsAt moment (world.emit (.batchCallback world.handler.transactionExecuteCallback error))
    (client (.batch world.handler.transactionExecuteCallback))

/-- The calls made from inside `callOperation`. -/
def callsInOperation (moment : Moment) (world : World) (op : Operation) (outcome : Outcome) :
    List CallMade :=
  callsAt moment (world.emit (.completed op outcome)) (client (.operation op))

/-- The calls made from inside `batchComplete`. -/
def callsInBatchComplete (world : World) : List CallMade :=
  world.callsInBatch client .settled (world.handler.error.map .rolledBack)

/-- The calls made from inside `abortOperations`. -/
def callsInAbort (cause : Operation) : List Operation → World → List CallMade
  | [], _ => []
  | op :: ops, world =>
      let next := world.callOperation client op (.rolledBack cause)
      world.callsInOperation client .settled op (.rolledBack cause) ++
        callsInAbort cause ops { next with handler := { next.handler with
          currentOperation := next.handler.currentOperation + 1
          executedOperations := next.handler.executedOperations ++ [op] } }

/-- The calls made from inside `operationCompleteCallback`. -/
def callsInOperationComplete (world : World) (op : Operation) (failed : Bool) : List CallMade :=
  let handler := { world.handler with
    error := if failed then some op else world.handler.error
    executedOperations := world.handler.executedOperations ++ [op] }
  if handler.executedOperations.length = handler.numberOfOperations then
    { world with handler }.callsInBatchComplete client
  else
    let current := handler.currentOperation + 1
    let world := { world with handler := { handler with currentOperation := current } }
    match handler.error with
    | some cause =>
        let ops := (handler.operationsList.take handler.numberOfOperations).drop current
        callsInAbort client cause ops world ++
          (world.abortOperations client cause ops).callsInBatchComplete client
    | none => []

/-- The calls made from inside the answer to a statement. -/
def callsInAnswer (world : World) (query : Query) (failed : Bool) : List CallMade :=
  let world := { world with inFlight := world.inFlight.erase query }
  match query with
  | .begin => if failed then world.callsInBatch client .beginning (some .beginFailed) else []
  | .operation op =>
      let outcome := if failed then Outcome.failed else .success
      world.callsInOperation client (if failed then .failing else .settled) op outcome ++
        (world.callOperation client op outcome).callsInOperationComplete client op failed
  | .commit => []
  | .rollback => []

/-- The calls made in an event. -/
def callsMade (world : World) : Event → List CallMade
  | .call call => [⟨.settled, world, call⟩]
  | .answer query failed => world.callsInAnswer client query failed

end World

/-! ## Runs that keep the transactions apart -/

/-- A call that fits the flags of the handler.  Operations outside of a transaction are
submitted when the handler is past its first transaction; those of a transaction in the
first transaction with operations; and a transaction is ended when no operation of a
transaction is left to be sent. -/
def CallMade.Fits (made : CallMade) : Prop :=
  match made.call with
  | .execute _ =>
      if made.world.handler.autocommit = true then made.world.handler.firstTime = false
      else made.world.handler.firstTime = true ∨ serverOpen made.world.trace = true
  | .begin => True
  | .commit => ∀ op ∈ made.world.unsent made.moment, op.tx = none
  | .rollback => ∀ op ∈ made.world.unsent made.moment, op.tx = none

instance : DecidablePred CallMade.Fits := fun ⟨moment, world, call⟩ =>
  match call with
  | .execute _ => inferInstanceAs (Decidable (if world.handler.autocommit = true then
      world.handler.firstTime = false
      else world.handler.firstTime = true ∨ serverOpen world.trace = true))
  | .begin => .isTrue trivial
  | .commit => inferInstanceAs (Decidable (∀ op ∈ world.unsent moment, op.tx = none))
  | .rollback => inferInstanceAs (Decidable (∀ op ∈ world.unsent moment, op.tx = none))

/-- All calls of an event fit. -/
def Session.Fits (client : Client) : Session → Event → Prop
  | none, _ => True
  | some world, event => ∀ made ∈ world.callsMade client event, made.Fits

instance (client : Client) (session : Session) : DecidablePred (Session.Fits client session) :=
  fun event => match session with
    | none => .isTrue trivial
    | some world =>
        inferInstanceAs (Decidable (∀ made ∈ world.callsMade client event, made.Fits))

end DatabaseJones.Transaction
