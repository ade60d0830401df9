import DatabaseJones.Library.Ledger
import DatabaseJones.Library.Run

/-!
# The transaction of a session

A session has one `Transaction` object, which is idle, active, or marked for rollback only.
`begin`, `commit`, `rollback` and `setRollbackOnly` are delegated to its state.  A commit or
rollback is sent to the adapter, and the state becomes idle when it has completed.  Until then
every other call can arrive, and operations of the session complete.
-/

namespace DatabaseJones.ApiTransaction

open DatabaseJones.Library

/-! ## States and calls -/

inductive TxState
  | idle | active | rollbackOnly
deriving DecidableEq, Repr

/-- The `name` of a state object. -/
def TxState.name : TxState → String
  | .idle => "Idle"
  | .active => "Active"
  | .rollbackOnly => "RollbackOnly"

/-- `isActive()`. -/
def TxState.isActive : TxState → Bool
  | .idle => false
  | .active => true
  | .rollbackOnly => true

inductive Call
  | begin | commit | rollback | setRollbackOnly
deriving DecidableEq, Repr

def Call.name : Call → String
  | .begin => "begin"
  | .commit => "commit"
  | .rollback => "rollback"
  | .setRollbackOnly => "setRollbackOnly"

/-- What ends a transaction. -/
inductive Ending
  | commit | rollback
deriving DecidableEq, Repr

structure JsError where
  message : String
  sqlstate : String
deriving DecidableEq, Repr

/-- The error of a call that the state does not allow. -/
def illegalState (state : TxState) (call : Call) : JsError where
  message := "Illegal state: " ++ state.name ++ " cannot " ++ call.name ++ "."
  sqlstate := "25000"

/-! ## Operations -/

/-- The operations by what they do with a result.  A query is executed by `executeQuery`. -/
inductive OperationKind
  | find | load | persist | save | update | remove | query
deriving DecidableEq, Repr

/-- The user is told of the error.  A row that was not found is none for a find or a query. -/
def OperationKind.fails (kind : OperationKind) (sqlstate : String) : Bool :=
  match kind with
  | .find => sqlstate ≠ "02000"
  | .query => sqlstate ≠ "02000"
  | _ => true

/-- The transaction, if it is active, is marked for rollback only. -/
def OperationKind.marks (kind : OperationKind) (sqlstate : String) : Bool :=
  match kind with
  | .find => sqlstate ≠ "02000"
  | .query => false
  | _ => true

/-- An operation that has not been answered, with the transaction that it belongs to.  It is
built once its table handler is known, and goes to the transaction handler of that time. -/
structure Operation where
  kind : OperationKind
  txn : Option ℕ
  isBuilt : Bool := false
deriving DecidableEq, Repr

/-! ## The machine -/

/-- What can be observed.  Transactions are numbered from 1, in the order in which they begin. -/
inductive Output
  | called (call : Call) (before after : TxState) (error : Option JsError)
  | began (n : ℕ)
  | sent (n : ℕ) (ending : Ending)
  | ended (n : ℕ) (ending : Ending) (isError : Bool)
  | marked (n : ℕ)
  | failed (txn : Option ℕ)
  | completed (txn : Option ℕ)
deriving DecidableEq, Repr

/-- The state of the transaction, and the commits, rollbacks and operations that have not been
answered.  `begun` counts the transactions. -/
structure State where
  state : TxState := .idle
  begun : ℕ := 0
  pending : List (ℕ × Ending) := []
  operations : List Operation := []
  trace : List Output := []
deriving DecidableEq, Repr

namespace State

/-- The number of the transaction that is active. -/
def current (s : State) : Option ℕ := if s.state.isActive then some s.begun else none

/-- `callbackErrOrThrow(err, user_arguments)` for a call that the state does not allow. -/
def refuse (s : State) (call : Call) : State :=
  { s with trace := s.trace ++ [.called call s.state s.state (some (illegalState s.state call))] }

def begin (s : State) : State :=
  match s.state with
  | .idle =>
      { s with
        state := .active
        begun := s.begun + 1
        trace := s.trace ++ [.called .begin .idle .active none] ++ [.began (s.begun + 1)] }
  | .active => s.refuse .begin
  | .rollbackOnly => s.refuse .begin

/-- `UserContext.commit` and `UserContext.rollback`, for an active transaction. -/
def send (s : State) (call : Call) (ending : Ending) : State :=
  { s with
    pending := s.pending ++ [(s.begun, ending)]
    trace := s.trace ++ [.called call s.state s.state none] ++ [.sent s.begun ending] }

def commit (s : State) : State :=
  match s.state with
  | .idle => s.refuse .commit
  | .active => s.send .commit .commit
  | .rollbackOnly => s.refuse .commit

def rollback (s : State) : State :=
  match s.state with
  | .idle => s.refuse .rollback
  | .active => s.send .rollback .rollback
  | .rollbackOnly => s.send .rollback .rollback

/-- `setRollbackOnly()` as the states have it. -/
def mark (state : TxState) : TxState :=
  match state with
  | .idle => .idle
  | .active => .rollbackOnly
  | .rollbackOnly => .rollbackOnly

/-- `setRollbackOnly()` as a call of the user, who is told nothing. -/
def setRollbackOnly (s : State) : State :=
  { s with
    state := mark s.state
    trace := s.trace ++ [.called .setRollbackOnly s.state (mark s.state) none] ++
      (s.current.map Output.marked).toList }

/-- `commitOnCommit` and `rollbackOnRollback`. -/
def finish (s : State) (i n : ℕ) (ending : Ending) (isError : Bool) : State :=
  { s with
    state := .idle
    pending := s.pending.eraseIdx i
    trace := s.trace ++ [.ended n ending isError] }

/-- An operation gets its table handler. -/
def build (s : State) (i : ℕ) (op : Operation) : State :=
  { s with operations := s.operations.set i { op with txn := s.current, isBuilt := true } }

/-- An operation fails before it is built, or is taken from its batch. -/
def reject (s : State) (i : ℕ) (op : Operation) : State :=
  { s with
    operations := s.operations.eraseIdx i
    trace := s.trace ++ [.failed op.txn] }

/-- The `onResult` function of an operation.  `checkOperation` returns the error. -/
def onResult (s : State) (i : ℕ) (op : Operation) (sqlstate : Option String) : State :=
  { s with
    state := if sqlstate.any op.kind.marks then mark s.state else s.state
    operations := s.operations.eraseIdx i
    trace := s.trace ++ [if sqlstate.any op.kind.fails then .failed op.txn else .completed op.txn] }

end State

/-- Calls of the user, and answers of the adapter in any order. -/
inductive Event
  | call (call : Call)
  | operate (kind : OperationKind)
  | build (i : ℕ)
  | reject (i : ℕ)
  | onResult (i : ℕ) (sqlstate : Option String)
  | finish (i : ℕ) (isError : Bool)
deriving DecidableEq, Repr

def State.call (s : State) : Call → State
  | .begin => s.begin
  | .commit => s.commit
  | .rollback => s.rollback
  | .setRollbackOnly => s.setRollbackOnly

def step (s : State) : Event → Option State
  | .call call => some (s.call call)
  | .operate kind =>
      some { s with operations := s.operations ++ [{ kind, txn := s.current }] }
  | .build i =>
      (s.operations[i]?).bind fun op => if op.isBuilt then none else some (s.build i op)
  | .reject i =>
      (s.operations[i]?).bind fun op => if op.isBuilt then none else some (s.reject i op)
  | .onResult i sqlstate =>
      (s.operations[i]?).bind fun op =>
        if op.isBuilt then some (s.onResult i op sqlstate) else none
  | .finish i isError =>
      (s.pending[i]?).map fun (n, ending) => s.finish i n ending isError

/-! ## What is expected of a transaction -/

/-- Transaction `n` has begun and has not been committed or rolled back. -/
def Unfinished (trace : List Output) (n : ℕ) : Prop :=
  .began n ∈ trace ∧ ∀ ending isError, .ended n ending isError ∉ trace

/-- No commit or rollback of transaction `n` is in progress. -/
def NotEnding (trace : List Output) (n : ℕ) : Prop := ∀ ending, .sent n ending ∉ trace

/-- Transaction `n` can only be rolled back: the user has said so, or an operation of it has
failed. -/
def MustRollBack (trace : List Output) (n : ℕ) : Prop :=
  .marked n ∈ trace ∨ .failed (some n) ∈ trace

/-- The calls that are allowed after what has happened. -/
def Legal (trace : List Output) : Call → Prop
  | .begin => ∀ n, ¬ Unfinished trace n
  | .commit => ∃ n, Unfinished trace n ∧ NotEnding trace n ∧ ¬ MustRollBack trace n
  | .rollback => ∃ n, Unfinished trace n ∧ NotEnding trace n
  | .setRollbackOnly => ∃ n, Unfinished trace n ∧ NotEnding trace n

/-- A transaction is committed or rolled back once, and committed only if it need not be rolled
back.  An illegal call leaves the state and gets the error, which `setRollbackOnly` cannot
report. -/
def Permitted (before : List Output) : Output → Prop
  | .called call old new error =>
      Legal before call ∨
        new = old ∧ (call ≠ .setRollbackOnly → error.map JsError.sqlstate = some "25000")
  | .sent n ending =>
      .began n ∈ before ∧ NotEnding before n ∧ (ending = .commit → ¬ MustRollBack before n)
  | _ => True

structure Lawful (s : State) : Prop where
  permitted : ∀ before output, before ++ [output] <+: s.trace → Permitted before output
  idle_iff : s.state = .idle ↔ ∀ n, ¬ Unfinished s.trace n

/-- Neither commit nor rollback is called while one of them is in progress, nor is an active
transaction marked for rollback then; and commit is not called after an operation has failed
that did not mark the transaction, which is a query, or one that was not built. -/
def Allowed (s : State) : Event → Prop
  | .call .commit => s.state = .active → s.pending = [] ∧ .failed (some s.begun) ∉ s.trace
  | .call .rollback => s.state ≠ .idle → s.pending = []
  | .call .setRollbackOnly => s.state = .active → s.pending = []
  | _ => True

instance (s : State) : ∀ event, Decidable (Allowed s event)
  | .call .begin => inferInstanceAs (Decidable True)
  | .call .commit => inferInstanceAs (Decidable (_ → _))
  | .call .rollback => inferInstanceAs (Decidable (_ → _))
  | .call .setRollbackOnly => inferInstanceAs (Decidable (_ → _))
  | .operate _ => inferInstanceAs (Decidable True)
  | .build _ => inferInstanceAs (Decidable True)
  | .reject _ => inferInstanceAs (Decidable True)
  | .onResult _ _ => inferInstanceAs (Decidable True)
  | .finish _ _ => inferInstanceAs (Decidable True)

end DatabaseJones.ApiTransaction
