import DatabaseJones.Library.Run

/-!
# NDB sessions and their transaction handlers

`NdbSession.js` and `NdbTransactionHandler.js`.  A session has a current transaction
handler, `tx`, which it retires when the handler is told to commit or to roll back; an
autocommit `execute` is told so.  A handler seizes a transaction context when it executes
its first operations, and may have to wait for one in `seizeTxQueue`.  All native calls of
a session but two go through `execQueue`, one at a time.

An event is a call by the user, the answer to a native call, or the next step of the
callbacks behind one.  A call by the user may come between any two events; so those that
the user makes from inside a callback are events as well.  The native transaction of a
handler is either open or closed, and its context is one of a number of equal ones.
-/

namespace DatabaseJones.NdbTransaction

/-! ## Requests and what can be observed -/

inductive ExecMode
  | noCommit
  | commit
  | rollback
deriving DecidableEq, Repr

/-- What a list of operations is made of.  `nothing` is the empty operation set of
`commit()` and `rollback()`. -/
inductive Kind
  | keyOperations (needAutoInc : Bool)
  | scan
  | query
  | nothing
deriving DecidableEq, Repr

/-- One call of `execute`, `commit` or `rollback` of a transaction handler. -/
structure Request where
  number : ℕ
  handler : ℕ
  mode : ExecMode
  kind : Kind
  size : ℕ
deriving DecidableEq, Repr

/-- What follows when a scan has been closed. -/
inductive Closing
  | retryAfterClose
  | closeWithError
  | closeSuccess
deriving DecidableEq, Repr

/-- The native calls that are made through `execQueue`. -/
inductive Stage
  | prepareAndExecute
  | fetchResults
  | close (next : Closing)
  | execute
deriving DecidableEq, Repr

/-- A `QueuedAsyncCall` for a request. -/
structure ApiCall where
  request : Request
  stage : Stage
deriving DecidableEq, Repr

/-- The native calls that are made outside of `execQueue`. -/
inductive Task
  | getAllValues (request : Request)
  | fetchAllResults (request : Request)
deriving DecidableEq, Repr

/-- What can be observed of a session.  A stub callback is called at once, with nothing
sent; `threw` is a failed assertion or a `TypeError`. -/
inductive Output
  | requested (request : Request)
  | sent (call : ApiCall)
  | opCallback (request : Request) (index : ℕ)
  | callback (request : Request)
  | stubCallback (request : Request)
  | seized (handler : ℕ)
  | released (handler : ℕ)
  | threw
deriving DecidableEq, Repr

/-- The callbacks that are still to be called: one of an operation, or the rest of
`onExecute`. -/
inductive Action
  | opCallback (request : Request) (index : ℕ)
  | finish (request : Request) (execMode : ExecMode)
deriving DecidableEq, Repr

/-! ## State -/

/-- The fields of `DBTransactionHandler`; `impl` says whether there is a context, and
`isOpen` whether the native transaction has been started and not closed. -/
structure Handler where
  autocommit : Bool := true
  impl : Bool := false
  sentSeizeImpl : Bool := false
  executedOperations : ℕ := 0
  retries : ℕ := 0
  isOpen : Bool := false
deriving DecidableEq, Repr

/-- The fields of `NdbSession`, with the contexts that the native session has created and
those on its free list, the native calls outside of the queue, and the callbacks that are
being called.  The head of `execQueue` is running. -/
structure Session where
  maxTxContexts : ℕ
  openTxContexts : ℕ := 0
  nContexts : ℕ := 0
  freeList : ℕ := 0
  tx : Option ℕ := none
  handlers : ℕ → Handler := fun _ => {}
  nextHandler : ℕ := 0
  nextRequest : ℕ := 0
  seizeTxQueue : List Request := []
  execQueue : List ApiCall := []
  outside : List Task := []
  callbacks : List Action := []
  trace : List Output := []

namespace Session

/-- Record an observation. -/
def emit (session : Session) (output : Output) : Session :=
  { session with trace := session.trace ++ [output] }

/-- Change a handler. -/
def update (session : Session) (handler : ℕ) (change : Handler → Handler) : Session :=
  { session with
    handlers := Function.update session.handlers handler (change (session.handlers handler)) }

/-! ## The queue -/

/-- `run()` of a queued call.  The calls that execute start the native transaction. -/
def runCall (session : Session) (call : ApiCall) : Session :=
  (match call.stage with
    | .prepareAndExecute | .execute =>
        session.update call.request.handler fun handler => { handler with isOpen := true }
    | .fetchResults | .close _ => session).emit (.sent call)

/-- `enqueue()`: a call runs at once if the queue is empty. -/
def enqueue (session : Session) (call : ApiCall) : Session :=
  let queued := { session with execQueue := session.execQueue ++ [call] }
  if session.execQueue = [] then queued.runCall call else queued

/-- The running call is done, and the next one runs. -/
def advance (session : Session) : Session :=
  let queued := { session with execQueue := session.execQueue.tail }
  match queued.execQueue with
  | [] => queued
  | call :: _ => queued.runCall call

/-! ## Executing operations -/

/-- `prepareOperations`, with its assertion, and `executeNdbTransaction` of key operations. -/
def prepareOperations (session : Session) (request : Request) : Session :=
  if (session.handlers request.handler).impl then session.enqueue ⟨request, .execute⟩
  else session.emit .threw

/-- `executeScan`.  Without a context the scan cannot be prepared. -/
def executeScan (session : Session) (request : Request) : Session :=
  if (session.handlers request.handler).impl then session.enqueue ⟨request, .prepareAndExecute⟩
  else session.emit .threw

/-- `executeSpecific`, with `executeNonScan`. -/
def executeSpecific (session : Session) (request : Request) : Session :=
  match request.kind with
  | .scan | .query => session.executeScan request
  | .keyOperations true =>
      { session with outside := session.outside ++ [.getAllValues request] }
  | .keyOperations false | .nothing => session.prepareOperations request

/-! ## Transaction contexts -/

/-- `seizeTransaction` of the native session. -/
def seizeTransaction (session : Session) : Option Session :=
  if 0 < session.freeList then some { session with freeList := session.freeList - 1 }
  else if session.nContexts < session.maxTxContexts then
    some { session with nContexts := session.nContexts + 1 }
  else none

/-- `onContext`: what follows when a handler has got a context. -/
def onContext (session : Session) (request : Request) : Session :=
  ((session.update request.handler fun handler => { handler with impl := true }).emit
    (.seized request.handler)).executeSpecific request

/-- `seizeTransactionContext`. -/
def seizeTransactionContext (session : Session) (request : Request) : Session :=
  if session.openTxContexts < session.maxTxContexts then
    let opened := { session with openTxContexts := session.openTxContexts + 1 }
    match opened.seizeTransaction with
    | some seized => seized.onContext request
    | none => opened.emit .threw
  else { session with seizeTxQueue := session.seizeTxQueue ++ [request] }

/-- `releaseTransactionContext` of a handler that has a context: it goes to the handler that
waits longest.  The transaction has to be closed; if not, the result is false. -/
def releaseTransactionContext (session : Session) (handler : ℕ) : Session × Bool :=
  let didRelease := !(session.handlers handler).isOpen
  let released := { session with
    freeList := if didRelease then session.freeList + 1 else session.freeList
    openTxContexts := session.openTxContexts - 1 }
  if didRelease = true ∧ 0 < session.openTxContexts then
    let released := released.emit (.released handler)
    match released.seizeTxQueue with
    | [] => (released, true)
    | request :: waiting =>
        let next := { released with seizeTxQueue := waiting }
        match next.seizeTransaction with
        | some seized =>
            ({ seized with openTxContexts := seized.openTxContexts + 1 }.onContext request, true)
        | none => (next.emit .threw, false)
  else (released.emit .threw, false)

/-! ## After a native call -/

/-- `completeExecutedOps`, and what follows it in `onExecute`. -/
def onExecute (session : Session) (execMode : ExecMode) (request : Request) : Session :=
  { session with callbacks :=
      (List.range request.size).map (Action.opCallback request) ++ [.finish request execMode] }

/-- The rest of `onExecute`: release the context if the transaction ended, and call the
callback. -/
def finish (session : Session) (request : Request) (execMode : ExecMode) : Session :=
  if execMode = .noCommit then session.emit (.callback request)
  else if (session.handlers request.handler).impl then
    match session.releaseTransactionContext request.handler with
    | (released, true) =>
        (released.update request.handler fun handler => { handler with impl := false }).emit
          (.callback request)
    | (failed, false) => failed
  else session.emit .threw

/-- The outcome of a native call.  A fetch may find more results in NDB. -/
inductive Outcome
  | success
  | more
  | error (timeoutExpired : Bool)
deriving DecidableEq, Repr

/-- `onFetchComplete`: the scan is closed, and then retried, failed or finished. -/
def onFetchComplete (session : Session) (request : Request) : Outcome → Session
  | .error timeoutExpired =>
      let retries := (session.handlers request.handler).retries
      if timeoutExpired then
        (session.update request.handler fun handler =>
          { handler with retries := handler.retries + 1 }).enqueue
            ⟨request, .close (if retries < 10 then .retryAfterClose else .closeWithError)⟩
      else session.enqueue ⟨request, .close .closeWithError⟩
  | .success | .more => session.enqueue ⟨request, .close .closeSuccess⟩

/-- The callback of the call at the head of the queue. -/
def answered (session : Session) (call : ApiCall) (outcome : Outcome) : Session :=
  let request := call.request
  match call.stage with
  | .prepareAndExecute =>
      match outcome with
      | .error _ => session.advance.emit (.callback request)
      | _ =>
          match request.kind with
          | .query =>
              { session.advance with
                outside := session.advance.outside ++ [.fetchAllResults request] }
          | _ => session.advance.enqueue ⟨request, .fetchResults⟩
  | .fetchResults =>
      match outcome with
      -- `gather` queues the next fetch before the queue advances
      | .more =>
          let fetching := session.execQueue ++ [ApiCall.mk request .fetchResults]
          { session with execQueue := fetching }.advance
      | outcome => session.advance.onFetchComplete request outcome
  | .close .retryAfterClose =>
      -- a query is given the context again, a scan has it already
      match request.kind with
      | .query => session.advance.executeScan request
      | _ => session.advance.enqueue ⟨request, .prepareAndExecute⟩
  | .close .closeWithError => session.advance.onExecute .rollback request
  | .close .closeSuccess =>
      if request.mode = .noCommit then session.advance.onExecute .noCommit request
      else session.advance.prepareOperations request
  | .execute =>
      let closed := if request.mode = .noCommit then session
        else session.update request.handler fun handler => { handler with isOpen := false }
      closed.advance.onExecute request.mode request

/-- The callback of a call outside of the queue. -/
def arrived (session : Session) (outcome : Outcome) : Task → Session
  | .getAllValues request => session.prepareOperations request
  | .fetchAllResults request => session.onFetchComplete request outcome

/-! ## Calls by the user -/

/-- `getTransactionHandler()`. -/
def getTransactionHandler (session : Session) : Session × ℕ :=
  match session.tx with
  | some handler => (session, handler)
  | none => ({ session with
      tx := some session.nextHandler, nextHandler := session.nextHandler + 1 }, session.nextHandler)

/-- Record a request of a handler. -/
def request (session : Session) (handler : ℕ) (mode : ExecMode) (kind : Kind) (size : ℕ) :
    Session × Request :=
  let request : Request := ⟨session.nextRequest, handler, mode, kind, size⟩
  ({ session with nextRequest := session.nextRequest + 1 }.emit (.requested request), request)

/-- `execute(dbOperationList, userCallback)` on the current handler. -/
def execute (session : Session) (kind : Kind) (size : ℕ) : Session :=
  let (session, handler) := session.getTransactionHandler
  let autocommit := (session.handlers handler).autocommit
  let (session, request) := session.request handler
    (if autocommit then .commit else .noCommit) kind size
  if size = 0 then session.emit (.stubCallback request)
  else
    let session := if autocommit then { session with tx := none } else session
    if (session.handlers handler).sentSeizeImpl then session.executeSpecific request
    else (session.update handler fun handler =>
      { handler with sentSeizeImpl := true }).seizeTransactionContext request

/-- `begin()`. -/
def begin (session : Session) : Session :=
  let (session, handler) := session.getTransactionHandler
  if (session.handlers handler).executedOperations = 0 then
    session.update handler fun handler => { handler with autocommit := false }
  else session.emit .threw

/-- `commit(userCallback)` and `rollback(userCallback)`. -/
def complete (session : Session) (execMode : ExecMode) : Session :=
  match session.tx with
  | none => session.emit .threw
  | some handler =>
      if (session.handlers handler).autocommit then session.emit .threw
      else
        let (session, request) :=
          { session with tx := none }.request handler execMode .nothing 0
        if (session.handlers handler).impl then session.enqueue ⟨request, .execute⟩
        else session.emit (.stubCallback request)

end Session

/-! ## Events -/

/-- A call by the user; the answer to the running call; the answer to a call outside of
the queue; or the next callback. -/
inductive Event
  | execute (kind : Kind) (size : ℕ)
  | begin
  | commit
  | rollback
  | answer (outcome : Session.Outcome)
  | arrive (task : Task) (outcome : Session.Outcome)
  | callback
deriving DecidableEq, Repr

/-- One event.  The answers wait until the callbacks behind the last one are done. -/
def step (session : Session) : Event → Option Session
  | .execute kind size => if kind = .nothing then none else some (session.execute kind size)
  | .begin => some session.begin
  | .commit => some (session.complete .commit)
  | .rollback => some (session.complete .rollback)
  | .answer outcome =>
      match session.callbacks, session.execQueue with
      | [], call :: _ => some (session.answered call outcome)
      | _, _ => none
  | .arrive task outcome =>
      if session.callbacks = [] ∧ task ∈ session.outside then
        some ({ session with outside := session.outside.erase task }.arrived outcome task)
      else none
  | .callback =>
      match session.callbacks with
      | [] => none
      | .opCallback request index :: rest =>
          some (({ session with callbacks := rest }.update request.handler fun handler =>
            { handler with executedOperations := handler.executedOperations + 1 }).emit
              (.opCallback request index))
      | .finish request execMode :: rest =>
          some ({ session with callbacks := rest }.finish request execMode)

end DatabaseJones.NdbTransaction
