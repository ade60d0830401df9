import DatabaseJones.NdbConnection.Closing

/-!
# The session pool of a cluster connection

A pool keeps the sessions that were closed, with the native objects they own, on a free list.
`getDBSession` takes one from there, or makes a new one; `prefetchSession` puts new ones on the
list.  A session is closed by putting it back, or, when the list is full or the connection is
going away, by destroying its native object.  Closing the pool destroys those on the list and
then releases the connection, which the pool shares with others.
-/

namespace DatabaseJones.NdbConnectionPool

open DatabaseJones.Library

/-! ## Sessions -/

/-- The properties of a pool that matter here, and its number among the pools. -/
structure Properties where
  pool : ℕ
  ndb_session_pool_min : ℕ
  ndb_session_pool_max : ℕ

/-- An `NdbSession`.  `fetchImpl` runs once for each of them, so the native object it creates
has the number of the session. -/
structure NdbSession where
  impl : Option ℕ := none
  isOpenNdbSession : Bool := false

/-- Who waits for `fetchImpl`. -/
inductive Fetch
  | user | prefetch
deriving DecidableEq, Repr

/-- Whose callback is called when a session has been closed or a native object destroyed: a
user's, who has the session under a handle, that of a prefetch, which does nothing, or the
`onNdbClose` of the pool. -/
inductive Caller
  | user (handle : ℕ)
  | prefetch
  | pool
deriving DecidableEq, Repr

/-- A call in `execQueue` that destroys a session's native object, or closes the Ndb object of a
table. -/
structure Closing where
  impl : Option ℕ
  caller : Caller
deriving DecidableEq, Repr

/-- What can be observed.  A handle stands for a session from the time a user receives it. -/
inductive Output
  | created (impl : ℕ)
  | opened (handle session : ℕ)
  | openFailed
  | used (impl : ℕ)
  | destroyed (impl : ℕ)
  | closeCalled (handle : ℕ)
  | closeCallback (handle : ℕ)
  | closeReturned (freeListLength : ℕ)
  | threw
deriving DecidableEq, Repr

/-- `connection` is the connection with all its pools, and `freeList` has the session that was
pushed last at its head. -/
structure State where
  connection : NdbConnection.State := {}
  sessions : ℕ → NdbSession := fun _ => {}
  created : ℕ := 0
  handles : ℕ := 0
  session : ℕ → ℕ := fun _ => 0
  ndbSessionFreeList : List ℕ := []
  openTables : ℕ := 0
  fetches : List (ℕ × Fetch) := []
  execQueue : List Closing := []
  trace : List Output := []

namespace State

def emit (s : State) (output : Output) : State := { s with trace := s.trace ++ [output] }

/-- Change one session. -/
def modify (s : State) (d : ℕ) (f : NdbSession → NdbSession) : State :=
  { s with sessions := Function.update s.sessions d (f (s.sessions d)) }

/-- The connection of a pool. -/
def ndbConnection (s : State) (properties : Properties) : NdbConnection.Connection :=
  match s.connection.ndbConnection properties.pool with
  | some c => s.connection.connections c
  | none => {}

/-! ## Closing -/

/-- `onNdbClose()`: one of the objects that the pool closes is closed. -/
def onNdbClose (s : State) (properties : Properties) : State :=
  let i := s.connection.closes.findIdx fun entry => entry.1 = properties.pool
  { s with connection := (NdbConnection.step s.connection (.onNdbClose i)).getD s.connection }

def callback (s : State) (properties : Properties) : Caller → State
  | .user handle => s.emit (.closeCallback handle)
  | .prefetch => s
  | .pool => s.onNdbClose properties

/-- `closeDbSessionImpl(execQueue, impl, callbackOnClose)`.  There is a TypeError if there is no
native object. -/
def closeDbSessionImpl (s : State) (impl : Option ℕ) (caller : Caller) : State :=
  match impl with
  | none => s.emit .threw
  | some d => { s.emit (.used d) with execQueue := s.execQueue ++ [{ impl := some d, caller }] }

/-- `closeNdbSession(ndbSession, userCallback)`. -/
def closeNdbSession (s : State) (properties : Properties) (d : ℕ) (caller : Caller) : State :=
  if (s.sessions d).isOpenNdbSession = false then s.callback properties caller
  else if !(s.ndbConnection properties).isConnected then s.callback properties caller
  else if (s.ndbConnection properties).isDisconnecting ||
      s.ndbSessionFreeList.length > properties.ndb_session_pool_max then
    (s.modify d fun session => { session with impl := none }).closeDbSessionImpl
      (s.sessions d).impl caller
  else
    let closed := s.modify d fun session => { session with isOpenNdbSession := false }
    { closed with ndbSessionFreeList := d :: s.ndbSessionFreeList }.callback properties caller

/-- `close(callback)` of a session, by a user. -/
def close (s : State) (properties : Properties) (handle : ℕ) : State :=
  let closed :=
    (s.emit (.closeCalled handle)).closeNdbSession properties (s.session handle) (.user handle)
  closed.emit (.closeReturned closed.ndbSessionFreeList.length)

/-- `DBConnectionPool.close(userCallback)`: tables first, then the sessions of the free list. -/
def closePool (s : State) (properties : Properties) : State :=
  let nclose := s.ndbSessionFreeList.length + s.openTables
  let tables : Closing := { impl := none, caller := .pool }
  let popped : State := { s with
    connection := s.connection.close properties.pool nclose
    openTables := 0
    ndbSessionFreeList := []
    execQueue := s.execQueue ++ List.replicate s.openTables tables }
  s.ndbSessionFreeList.foldl (fun closing d =>
    closing.closeDbSessionImpl (s.sessions d).impl .pool) popped

/-! ## Opening -/

/-- A new session object, whose native object is fetched. -/
def fetch (s : State) (kind : Fetch) (isOpen : Bool) : State :=
  { s.modify s.created fun _ => { isOpenNdbSession := isOpen } with
    created := s.created + 1
    fetches := s.fetches ++ [(s.created, kind)] }

/-- The callback of `getDBSession` receives a session. -/
def receive (s : State) (d : ℕ) : State :=
  { s.emit (.opened s.handles d) with
    handles := s.handles + 1, session := Function.update s.session s.handles d }

/-- `getDBSession(index, user_callback)`. -/
def getDBSession (s : State) : State :=
  match s.ndbSessionFreeList with
  | d :: rest =>
      ({ s with ndbSessionFreeList := rest }.modify d fun session =>
        { session with isOpenNdbSession := true }).receive d
  | [] => s.fetch .user true

/-- `prefetchSession(ndbPool)`. -/
def prefetchSession (s : State) (properties : Properties) : State :=
  if (s.ndbConnection properties).isDisconnecting then s else s.fetch .prefetch false

/-- `onFetch(err, dbSession)` of a prefetched session. -/
def onFetch (s : State) (properties : Properties) (d : ℕ) : State :=
  if (s.ndbConnection properties).isDisconnecting then s.closeNdbSession properties d .prefetch
  else
    let pushed := { s with ndbSessionFreeList := d :: s.ndbSessionFreeList }
    if pushed.ndbSessionFreeList.length < properties.ndb_session_pool_min then
      pushed.fetch .prefetch false
    else pushed

/-- The answer of `DBSession.create`. -/
def fetched (s : State) (properties : Properties) (i d : ℕ) (kind : Fetch) (success : Bool) : State :=
  let answered := { s with fetches := s.fetches.eraseIdx i }
  if success then
    let created := (answered.modify d fun session => { session with impl := some d }).emit (.created d)
    match kind with
    | .user => created.receive d
    | .prefetch => created.onFetch properties d
  else
    match kind with
    | .user => answered.emit .openFailed
    | .prefetch => answered

/-- A user who has a session works with its native object. -/
def use (s : State) (handle : ℕ) : State :=
  match (s.sessions (s.session handle)).impl with
  | some d => s.emit (.used d)
  | none => s.emit .threw

/-- The first call of the queue has run. -/
def destroyed (s : State) (properties : Properties) (closing : Closing) (rest : List Closing) : State :=
  let run := { s with execQueue := rest, trace := s.trace ++ closing.impl.toList.map Output.destroyed }
  run.callback properties closing.caller

end State

/-! ## Runs -/

/-- Calls of the users, answers of the cluster, and what happens to the connection. -/
inductive Event
  | getDBSession
  | prefetch
  | fetched (i : ℕ) (success : Bool)
  | use (handle : ℕ)
  | close (handle : ℕ)
  | openTable
  | closePool
  | destroyed
  | connection (event : NdbConnection.Event)
deriving DecidableEq, Repr

/-- The pool itself decides when it closes its connection. -/
def Foreign (s : State) (properties : Properties) : NdbConnection.Event → Prop
  | .close pool _ => pool ≠ properties.pool
  | .onNdbClose i => ∀ entry ∈ s.connection.closes[i]?, entry.1 ≠ properties.pool
  | _ => True

instance (s : State) (properties : Properties) : ∀ event, Decidable (Foreign s properties event)
  | .connect _ => inferInstanceAs (Decidable True)
  | .onConnected _ _ => inferInstanceAs (Decidable True)
  | .onReady _ _ => inferInstanceAs (Decidable True)
  | .close _ _ => inferInstanceAs (Decidable (_ ≠ _))
  | .onNdbClose i => inferInstanceAs (Decidable (∀ entry ∈ s.connection.closes[i]?, _))
  | .closeReally _ => inferInstanceAs (Decidable True)
  | .disconnect _ => inferInstanceAs (Decidable True)
  | .deleted _ => inferInstanceAs (Decidable True)

/-- Sessions are requested, prefetched and closed once the pool has called `connect`, and a user
has only the sessions received. -/
def step (properties : Properties) (s : State) : Event → Option State
  | .getDBSession =>
      (s.connection.ndbConnection properties.pool).map fun _ => s.getDBSession
  | .prefetch =>
      (s.connection.ndbConnection properties.pool).map fun _ => s.prefetchSession properties
  | .fetched i success =>
      (s.fetches[i]?).map fun (d, kind) => s.fetched properties i d kind success
  | .use handle => if handle < s.handles then some (s.use handle) else none
  | .close handle => if handle < s.handles then some (s.close properties handle) else none
  | .openTable => some { s with openTables := s.openTables + 1 }
  | .closePool =>
      (s.connection.ndbConnection properties.pool).map fun _ => s.closePool properties
  | .destroyed =>
      match s.execQueue with
      | closing :: rest => some (s.destroyed properties closing rest)
      | [] => none
  | .connection event =>
      if Foreign s properties event then
        (NdbConnection.step s.connection event).map fun connection => { s with connection }
      else none

/-! ## What is expected -/

/-- The handles under which a session is open. -/
def users (d : ℕ) (trace : List Output) : List ℕ :=
  trace.foldl (fun users output =>
    match output with
    | .opened handle other => if other = d then users ++ [handle] else users
    | .closeCalled handle => users.erase handle
    | _ => users) []

/-- The native objects whose destruction is queued. -/
def State.queued (s : State) (d : ℕ) : ℕ := tally Closing.impl (some d) s.execQueue

/-- The pool has been closed, its users have closed their sessions, and nothing is outstanding. -/
def Finished (s : State) (properties : Properties) : Prop :=
  .closeCalled properties.pool ∈ s.connection.trace ∧ (∀ d, users d s.trace = []) ∧
    s.fetches = [] ∧ s.execQueue = []

/-- A native object that was created is at one place: one user has it, or it is on the free list
once, or it is destroyed, or about to be. -/
structure Placed (properties : Properties) (s : State) : Prop where
  place : ∀ d, .created d ∈ s.trace →
    (users d s.trace).length + s.ndbSessionFreeList.count d +
      (s.queued d + s.trace.count (.destroyed d)) = 1
  notUsedAfter : ∀ before d, before ++ [.used d] <+: s.trace → .destroyed d ∉ before
  freeList_le : ∀ length, .closeReturned length ∈ s.trace →
    length ≤ properties.ndb_session_pool_max
  destroyed : Finished s properties → ∀ d, .created d ∈ s.trace →
    s.trace.count (.destroyed d) = 1
  closeCallback_le : ∀ handle,
    s.trace.count (.closeCallback handle) ≤ s.trace.count (.closeCalled handle)
  closeCallback_eq : s.execQueue = [] → ∀ handle,
    s.trace.count (.closeCallback handle) = s.trace.count (.closeCalled handle)
  poolCallback_le : s.connection.trace.count (.closeCallback properties.pool) ≤
    s.connection.trace.count (.closeCalled properties.pool)
  poolCallback_eq : NdbConnection.Quiet s.connection →
    s.connection.trace.count (.closeCallback properties.pool) =
      s.connection.trace.count (.closeCalled properties.pool)

/-- A user works with a session until closing it, and closes it while the connection is open and the
free list has room, or else while the connection is disconnecting.  A session that is closed
again has not been given to another user or destroyed.  Prefetched sessions do not come after
the pool was closed; and the connection is used as its own sharing needs. -/
def Allowed (properties : Properties) (s : State) : Event → Prop
  | .use handle => .closeCalled handle ∉ s.trace
  | .close handle =>
      if .closeCalled handle ∈ s.trace then
        ((s.sessions (s.session handle)).isOpenNdbSession = false ∨
          (s.ndbConnection properties).isConnected = false) ∧
            s.ndbSessionFreeList.length ≤ properties.ndb_session_pool_max
      else
        (s.ndbConnection properties).isConnected = true ∧
          ((s.ndbConnection properties).isDisconnecting = false →
            .closeCalled properties.pool ∉ s.connection.trace ∧
              s.ndbSessionFreeList.length < properties.ndb_session_pool_max)
  | .fetched i success => success = true → ∀ entry ∈ s.fetches[i]?, entry.2 = .prefetch →
      .closeCalled properties.pool ∉ s.connection.trace
  | .closePool => .closeCalled properties.pool ∉ s.connection.trace
  | .connection event => NdbConnection.Allowed s.connection event
  | _ => True

instance (properties : Properties) (s : State) : ∀ event, Decidable (Allowed properties s event)
  | .getDBSession => inferInstanceAs (Decidable True)
  | .prefetch => inferInstanceAs (Decidable True)
  | .fetched i success => inferInstanceAs (Decidable (success = true → ∀ entry ∈ s.fetches[i]?,
      entry.2 = .prefetch → .closeCalled properties.pool ∉ s.connection.trace))
  | .use _ => inferInstanceAs (Decidable (¬ _))
  | .close _ => inferInstanceAs (Decidable (ite _ _ _))
  | .openTable => inferInstanceAs (Decidable True)
  | .closePool => inferInstanceAs (Decidable (¬ _))
  | .destroyed => inferInstanceAs (Decidable True)
  | .connection event => inferInstanceAs (Decidable (NdbConnection.Allowed s.connection event))

end DatabaseJones.NdbConnectionPool
