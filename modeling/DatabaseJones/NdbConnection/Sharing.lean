import DatabaseJones.Library.Run
import Mathlib.Logic.Function.Basic

/-!
# Sharing a cluster connection

All pools with the same connect string share one `NdbConnection`, which counts them.  A pool
that is the first to connect opens it, and the others wait for the same answer.  When the last
pool has released it, it lingers for a while, and is closed if no new pool has come: after a
delay for the last asynchronous results, the native object is deleted.
-/

namespace DatabaseJones.NdbConnection

open DatabaseJones.Library

/-! ## Connections -/

/-- An `NdbConnection`; `pendingConnections` are the pools whose callbacks were pushed. -/
structure Connection where
  referenceCount : ℤ := 1
  pendingConnections : List ℕ := []
  isConnected : Bool := false
  isDisconnecting : Bool := false

/-- What a connect callback can be told. -/
inductive ConnectError
  | failed | timeout
deriving DecidableEq, Repr

/-- What can be observed: pools that obtain and release connections, their callbacks, and the
connections that are closed. -/
inductive Output
  | obtained (pool connection : ℕ)
  | connectCallback (pool connection : ℕ) (error : Option ConnectError)
  | closeCalled (pool : ℕ)
  | released (pool connection : ℕ)
  | closing (connection : ℕ)
  | closeCallback (pool : ℕ)
  | threw
deriving DecidableEq, Repr

/-- `base` is the entry of the connect string in `baseConnections`, and `ndbConnection` is what
each pool remembers.  `connects` and `readies` are the connections for which `connect` and
`wait_until_ready` have not been answered; `closes` are pools with the number of sessions and
tables that are being closed; and the pools that wait for a linger timer, for a delayed
disconnect and for the end of a native object stand with the connection. -/
structure State where
  connections : ℕ → Connection := fun _ => {}
  created : ℕ := 0
  base : Option ℕ := none
  ndbConnection : ℕ → Option ℕ := fun _ => none
  connects : List ℕ := []
  readies : List ℕ := []
  closes : List (ℕ × ℕ) := []
  lingers : List (ℕ × ℕ) := []
  disconnects : List (ℕ × ℕ) := []
  deletes : List (ℕ × ℕ) := []
  trace : List Output := []

namespace State

def emit (s : State) (output : Output) : State := { s with trace := s.trace ++ [output] }

/-- Change one connection. -/
def modify (s : State) (c : ℕ) (f : Connection → Connection) : State :=
  { s with connections := Function.update s.connections c (f (s.connections c)) }

/-! ## Connecting -/

/-- `NdbConnection.connect(properties, callback)`. -/
def connectTo (s : State) (pool c : ℕ) : State :=
  if (s.connections c).isConnected then s.emit (.connectCallback pool c none)
  else
    let pushed := s.modify c fun connection =>
      { connection with pendingConnections := connection.pendingConnections ++ [pool] }
    if (pushed.connections c).pendingConnections.length = 1 then
      { pushed with connects := pushed.connects ++ [c] }
    else pushed

/-- `DBConnectionPool.connect(user_callback)`, with `getNdbConnection(connectString)`. -/
def connect (s : State) (pool : ℕ) : State :=
  match s.base with
  | some c =>
      let shared := s.modify c fun connection =>
        { connection with referenceCount := connection.referenceCount + 1 }
      ({ shared with ndbConnection := Function.update s.ndbConnection pool (some c) }.emit
        (.obtained pool c)).connectTo pool c
  | none =>
      let new := s.modify s.created fun _ => {}
      ({ new with
          base := some s.created
          created := s.created + 1
          ndbConnection := Function.update s.ndbConnection pool (some s.created) }.emit
        (.obtained pool s.created)).connectTo pool s.created

/-- `runCallbacks(error, self)`.  The callbacks stay in `pendingConnections`. -/
def runCallbacks (s : State) (c : ℕ) (error : Option ConnectError) : State :=
  { s with trace := s.trace ++
      (s.connections c).pendingConnections.map fun pool => .connectCallback pool c error }

/-- `onConnected(cb_err, rval)`, where `rval` is 0 or not. -/
def onConnected (s : State) (i c : ℕ) (success : Bool) : State :=
  let answered := { s with connects := s.connects.eraseIdx i }
  if success then { answered with readies := answered.readies ++ [c] }
  else answered.runCallbacks c (some .failed)

/-- `onReady(cb_err, nnodes)`, where `nnodes` is negative or not. -/
def onReady (s : State) (i c : ℕ) (success : Bool) : State :=
  let answered := { s with readies := s.readies.eraseIdx i }
  if success then
    (answered.modify c fun connection => { connection with isConnected := true }).runCallbacks c none
  else answered.runCallbacks c (some .timeout)

/-! ## Closing -/

/-- `releaseNdbConnection(connectString, msecToLinger, userCallback)`.  There is a TypeError if
the table has no connection, and an assertion fails if the count was 0. -/
def release (s : State) (pool : ℕ) : State :=
  match s.base with
  | none => s.emit .threw
  | some c =>
      let released := (s.modify c fun connection =>
        { connection with referenceCount := connection.referenceCount - 1 }).emit (.released pool c)
      if (s.connections c).referenceCount - 1 < 0 then released.emit .threw
      else if (s.connections c).referenceCount - 1 = 0 then
        { released with lingers := released.lingers ++ [(c, pool)] }
      else released.emit (.closeCallback pool)

/-- `DBConnectionPool.close(userCallback)`, with the number of sessions and tables to close. -/
def close (s : State) (pool nclose : ℕ) : State :=
  let called := s.emit (.closeCalled pool)
  if nclose = 0 then called.release pool
  else { called with closes := called.closes ++ [(pool, nclose)] }

/-- `onNdbClose()`. -/
def onNdbClose (s : State) (i pool nclose : ℕ) : State :=
  if nclose - 1 = 0 then { s with closes := s.closes.eraseIdx i }.release pool
  else { s with closes := s.closes.set i (pool, nclose - 1) }

/-- `disconnect()`: the native object is deleted. -/
def disconnect (s : State) (c pool : ℕ) : State :=
  let disconnected := s.modify c fun connection => { connection with isConnected := false }
  { disconnected with deletes := disconnected.deletes ++ [(c, pool)] }

/-- `NdbConnection.close(userCallback)`. -/
def closeConnection (s : State) (c pool : ℕ) : State :=
  let closing := s.emit (.closing c)
  if !(s.connections c).isConnected then closing.disconnect c pool
  else if (s.connections c).isDisconnecting then closing
  else
    let disconnecting := closing.modify c fun connection =>
      { connection with isDisconnecting := true }
    { disconnecting with disconnects := disconnecting.disconnects ++ [(c, pool)] }

/-- `closeReally()`. -/
def closeReally (s : State) (i c pool : ℕ) : State :=
  let fired := { s with lingers := s.lingers.eraseIdx i }
  if (s.connections c).referenceCount = 0 then { fired with base := none }.closeConnection c pool
  else fired

end State

/-! ## Runs -/

/-- Calls of the pools, answers of the cluster and timers, in any order. -/
inductive Event
  | connect (pool : ℕ)
  | onConnected (i : ℕ) (success : Bool)
  | onReady (i : ℕ) (success : Bool)
  | close (pool nclose : ℕ)
  | onNdbClose (i : ℕ)
  | closeReally (i : ℕ)
  | disconnect (i : ℕ)
  | deleted (i : ℕ)
deriving DecidableEq, Repr

def step (s : State) : Event → Option State
  | .connect pool => some (s.connect pool)
  | .onConnected i success => (s.connects[i]?).map fun c => s.onConnected i c success
  | .onReady i success => (s.readies[i]?).map fun c => s.onReady i c success
  | .close pool nclose => some (s.close pool nclose)
  | .onNdbClose i => (s.closes[i]?).map fun (pool, nclose) => s.onNdbClose i pool nclose
  | .closeReally i => (s.lingers[i]?).map fun (c, pool) => s.closeReally i c pool
  | .disconnect i =>
      (s.disconnects[i]?).map fun (c, pool) =>
        { s with disconnects := s.disconnects.eraseIdx i }.disconnect c pool
  | .deleted i =>
      (s.deletes[i]?).map fun (_, pool) =>
        { s with deletes := s.deletes.eraseIdx i }.emit (.closeCallback pool)

/-! ## What is expected -/

/-- The pools that have obtained a connection and not released it. -/
def users (c : ℕ) (trace : List Output) : List ℕ :=
  trace.foldl (fun users output =>
    match output with
    | .obtained pool other => if other = c then users ++ [pool] else users
    | .released pool other => if other = c then users.erase pool else users
    | _ => users) []

/-- How often a pool has called `connect`. -/
def connectCalls (pool : ℕ) (trace : List Output) : ℕ :=
  trace.countP fun output =>
    match output with
    | .obtained other _ => other = pool
    | _ => false

/-- How often its connect callbacks were called. -/
def connectCallbacks (pool : ℕ) (trace : List Output) : ℕ :=
  trace.countP fun output =>
    match output with
    | .connectCallback other _ _ => other = pool
    | _ => false

/-- Nothing is outstanding. -/
def Quiet (s : State) : Prop :=
  s.connects = [] ∧ s.readies = [] ∧ s.closes = [] ∧ s.lingers = [] ∧ s.disconnects = [] ∧
    s.deletes = []

/-- Pools share connections as they should. -/
structure Shares (s : State) : Prop where
  counted : ∀ c, s.base = some c → (s.connections c).referenceCount = (users c s.trace).length
  nonneg : ∀ c, 0 ≤ (s.connections c).referenceCount
  connectCallback_le : ∀ pool, connectCallbacks pool s.trace ≤ connectCalls pool s.trace
  closeCallback_le : ∀ pool,
    s.trace.count (.closeCallback pool) ≤ s.trace.count (.closeCalled pool)
  connectCallback_eq : Quiet s → ∀ pool,
    connectCallbacks pool s.trace = connectCalls pool s.trace
  closeCallback_eq : Quiet s → ∀ pool,
    s.trace.count (.closeCallback pool) = s.trace.count (.closeCalled pool)
  unused : ∀ before c, before ++ [.closing c] <+: s.trace → users c before = []
  received : ∀ before pool c, before ++ [.connectCallback pool c none] <+: s.trace →
    .closing c ∉ before
  remembered : ∀ c < s.created, .closing c ∉ s.trace → s.base = some c
  neverThrows : .threw ∉ s.trace

/-- A pool connects once, and not to a connection that lingers or has failed to connect; it closes
once, after it has called `connect`; and a linger timer does not go off before the connection has
been answered. -/
def Allowed (s : State) : Event → Prop
  | .connect pool => s.ndbConnection pool = none ∧
      ∀ c ∈ s.base, (s.connections c).referenceCount ≠ 0 ∧
        ((s.connections c).isConnected = true ∨ c ∈ s.connects ++ s.readies)
  | .close pool _ => s.ndbConnection pool ≠ none ∧ .closeCalled pool ∉ s.trace
  | .closeReally i => ∀ linger ∈ s.lingers[i]?, linger.1 ∉ s.connects ++ s.readies
  | _ => True

instance (s : State) : ∀ event, Decidable (Allowed s event)
  | .connect _ => inferInstanceAs (Decidable (_ ∧ _))
  | .onConnected _ _ => inferInstanceAs (Decidable True)
  | .onReady _ _ => inferInstanceAs (Decidable True)
  | .close _ _ => inferInstanceAs (Decidable (_ ∧ _))
  | .onNdbClose _ => inferInstanceAs (Decidable True)
  | .closeReally i => inferInstanceAs (Decidable (∀ linger ∈ s.lingers[i]?, _))
  | .disconnect _ => inferInstanceAs (Decidable True)
  | .deleted _ => inferInstanceAs (Decidable True)

end DatabaseJones.NdbConnection
