import DatabaseJones.Library.Run
import DatabaseJones.Library.Ledger
import Mathlib.Logic.Function.Basic

/-!
# The registry of connections and session factories

`connect()` and `openSession()` look for a connection with the connection key of their properties,
and in it for a factory with their database.  The first request for a key connects, and those that
come meanwhile wait for it.  A request with table mappings borrows a session slot of the factory
until they are resolved.  Closing a factory removes it from its connection, and closing the last
one closes the connection pool.
-/

namespace DatabaseJones.JonesConnections

open DatabaseJones.Library

/-! ## Connections and factories -/

/-- A `Connection`; keys and databases are numbered. -/
structure Connection where
  connectionKey : ℕ := 0
  factories : List (ℕ × ℕ) := []
  count : ℤ := 0
  isConnecting : Bool := true
  dbConnectionPool : Bool := false

/-- A slot of a factory: free, reserved or taken by a request that resolves its mappings, or taken
by a session of a user. -/
inductive Slot
  | null
  | placeholder (request : ℕ)
  | mapping (request : ℕ)
  | user
deriving DecidableEq, Repr

/-- A `SessionFactory`, with the connection that its `delete_callback` refers to. -/
structure SessionFactory where
  connection : ℕ := 0
  database : ℕ := 0

/-- A call of `getSessionFactory`, with the connection it has found or made. -/
structure Request where
  connection : ℕ := 0
  database : ℕ := 0
  tableMappings : Bool := false

/-- What a caller's callback is told. -/
inductive Result
  | factory (factory : ℕ)
  | poolError
  | sessionError
  | closeError
  | mappingError
deriving DecidableEq, Repr

/-- What can be observed.  A pool has the number of its connection. -/
inductive Output
  | requested (request : ℕ)
  | callback (request : ℕ) (result : Result)
  | poolOpening (connection : ℕ)
  | poolFailed (connection : ℕ)
  | poolClosed (connection : ℕ)
  | factoryCreated (factory : ℕ)
  | factoryCloseCalled (factory : ℕ)
  | factoryDeleted (factory : ℕ)
  | threw
deriving DecidableEq, Repr

/-- `waitingForConnection` has the requests whose callbacks were pushed to each connection, `sessions`
are those of each factory, and `factory` and `sessionSlot` are variables of each request.
`connects` are the calls of the service provider, each with its first request; `notifying` are
the waiting requests that have not been told yet, with an error or not; `getDBSessions`, `resolves`
and `closes` are requests by how far their mappings are, the last with or without errors; and
`sessionCloses` are the sessions that a call of a factory's `close` waits for, with their slots. -/
structure State where
  connections : ℕ → Connection := fun _ => {}
  created : ℕ := 0
  waitingForConnection : ℕ → List ℕ := fun _ => []
  jonesConnections : ℕ → Option ℕ := fun _ => none
  factories : ℕ → SessionFactory := fun _ => {}
  factoriesCreated : ℕ := 0
  sessions : ℕ → List Slot := fun _ => []
  requests : ℕ → Request := fun _ => {}
  requested : ℕ := 0
  factory : ℕ → ℕ := fun _ => 0
  sessionSlot : ℕ → ℕ := fun _ => 0
  connects : List (ℕ × ℕ) := []
  notifying : List (ℕ × Bool) := []
  getDBSessions : List ℕ := []
  resolves : List ℕ := []
  closes : List (ℕ × Bool) := []
  closeCalls : ℕ := 0
  closing : ℕ → ℕ := fun _ => 0
  numberOfSessionsToClose : ℕ → ℕ := fun _ => 0
  closedSessions : ℕ → ℕ := fun _ => 0
  sessionCloses : List (ℕ × ℕ) := []
  trace : List Output := []

namespace State

def emit (s : State) (output : Output) : State := { s with trace := s.trace ++ [output] }

/-- Change one connection. -/
def modifyConnection (s : State) (c : ℕ) (f : Connection → Connection) : State :=
  { s with connections := Function.update s.connections c (f (s.connections c)) }

/-- `sessions[index] = slot` of a factory. -/
def put (s : State) (factory index : ℕ) (slot : Slot) : State :=
  { s with sessions :=
      Function.update s.sessions factory (Library.put (s.sessions factory) index slot) }

/-! ## Getting a factory -/

/-- `resolveTableMappingsAndCallback()`. -/
def resolveTableMappingsAndCallback (s : State) (r factory : ℕ) : State :=
  if (s.requests r).tableMappings then
    let sessionSlot := firstFree .null (s.sessions factory)
    { s.put factory sessionSlot (.placeholder r) with
      factory := Function.update s.factory r factory
      sessionSlot := Function.update s.sessionSlot r sessionSlot
      getDBSessions := s.getDBSessions ++ [r] }
  else
    { s.emit (.callback r (.factory factory)) with
      factory := Function.update s.factory r factory }

/-- `createFactory(dbConnectionPool)`, and its entry in the connection. -/
def createFactory (s : State) (c database : ℕ) : State :=
  let new := { s.emit (.factoryCreated s.factoriesCreated) with
    factories := Function.update s.factories s.factoriesCreated { connection := c, database := database }
    factoriesCreated := s.factoriesCreated + 1 }
  new.modifyConnection c fun connection =>
    { connection with
      factories := connection.factories ++ [(database, s.factoriesCreated)]
      count := connection.count + 1 }

/-- The factory of a connection for a database, if there is one. -/
def factory? (s : State) (c database : ℕ) : Option ℕ :=
  ((s.connections c).factories.find? fun entry => entry.1 = database).map Prod.snd

/-- Find the factory for the request's database, or create it. -/
def useFactory (s : State) (r : ℕ) : State :=
  let c := (s.requests r).connection
  let database := (s.requests r).database
  match s.factory? c database with
  | some factory => s.resolveTableMappingsAndCallback r factory
  | none => (s.createFactory c database).resolveTableMappingsAndCallback r s.factoriesCreated

/-- `getSessionFactory(userContext, properties, tableMappings, callback)`. -/
def getSessionFactory (s : State) (key database : ℕ) (tableMappings : Bool) : State :=
  let r := s.requested
  let called := { s.emit (.requested r) with requested := s.requested + 1 }
  match s.jonesConnections key with
  | none =>
      let c := s.created
      { called.emit (.poolOpening c) with
        requests := Function.update s.requests r
          { connection := c, database := database, tableMappings := tableMappings }
        connections := Function.update s.connections c { connectionKey := key }
        created := s.created + 1
        jonesConnections := Function.update s.jonesConnections key (some c)
        connects := s.connects ++ [(c, r)] }
  | some c =>
      let known := { called with
        requests := Function.update s.requests r
          { connection := c, database := database, tableMappings := tableMappings } }
      if (s.connections c).isConnecting then
        { known with waitingForConnection :=
            Function.update s.waitingForConnection c (s.waitingForConnection c ++ [r]) }
      else if (s.factory? c database).isNone && !(s.connections c).dbConnectionPool then
        known.emit (.callback r .poolError)
      else known.useFactory r

/-- `dbConnectionPoolCreated_callback(error, dbConnectionPool)` for the first request; the others
are told one after the other. -/
def dbConnectionPoolCreated (s : State) (i c r : ℕ) (success : Bool) : State :=
  let answered := { s with
    connects := s.connects.eraseIdx i
    notifying := s.notifying ++ (s.waitingForConnection c).map fun r => (r, !success) }
  if success then
    (answered.modifyConnection c fun connection =>
      { connection with isConnecting := false, dbConnectionPool := true }).useFactory r
  else
    ((answered.modifyConnection c fun connection => { connection with isConnecting := false }).emit
      (.poolFailed c)).emit (.callback r .poolError)

/-- `dbConnectionPoolCreated_callback(error, dbConnectionPool)` for a request that waited. -/
def notify (s : State) (i r : ℕ) (error : Bool) : State :=
  let told := { s with notifying := s.notifying.eraseIdx i }
  if error then told.emit (.callback r .poolError) else told.useFactory r

/-! ## Resolving mappings -/

/-- The callback of `getDBSession`. -/
def gotDBSession (s : State) (i r : ℕ) (success : Bool) : State :=
  let answered := { s with getDBSessions := s.getDBSessions.eraseIdx i }
  if success then
    { answered.put (s.factory r) (s.sessionSlot r) (.mapping r) with
      resolves := s.resolves ++ [r] }
  else answered.emit (.callback r .sessionError)

/-- `onMappingsResolved()`, after resolving with or without errors. -/
def onMappingsResolved (s : State) (i r : ℕ) (errors : Bool) : State :=
  { s with resolves := s.resolves.eraseIdx i, closes := s.closes ++ [(r, errors)] }

/-- The callback of the `close` that `onMappingsResolved` calls. -/
def closed (s : State) (i r : ℕ) (errors success : Bool) : State :=
  let answered := { s with closes := s.closes.eraseIdx i }
  if success then
    (answered.put (s.factory r) (s.sessionSlot r) .null).emit
      (.callback r (if errors then .mappingError else .factory (s.factory r)))
  else answered.emit (.callback r .closeError)

/-! ## Closing a factory -/

/-- `deleteFactory(key, database, callback)` of a factory.  There is a TypeError if its key has no
connection any more, or the connection no factory for its database. -/
def deleteFactory (s : State) (factory : ℕ) : State :=
  let key := (s.connections (s.factories factory).connection).connectionKey
  let database := (s.factories factory).database
  match s.jonesConnections key with
  | none => s.emit .threw
  | some c =>
      match s.factory? c database with
      | none => s.emit .threw
      | some other =>
          let removed := (s.modifyConnection c fun connection =>
            { connection with
              factories := connection.factories.filter fun entry => entry.1 ≠ database }).emit
            (.factoryDeleted other)
          let counted := removed.modifyConnection (s.factories factory).connection fun connection =>
            { connection with count := connection.count - 1 }
          if (counted.connections (s.factories factory).connection).count = 0 then
            { counted.emit (.poolClosed (s.factories other).connection) with
              jonesConnections := Function.update s.jonesConnections key none }
          else counted

/-- The slots of sessions, which answer later when they are closed. -/
def open? : Slot → Bool
  | .mapping _ => true
  | .user => true
  | _ => false

/-- The sessions that a factory's `close` waits for. -/
def toClose (s : State) (factory : ℕ) : List ℕ :=
  (s.sessions factory).findIdxs open?

/-- `close(user_callback)` of a factory.  A placeholder calls back at once. -/
def close (s : State) (factory : ℕ) : State :=
  let toClose := s.toClose factory
  let numberOfSessionsToClose := (s.sessions factory).countP fun slot => slot ≠ .null
  let placeholders := numberOfSessionsToClose - toClose.length
  let called := s.emit (.factoryCloseCalled factory)
  let cleared := { called with
    sessions := Function.update s.sessions factory ((s.sessions factory).map fun _ => .null)
    closeCalls := s.closeCalls + 1
    closing := Function.update s.closing s.closeCalls factory
    numberOfSessionsToClose :=
      Function.update s.numberOfSessionsToClose s.closeCalls numberOfSessionsToClose
    closedSessions := Function.update s.closedSessions s.closeCalls placeholders
    sessionCloses := s.sessionCloses ++ toClose.map fun index => (s.closeCalls, index) }
  if placeholders = numberOfSessionsToClose then cleared.deleteFactory factory else cleared

/-- `onSessionClose(err)`, after the session has freed its slot. -/
def onSessionClose (s : State) (i call index : ℕ) : State :=
  let freed := { s.put (s.closing call) index .null with
    sessionCloses := s.sessionCloses.eraseIdx i
    closedSessions := Function.update s.closedSessions call (s.closedSessions call + 1) }
  if s.closedSessions call + 1 = s.numberOfSessionsToClose call then
    freed.deleteFactory (s.closing call)
  else freed

/-- A user opens a session of a factory. -/
def openSession (s : State) (factory : ℕ) : State :=
  s.put factory (firstFree .null (s.sessions factory)) .user

end State

/-! ## Runs -/

/-- Calls of the users, and answers of the service provider and the adapter in any order. -/
inductive Event
  | connect (key database : ℕ) (tableMappings : Bool)
  | dbConnectionPoolCreated (i : ℕ) (success : Bool)
  | notify (i : ℕ)
  | gotDBSession (i : ℕ) (success : Bool)
  | onMappingsResolved (i : ℕ) (errors : Bool)
  | closed (i : ℕ) (success : Bool)
  | openSession (factory : ℕ)
  | close (factory : ℕ)
  | onSessionClose (i : ℕ)
deriving DecidableEq, Repr

/-- Somebody has received the factory. -/
def received (factory : ℕ) (trace : List Output) : Bool :=
  trace.any fun output =>
    match output with
    | .callback _ (.factory other) => other = factory
    | _ => false

/-- Only factories that were received are used. -/
def step (s : State) : Event → Option State
  | .connect key database tableMappings => some (s.getSessionFactory key database tableMappings)
  | .dbConnectionPoolCreated i success =>
      (s.connects[i]?).map fun (c, r) => s.dbConnectionPoolCreated i c r success
  | .notify i => (s.notifying[i]?).map fun (r, error) => s.notify i r error
  | .gotDBSession i success => (s.getDBSessions[i]?).map fun r => s.gotDBSession i r success
  | .onMappingsResolved i errors => (s.resolves[i]?).map fun r => s.onMappingsResolved i r errors
  | .closed i success => (s.closes[i]?).map fun (r, errors) => s.closed i r errors success
  | .openSession factory =>
      if received factory s.trace then some (s.openSession factory) else none
  | .close factory => if received factory s.trace then some (s.close factory) else none
  | .onSessionClose i =>
      (s.sessionCloses[i]?).map fun (call, index) => s.onSessionClose i call index

/-! ## What is expected -/

/-- How often the callback of a request was called. -/
def callbacks (r : ℕ) (trace : List Output) : ℕ :=
  trace.countP fun output =>
    match output with
    | .callback other _ => other = r
    | _ => false

/-- The pool of a connection is open or opening. -/
def Live (trace : List Output) (c : ℕ) : Prop :=
  .poolOpening c ∈ trace ∧ .poolFailed c ∉ trace ∧ .poolClosed c ∉ trace

/-- Nothing is outstanding. -/
def Quiet (s : State) : Prop :=
  s.connects = [] ∧ s.notifying = [] ∧ s.getDBSessions = [] ∧ s.resolves = [] ∧ s.closes = [] ∧
    s.sessionCloses = []

/-- Connections and factories are registered as they should be. -/
structure Registered (s : State) : Prop where
  onePool : ∀ c d, Live s.trace c → Live s.trace d →
    (s.connections c).connectionKey = (s.connections d).connectionKey → c = d
  counted : ∀ c, (s.connections c).count = (s.connections c).factories.length
  callbacks_le : ∀ r, callbacks r s.trace ≤ 1
  callbacks_eq : Quiet s → ∀ r, .requested r ∈ s.trace → callbacks r s.trace = 1
  poolError : ∀ r result, .callback r result ∈ s.trace →
    .poolFailed (s.requests r).connection ∈ s.trace → result = .poolError
  poolClosed_iff : ∀ c, .poolClosed c ∈ s.trace ↔
    (∃ f, .factoryCreated f ∈ s.trace ∧ (s.factories f).connection = c) ∧
      ∀ f, .factoryCreated f ∈ s.trace → (s.factories f).connection = c →
        .factoryDeleted f ∈ s.trace
  poolClosed_le : ∀ c, s.trace.count (.poolClosed c) ≤ 1
  deleted : ∀ f, .factoryDeleted f ∈ s.trace → .factoryCloseCalled f ∈ s.trace
  closed : Quiet s → ∀ f, .factoryCloseCalled f ∈ s.trace → .factoryDeleted f ∈ s.trace
  open_of_received : ∀ before r f, before ++ [.callback r (.factory f)] <+: s.trace →
    .poolClosed (s.factories f).connection ∉ before
  givenBack : ∀ r result, .callback r result ∈ s.trace → ∀ f,
    Slot.placeholder r ∉ s.sessions f ∧ Slot.mapping r ∉ s.sessions f

/-- The requests that will be given a factory. -/
def State.waiting (s : State) : List ℕ :=
  s.notifying.map Prod.fst ++ s.getDBSessions ++ s.resolves ++ s.closes.map Prod.fst

/-- If the factory is the last one of its connection, no request is waiting for one of this
connection. -/
def Idle (s : State) (factory : ℕ) : Prop :=
  (s.connections (s.factories factory).connection).factories.length ≤ 1 →
    ∀ r ∈ s.waiting, (s.requests r).connection ≠ (s.factories factory).connection

/-- The adapter opens and closes the sessions that resolve mappings without errors, each factory is
closed once, and the last factory of a connection is not deleted while requests wait for it. -/
def Allowed (s : State) : Event → Prop
  | .gotDBSession _ success => success = true
  | .closed _ success => success = true
  | .close factory => .factoryCloseCalled factory ∉ s.trace ∧
      (s.toClose factory = [] → Idle s factory)
  | .onSessionClose i => ∀ entry ∈ s.sessionCloses[i]?,
      s.closedSessions entry.1 + 1 = s.numberOfSessionsToClose entry.1 → Idle s (s.closing entry.1)
  | _ => True

instance (s : State) (factory : ℕ) : Decidable (Idle s factory) :=
  inferInstanceAs (Decidable (_ → ∀ r ∈ s.waiting, _))

instance (s : State) : ∀ event, Decidable (Allowed s event)
  | .connect _ _ _ => inferInstanceAs (Decidable True)
  | .dbConnectionPoolCreated _ _ => inferInstanceAs (Decidable True)
  | .notify _ => inferInstanceAs (Decidable True)
  | .gotDBSession _ _ => inferInstanceAs (Decidable (_ = true))
  | .onMappingsResolved _ _ => inferInstanceAs (Decidable True)
  | .closed _ _ => inferInstanceAs (Decidable (_ = true))
  | .openSession _ => inferInstanceAs (Decidable True)
  | .close _ => inferInstanceAs (Decidable (¬ _ ∧ (_ → _)))
  | .onSessionClose i => inferInstanceAs (Decidable (∀ entry ∈ s.sessionCloses[i]?,
      s.closedSessions entry.1 + 1 = s.numberOfSessionsToClose entry.1 → Idle s (s.closing entry.1)))

end DatabaseJones.JonesConnections

/-!
## What the registry keeps

A connection has a pool as soon as it has had a factory, and the pool is closed when it has none
any more; until then the connection is registered under its key.  Every request waits in one of
the lists, or in the hand of the function that runs, until its callback is called; and only a
request that is resolving its mappings has a slot.
-/

namespace DatabaseJones.JonesConnections

open DatabaseJones.Library

variable {s : State} {c r f : ℕ} {hand calls : List ℕ} {trace : List Output}

/-! ## Reading the state and the trace -/

/-- A connection whose last factory was deleted. -/
def State.Closed (s : State) (c : ℕ) : Prop :=
  (s.connections c).dbConnectionPool = true ∧ (s.connections c).factories = []

/-- A factory that its connection has. -/
def State.Has (s : State) (f : ℕ) : Prop :=
  ((s.factories f).database, f) ∈ (s.connections (s.factories f).connection).factories

/-- A request that resolves its mappings. -/
def State.Active (s : State) (r : ℕ) : Prop :=
  r ∈ s.getDBSessions ∨ r ∈ s.resolves ∨ r ∈ s.closes.map Prod.fst

/-- The requests for connections that have not been answered. -/
def pending (waitingForConnection : ℕ → List ℕ) (connects : List (ℕ × ℕ)) : List ℕ :=
  connects.flatMap fun entry => entry.2 :: waitingForConnection entry.1

@[simp] theorem callbacks_append (r : ℕ) (first second : List Output) :
    callbacks r (first ++ second) = callbacks r first + callbacks r second :=
  List.countP_append

@[simp] theorem callbacks_callback (r other : ℕ) (result : Result) :
    callbacks r [.callback other result] = if other = r then 1 else 0 := by
  simp [callbacks, List.countP_cons]

theorem callbacks_singleton {output : Output} (houtput : ∀ result, output ≠ .callback r result) :
    callbacks r [output] = 0 := by
  cases output with
  | callback other result =>
      have hne : other ≠ r := fun heq => houtput result (heq ▸ rfl)
      rw [callbacks_callback, if_neg hne]
  | _ => rfl

theorem callbacks_pos {result : Result} (h : .callback r result ∈ trace) : 0 < callbacks r trace :=
  List.countP_pos_iff.mpr ⟨_, h, by simp⟩

/-! ## What is kept -/

/-- Nobody receives a factory whose pool has been closed. -/
def Permitted (connection : ℕ → ℕ) (before : List Output) : Output → Prop
  | .callback _ (.factory f) => .poolClosed (connection f) ∉ before
  | _ => True

/-- How often a request is waiting, or in the hand of the running function. -/
def State.places (s : State) (hand : List ℕ) (r : ℕ) : ℕ :=
  (pending s.waitingForConnection s.connects).count r + tally Prod.fst r s.notifying +
    s.getDBSessions.count r + s.resolves.count r + tally Prod.fst r s.closes + hand.count r

/-- `hand` are the requests whose callbacks the running function holds, and `calls` the calls of
`close` whose factories it deletes. -/
structure Kept (s : State) (hand calls : List ℕ) : Prop where
  counted : ∀ c, (s.connections c).count = (s.connections c).factories.length
  databases : ∀ c, ((s.connections c).factories.map Prod.fst).Nodup
  fresh : ∀ c, s.created ≤ c → s.connections c = {} ∧ s.waitingForConnection c = []
  connects : ∀ c, c ∈ s.connects.map Prod.fst ↔
    c < s.created ∧ (s.connections c).isConnecting = true
  connects_nodup : (s.connects.map Prod.fst).Nodup
  connecting : ∀ c, (s.connections c).isConnecting = true →
    (s.connections c).dbConnectionPool = false
  hasPool : ∀ c, (s.connections c).dbConnectionPool = true ↔
    ∃ f < s.factoriesCreated, (s.factories f).connection = c
  registry : ∀ key c, s.jonesConnections key = some c ↔
    c < s.created ∧ (s.connections c).connectionKey = key ∧ ¬ s.Closed c
  registered : ∀ c, ∀ entry ∈ (s.connections c).factories, entry.2 < s.factoriesCreated ∧
    (s.factories entry.2).connection = c ∧ (s.factories entry.2).database = entry.1
  requested : ∀ r, .requested r ∈ s.trace ↔ r < s.requested
  requestedOnce : ∀ r, s.trace.count (.requested r) ≤ 1
  opening : ∀ c, .poolOpening c ∈ s.trace ↔ c < s.created
  failed : ∀ c, .poolFailed c ∈ s.trace ↔ c < s.created ∧
    (s.connections c).isConnecting = false ∧ (s.connections c).dbConnectionPool = false
  closed : ∀ c, .poolClosed c ∈ s.trace ↔ s.Closed c
  closedOnce : ∀ c, s.trace.count (.poolClosed c) ≤ 1
  factoryCreated : ∀ f, .factoryCreated f ∈ s.trace ↔ f < s.factoriesCreated
  factoryDeleted : ∀ f, .factoryDeleted f ∈ s.trace ↔ f < s.factoriesCreated ∧ ¬ s.Has f
  results : ∀ r result, .callback r result ∈ s.trace → result ≠ .poolError →
    (s.connections (s.requests r).connection).dbConnectionPool = true
  received : ∀ r f, .callback r (.factory f) ∈ s.trace → f < s.factoriesCreated
  ledger : ∀ r, s.trace.count (.requested r) = callbacks r s.trace + s.places hand r
  requestConnection : ∀ entry ∈ s.connects,
    ∀ r ∈ entry.2 :: s.waitingForConnection entry.1, (s.requests r).connection = entry.1
  notifying : ∀ entry ∈ s.notifying,
    (s.requests entry.1).connection < s.created ∧
      (s.connections (s.requests entry.1).connection).isConnecting = false ∧
      if entry.2 = true then
        (s.connections (s.requests entry.1).connection).dbConnectionPool = false
      else
        (s.connections (s.requests entry.1).connection).dbConnectionPool = true ∧
          ¬ s.Closed (s.requests entry.1).connection
  active : ∀ r, s.Active r → s.factory r < s.factoriesCreated ∧
    (s.factories (s.factory r)).connection = (s.requests r).connection ∧
    ¬ s.Closed (s.requests r).connection
  sessionSlot_lt : ∀ r, s.Active r → s.sessionSlot r < (s.sessions (s.factory r)).length
  slots : ∀ (f i r : ℕ), (s.sessions f)[i]? = some (.placeholder r) ∨
    (s.sessions f)[i]? = some (.mapping r) → f = s.factory r ∧ i = s.sessionSlot r ∧ s.Active r
  closeCalled : ∀ f, .factoryCloseCalled f ∈ s.trace ↔ ∃ n < s.closeCalls, s.closing n = f
  closingOnce : ∀ n < s.closeCalls, ∀ m < s.closeCalls, s.closing n = s.closing m → n = m
  closing_lt : ∀ n < s.closeCalls, s.closing n < s.factoriesCreated
  sessionCloses : ∀ entry ∈ s.sessionCloses, entry.1 < s.closeCalls
  countedSessions : ∀ n < s.closeCalls,
    s.closedSessions n + tally Prod.fst n s.sessionCloses = s.numberOfSessionsToClose n
  deletes : ∀ n < s.closeCalls, s.Has (s.closing n) ↔
    s.closedSessions n ≠ s.numberOfSessionsToClose n ∨ n ∈ calls
  deleted : ∀ f < s.factoriesCreated, ¬ s.Has f → ∃ n < s.closeCalls, s.closing n = f
  permitted : Throughout (Permitted fun f => (s.factories f).connection) s.trace

theorem kept_start : Kept {} [] [] where
  counted _ := rfl
  databases _ := List.nodup_nil
  fresh _ _ := ⟨rfl, rfl⟩
  connects _ := ⟨fun h => absurd h List.not_mem_nil, fun h => absurd h.1 (Nat.not_lt_zero _)⟩
  connects_nodup := List.nodup_nil
  connecting _ _ := rfl
  hasPool _ := ⟨fun h => (nomatch h), fun ⟨_, h, _⟩ => absurd h (Nat.not_lt_zero _)⟩
  registry _ _ := ⟨fun h => (nomatch h), fun h => absurd h.1 (Nat.not_lt_zero _)⟩
  registered _ _ h := absurd h List.not_mem_nil
  requested _ := ⟨fun h => absurd h List.not_mem_nil, fun h => absurd h (Nat.not_lt_zero _)⟩
  requestedOnce _ := Nat.zero_le _
  opening _ := ⟨fun h => absurd h List.not_mem_nil, fun h => absurd h (Nat.not_lt_zero _)⟩
  failed _ := ⟨fun h => absurd h List.not_mem_nil, fun h => absurd h.1 (Nat.not_lt_zero _)⟩
  closed _ := ⟨fun h => absurd h List.not_mem_nil, fun h => (nomatch h.1)⟩
  closedOnce _ := Nat.zero_le _
  factoryCreated _ := ⟨fun h => absurd h List.not_mem_nil, fun h => absurd h (Nat.not_lt_zero _)⟩
  factoryDeleted _ := ⟨fun h => absurd h List.not_mem_nil, fun h => absurd h.1 (Nat.not_lt_zero _)⟩
  results _ _ h := absurd h List.not_mem_nil
  received _ _ h := absurd h List.not_mem_nil
  ledger _ := rfl
  requestConnection _ h := absurd h List.not_mem_nil
  notifying _ h := absurd h List.not_mem_nil
  active _ h := by simp [State.Active] at h
  sessionSlot_lt _ h := by simp [State.Active] at h
  slots _ _ _ h := by simp at h
  closeCalled _ := ⟨fun h => absurd h List.not_mem_nil, fun ⟨_, h, _⟩ => absurd h (Nat.not_lt_zero _)⟩
  closingOnce _ h := absurd h (Nat.not_lt_zero _)
  closing_lt _ h := absurd h (Nat.not_lt_zero _)
  sessionCloses _ h := absurd h List.not_mem_nil
  countedSessions _ h := absurd h (Nat.not_lt_zero _)
  deletes _ h := absurd h (Nat.not_lt_zero _)
  deleted _ h := absurd h (Nat.not_lt_zero _)
  permitted := throughout_nil

/-! ## What follows -/

theorem Kept.has_lt (h : Kept s hand calls) (hf : s.Has f) : f < s.factoriesCreated :=
  (h.registered _ _ hf).1

/-- A request that waits has not been called back. -/
theorem Kept.places_le (h : Kept s hand calls) (r : ℕ) :
    callbacks r s.trace + s.places hand r ≤ 1 :=
  (h.ledger r).symm.trans_le (h.requestedOnce r)

theorem State.places_pos_of_active (hand : List ℕ) (hactive : s.Active r) :
    0 < s.places hand r := by
  unfold State.places
  rcases hactive with hmem | hmem | hmem
  · have := List.count_pos_iff.mpr hmem
    omega
  · have := List.count_pos_iff.mpr hmem
    omega
  · obtain ⟨entry, hentry, rfl⟩ := List.mem_map.mp hmem
    have : 0 < tally Prod.fst entry.1 s.closes := tally_pos hentry
    omega

/-- A connection has no factories exactly when each it has had was deleted. -/
theorem Kept.closed_iff (h : Kept s hand calls) (c : ℕ) : s.Closed c ↔
    (∃ f < s.factoriesCreated, (s.factories f).connection = c) ∧
      ∀ f < s.factoriesCreated, (s.factories f).connection = c → ¬ s.Has f := by
  unfold State.Closed
  rw [h.hasPool]
  refine and_congr_right fun _ => ⟨fun hnone f _ hc hhas => ?_, fun hall => ?_⟩
  · rw [State.Has, hc, hnone] at hhas
    exact List.not_mem_nil hhas
  · refine List.eq_nil_iff_forall_not_mem.mpr fun entry hentry => ?_
    obtain ⟨hlt, hc, hdatabase⟩ := h.registered c entry hentry
    refine hall entry.2 hlt hc ?_
    rw [State.Has, hc, hdatabase]
    exact hentry

theorem Kept.isRegistered (h : Kept s [] []) : Registered s where
  onePool c d hc hd hkey := by
    have hfirst := (h.registry _ c).mpr ⟨(h.opening c).mp hc.1, rfl, fun hclosed =>
      hc.2.2 ((h.closed c).mpr hclosed)⟩
    have hsecond := (h.registry _ d).mpr ⟨(h.opening d).mp hd.1, rfl, fun hclosed =>
      hd.2.2 ((h.closed d).mpr hclosed)⟩
    rw [hkey, hsecond] at hfirst
    exact (Option.some.inj hfirst).symm
  counted := h.counted
  callbacks_le r := by
    have hle := h.places_le r
    omega
  callbacks_eq hquiet r hrequested := by
    obtain ⟨hconnects, hnotifying, hget, hresolves, hcloses, -⟩ := hquiet
    have hledger := h.ledger r
    have honce := h.requestedOnce r
    have hpos := List.count_pos_iff.mpr hrequested
    simp only [State.places, pending, hconnects, hnotifying, hget, hresolves, hcloses,
      List.flatMap_nil, List.count_nil, tally_nil] at hledger
    omega
  poolError r result hcallback hfailed := by
    by_contra hne
    have hpool := h.results r result hcallback hne
    rw [((h.failed _).mp hfailed).2.2] at hpool
    cases hpool
  poolClosed_iff c := by
    rw [h.closed, h.closed_iff]
    simp only [h.factoryCreated, h.factoryDeleted]
    refine and_congr_right fun _ => forall_congr' fun f => ?_
    tauto
  poolClosed_le := h.closedOnce
  deleted f hdeleted := by
    obtain ⟨hlt, hnot⟩ := (h.factoryDeleted f).mp hdeleted
    exact (h.closeCalled f).mpr (h.deleted f hlt hnot)
  closed hquiet f hcalled := by
    obtain ⟨-, -, -, -, -, hcloses⟩ := hquiet
    obtain ⟨n, hn, rfl⟩ := (h.closeCalled f).mp hcalled
    have hcounted := h.countedSessions n hn
    rw [hcloses, tally_nil, Nat.add_zero] at hcounted
    refine (h.factoryDeleted _).mpr ⟨h.closing_lt n hn, fun hhas => ?_⟩
    rcases (h.deletes n hn).mp hhas with hne | hmem
    · exact hne hcounted
    · exact List.not_mem_nil hmem
  open_of_received before r f hbegins := h.permitted before (.callback r (.factory f)) hbegins
  givenBack r result hcallback f := by
    have hle := h.places_le r
    have hpos := callbacks_pos hcallback
    have hnot : ¬ s.Active r := fun hactive => by
      have := State.places_pos_of_active [] hactive
      omega
    refine ⟨fun hmem => ?_, fun hmem => ?_⟩
    · obtain ⟨i, hi⟩ := List.getElem?_of_mem hmem
      exact hnot (h.slots f i r (Or.inl hi)).2.2
    · obtain ⟨i, hi⟩ := List.getElem?_of_mem hmem
      exact hnot (h.slots f i r (Or.inr hi)).2.2

end DatabaseJones.JonesConnections
