import DatabaseJones.Library.Run
import DatabaseJones.Library.Ledger

/-!
# The session slots of a factory

A `SessionFactory` has its sessions in an array.  `openSession` reserves the first free slot with
a placeholder while the adapter gets a `DBSession`, and puts the session there when it comes;
closing a session frees the slot of its index once the adapter has closed the `DBSession`.
`close` of the factory closes what stands in the slots, frees all of them, and deletes the
factory after the last session was closed.
-/

namespace DatabaseJones.SessionFactory

open DatabaseJones.Library

/-! ## The factory -/

/-- An element of `sessions`.  A session has the number of the `openSession` that made it. -/
inductive Slot
  | null
  | placeholder (request : ℕ)
  | session (request : ℕ)
deriving DecidableEq, Repr

/-- Whose callback a session's `close` calls: a user's, or `onSessionClose` of a call of the
factory's `close`. -/
inductive Caller
  | user
  | factory (call : ℕ)
deriving DecidableEq, Repr

/-- What can be observed of each `openSession`, of its session, and of the factory's `close`. -/
inductive Output
  | requested (request : ℕ)
  | created (request : ℕ)
  | opened (request : ℕ)
  | openFailed (request : ℕ)
  | closeCalled (request : ℕ)
  | closed (request : ℕ)
  | factoryCloseCalled
  | factoryClosed
  | threw
deriving DecidableEq, Repr

/-- `opens` are the calls of `getDBSession`, with or without mappings to resolve, `resolves` the
sessions whose mappings are being resolved, `closes` the `DBSession`s that are being closed, and
`poolCloses` the calls of the factory's `close` that wait for `delete_callback`. -/
structure State where
  sessions : List Slot := []
  requested : ℕ := 0
  session_index : ℕ → ℕ := fun _ => 0
  opens : List (ℕ × Bool) := []
  resolves : List ℕ := []
  closes : List (ℕ × Caller) := []
  closeCalls : ℕ := 0
  numberOfSessionsToClose : ℕ → ℕ := fun _ => 0
  closedSessions : ℕ → ℕ := fun _ => 0
  deleted : Bool := false
  poolCloses : List ℕ := []
  trace : List Output := []

namespace State

def emit (s : State) (output : Output) : State := { s with trace := s.trace ++ [output] }

/-! ## Opening a session -/

/-- The index that `allocateSessionSlot()` returns. -/
def allocated (s : State) : ℕ := firstFree .null s.sessions

/-- `openSession(mappings, callback)`. -/
def openSession (s : State) (mappings : Bool) : State :=
  { s.emit (.requested s.requested) with
    sessions := put s.sessions s.allocated (.placeholder s.requested)
    requested := s.requested + 1
    session_index := Function.update s.session_index s.requested s.allocated
    opens := s.opens ++ [(s.requested, mappings)] }

/-- `openSessionOnSession(err, dbSession)`. -/
def openSessionOnSession (s : State) (i request : ℕ) (mappings success : Bool) : State :=
  let answered := { s with opens := s.opens.eraseIdx i }
  if success then
    let created := { answered.emit (.created request) with
      sessions := put s.sessions (s.session_index request) (.session request) }
    if mappings then { created with resolves := created.resolves ++ [request] }
    else created.emit (.opened request)
  else answered.emit (.openFailed request)

/-- `openSessionOnResolvedMappings()`. -/
def openSessionOnResolvedMappings (s : State) (i request : ℕ) (success : Bool) : State :=
  let answered := { s with resolves := s.resolves.eraseIdx i }
  answered.emit (if success then .opened request else .openFailed request)

/-! ## Closing -/

/-- `close(callback)` of a session. -/
def closeSession (s : State) (request : ℕ) (caller : Caller) : State :=
  { s.emit (.closeCalled request) with closes := s.closes ++ [(request, caller)] }

/-- `delete_callback(key, database, closeOnConnectionClose)`.  There is a TypeError if the factory
was deleted before. -/
def closeConnection (s : State) (call : ℕ) : State :=
  if s.deleted then s.emit .threw
  else { s with deleted := true, poolCloses := s.poolCloses ++ [call] }

/-- `onSessionClose(err)`. -/
def onSessionClose (s : State) (call : ℕ) : State :=
  let counted := { s with
    closedSessions := Function.update s.closedSessions call (s.closedSessions call + 1) }
  if s.closedSessions call + 1 = s.numberOfSessionsToClose call then counted.closeConnection call
  else counted

/-- `closeSessionOnDBSessionClose(err)`: the slot is freed by its index. -/
def closeSessionOnDBSessionClose (s : State) (i request : ℕ) (caller : Caller) : State :=
  let freed := { s.emit (.closed request) with
    closes := s.closes.eraseIdx i
    sessions := put s.sessions (s.session_index request) .null }
  match caller with
  | .user => freed
  | .factory call => freed.onSessionClose call

/-- The session of a slot. -/
def session? : Slot → Option ℕ
  | .session request => some request
  | _ => none

/-- `close(user_callback)` of the factory.  A placeholder calls `onSessionClose` at once. -/
def close (s : State) : State :=
  let toClose := s.sessions.filterMap session?
  let numberOfSessionsToClose := s.sessions.countP fun slot => slot ≠ .null
  let placeholders := numberOfSessionsToClose - toClose.length
  let called := { s with
    closeCalls := s.closeCalls + 1
    numberOfSessionsToClose :=
      Function.update s.numberOfSessionsToClose s.closeCalls numberOfSessionsToClose
    closedSessions := Function.update s.closedSessions s.closeCalls placeholders
    closes := s.closes ++ toClose.map fun request => (request, .factory s.closeCalls)
    sessions := s.sessions.map fun _ => .null
    trace := s.trace ++ .factoryCloseCalled :: toClose.map .closeCalled }
  if placeholders = numberOfSessionsToClose then called.closeConnection s.closeCalls else called

end State

/-! ## Runs -/

/-- Calls of the users, and the answers of the adapter in any order. -/
inductive Event
  | openSession (mappings : Bool)
  | openSessionOnSession (i : ℕ) (success : Bool)
  | openSessionOnResolvedMappings (i : ℕ) (success : Bool)
  | close (request : ℕ)
  | closeSessionOnDBSessionClose (i : ℕ)
  | factoryClose
  | closeOnConnectionClose (i : ℕ)
deriving DecidableEq, Repr

/-- A user closes sessions that were received. -/
def step (s : State) : Event → Option State
  | .openSession mappings => some (s.openSession mappings)
  | .openSessionOnSession i success =>
      (s.opens[i]?).map fun (request, mappings) => s.openSessionOnSession i request mappings success
  | .openSessionOnResolvedMappings i success =>
      (s.resolves[i]?).map fun request => s.openSessionOnResolvedMappings i request success
  | .close request =>
      if .opened request ∈ s.trace then some (s.closeSession request .user) else none
  | .closeSessionOnDBSessionClose i =>
      (s.closes[i]?).map fun (request, caller) => s.closeSessionOnDBSessionClose i request caller
  | .factoryClose => some s.close
  | .closeOnConnectionClose i =>
      (s.poolCloses[i]?).map fun _ =>
        { s with poolCloses := s.poolCloses.eraseIdx i }.emit .factoryClosed

/-! ## What is expected -/

/-- A session that a user has received, and that nobody closes. -/
def Open (trace : List Output) (request : ℕ) : Prop :=
  .opened request ∈ trace ∧ .closeCalled request ∉ trace

/-- Requested before the factory was closed. -/
def BeforeClose (trace : List Output) (request : ℕ) : Prop :=
  ∃ first rest, trace = first ++ .factoryCloseCalled :: rest ∧ .requested request ∈ first

/-- Nothing is outstanding. -/
def Quiet (s : State) : Prop :=
  s.opens = [] ∧ s.resolves = [] ∧ s.closes = [] ∧ s.poolCloses = []

/-- Sessions have slots as they should. -/
structure Slotted (s : State) : Prop where
  occupies : ∀ (request i : ℕ), Open s.trace request →
    (s.sessions[i]? = some (.session request) ↔ i = s.session_index request)
  distinct : ∀ first second, Open s.trace first → Open s.trace second →
    s.session_index first = s.session_index second → first = second
  freedByClose : ∀ request, .created request ∈ s.trace → .closeCalled request ∉ s.trace →
    s.sessions[s.session_index request]? = some (.session request)
  placeholder : ∀ (i request : ℕ), s.sessions[i]? = some (Slot.placeholder request) →
    request ∈ s.opens.map Prod.fst
  notFailed : ∀ (i request : ℕ), s.sessions[i]? = some (Slot.session request) →
    .openFailed request ∉ s.trace
  factoryClosed_le : s.trace.count .factoryClosed ≤ s.trace.count .factoryCloseCalled
  factoryClosed_eq : Quiet s → s.trace.count .factoryClosed = s.trace.count .factoryCloseCalled
  afterAll : ∀ before, before ++ [.factoryClosed] <+: s.trace → ∀ request,
    BeforeClose before request → .closed request ∈ before ∨ .openFailed request ∈ before

/-- No `openSession` fails, the factory is closed once and while none is in progress, and when a
session has been closed its slot has no other owner. -/
def Allowed (s : State) : Event → Prop
  | .openSessionOnSession _ success => success = true
  | .openSessionOnResolvedMappings _ success => success = true
  | .closeSessionOnDBSessionClose i => ∀ entry ∈ s.closes[i]?,
      s.sessions[s.session_index entry.1]? = some .null ∨
        s.sessions[s.session_index entry.1]? = some (.session entry.1)
  | .factoryClose => s.opens = [] ∧ s.closeCalls = 0
  | _ => True

instance (s : State) : ∀ event, Decidable (Allowed s event)
  | .openSession _ => inferInstanceAs (Decidable True)
  | .openSessionOnSession _ _ => inferInstanceAs (Decidable (_ = true))
  | .openSessionOnResolvedMappings _ _ => inferInstanceAs (Decidable (_ = true))
  | .close _ => inferInstanceAs (Decidable True)
  | .closeSessionOnDBSessionClose i => inferInstanceAs (Decidable (∀ entry ∈ s.closes[i]?,
      s.sessions[s.session_index entry.1]? = some .null ∨
        s.sessions[s.session_index entry.1]? = some (.session entry.1)))
  | .factoryClose => inferInstanceAs (Decidable (_ ∧ _))
  | .closeOnConnectionClose _ => inferInstanceAs (Decidable True)

end DatabaseJones.SessionFactory

/-!
## Who owns a slot

A placeholder stands in the slot of an `openSession` that has not been answered, and a session in
the slot of its index until its close is called.  After the factory's `close`, the sessions that
were requested before are closed, or among those it waits for.  This is kept as long as no
`openSession` fails, none is in progress when the factory is closed, and a session that has been
closed frees no slot of another one.
-/

namespace DatabaseJones.SessionFactory

open DatabaseJones.Library

variable {s : State} {request : ℕ} {trace : List Output}

/-! ## Before the factory was closed -/

theorem beforeClose_concat {output : Output} : BeforeClose (trace ++ [output]) request ↔
    BeforeClose trace request ∨ output = .factoryCloseCalled ∧ .requested request ∈ trace := by
  constructor
  · rintro ⟨first, rest, heq, hmem⟩
    rcases List.eq_nil_or_concat rest with rfl | ⟨rest, last, rfl⟩
    · obtain ⟨rfl, hlast⟩ := List.append_inj' heq rfl
      exact Or.inr ⟨List.singleton_inj.mp hlast, hmem⟩
    · refine Or.inl ⟨first, rest, ?_, hmem⟩
      have heq : trace ++ [output] = (first ++ .factoryCloseCalled :: rest) ++ [last] := by
        simpa using heq
      exact (List.append_inj' heq rfl).1
  · rintro (⟨first, rest, rfl, hmem⟩ | ⟨rfl, hmem⟩)
    · exact ⟨first, rest ++ [output], by simp, hmem⟩
    · exact ⟨trace, [], rfl, hmem⟩

/-- Calling for the close of sessions adds none that had to be closed. -/
theorem beforeClose_append_closeCalled (requests : List ℕ) :
    BeforeClose (trace ++ requests.map .closeCalled) request ↔ BeforeClose trace request := by
  induction requests using List.reverseRecOn with
  | nil => rw [List.map_nil, List.append_nil]
  | append_singleton requests last ih =>
      rw [List.map_append, List.map_singleton, ← List.append_assoc, beforeClose_concat, ih]
      simp

/-! ## What is kept -/

/-- The factory's callback is called after the sessions that were requested before its close. -/
def Permitted (before : List Output) : Output → Prop
  | .factoryClosed => ∀ request, BeforeClose before request →
      .closed request ∈ before ∨ .openFailed request ∈ before
  | _ => True

structure Kept (s : State) : Prop where
  index_lt : ∀ request < s.requested, s.session_index request < s.sessions.length
  requested : ∀ request, .requested request ∈ s.trace ↔ request < s.requested
  opens : ∀ request, request ∈ s.opens.map Prod.fst ↔
    request < s.requested ∧ .created request ∉ s.trace
  opens_nodup : (s.opens.map Prod.fst).Nodup
  created_lt : ∀ request, .created request ∈ s.trace → request < s.requested
  placeholders : ∀ (i request : ℕ), s.sessions[i]? = some (Slot.placeholder request) ↔
    request ∈ s.opens.map Prod.fst ∧ i = s.session_index request
  sessions : ∀ (i request : ℕ), s.sessions[i]? = some (Slot.session request) →
    i = s.session_index request ∧ .created request ∈ s.trace
  stored : ∀ request, .created request ∈ s.trace → .closeCalled request ∉ s.trace →
    s.sessions[s.session_index request]? = some (.session request)
  received : ∀ request, .opened request ∈ s.trace ∨ request ∈ s.resolves →
    .created request ∈ s.trace
  neverFailed : ∀ request, .openFailed request ∉ s.trace
  closes : ∀ entry ∈ s.closes, .created entry.1 ∈ s.trace ∧ .closeCalled entry.1 ∈ s.trace
  leaves : ∀ request, .created request ∈ s.trace →
    s.sessions[s.session_index request]? = some (.session request) ∨ .closed request ∈ s.trace ∨
      (request, .factory 0) ∈ s.closes
  closeCalls : s.trace.count .factoryCloseCalled = s.closeCalls ∧ s.closeCalls ≤ 1
  notCalled : s.closeCalls = 0 → (∀ entry ∈ s.closes, entry.2 = .user) ∧ s.deleted = false
  callers : ∀ request call, (request, .factory call) ∈ s.closes → call = 0
  counted : s.closeCalls = 1 → s.closedSessions 0 + tally Prod.snd (.factory 0) s.closes =
    s.numberOfSessionsToClose 0
  deleted : s.closeCalls = 1 →
    (s.deleted = true ↔ s.closedSessions 0 = s.numberOfSessionsToClose 0)
  notDeleted : s.deleted = false → .factoryClosed ∉ s.trace ∧ s.poolCloses = []
  poolCloses : s.deleted = true →
    s.closeCalls = s.trace.count .factoryClosed + s.poolCloses.length
  mustClose : ∀ request, BeforeClose s.trace request →
    .closed request ∈ s.trace ∨ (request, .factory 0) ∈ s.closes
  permitted : Throughout Permitted s.trace

theorem kept_start : Kept {} where
  index_lt _ h := absurd h (Nat.not_lt_zero _)
  requested _ := ⟨fun h => absurd h List.not_mem_nil, fun h => absurd h (Nat.not_lt_zero _)⟩
  opens _ := ⟨fun h => absurd h List.not_mem_nil, fun h => absurd h.1 (Nat.not_lt_zero _)⟩
  opens_nodup := List.nodup_nil
  created_lt _ h := absurd h List.not_mem_nil
  placeholders _ _ := ⟨fun h => (nomatch h), fun h => absurd h.1 List.not_mem_nil⟩
  sessions _ _ h := nomatch h
  stored _ h := absurd h List.not_mem_nil
  received _ h := by simp at h
  neverFailed _ := List.not_mem_nil
  closes _ h := absurd h List.not_mem_nil
  leaves _ h := absurd h List.not_mem_nil
  closeCalls := ⟨rfl, Nat.zero_le _⟩
  notCalled _ := ⟨fun _ h => absurd h List.not_mem_nil, rfl⟩
  callers _ _ h := absurd h List.not_mem_nil
  counted h := nomatch h
  deleted h := nomatch h
  notDeleted _ := ⟨List.not_mem_nil, rfl⟩
  poolCloses h := nomatch h
  mustClose _ h := by
    obtain ⟨first, rest, heq, -⟩ := h
    simp at heq
  permitted := throughout_nil

/-- A factory that waits for nothing has been deleted if it was closed. -/
theorem Kept.slotted (h : Kept s) : Slotted s where
  occupies request i hopen := by
    have hcreated := h.received request (Or.inl hopen.1)
    constructor
    · intro hi
      exact (h.sessions i request hi).1
    · rintro rfl
      exact h.stored request hcreated hopen.2
  distinct first second hfirst hsecond hindex := by
    have hslot := h.stored first (h.received first (Or.inl hfirst.1)) hfirst.2
    rw [hindex, h.stored second (h.received second (Or.inl hsecond.1)) hsecond.2] at hslot
    exact (Slot.session.inj (Option.some.inj hslot)).symm
  freedByClose := h.stored
  placeholder i request hi := ((h.placeholders i request).mp hi).1
  notFailed _ request _ := h.neverFailed request
  factoryClosed_le := by
    have hcalls := h.closeCalls.1
    cases hdeleted : s.deleted with
    | false =>
        rw [List.count_eq_zero_of_not_mem (h.notDeleted hdeleted).1]
        exact Nat.zero_le _
    | true =>
        have hpool := h.poolCloses hdeleted
        omega
  factoryClosed_eq hquiet := by
    obtain ⟨-, -, hcloses, hpoolCloses⟩ := hquiet
    obtain ⟨hcalls, hle⟩ := h.closeCalls
    cases hdeleted : s.deleted with
    | false =>
        rw [List.count_eq_zero_of_not_mem (h.notDeleted hdeleted).1]
        rcases Nat.le_one_iff_eq_zero_or_eq_one.mp hle with hzero | hone
        · omega
        · have hcounted := h.counted hone
          rw [hcloses, tally_nil, Nat.add_zero] at hcounted
          rw [(h.deleted hone).mpr hcounted] at hdeleted
          cases hdeleted
    | true =>
        have hpool := h.poolCloses hdeleted
        rw [hpoolCloses, List.length_nil] at hpool
        omega
  afterAll before hbegins := h.permitted before .factoryClosed hbegins

end DatabaseJones.SessionFactory
