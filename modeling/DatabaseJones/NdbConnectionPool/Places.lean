import DatabaseJones.NdbConnectionPool.Sessions
import DatabaseJones.Library.Ledger

/-!
# What a pool sees of its connection

The number of objects a pool still has to close stands in its entry among the `closes` of the
connection.  Only the pool itself changes this entry, and only it calls for its close; what it
does is what other pools do, so the connection is kept as it is between them.
-/

namespace DatabaseJones.NdbConnection

open DatabaseJones.Library

variable {s next : State} {event : Event} {pool c nclose i : ℕ}

/-! ## Calls to close -/

theorem mem_release {d : ℕ} :
    .closeCalled pool ∈ (s.release d).trace ↔ .closeCalled pool ∈ s.trace := by
  unfold State.release
  cases s.base with
  | none => simp [State.emit]
  | some c =>
      dsimp only
      split_ifs <;> simp [State.emit, State.modify]

theorem mem_runCallbacks {error : Option ConnectError} :
    .closeCalled pool ∈ (s.runCallbacks c error).trace ↔ .closeCalled pool ∈ s.trace := by
  simp [State.runCallbacks]

theorem mem_connectTo {d : ℕ} :
    .closeCalled pool ∈ (s.connectTo d c).trace ↔ .closeCalled pool ∈ s.trace := by
  unfold State.connectTo
  dsimp only
  split_ifs <;> simp [State.emit, State.modify]

theorem mem_closeConnection {d : ℕ} :
    .closeCalled pool ∈ (s.closeConnection c d).trace ↔ .closeCalled pool ∈ s.trace := by
  unfold State.closeConnection
  dsimp only
  split_ifs <;> simp [State.emit, State.modify, State.disconnect]

/-- Only a call to close calls to close. -/
theorem mem_step (hnext : step s event = some next) : .closeCalled pool ∈ next.trace ↔
    .closeCalled pool ∈ s.trace ∨ ∃ nclose, event = .close pool nclose := by
  cases event with
  | connect other =>
      cases hnext
      unfold State.connect
      cases s.base with
      | none => simp [mem_connectTo, State.emit, State.modify]
      | some c => simp [mem_connectTo, State.emit, State.modify]
  | onConnected i success =>
      obtain ⟨c, hc, rfl⟩ := Option.map_eq_some_iff.mp hnext
      cases success <;> simp [State.onConnected, mem_runCallbacks]
  | onReady i success =>
      obtain ⟨c, hc, rfl⟩ := Option.map_eq_some_iff.mp hnext
      cases success <;> simp [State.onReady, mem_runCallbacks, State.modify]
  | close other nclose =>
      cases hnext
      have hcalled : .closeCalled pool ∈ (s.emit (.closeCalled other)).trace ↔
          .closeCalled pool ∈ s.trace ∨ pool = other := by
        simp [State.emit]
      simp only [State.close]
      split_ifs
      · simp only [mem_release, hcalled, Event.close.injEq, exists_and_left, eq_comm, exists_eq']
        simp
      · simp only [hcalled, Event.close.injEq, exists_and_left, eq_comm, exists_eq']
        simp
  | onNdbClose i =>
      obtain ⟨⟨other, nclose⟩, hi, rfl⟩ := Option.map_eq_some_iff.mp hnext
      simp only [State.onNdbClose]
      split_ifs <;> simp [mem_release]
  | closeReally i =>
      obtain ⟨⟨c, other⟩, hi, rfl⟩ := Option.map_eq_some_iff.mp hnext
      simp only [State.closeReally]
      split_ifs <;> simp [mem_closeConnection]
  | disconnect i =>
      obtain ⟨⟨c, other⟩, hi, rfl⟩ := Option.map_eq_some_iff.mp hnext
      simp [State.disconnect, State.modify]
  | deleted i =>
      obtain ⟨⟨c, other⟩, hi, rfl⟩ := Option.map_eq_some_iff.mp hnext
      simp [State.emit]

/-! ## What is left to close -/

theorem closes_release {d : ℕ} : (s.release d).closes = s.closes := by
  unfold State.release
  cases s.base with
  | none => rfl
  | some c =>
      dsimp only
      split_ifs <;> rfl

theorem closes_connectTo {d : ℕ} : (s.connectTo d c).closes = s.closes := by
  unfold State.connectTo
  dsimp only
  split_ifs <;> rfl

theorem closes_closeConnection {d : ℕ} : (s.closeConnection c d).closes = s.closes := by
  unfold State.closeConnection
  dsimp only
  split_ifs <;> rfl

theorem closes_close : (s.close pool nclose).closes =
    if nclose = 0 then s.closes else s.closes ++ [(pool, nclose)] := by
  unfold State.close
  dsimp only
  split_ifs
  · rw [closes_release]
    rfl
  · rfl

theorem closes_onNdbClose : (s.onNdbClose i pool nclose).closes =
    if nclose - 1 = 0 then s.closes.eraseIdx i else s.closes.set i (pool, nclose - 1) := by
  unfold State.onNdbClose
  split_ifs
  · rw [closes_release]
  · rfl

/-- The other events close nothing. -/
theorem closes_step (hnext : step s event = some next)
    (hclose : ∀ pool nclose, event ≠ .close pool nclose) (honNdbClose : ∀ i, event ≠ .onNdbClose i) :
    next.closes = s.closes := by
  cases event with
  | connect other =>
      cases hnext
      unfold State.connect
      cases s.base with
      | none => exact closes_connectTo
      | some c => exact closes_connectTo
  | onConnected i success =>
      obtain ⟨c, hc, rfl⟩ := Option.map_eq_some_iff.mp hnext
      cases success <;> rfl
  | onReady i success =>
      obtain ⟨c, hc, rfl⟩ := Option.map_eq_some_iff.mp hnext
      cases success <;> rfl
  | close other nclose => exact absurd rfl (hclose other nclose)
  | onNdbClose i => exact absurd rfl (honNdbClose i)
  | closeReally i =>
      obtain ⟨⟨c, other⟩, hi, rfl⟩ := Option.map_eq_some_iff.mp hnext
      simp only [State.closeReally]
      split_ifs
      · exact closes_closeConnection
      · rfl
  | disconnect i =>
      obtain ⟨⟨c, other⟩, hi, rfl⟩ := Option.map_eq_some_iff.mp hnext
      rfl
  | deleted i =>
      obtain ⟨⟨c, other⟩, hi, rfl⟩ := Option.map_eq_some_iff.mp hnext
      rfl

/-- A connection that is disconnecting has been left by every pool that ever had it. -/
theorem Kept.closeCalled_of_disconnecting (h : Kept s [] []) (hpool : s.ndbConnection pool = some c)
    (hdisconnecting : (s.connections c).isDisconnecting = true) : .closeCalled pool ∈ s.trace := by
  by_contra hnot
  have huses := h.uses pool c hpool fun d hreleased => hnot (h.released pool d hreleased)
  rw [h.unused c (h.disconnecting c hdisconnecting)] at huses
  exact absurd huses List.not_mem_nil

end DatabaseJones.NdbConnection

namespace DatabaseJones.NdbConnectionPool

open DatabaseJones.Library

variable {s : NdbConnection.State} {pool : ℕ}

/-! ## The entry of a pool -/

/-- The entry of a pool that has something left to close. -/
def entry (pool left : ℕ) : List (ℕ × ℕ) := if left = 0 then [] else [(pool, left)]

/-- The entries of a pool among those of a list. -/
def entries (pool : ℕ) (closes : List (ℕ × ℕ)) : List (ℕ × ℕ) :=
  closes.filter fun entry => entry.1 = pool

theorem entries_append (first second : List (ℕ × ℕ)) :
    entries pool (first ++ second) = entries pool first ++ entries pool second :=
  List.filter_append ..

theorem entries_cons (entry : ℕ × ℕ) (closes : List (ℕ × ℕ)) : entries pool (entry :: closes) =
    if entry.1 = pool then entry :: entries pool closes else entries pool closes := by
  simp [entries, List.filter_cons]

theorem entries_eq_nil {closes : List (ℕ × ℕ)} (h : ∀ entry ∈ closes, entry.1 ≠ pool) :
    entries pool closes = [] :=
  List.filter_eq_nil_iff.mpr fun entry hentry => by simpa using h entry hentry

/-- Changing the entry of another pool. -/
theorem entries_set {closes : List (ℕ × ℕ)} {i nclose other : ℕ} (hi : closes[i]? = some (other, nclose))
    (hother : other ≠ pool) (left : ℕ) :
    entries pool (closes.set i (other, left)) = entries pool closes ∧
      entries pool (closes.eraseIdx i) = entries pool closes := by
  induction closes generalizing i with
  | nil => exact ⟨rfl, rfl⟩
  | cons first rest ih =>
      cases i with
      | zero =>
          obtain rfl : first = (other, nclose) := by simpa using hi
          simp [entries_cons, hother]
      | succ i =>
          obtain ⟨hset, herase⟩ := ih (i := i) (by simpa using hi)
          simp only [List.set_cons_succ, List.eraseIdx_cons_succ, entries_cons, hset, herase]
          simp

/-- The pool finds its own entry, and leaves one less to close. -/
theorem entries_findIdx {closes : List (ℕ × ℕ)} {left : ℕ} (hleft : entries pool closes = entry pool left)
    (hpos : left ≠ 0) :
    closes[closes.findIdx fun entry => entry.1 = pool]? = some (pool, left) ∧
      entries pool (closes.set (closes.findIdx fun entry => entry.1 = pool) (pool, left - 1)) =
        [(pool, left - 1)] ∧
      entries pool (closes.eraseIdx (closes.findIdx fun entry => entry.1 = pool)) = [] := by
  rw [entry, if_neg hpos] at hleft
  induction closes with
  | nil => exact absurd hleft (by simp [entries])
  | cons first rest ih =>
      rw [entries_cons] at hleft
      by_cases hfirst : first.1 = pool
      · rw [if_pos hfirst] at hleft
        obtain ⟨rfl, hrest⟩ := List.cons_eq_cons.mp hleft
        simp [List.findIdx_cons, entries_cons, hrest]
      · rw [if_neg hfirst] at hleft
        obtain ⟨hget, hset, herase⟩ := ih hleft
        simp only [List.findIdx_cons, hfirst, decide_false, cond_false, List.getElem?_cons_succ,
          List.set_cons_succ, List.eraseIdx_cons_succ, entries_cons, if_false]
        exact ⟨hget, hset, herase⟩

end DatabaseJones.NdbConnectionPool

/-!
## Where the native sessions are

A native session is with a user, on the free list, or in the queue of those to be destroyed, or
in the hand of the function that runs; and a close callback that has not been called stands in
the queue or in that hand.  This is kept by the functions of the pool.
-/

namespace DatabaseJones.NdbConnectionPool

open DatabaseJones.Library

variable {properties : Properties} {s next : State} {d handle : ℕ} {held : List ℕ}
  {hand : List Caller} {caller : Caller} {trace : List Output}

/-! ## Reading the trace -/

theorem users_concat (d : ℕ) (trace : List Output) (output : Output) :
    users d (trace ++ [output]) =
      match output with
      | .opened handle other => if other = d then users d trace ++ [handle] else users d trace
      | .closeCalled handle => (users d trace).erase handle
      | _ => users d trace := by
  rw [users, List.foldl_append]
  rfl

@[simp] theorem users_created (d other : ℕ) :
    users d (trace ++ [.created other]) = users d trace := users_concat d trace _

@[simp] theorem users_used (d other : ℕ) :
    users d (trace ++ [.used other]) = users d trace := users_concat d trace _

@[simp] theorem users_destroyed (d other : ℕ) :
    users d (trace ++ [.destroyed other]) = users d trace := users_concat d trace _

@[simp] theorem users_closeCallback (d handle : ℕ) :
    users d (trace ++ [.closeCallback handle]) = users d trace := users_concat d trace _

@[simp] theorem users_closeReturned (d length : ℕ) :
    users d (trace ++ [.closeReturned length]) = users d trace := users_concat d trace _

@[simp] theorem users_openFailed (d : ℕ) :
    users d (trace ++ [.openFailed]) = users d trace := users_concat d trace _

/-! ## What is kept -/

/-- A native session is not used after it was destroyed. -/
def Permitted (before : List Output) : Output → Prop
  | .used d => .destroyed d ∉ before
  | .threw => False
  | _ => True

/-- A native session that is used by a user, or can be given to one. -/
def State.Live (s : State) (d : ℕ) : Prop := users d s.trace ≠ [] ∨ d ∈ s.ndbSessionFreeList

/-- `held` are the native sessions, and `hand` the callbacks, that the running function holds. -/
structure Kept (properties : Properties) (s : State) (held : List ℕ) (hand : List Caller) : Prop where
  connection : NdbConnection.Kept s.connection [] []
  place : ∀ d, (users d s.trace).length + s.ndbSessionFreeList.count d +
    (s.queued d + s.trace.count (.destroyed d)) + held.count d = s.trace.count (.created d)
  createdOnce : ∀ d, s.trace.count (.created d) + tally Prod.fst d s.fetches ≤ 1
  fresh : ∀ d, s.created ≤ d → .created d ∉ s.trace ∧ ∀ kind, (d, kind) ∉ s.fetches
  uses : ∀ d handle, handle ∈ users d s.trace ↔
    handle < s.handles ∧ s.session handle = d ∧ .closeCalled handle ∉ s.trace
  users_nodup : ∀ d, (users d s.trace).Nodup
  closeCalled_lt : ∀ handle, .closeCalled handle ∈ s.trace → handle < s.handles
  impl : ∀ d, s.Live d ∨ d ∈ held → (s.sessions d).impl = some d
  isOpen : ∀ d, users d s.trace ≠ [] ∨ (d, .user) ∈ s.fetches →
    (s.sessions d).isOpenNdbSession = true
  callbacks : ∀ handle, s.trace.count (.closeCalled handle) = s.trace.count (.closeCallback handle) +
    tally Closing.caller (.user handle) s.execQueue + hand.count (.user handle)
  left : entries properties.pool s.connection.closes =
    entry properties.pool (tally Closing.caller .pool s.execQueue + hand.count .pool)
  closed : .closeCalled properties.pool ∈ s.connection.trace → s.ndbSessionFreeList = []
  freeList_le : ∀ length, .closeReturned length ∈ s.trace →
    length ≤ properties.ndb_session_pool_max
  permitted : Throughout Permitted s.trace

theorem kept_start : Kept properties {} [] [] where
  connection := NdbConnection.kept_start
  place _ := rfl
  createdOnce _ := Nat.zero_le _
  fresh _ _ := ⟨List.not_mem_nil, fun _ => List.not_mem_nil⟩
  uses _ _ := ⟨fun h => absurd h List.not_mem_nil, fun h => absurd h.1 (Nat.not_lt_zero _)⟩
  users_nodup _ := List.nodup_nil
  closeCalled_lt _ h := absurd h List.not_mem_nil
  impl d h := by simp [State.Live, users] at h
  isOpen d h := by simp [users] at h
  callbacks _ := rfl
  left := rfl
  closed h := absurd h List.not_mem_nil
  freeList_le _ h := absurd h List.not_mem_nil
  permitted := throughout_nil

/-- Every native session that was created is somewhere, once. -/
theorem Kept.placed (h : Kept properties s [] []) : Placed properties s where
  place d hcreated := by
    have hplace := h.place d
    have honce := h.createdOnce d
    have hpos := List.count_pos_iff.mpr hcreated
    rw [List.count_nil] at hplace
    omega
  notUsedAfter before d hbegins := h.permitted before (.used d) hbegins
  freeList_le := h.freeList_le
  destroyed hfinished d hcreated := by
    obtain ⟨hclosed, husers, -, hqueue⟩ := hfinished
    have hplace := h.place d
    have honce := h.createdOnce d
    have hpos := List.count_pos_iff.mpr hcreated
    rw [husers, h.closed hclosed, State.queued, hqueue] at hplace
    simp only [List.length_nil, List.count_nil, tally_nil] at hplace
    omega
  closeCallback_le handle := by
    have hcallbacks := h.callbacks handle
    omega
  closeCallback_eq hqueue handle := by
    have hcallbacks := h.callbacks handle
    rw [hqueue] at hcallbacks
    simpa using hcallbacks.symm
  poolCallback_le := h.connection.shares.closeCallback_le _
  poolCallback_eq hquiet := h.connection.shares.closeCallback_eq hquiet _

/-- A native session has one place. -/
theorem Kept.count_le (h : Kept properties s held hand) (d : ℕ) : (users d s.trace).length +
    s.ndbSessionFreeList.count d + (s.queued d + s.trace.count (.destroyed d)) + held.count d ≤ 1 := by
  have hplace := h.place d
  have honce := h.createdOnce d
  omega

theorem Kept.not_destroyed_of_held (h : Kept properties s held hand) (hd : d ∈ held) :
    .destroyed d ∉ s.trace ∧ users d s.trace = [] ∧ d ∉ s.ndbSessionFreeList := by
  have hle := h.count_le d
  have hpos := List.count_pos_iff.mpr hd
  refine ⟨fun hmem => ?_, List.length_eq_zero_iff.mp (by omega), fun hmem => ?_⟩
  · have := List.count_pos_iff.mpr hmem
    omega
  · have := List.count_pos_iff.mpr hmem
    omega

/-! ## Callbacks -/

/-- An output that moves no native session; it may call one of the callbacks in the hand. -/
theorem Kept.emit (h : Kept properties s held hand) {output : Output} {rest : List Caller}
    (husers : ∀ d, users d (s.trace ++ [output]) = users d s.trace)
    (hmoves : ∀ d, output ≠ .created d ∧ output ≠ .destroyed d ∧ output ≠ .closeCalled d)
    (hrest : ∀ other, hand.count (.user other) =
      [output].count (.closeCallback other) + rest.count (.user other))
    (hpool : hand.count .pool = rest.count .pool)
    (hreturned : ∀ length, output = .closeReturned length → length ≤ properties.ndb_session_pool_max)
    (hpermitted : Permitted s.trace output) : Kept properties (s.emit output) held rest := by
  have hcount : ∀ other, output ≠ other → (s.trace ++ [output]).count other = s.trace.count other := by
    intro other hne
    rw [List.count_append, List.count_singleton, if_neg (by simpa using hne), Nat.add_zero]
  have hmem : ∀ other, output ≠ other → (other ∈ s.trace ++ [output] ↔ other ∈ s.trace) := by
    intro other hne
    simp [hne.symm]
  refine
    { h with
      place := fun d => ?_
      createdOnce := fun d => (hcount _ (hmoves d).1).symm ▸ h.createdOnce d
      fresh := fun d hd => ⟨fun hcreated => (h.fresh d hd).1 ((hmem _ (hmoves d).1).mp hcreated),
        (h.fresh d hd).2⟩
      uses := fun d other => ?_
      users_nodup := fun d => (husers d).symm ▸ h.users_nodup d
      closeCalled_lt := fun other hcalled =>
        h.closeCalled_lt other ((hmem _ (hmoves other).2.2).mp hcalled)
      impl := fun d hd => h.impl d (hd.imp_left fun hlive =>
        hlive.imp_left fun hsome hnil => hsome ((husers d).trans hnil))
      isOpen := fun d hd => h.isOpen d (hd.imp_left fun hsome hnil => hsome ((husers d).trans hnil))
      callbacks := fun other => ?_
      left := hpool ▸ h.left
      freeList_le := fun length hlength => ?_
      permitted := h.permitted.concat hpermitted }
  · have hplace := h.place d
    change (users d (s.trace ++ [output])).length + _ + (_ + (s.trace ++ [output]).count _) + _ =
      (s.trace ++ [output]).count _
    rw [husers, hcount _ (hmoves d).1, hcount _ (hmoves d).2.1]
    exact hplace
  · change other ∈ users d (s.trace ++ [output]) ↔ _ ∧ _ ∧ _ ∉ s.trace ++ [output]
    rw [husers, hmem _ (hmoves other).2.2]
    exact h.uses d other
  · have hcallbacks := h.callbacks other
    have hrest := hrest other
    change (s.trace ++ [output]).count _ = (s.trace ++ [output]).count _ + _ + _
    rw [hcount _ (hmoves other).2.2, List.count_append]
    change _ = _ + _ + tally _ _ s.execQueue + _
    omega
  · rcases List.mem_append.mp hlength with hlength | hlength
    · exact h.freeList_le length hlength
    · exact hreturned length (List.mem_singleton.mp hlength).symm

/-- A user's callback is called. -/
theorem Kept.closeCallback (h : Kept properties s held (.user handle :: hand)) :
    Kept properties (s.emit (.closeCallback handle)) held hand := by
  refine h.emit (users_closeCallback · handle) (by simp) (fun other => ?_) (by simp) (by simp) trivial
  simp [List.count_cons, add_comm]

/-- The length of the free list is seen after a session was closed. -/
theorem Kept.closeReturned (h : Kept properties s held hand)
    (hle : s.ndbSessionFreeList.length ≤ properties.ndb_session_pool_max) :
    Kept properties (s.emit (.closeReturned s.ndbSessionFreeList.length)) held hand := by
  refine h.emit (users_closeReturned · _) (by simp) (by simp) rfl (fun length heq => ?_) trivial
  cases heq
  exact hle

/-- A native session that is not destroyed is used. -/
theorem Kept.used (h : Kept properties s held hand) (hd : .destroyed d ∉ s.trace) :
    Kept properties (s.emit (.used d)) held hand :=
  h.emit (users_used · d) (by simp) (by simp) rfl (by simp) hd

/-- One of the objects that the pool closes is closed. -/
theorem Kept.onNdbClose (h : Kept properties s held (.pool :: hand)) :
    Kept properties (s.onNdbClose properties) held hand := by
  obtain ⟨left, hleft⟩ : ∃ left, left = tally Closing.caller .pool s.execQueue + hand.count .pool :=
    ⟨_, rfl⟩
  have hentry : entries properties.pool s.connection.closes = entry properties.pool (left + 1) := by
    rw [h.left, List.count_cons_self, hleft]
    rfl
  obtain ⟨i, hi⟩ : ∃ i, i = s.connection.closes.findIdx fun entry => entry.1 = properties.pool :=
    ⟨_, rfl⟩
  obtain ⟨hget, hset, herase⟩ := entries_findIdx hentry (Nat.succ_ne_zero left)
  rw [← hi] at hget hset herase
  have hstep : NdbConnection.step s.connection (.onNdbClose i) =
      some (s.connection.onNdbClose i properties.pool (left + 1)) := by
    simp [NdbConnection.step, hget]
  have hallowed : NdbConnection.Allowed s.connection (.onNdbClose i) := trivial
  unfold State.onNdbClose
  dsimp only
  rw [← hi, hstep, Option.getD_some]
  refine
    { h with
      connection := h.connection.step hallowed hstep
      callbacks := fun other => ?_
      left := ?_
      closed := fun hclosed => h.closed ?_ }
  · have hcallbacks := h.callbacks other
    simpa [List.count_cons] using hcallbacks
  · dsimp only
    rw [NdbConnection.closes_onNdbClose, entry, ← hleft]
    simp only [Nat.add_sub_cancel] at hset ⊢
    split_ifs
    · exact herase
    · exact hset
  · simpa using (NdbConnection.mem_step hstep).mp hclosed

/-- A callback in the hand is called. -/
theorem Kept.callback (h : Kept properties s held (caller :: hand)) :
    Kept properties (s.callback properties caller) held hand := by
  cases caller with
  | user handle => exact h.closeCallback
  | prefetch =>
      change Kept properties s held hand
      refine { h with callbacks := fun other => ?_, left := ?_ }
      · simpa [List.count_cons] using h.callbacks other
      · simpa [List.count_cons] using h.left
  | pool => exact h.onNdbClose

end DatabaseJones.NdbConnectionPool
