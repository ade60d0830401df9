import DatabaseJones.NdbConnectionPool.Opening

/-!
# Closing the pool

Closing the pool queues every native session of the free list.  As long as no session is closed
again after another user has it, and none comes to the free list after that, every native session
is destroyed in the end, and only once.
-/

namespace DatabaseJones.NdbConnectionPool

open DatabaseJones.Library

variable {properties : Properties} {s next : State} {handle : ℕ}

/-! ## Closing the pool -/

/-- The native sessions in the hand are queued to be destroyed, one after the other. -/
theorem Kept.foldl_closeDbSessionImpl {sessions : ℕ → NdbSession} :
    ∀ {s : State} {held : List ℕ}, Kept properties s held (List.replicate held.length .pool) →
      (∀ d ∈ held, (sessions d).impl = some d) →
      Kept properties (held.foldl (fun closing d =>
        closing.closeDbSessionImpl (sessions d).impl .pool) s) [] [] := by
  intro s held h himpl
  induction held generalizing s with
  | nil => exact h
  | cons d held ih =>
      rw [List.foldl_cons, himpl d List.mem_cons_self]
      exact ih h.closeDbSessionImpl fun other hother => himpl other (List.mem_cons_of_mem _ hother)

theorem Kept.closePool (h : Kept properties s [] []) {c : ℕ}
    (hpool : s.connection.ndbConnection properties.pool = some c)
    (hallowed : Allowed properties s .closePool) : Kept properties (s.closePool properties) [] [] := by
  obtain ⟨nclose, hnclose⟩ : ∃ nclose, nclose = s.ndbSessionFreeList.length + s.openTables := ⟨_, rfl⟩
  -- Nothing of this pool is being closed.
  have hnone : entries properties.pool s.connection.closes = [] := entries_eq_nil fun entry hentry heq =>
    hallowed (heq ▸ (h.connection.closes entry hentry).1)
  have hzero : tally Closing.caller .pool s.execQueue = 0 := by
    have hleft := h.left
    rw [hnone, entry] at hleft
    split_ifs at hleft with hzero
    · rw [List.count_nil] at hzero
      exact hzero
  have hclose : NdbConnection.Allowed s.connection (.close properties.pool nclose) :=
    ⟨by rw [hpool]; simp, hallowed⟩
  unfold State.closePool
  dsimp only
  rw [← hnclose]
  refine Kept.foldl_closeDbSessionImpl ?_ fun d hd => h.impl d (Or.inl (Or.inr hd))
  refine
    { h with
      connection := h.connection.step hclose rfl
      place := fun d => ?_
      impl := fun d hd => h.impl d (Or.inl ?_)
      callbacks := fun handle => ?_
      left := ?_
      closed := fun _ => rfl }
  · have hplace := h.place d
    simp only [State.queued, tally_append, List.count_nil] at hplace ⊢
    have hnoTable : tally Closing.impl (some d)
        (List.replicate s.openTables { impl := none, caller := .pool }) = 0 :=
      tally_eq_zero fun entry hentry => by
        rw [(List.mem_replicate.mp hentry).2]
        simp
    omega
  · rcases hd with (huser | hfree) | hheld
    · exact Or.inl huser
    · exact absurd hfree List.not_mem_nil
    · exact Or.inr hheld
  · have hcallbacks := h.callbacks handle
    have hnoTable : tally Closing.caller (.user handle)
        (List.replicate s.openTables { impl := none, caller := .pool }) = 0 :=
      tally_eq_zero fun entry hentry => by
        rw [(List.mem_replicate.mp hentry).2]
        simp
    simp only [tally_append, List.count_nil, List.count_replicate] at hcallbacks ⊢
    simpa [hnoTable] using hcallbacks
  · have htables : tally Closing.caller .pool
        (List.replicate s.openTables { impl := none, caller := .pool }) = s.openTables := by
      simp [tally, List.countP_replicate]
    dsimp only
    rw [NdbConnection.closes_close, tally_append, htables, hzero, List.count_replicate_self,
      Nat.zero_add, Nat.add_comm, ← hnclose]
    split_ifs with hno
    · rw [hnone, entry, if_pos hno]
    · rw [entries_append, hnone, entries_cons, if_pos rfl, entry, if_neg hno]
      rfl

/-! ## The queue -/

/-- The first call of the queue has run. -/
theorem Kept.destroyed (h : Kept properties s [] []) {closing : Closing} {rest : List Closing}
    (hqueue : s.execQueue = closing :: rest) :
    Kept properties (s.destroyed properties closing rest) [] [] := by
  obtain ⟨impl, caller⟩ := closing
  have hplaceQueue : ∀ other, s.queued other =
      tally Closing.impl (some other) rest + if impl = some other then 1 else 0 := by
    intro other
    rw [State.queued, hqueue, tally_cons]
  have hcallbacks : ∀ handle, s.trace.count (.closeCalled handle) =
      s.trace.count (.closeCallback handle) + tally Closing.caller (.user handle) rest +
        [caller].count (.user handle) := by
    intro handle
    have hcallbacks := h.callbacks handle
    rw [hqueue, tally_cons, List.count_nil] at hcallbacks
    rw [List.count_singleton]
    simpa [add_assoc] using hcallbacks
  have hleft : entries properties.pool s.connection.closes =
      entry properties.pool (tally Closing.caller .pool rest + [caller].count .pool) := by
    have hleft := h.left
    rw [hqueue, tally_cons, List.count_nil] at hleft
    rw [List.count_singleton]
    simpa using hleft
  unfold State.destroyed
  dsimp only
  refine Kept.callback ?_
  cases impl with
  | none =>
      change Kept properties { s with execQueue := rest, trace := s.trace ++ [] } [] [caller]
      rw [List.append_nil]
      refine { h with place := fun d => ?_, callbacks := hcallbacks, left := hleft }
      have hplace := h.place d
      rw [hplaceQueue, if_neg (by simp)] at hplace
      exact hplace
  | some d =>
      refine
        { h with
          place := fun other => ?_
          createdOnce := fun other => ?_
          fresh := fun other hother => ?_
          uses := fun other handle => ?_
          users_nodup := fun other => ?_
          closeCalled_lt := fun handle hcalled => h.closeCalled_lt handle (by simpa using hcalled)
          impl := fun other hother => h.impl other (by simpa [State.Live] using hother)
          isOpen := fun other hother => h.isOpen other (by simpa using hother)
          callbacks := fun handle => ?_
          left := hleft
          freeList_le := fun length hlength => h.freeList_le length (by simpa using hlength)
          permitted := h.permitted.concat trivial }
      · have hplace := h.place other
        rw [hplaceQueue] at hplace
        simp only [State.queued, Option.toList_some, List.map_cons, List.map_nil, users_destroyed,
          List.count_append, List.count_cons, List.count_nil, beq_iff_eq, reduceCtorEq, if_false,
          Option.some.injEq, Output.destroyed.injEq] at hplace ⊢
        omega
      · simpa using h.createdOnce other
      · simpa using h.fresh other hother
      · simpa using h.uses other handle
      · simpa using h.users_nodup other
      · simpa using hcallbacks handle

/-! ## Runs -/

theorem Kept.use (h : Kept properties s [] []) (hhandle : handle < s.handles)
    (hallowed : Allowed properties s (.use handle)) : Kept properties (s.use handle) [] [] := by
  have huser : handle ∈ users (s.session handle) s.trace :=
    (h.uses _ handle).mpr ⟨hhandle, rfl, hallowed⟩
  unfold State.use
  rw [h.impl _ (Or.inl (Or.inl (List.ne_nil_of_mem huser)))]
  refine h.used fun hdestroyed => ?_
  have hle := h.count_le (s.session handle)
  have := List.length_pos_of_mem huser
  have := List.count_pos_iff.mpr hdestroyed
  omega

/-- What happens to the connection without the pool. -/
theorem Kept.connectionStep (h : Kept properties s [] []) {event : NdbConnection.Event}
    {connection : NdbConnection.State} (hforeign : Foreign s properties event)
    (hallowed : NdbConnection.Allowed s.connection event)
    (hnext : NdbConnection.step s.connection event = some connection) :
    Kept properties { s with connection } [] [] := by
  have hentries : entries properties.pool connection.closes =
      entries properties.pool s.connection.closes := by
    cases event with
    | close pool nclose =>
        cases hnext
        rw [NdbConnection.closes_close]
        split_ifs
        · rfl
        · rw [entries_append, entries_cons, if_neg hforeign]
          exact List.append_nil _
    | onNdbClose i =>
        obtain ⟨⟨pool, nclose⟩, hi, rfl⟩ := Option.map_eq_some_iff.mp hnext
        have hother := hforeign (pool, nclose) hi
        obtain ⟨hset, herase⟩ := entries_set hi hother (nclose - 1)
        rw [NdbConnection.closes_onNdbClose]
        split_ifs
        · exact herase
        · exact hset
    | connect pool => rw [NdbConnection.closes_step hnext (by simp) (by simp)]
    | onConnected i success => rw [NdbConnection.closes_step hnext (by simp) (by simp)]
    | onReady i success => rw [NdbConnection.closes_step hnext (by simp) (by simp)]
    | closeReally i => rw [NdbConnection.closes_step hnext (by simp) (by simp)]
    | disconnect i => rw [NdbConnection.closes_step hnext (by simp) (by simp)]
    | deleted i => rw [NdbConnection.closes_step hnext (by simp) (by simp)]
  refine
    { h with
      connection := h.connection.step hallowed hnext
      left := hentries.trans h.left
      closed := fun hclosed => h.closed ?_ }
  rcases (NdbConnection.mem_step hnext).mp hclosed with hclosed | ⟨nclose, rfl⟩
  · exact hclosed
  · exact absurd rfl hforeign

theorem Kept.step {event : Event} (h : Kept properties s [] []) (hallowed : Allowed properties s event)
    (hnext : step properties s event = some next) : Kept properties next [] [] := by
  cases event with
  | getDBSession =>
      obtain ⟨c, hc, rfl⟩ := Option.map_eq_some_iff.mp hnext
      exact h.getDBSession
  | prefetch =>
      obtain ⟨c, hc, rfl⟩ := Option.map_eq_some_iff.mp hnext
      exact h.prefetchSession
  | fetched i success =>
      obtain ⟨⟨d, kind⟩, hi, rfl⟩ := Option.map_eq_some_iff.mp hnext
      exact h.fetched hi hallowed
  | use handle =>
      obtain ⟨hhandle, heq⟩ := Option.ite_none_right_eq_some.mp hnext
      cases heq
      exact h.use hhandle hallowed
  | close handle =>
      obtain ⟨hhandle, heq⟩ := Option.ite_none_right_eq_some.mp hnext
      cases heq
      exact h.close hhandle hallowed
  | openTable =>
      cases hnext
      exact { h with }
  | closePool =>
      obtain ⟨c, hc, rfl⟩ := Option.map_eq_some_iff.mp hnext
      exact h.closePool hc hallowed
  | destroyed =>
      unfold NdbConnectionPool.step at hnext
      cases hqueue : s.execQueue with
      | nil =>
          rw [hqueue] at hnext
          cases hnext
      | cons closing rest =>
          rw [hqueue] at hnext
          cases hnext
          exact h.destroyed hqueue
  | connection event =>
      obtain ⟨hforeign, hnext⟩ := Option.ite_none_right_eq_some.mp hnext
      obtain ⟨connection, hstep, rfl⟩ := Option.map_eq_some_iff.mp hnext
      exact h.connectionStep hforeign hallowed hstep

/-- In every run in which sessions are closed while the free list has room, once by each user or
again while nobody else has them, before the pool is closed or while its connection is
disconnecting, and in which no prefetched session comes after the pool was closed, every native
session is at one place at a time, and destroyed in the end. -/
theorem placed_of_guarded {events : List Event}
    (hguarded : Guarded (step properties) (Allowed properties) {} events)
    (hrun : run (step properties) {} events = some s) : Placed properties s :=
  (invariant_of_guarded (Kept properties · [] []) (fun _ _ _ h hallowed hnext => h.step hallowed hnext)
    kept_start hguarded hrun).placed

/-- A pool that keeps between one and two sessions. -/
def smallPool : Properties := { pool := 0, ndb_session_pool_min := 1, ndb_session_pool_max := 2 }

/-- Two users share the sessions of the pool, one closes a session twice, and a third one closes
another while the connection is disconnecting. -/
def threeUsers : List Event :=
  [.connection (.connect 0), .connection (.onConnected 0 true), .connection (.onReady 0 true),
    .prefetch, .fetched 0 true, .getDBSession, .use 0, .getDBSession, .fetched 0 true, .close 1,
    .close 1, .getDBSession, .use 2, .close 0, .close 2, .openTable, .closePool, .getDBSession,
    .fetched 0 true, .destroyed, .destroyed, .destroyed, .connection (.closeReally 0), .close 3,
    .destroyed, .connection (.disconnect 0), .connection (.deleted 0)]

theorem placed_of_guarded_threeUsers :
    ∃ s, run (step smallPool) {} threeUsers = some s ∧ Placed smallPool s :=
  have hguarded : Guarded (step smallPool) (Allowed smallPool) {} threeUsers := by decide
  ⟨_, rfl, placed_of_guarded hguarded rfl⟩

/-- A user closes a session again that another user has, and a third user gets it as well. -/
theorem shares_session : ∃ s, run (step smallPool) {}
      [.connection (.connect 0), .connection (.onConnected 0 true), .connection (.onReady 0 true),
        .getDBSession, .fetched 0 true, .close 0, .getDBSession, .close 0, .getDBSession] = some s ∧
      ¬ Placed smallPool s := by
  refine ⟨_, rfl, fun hplaced => ?_⟩
  exact absurd (hplaced.place 0 (by decide)) (by decide)

end DatabaseJones.NdbConnectionPool
