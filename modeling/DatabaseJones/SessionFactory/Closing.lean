import DatabaseJones.SessionFactory.Sessions

/-!
# Closing a factory

A factory that is closed while no `openSession` is in progress closes what stands in its slots,
and waits for all of it.  With the steps of its sessions this keeps the owners of the slots in
every run, and the factory's callback is called once, after every session that had to be closed.
-/

namespace DatabaseJones.SessionFactory

open DatabaseJones.Library

variable {s next : State} {request i : ℕ}

/-! ## Closing the factory -/

theorem mem_toClose {slots : List Slot} : request ∈ slots.filterMap State.session? ↔
    ∃ i : ℕ, slots[i]? = some (.session request) := by
  rw [List.mem_filterMap]
  constructor
  · rintro ⟨slot, hslot, heq⟩
    cases slot with
    | null => cases heq
    | placeholder other => cases heq
    | session other =>
        obtain rfl := Option.some.inj heq
        exact List.getElem?_of_mem hslot
  · rintro ⟨i, hi⟩
    exact ⟨_, List.mem_of_getElem? hi, rfl⟩

/-- Without placeholders, the slots that are taken are those of sessions. -/
theorem countP_eq_length_toClose {slots : List Slot}
    (hnone : ∀ request, .placeholder request ∉ slots) :
    slots.countP (fun slot => slot ≠ .null) = (slots.filterMap State.session?).length := by
  induction slots with
  | nil => rfl
  | cons slot slots ih =>
      have hrest := ih fun request hmem => hnone request (List.mem_cons_of_mem _ hmem)
      rw [List.countP_cons, hrest, List.filterMap_cons]
      cases slot with
      | null => rfl
      | placeholder request => exact absurd List.mem_cons_self (hnone request)
      | session request => rfl

theorem Kept.close (h : Kept s) (hallowed : Allowed s .factoryClose) : Kept s.close := by
  obtain ⟨hopens, hzero⟩ := hallowed
  have hplaceholders : ∀ request, .placeholder request ∉ s.sessions := by
    intro request hmem
    obtain ⟨j, hj⟩ := List.getElem?_of_mem hmem
    have hmem := ((h.placeholders j request).mp hj).1
    rw [hopens] at hmem
    exact List.not_mem_nil hmem
  obtain ⟨huser, hnotDeleted⟩ := h.notCalled hzero
  obtain ⟨hnone, hempty⟩ := h.notDeleted hnotDeleted
  obtain ⟨toClose, htoClose⟩ : ∃ toClose, toClose = s.sessions.filterMap State.session? := ⟨_, rfl⟩
  have hmemClose : ∀ request, .created request ∈ s.trace →
      s.sessions[s.session_index request]? = some (.session request) → request ∈ toClose := by
    intro request _ hstored
    rw [htoClose]
    exact mem_toClose.mpr ⟨_, hstored⟩
  have hcreatedClose : ∀ request ∈ toClose, .created request ∈ s.trace := by
    intro request hmem
    rw [htoClose] at hmem
    obtain ⟨j, hj⟩ := mem_toClose.mp hmem
    exact (h.sessions j request hj).2
  have hleaves : ∀ request, .created request ∈ s.trace → .closed request ∈ s.trace ∨
      request ∈ toClose := by
    intro request hcreated
    rcases h.leaves request hcreated with hstored | hclosed | hcloses
    · exact Or.inr (hmemClose request hcreated hstored)
    · exact Or.inl hclosed
    · exact absurd (huser _ hcloses) (by simp)
  have htally : tally Prod.snd (.factory 0)
      (s.closes ++ toClose.map fun request => (request, Caller.factory 0)) = toClose.length := by
    rw [tally_append, tally_eq_zero fun entry hentry => by rw [huser entry hentry]; simp]
    simp [tally, List.countP_map, Function.comp_def]
  have hsessions : ∀ (j : ℕ) slot, (s.sessions.map fun _ => Slot.null)[j]? = some slot →
      slot = .null := by
    intro j slot hj
    rw [List.getElem?_map] at hj
    obtain ⟨_, -, heq⟩ := Option.map_eq_some_iff.mp hj
    exact heq.symm
  have hcalls : s.trace.count .factoryCloseCalled = 0 := h.closeCalls.1.trans hzero
  -- What is kept, for either way to go on.
  have hkept : ∀ (deleted : Bool) (poolCloses : List ℕ),
      (deleted = true ↔ 0 = toClose.length) → (deleted = false → poolCloses = []) →
      (deleted = true → poolCloses.length = 1) →
      Kept { s with
        closeCalls := s.closeCalls + 1
        numberOfSessionsToClose :=
          Function.update s.numberOfSessionsToClose s.closeCalls toClose.length
        closedSessions := Function.update s.closedSessions s.closeCalls 0
        closes := s.closes ++ toClose.map fun request => (request, .factory s.closeCalls)
        sessions := s.sessions.map fun _ => .null
        deleted := deleted
        poolCloses := poolCloses
        trace := s.trace ++ .factoryCloseCalled :: toClose.map .closeCalled } := by
    intro deleted poolCloses hdeleted hempty' hone
    have hcalledMem : ∀ request ∈ toClose, .closeCalled request ∈
        s.trace ++ .factoryCloseCalled :: toClose.map .closeCalled := fun request hmem =>
      List.mem_append_right _ (List.mem_cons_of_mem _ (List.mem_map_of_mem hmem))
    have hold : ∀ output, (∀ request, output ≠ .closeCalled request) →
        output ≠ .factoryCloseCalled →
        (output ∈ s.trace ++ .factoryCloseCalled :: toClose.map .closeCalled ↔
          output ∈ s.trace) := by
      intro output hne hfactory
      simp [hfactory, Ne.symm (hne _)]
    refine
      { index_lt := fun request hlt => ?_
        requested := fun request => (hold _ (by simp) (by simp)).trans (h.requested request)
        opens := fun request => ?_
        opens_nodup := h.opens_nodup
        created_lt := fun request hmem => h.created_lt request ((hold _ (by simp) (by simp)).mp hmem)
        placeholders := fun j request => ?_
        sessions := fun j request hj => ?_
        stored := fun request hmem hnot => ?_
        received := fun request hmem => List.mem_append_left _ (h.received request
          (hmem.imp_left (hold _ (by simp) (by simp)).mp))
        neverFailed := fun request hmem =>
          h.neverFailed request ((hold _ (by simp) (by simp)).mp hmem)
        closes := fun entry hentry => ?_
        leaves := fun request hmem => Or.inr ?_
        closeCalls := ?_
        notCalled := fun heq => absurd heq (Nat.succ_ne_zero _)
        callers := fun request call hmem => ?_
        counted := fun _ => ?_
        deleted := fun _ => ?_
        notDeleted := fun heq => ⟨fun hmem => hnone ((hold _ (by simp) (by simp)).mp hmem),
          hempty' heq⟩
        poolCloses := fun heq => ?_
        mustClose := fun request hbefore => ?_
        permitted := ?_ }
    · rw [List.length_map]
      exact h.index_lt request hlt
    · rw [hold _ (by simp) (by simp)]
      exact h.opens request
    · refine iff_of_false (fun hj => ?_) fun hmem => ?_
      · cases hsessions j _ hj
      · rw [hopens] at hmem
        exact List.not_mem_nil hmem.1
    · cases hsessions j _ hj
    · -- A session whose close nobody has called stands in its slot, so it is closed now.
      have hcreated := (hold _ (by simp) (by simp)).mp hmem
      have hstored := h.stored request hcreated fun hcalled =>
        hnot (List.mem_append_left _ hcalled)
      exact absurd (hcalledMem request (hmemClose request hcreated hstored)) hnot
    · rcases List.mem_append.mp hentry with hentry | hentry
      · obtain ⟨hcreated, hcalled⟩ := h.closes entry hentry
        exact ⟨List.mem_append_left _ hcreated, List.mem_append_left _ hcalled⟩
      · obtain ⟨request, hrequest, rfl⟩ := List.mem_map.mp hentry
        exact ⟨List.mem_append_left _ (hcreatedClose request hrequest), hcalledMem request hrequest⟩
    · refine (hleaves request ((hold _ (by simp) (by simp)).mp hmem)).imp
        (List.mem_append_left _) fun hmem => ?_
      rw [hzero]
      exact List.mem_append_right _ (List.mem_map_of_mem hmem)
    · rw [List.count_append, List.count_cons_self, hcalls, hzero]
      have hnoCall : (toClose.map Output.closeCalled).count .factoryCloseCalled = 0 :=
        List.count_eq_zero_of_not_mem (by simp)
      rw [hnoCall]
      exact ⟨rfl, le_refl _⟩
    · rcases List.mem_append.mp hmem with hmem | hmem
      · exact h.callers request call hmem
      · obtain ⟨other, -, heq⟩ := List.mem_map.mp hmem
        rw [hzero] at heq
        exact (Caller.factory.inj (Prod.mk.inj heq).2).symm
    · dsimp only
      rw [hzero, htally, Function.update_self, Function.update_self, Nat.zero_add]
    · dsimp only
      rw [hzero, Function.update_self, Function.update_self]
      exact hdeleted
    · have hnoClosed : (s.trace ++ Output.factoryCloseCalled :: toClose.map .closeCalled).count
          .factoryClosed = 0 :=
        List.count_eq_zero_of_not_mem fun hmem => hnone ((hold _ (by simp) (by simp)).mp hmem)
      change s.closeCalls + 1 = _ + poolCloses.length
      rw [hzero, hnoClosed, hone heq]
    · have hbefore : BeforeClose (s.trace ++ [.factoryCloseCalled]) request := by
        rw [← beforeClose_append_closeCalled toClose]
        simpa using hbefore
      have hrequested : .requested request ∈ s.trace := by
        rcases beforeClose_concat.mp hbefore with ⟨first, rest, heq, -⟩ | ⟨-, hmem⟩
        · have hmem : .factoryCloseCalled ∈ s.trace := by
            rw [heq]
            exact List.mem_append_right _ List.mem_cons_self
          exact absurd hcalls (List.count_pos_iff.mpr hmem).ne'
        · exact hmem
      have hcreated : .created request ∈ s.trace := by
        by_contra hnot
        have hmem := (h.opens request).mpr ⟨(h.requested request).mp hrequested, hnot⟩
        rw [hopens] at hmem
        exact List.not_mem_nil hmem
      refine (hleaves request hcreated).imp (List.mem_append_left _) fun hmem => ?_
      rw [hzero]
      exact List.mem_append_right _ (List.mem_map_of_mem hmem)
    · refine h.permitted.append fun output houtput first _ => ?_
      rcases List.mem_cons.mp houtput with rfl | hmem
      · trivial
      · obtain ⟨other, -, rfl⟩ := List.mem_map.mp hmem
        trivial
  unfold State.close
  dsimp only
  rw [countP_eq_length_toClose hplaceholders, ← htoClose, Nat.sub_self]
  split_ifs with hno
  · change Kept (if s.deleted = true then _ else _)
    rw [hnotDeleted, if_neg Bool.false_ne_true]
    refine hkept true (s.poolCloses ++ [s.closeCalls]) (by simpa using hno) (fun heq => by cases heq)
      fun _ => ?_
    rw [hempty]
    rfl
  · refine hkept s.deleted s.poolCloses ?_ (fun _ => hempty) fun hdeleted => ?_
    · rw [hnotDeleted]
      simpa using hno
    · rw [hnotDeleted] at hdeleted
      cases hdeleted

/-- The pool has been closed, or is used by another factory. -/
theorem Kept.closeOnConnectionClose (h : Kept s) {call : ℕ} (hi : s.poolCloses[i]? = some call) :
    Kept ({ s with poolCloses := s.poolCloses.eraseIdx i }.emit .factoryClosed) := by
  have hlength : s.poolCloses.length = (s.poolCloses.eraseIdx i).length + 1 := by
    obtain ⟨hlt, -⟩ := List.getElem?_eq_some_iff.mp hi
    rw [List.length_eraseIdx_of_lt hlt]
    omega
  have hdeleted : s.deleted = true := by
    by_contra hnot
    obtain ⟨-, hempty⟩ := h.notDeleted (Bool.not_eq_true _ ▸ hnot)
    rw [hempty] at hi
    cases hi
  have hone : s.closeCalls = 1 := by
    rcases Nat.le_one_iff_eq_zero_or_eq_one.mp h.closeCalls.2 with hzero | hone
    · rw [(h.notCalled hzero).2] at hdeleted
      cases hdeleted
    · exact hone
  have hnone : tally Prod.snd (.factory 0) s.closes = 0 := by
    have hcounted := h.counted hone
    have hall := (h.deleted hone).mp hdeleted
    omega
  refine
    { h with
      requested := fun request => by simpa [State.emit] using h.requested request
      opens := fun request => by simpa [State.emit] using h.opens request
      created_lt := fun request hmem => h.created_lt request (by simpa [State.emit] using hmem)
      sessions := fun j request hj => by simpa [State.emit] using h.sessions j request hj
      stored := fun request hmem hnot =>
        h.stored request (by simpa [State.emit] using hmem) (by simpa [State.emit] using hnot)
      received := fun request hmem => List.mem_append_left _ (h.received request (by
        simpa [State.emit] using hmem))
      neverFailed := fun request => by simpa [State.emit] using h.neverFailed request
      closes := fun entry hentry => by simpa [State.emit] using h.closes entry hentry
      leaves := fun request hmem => by
        simpa [State.emit] using h.leaves request (by simpa [State.emit] using hmem)
      closeCalls := by simpa [State.emit] using h.closeCalls
      notDeleted := fun heq => absurd (heq.symm.trans hdeleted) Bool.false_ne_true
      poolCloses := fun _ => ?_
      mustClose := fun request hbefore => ?_
      permitted := h.permitted.concat fun request hbefore => Or.inl ?_ }
  · have hpool := h.poolCloses hdeleted
    simp only [State.emit, List.count_append, List.count_singleton_self]
    omega
  · rcases beforeClose_concat.mp hbefore with hbefore | ⟨heq, -⟩
    · exact (h.mustClose request hbefore).imp_left (List.mem_append_left _)
    · cases heq
  · rcases h.mustClose request hbefore with hclosed | hmem
    · exact hclosed
    · have hpos : 0 < tally Prod.snd (Caller.factory 0) s.closes := tally_pos hmem
      omega

/-! ## Runs -/

theorem Kept.step {event : Event} (h : Kept s) (hallowed : Allowed s event)
    (hnext : step s event = some next) : Kept next := by
  cases event with
  | openSession mappings =>
      cases hnext
      exact h.openSession mappings
  | openSessionOnSession i success =>
      obtain ⟨⟨request, mappings⟩, hi, rfl⟩ := Option.map_eq_some_iff.mp hnext
      exact h.openSessionOnSession hi hallowed
  | openSessionOnResolvedMappings i success =>
      obtain ⟨request, hi, rfl⟩ := Option.map_eq_some_iff.mp hnext
      exact h.openSessionOnResolvedMappings hi hallowed
  | close request =>
      obtain ⟨hopened, heq⟩ := Option.ite_none_right_eq_some.mp hnext
      cases heq
      exact h.closeSession (h.received request (Or.inl hopened))
  | closeSessionOnDBSessionClose i =>
      obtain ⟨⟨request, caller⟩, hi, rfl⟩ := Option.map_eq_some_iff.mp hnext
      exact h.closeSessionOnDBSessionClose hi hallowed
  | factoryClose =>
      cases hnext
      exact h.close hallowed
  | closeOnConnectionClose i =>
      obtain ⟨call, hi, rfl⟩ := Option.map_eq_some_iff.mp hnext
      exact h.closeOnConnectionClose hi

/-- In every run in which no `openSession` fails, the factory is closed once and while none is in
progress, and a session that has been closed frees no slot of another one, sessions have slots as
they should. -/
theorem slotted_of_guarded {events : List Event} (hguarded : Guarded step Allowed {} events)
    (hrun : run step {} events = some s) : Slotted s :=
  (invariant_of_guarded Kept (fun _ _ _ h hallowed hnext => h.step hallowed hnext)
    kept_start hguarded hrun).slotted

/-- Two sessions are opened and one of them closed twice, a third one takes its slot, and the
factory is closed while one is being closed. -/
def threeSessions : List Event :=
  [.openSession false, .openSession true, .openSessionOnSession 1 true,
    .openSessionOnSession 0 true, .openSessionOnResolvedMappings 0 true, .close 0, .close 0,
    .closeSessionOnDBSessionClose 0, .closeSessionOnDBSessionClose 0, .openSession false,
    .openSessionOnSession 0 true, .close 1, .factoryClose, .closeSessionOnDBSessionClose 1,
    .closeSessionOnDBSessionClose 0, .closeSessionOnDBSessionClose 0, .closeOnConnectionClose 0]

theorem slotted_of_guarded_threeSessions :
    ∃ s, run step {} threeSessions = some s ∧ Slotted s :=
  have hguarded : Guarded step Allowed {} threeSessions := by decide
  ⟨_, rfl, slotted_of_guarded hguarded rfl⟩

/-- A session that is being opened when the factory is closed is not closed with it. -/
theorem leaves_session_open : ∃ s, run step {} [.openSession false, .factoryClose,
      .closeOnConnectionClose 0, .openSessionOnSession 0 true] = some s ∧ ¬ Slotted s := by
  refine ⟨_, rfl, fun hslotted => ?_⟩
  have hafter := hslotted.afterAll [.requested 0, .factoryCloseCalled] ⟨_, rfl⟩ 0
    ⟨[.requested 0], [], rfl, List.mem_singleton_self _⟩
  exact absurd hafter (by decide)

end DatabaseJones.SessionFactory
