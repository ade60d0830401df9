import DatabaseJones.SessionFactory.Ownership

/-!
# Opening and closing sessions of a factory

The session takes the place of its placeholder, and closing it frees no slot but its own, so the
owners of the slots are kept.
-/

namespace DatabaseJones.SessionFactory

open DatabaseJones.Library

variable {s : State} {request i : ℕ}

/-! ## Opening -/

theorem Kept.openSession (h : Kept s) (mappings : Bool) : Kept (s.openSession mappings) := by
  have hle : s.allocated ≤ s.sessions.length := firstFree_le
  have hfree : s.sessions[s.allocated]? = none ∨ s.sessions[s.allocated]? = some .null :=
    getElem?_firstFree
  have hget := getElem?_put hle (Slot.placeholder s.requested)
  have hindex : ∀ request < s.requested,
      Function.update s.session_index s.requested s.allocated request = s.session_index request :=
    fun request hlt => Function.update_of_ne (Nat.ne_of_lt hlt) ..
  have hnotFree : ∀ {j slot}, s.sessions[j]? = some slot → slot ≠ .null → j ≠ s.allocated := by
    rintro j slot hj hne rfl
    rcases hfree with hnone | hnull
    · rw [hnone] at hj
      cases hj
    · rw [hnull] at hj
      exact hne (Option.some.inj hj).symm
  have hold : ∀ request, .created request ∈ s.trace ++ [.requested s.requested] ↔
      .created request ∈ s.trace := by simp
  have hfresh : .created s.requested ∉ s.trace := fun hcreated =>
    absurd (h.created_lt _ hcreated) (lt_irrefl _)
  have hnew : s.requested ∉ s.opens.map Prod.fst := fun hmem =>
    absurd ((h.opens _).mp hmem).1 (lt_irrefl _)
  have hmem : ∀ request, request ∈ (s.opens ++ [(s.requested, mappings)]).map Prod.fst ↔
      request ∈ s.opens.map Prod.fst ∨ request = s.requested := by
    intro request
    simp
  refine
    { index_lt := fun request hlt => ?_
      requested := fun request => ?_
      opens := fun request => ?_
      opens_nodup := ?_
      created_lt := fun request hcreated =>
        Nat.lt_succ_of_lt (h.created_lt request ((hold request).mp hcreated))
      placeholders := fun j request => ?_
      sessions := fun j request hj => ?_
      stored := fun request hcreated hnot => ?_
      received := fun request hreceived => ?_
      neverFailed := fun request => by simpa [State.openSession, State.emit] using h.neverFailed request
      closes := fun entry hentry => ?_
      leaves := fun request hcreated => ?_
      closeCalls := by simpa [State.openSession, State.emit] using h.closeCalls
      notCalled := h.notCalled
      callers := h.callers
      counted := h.counted
      deleted := h.deleted
      notDeleted := by simpa [State.openSession, State.emit] using h.notDeleted
      poolCloses := by simpa [State.openSession, State.emit] using h.poolCloses
      mustClose := fun request hbefore => ?_
      permitted := h.permitted.concat trivial }
  · change Function.update s.session_index s.requested s.allocated request <
      (put s.sessions s.allocated (.placeholder s.requested)).length
    rcases Nat.lt_succ_iff_lt_or_eq.mp hlt with hlt | rfl
    · rw [hindex request hlt]
      exact (h.index_lt request hlt).trans_le (length_put_le _)
    · rw [Function.update_self]
      exact lt_length_put hle _
  · have hrequested := h.requested request
    simp only [State.openSession, State.emit, List.mem_append, List.mem_singleton,
      Output.requested.injEq, hrequested]
    omega
  · change request ∈ (s.opens ++ [(s.requested, mappings)]).map Prod.fst ↔
      request < s.requested + 1 ∧ .created request ∉ s.trace ++ [Output.requested s.requested]
    rw [hmem, h.opens, hold]
    constructor
    · rintro (⟨hlt, hnot⟩ | rfl)
      · exact ⟨by omega, hnot⟩
      · exact ⟨by omega, hfresh⟩
    · rintro ⟨hlt, hnot⟩
      rcases Nat.lt_succ_iff_lt_or_eq.mp hlt with hlt | rfl
      · exact Or.inl ⟨hlt, hnot⟩
      · exact Or.inr rfl
  · change ((s.opens ++ [(s.requested, mappings)]).map Prod.fst).Nodup
    rw [List.map_append, List.nodup_append]
    refine ⟨h.opens_nodup, List.nodup_singleton _, ?_⟩
    rintro other hother _ hsingle rfl
    rw [List.mem_singleton.mp hsingle] at hother
    exact hnew hother
  · change (put s.sessions s.allocated (.placeholder s.requested))[j]? =
      some (.placeholder request) ↔ request ∈ (s.opens ++ [(s.requested, mappings)]).map Prod.fst ∧
        j = Function.update s.session_index s.requested s.allocated request
    rw [hget, hmem]
    split_ifs with hj
    · subst hj
      constructor
      · intro heq
        obtain rfl := Slot.placeholder.inj (Option.some.inj heq)
        exact ⟨Or.inr rfl, by rw [Function.update_self]⟩
      · rintro ⟨hopens | rfl, heq⟩
        · rw [hindex request ((h.opens request).mp hopens).1] at heq
          exact absurd heq.symm
            (hnotFree ((h.placeholders _ request).mpr ⟨hopens, rfl⟩) (by simp))
        · rfl
    · rw [h.placeholders]
      constructor
      · rintro ⟨hopens, heq⟩
        exact ⟨Or.inl hopens, by rw [hindex request ((h.opens request).mp hopens).1]; exact heq⟩
      · rintro ⟨hopens | rfl, heq⟩
        · rw [hindex request ((h.opens request).mp hopens).1] at heq
          exact ⟨hopens, heq⟩
        · rw [Function.update_self] at heq
          exact absurd heq hj
  · change (put s.sessions s.allocated (.placeholder s.requested))[j]? =
      some (.session request) at hj
    rw [hget] at hj
    split_ifs at hj with heq
    · cases hj
    · obtain ⟨hslot, hcreated⟩ := h.sessions j request hj
      refine ⟨?_, (hold request).mpr hcreated⟩
      exact hslot.trans (hindex request (h.created_lt request hcreated)).symm
  · have hcreated := (hold request).mp hcreated
    have hslot := h.stored request hcreated (by simpa [State.openSession, State.emit] using hnot)
    change (put _ _ _)[Function.update s.session_index s.requested s.allocated request]? = _
    rw [hindex request (h.created_lt request hcreated), hget, if_neg (hnotFree hslot (by simp))]
    exact hslot
  · exact (hold request).mpr (h.received request (by
      simpa [State.openSession, State.emit] using hreceived))
  · simpa [State.openSession, State.emit] using h.closes entry hentry
  · have hcreated := (hold request).mp hcreated
    change (put _ _ _)[Function.update s.session_index s.requested s.allocated request]? = _ ∨
      .closed request ∈ s.trace ++ [Output.requested s.requested] ∨ _
    rw [hindex request (h.created_lt request hcreated), hget]
    rcases h.leaves request hcreated with hslot | hclosed | hcloses
    · rw [if_neg (hnotFree hslot (by simp))]
      exact Or.inl hslot
    · exact Or.inr (Or.inl (List.mem_append_left _ hclosed))
    · exact Or.inr (Or.inr hcloses)
  · rcases beforeClose_concat.mp hbefore with hbefore | ⟨heq, -⟩
    · exact (h.mustClose request hbefore).imp_left (List.mem_append_left _)
    · cases heq

/-- The user receives a session. -/
theorem Kept.opened (h : Kept s) (hcreated : .created request ∈ s.trace) :
    Kept (s.emit (.opened request)) where
  index_lt := h.index_lt
  requested other := by simpa [State.emit] using h.requested other
  opens other := by simpa [State.emit] using h.opens other
  opens_nodup := h.opens_nodup
  created_lt other hother := h.created_lt other (by simpa [State.emit] using hother)
  placeholders := h.placeholders
  sessions j other hj := by simpa [State.emit] using h.sessions j other hj
  stored other hother hnot :=
    h.stored other (by simpa [State.emit] using hother) (by simpa [State.emit] using hnot)
  received other hother := by
    have hother : (.opened other ∈ s.trace ∨ other = request) ∨ other ∈ s.resolves := by
      simpa [State.emit] using hother
    refine List.mem_append_left _ ?_
    rcases hother with (hother | rfl) | hother
    · exact h.received other (Or.inl hother)
    · exact hcreated
    · exact h.received other (Or.inr hother)
  neverFailed other := by simpa [State.emit] using h.neverFailed other
  closes entry hentry := by simpa [State.emit] using h.closes entry hentry
  leaves other hother := by
    simpa [State.emit] using h.leaves other (by simpa [State.emit] using hother)
  closeCalls := by simpa [State.emit] using h.closeCalls
  notCalled := h.notCalled
  callers := h.callers
  counted := h.counted
  deleted := h.deleted
  notDeleted := by simpa [State.emit] using h.notDeleted
  poolCloses := by simpa [State.emit] using h.poolCloses
  mustClose other hbefore := by
    rcases beforeClose_concat.mp hbefore with hbefore | ⟨heq, -⟩
    · exact (h.mustClose other hbefore).imp_left (List.mem_append_left _)
    · cases heq
  permitted := h.permitted.concat trivial

/-- The session takes the place of its placeholder. -/
theorem Kept.created (h : Kept s) {mappings : Bool} (hi : s.opens[i]? = some (request, mappings)) :
    Kept { s with
      opens := s.opens.eraseIdx i
      trace := s.trace ++ [.created request]
      sessions := put s.sessions (s.session_index request) (.session request) } := by
  have hopens : request ∈ s.opens.map Prod.fst :=
    List.mem_map_of_mem (List.mem_of_getElem? hi)
  obtain ⟨hlt, hnotCreated⟩ := (h.opens request).mp hopens
  have hslot := (h.placeholders _ request).mpr ⟨hopens, rfl⟩
  have hget := getElem?_put (h.index_lt request hlt).le (Slot.session request)
  have hmem : ∀ other, .created other ∈ s.trace ++ [.created request] ↔
      .created other ∈ s.trace ∨ other = request := by simp
  have herase := fun other => mem_map_eraseIdx (k := other) hi h.opens_nodup
  have hstay : ∀ other, s.sessions[s.session_index other]? = some (.session other) →
      s.session_index other ≠ s.session_index request := by
    intro other hstored heq
    rw [heq, hslot] at hstored
    cases hstored
  refine
    { h with
      index_lt := fun other hother => (h.index_lt other hother).trans_le (length_put_le _)
      requested := fun other => by simpa using h.requested other
      opens := fun other => ?_
      opens_nodup := nodup_map_eraseIdx h.opens_nodup i
      created_lt := fun other hcreated => ?_
      placeholders := fun j other => ?_
      sessions := fun j other hj => ?_
      stored := fun other hcreated hnot => ?_
      received := fun other hreceived => (hmem other).mpr (Or.inl (h.received other (by
        simpa using hreceived)))
      neverFailed := fun other => by simpa using h.neverFailed other
      closes := fun entry hentry => ?_
      leaves := fun other hcreated => ?_
      closeCalls := by simpa using h.closeCalls
      notDeleted := by simpa using h.notDeleted
      poolCloses := by simpa using h.poolCloses
      mustClose := fun other hbefore => ?_
      permitted := h.permitted.concat trivial }
  · rw [herase, h.opens, hmem]
    tauto
  · rcases (hmem other).mp hcreated with hcreated | rfl
    · exact h.created_lt other hcreated
    · exact hlt
  · rw [hget, herase]
    split_ifs with hj
    · subst hj
      constructor
      · intro heq
        cases heq
      · rintro ⟨⟨hother, hne⟩, heq⟩
        have hslot' := (h.placeholders _ other).mpr ⟨hother, heq⟩
        rw [hslot] at hslot'
        exact absurd (Slot.placeholder.inj (Option.some.inj hslot')).symm hne
    · rw [h.placeholders]
      constructor
      · rintro ⟨hother, rfl⟩
        exact ⟨⟨hother, fun heq => hj (by rw [heq])⟩, rfl⟩
      · rintro ⟨⟨hother, -⟩, heq⟩
        exact ⟨hother, heq⟩
  · rw [hget] at hj
    split_ifs at hj with heq
    · obtain rfl := Slot.session.inj (Option.some.inj hj)
      exact ⟨heq, (hmem _).mpr (Or.inr rfl)⟩
    · obtain ⟨hindex, hcreated⟩ := h.sessions j other hj
      exact ⟨hindex, (hmem other).mpr (Or.inl hcreated)⟩
  · rw [hget]
    rcases (hmem other).mp hcreated with hcreated | rfl
    · have hstored := h.stored other hcreated (by simpa using hnot)
      rw [if_neg (hstay other hstored)]
      exact hstored
    · rw [if_pos rfl]
  · obtain ⟨hcreated, hcalled⟩ := h.closes entry hentry
    exact ⟨List.mem_append_left _ hcreated, List.mem_append_left _ hcalled⟩
  · rw [hget]
    rcases (hmem other).mp hcreated with hcreated | rfl
    · rcases h.leaves other hcreated with hstored | hclosed | hcloses
      · rw [if_neg (hstay other hstored)]
        exact Or.inl hstored
      · exact Or.inr (Or.inl (List.mem_append_left _ hclosed))
      · exact Or.inr (Or.inr hcloses)
    · rw [if_pos rfl]
      exact Or.inl rfl
  · rcases beforeClose_concat.mp hbefore with hbefore | ⟨heq, -⟩
    · exact (h.mustClose other hbefore).imp_left (List.mem_append_left _)
    · cases heq

theorem Kept.openSessionOnSession (h : Kept s) {mappings success : Bool}
    (hi : s.opens[i]? = some (request, mappings))
    (hallowed : Allowed s (.openSessionOnSession i success)) :
    Kept (s.openSessionOnSession i request mappings success) := by
  have hcreated := h.created hi
  have hmem : .created request ∈ s.trace ++ [.created request] :=
    List.mem_append_right _ (List.mem_singleton_self _)
  have hsuccess : success = true := hallowed
  unfold State.openSessionOnSession
  dsimp only
  rw [hsuccess, if_pos rfl]
  cases mappings with
  | false => exact hcreated.opened hmem
  | true =>
      refine { hcreated with received := fun other hother => ?_ }
      rcases hother with hother | hother
      · exact hcreated.received other (Or.inl hother)
      · rcases List.mem_append.mp hother with hother | hother
        · exact hcreated.received other (Or.inr hother)
        · rw [List.mem_singleton.mp hother]
          exact hmem

theorem Kept.openSessionOnResolvedMappings (h : Kept s) {success : Bool}
    (hi : s.resolves[i]? = some request)
    (hallowed : Allowed s (.openSessionOnResolvedMappings i success)) :
    Kept (s.openSessionOnResolvedMappings i request success) := by
  have herased : Kept { s with resolves := s.resolves.eraseIdx i } :=
    { h with received := fun other hother =>
        h.received other (hother.imp_right List.mem_of_mem_eraseIdx) }
  have hsuccess : success = true := hallowed
  unfold State.openSessionOnResolvedMappings
  dsimp only
  rw [hsuccess, if_pos rfl]
  exact herased.opened (h.received request (Or.inr (List.mem_of_getElem? hi)))

/-! ## Closing a session -/

theorem Kept.closeSession (h : Kept s) (hcreated : .created request ∈ s.trace) :
    Kept (s.closeSession request .user) where
  index_lt := h.index_lt
  requested other := by simpa [State.closeSession, State.emit] using h.requested other
  opens other := by simpa [State.closeSession, State.emit] using h.opens other
  opens_nodup := h.opens_nodup
  created_lt other hother := h.created_lt other (by simpa [State.closeSession, State.emit] using hother)
  placeholders := h.placeholders
  sessions j other hj := by simpa [State.closeSession, State.emit] using h.sessions j other hj
  stored other hother hnot := by
    have hnot : .closeCalled other ∉ s.trace := fun hmem => hnot (List.mem_append_left _ hmem)
    exact h.stored other (by simpa [State.closeSession, State.emit] using hother) hnot
  received other hother := List.mem_append_left _ (h.received other (by
    simpa [State.closeSession, State.emit] using hother))
  neverFailed other := by simpa [State.closeSession, State.emit] using h.neverFailed other
  closes entry hentry := by
    rcases List.mem_append.mp hentry with hentry | hentry
    · obtain ⟨hcreated, hcalled⟩ := h.closes entry hentry
      exact ⟨List.mem_append_left _ hcreated, List.mem_append_left _ hcalled⟩
    · cases List.mem_singleton.mp hentry
      exact ⟨List.mem_append_left _ hcreated, List.mem_append_right _ (List.mem_singleton_self _)⟩
  leaves other hother := by
    have hother : .created other ∈ s.trace := by simpa [State.closeSession, State.emit] using hother
    refine (h.leaves other hother).imp_right fun hclosed => ?_
    exact hclosed.imp (List.mem_append_left _) (List.mem_append_left _)
  closeCalls := by simpa [State.closeSession, State.emit] using h.closeCalls
  notCalled hzero := by
    obtain ⟨husers, hdeleted⟩ := h.notCalled hzero
    refine ⟨fun entry hentry => ?_, hdeleted⟩
    rcases List.mem_append.mp hentry with hentry | hentry
    · exact husers entry hentry
    · cases List.mem_singleton.mp hentry
      rfl
  callers other call hmem := h.callers other call (by simpa [State.closeSession] using hmem)
  counted hone := by simpa [State.closeSession, State.emit] using h.counted hone
  deleted := h.deleted
  notDeleted := by simpa [State.closeSession, State.emit] using h.notDeleted
  poolCloses := by simpa [State.closeSession, State.emit] using h.poolCloses
  mustClose other hbefore := by
    rcases beforeClose_concat.mp hbefore with hbefore | ⟨heq, -⟩
    · exact (h.mustClose other hbefore).imp (List.mem_append_left _) (List.mem_append_left _)
    · cases heq
  permitted := h.permitted.concat trivial

/-- A `DBSession` has been closed; what the callback does to the counters is given. -/
theorem Kept.freed (h : Kept s) {caller : Caller} (hi : s.closes[i]? = some (request, caller))
    (hallowed : Allowed s (.closeSessionOnDBSessionClose i)) {closedSessions : ℕ → ℕ}
    {deleted : Bool} {poolCloses : List ℕ}
    (hcounted : s.closeCalls = 1 → closedSessions 0 +
      tally Prod.snd (.factory 0) (s.closes.eraseIdx i) = s.numberOfSessionsToClose 0)
    (hdeleted : s.closeCalls = 1 →
      (deleted = true ↔ closedSessions 0 = s.numberOfSessionsToClose 0))
    (hnotCalled : s.closeCalls = 0 → deleted = false)
    (hnotDeleted : deleted = false → .factoryClosed ∉ s.trace ∧ poolCloses = [])
    (hpoolCloses : deleted = true →
      s.closeCalls = s.trace.count .factoryClosed + poolCloses.length) :
    Kept { s with
      closes := s.closes.eraseIdx i
      sessions := put s.sessions (s.session_index request) .null
      closedSessions := closedSessions
      deleted := deleted
      poolCloses := poolCloses
      trace := s.trace ++ [.closed request] } := by
  obtain ⟨hcreated, hcalled⟩ : .created request ∈ s.trace ∧ .closeCalled request ∈ s.trace :=
    h.closes _ (List.mem_of_getElem? hi)
  have hslot := hallowed (request, caller) hi
  have hget := getElem?_put (h.index_lt request (h.created_lt request hcreated)).le Slot.null
  have hstay : ∀ {j slot}, s.sessions[j]? = some slot → slot ≠ .null → slot ≠ .session request →
      j ≠ s.session_index request := by
    rintro j slot hj hnull hne rfl
    rcases hslot with hslot | hslot
    · rw [hslot] at hj
      exact hnull (Option.some.inj hj).symm
    · rw [hslot] at hj
      exact hne (Option.some.inj hj).symm
  have hcloses : ∀ other, (other, .factory 0) ∈ s.closes → other ≠ request →
      (other, .factory 0) ∈ s.closes.eraseIdx i := by
    intro other hmem hne
    obtain ⟨j, hj⟩ := List.getElem?_of_mem hmem
    refine List.mem_eraseIdx_iff_getElem?.mpr ⟨j, fun heq => ?_, hj⟩
    rw [heq, hi] at hj
    exact hne (Prod.mk.inj (Option.some.inj hj)).1.symm
  have hclosed : .closed request ∈ s.trace ++ [.closed request] :=
    List.mem_append_right _ (List.mem_singleton_self _)
  refine
    { index_lt := fun other hother => (h.index_lt other hother).trans_le (length_put_le _)
      requested := fun other => by simpa using h.requested other
      opens := fun other => by simpa using h.opens other
      opens_nodup := h.opens_nodup
      created_lt := fun other hother => h.created_lt other (by simpa using hother)
      placeholders := fun j other => ?_
      sessions := fun j other hj => ?_
      stored := fun other hother hnot => ?_
      received := fun other hother => List.mem_append_left _ (h.received other (by simpa using hother))
      neverFailed := fun other => by simpa using h.neverFailed other
      closes := fun entry hentry => by
        simpa using h.closes entry (List.mem_of_mem_eraseIdx hentry)
      leaves := fun other hother => ?_
      closeCalls := by simpa using h.closeCalls
      notCalled := fun hzero => ⟨fun entry hentry =>
        (h.notCalled hzero).1 entry (List.mem_of_mem_eraseIdx hentry), hnotCalled hzero⟩
      callers := fun other call hmem => h.callers other call (List.mem_of_mem_eraseIdx hmem)
      counted := hcounted
      deleted := hdeleted
      notDeleted := by simpa using hnotDeleted
      poolCloses := by simpa using hpoolCloses
      mustClose := fun other hbefore => ?_
      permitted := h.permitted.concat trivial }
  · rw [hget]
    split_ifs with hj
    · subst hj
      constructor
      · intro heq
        cases heq
      · intro hother
        exact absurd rfl (hstay ((h.placeholders _ other).mpr hother) (by simp) (by simp))
    · exact h.placeholders j other
  · rw [hget] at hj
    split_ifs at hj
    · cases hj
    · simpa using h.sessions j other hj
  · have hnotCalled : .closeCalled other ∉ s.trace := by simpa using hnot
    have hne : other ≠ request := by
      rintro rfl
      exact hnotCalled hcalled
    have hstored := h.stored other (by simpa using hother) hnotCalled
    rw [hget, if_neg (hstay hstored (by simp) (by simpa using hne))]
    exact hstored
  · by_cases hne : other = request
    · rw [hne]
      exact Or.inr (Or.inl hclosed)
    · rcases h.leaves other (by simpa using hother) with hstored | hmem | hmem
      · refine Or.inl ?_
        rw [hget, if_neg (hstay hstored (by simp) (by simpa using hne))]
        exact hstored
      · exact Or.inr (Or.inl (List.mem_append_left _ hmem))
      · exact Or.inr (Or.inr (hcloses other hmem hne))
  · by_cases hne : other = request
    · rw [hne]
      exact Or.inl hclosed
    · rcases beforeClose_concat.mp hbefore with hbefore | ⟨heq, -⟩
      · exact (h.mustClose other hbefore).imp (List.mem_append_left _) fun hmem =>
          hcloses other hmem hne
      · cases heq

theorem Kept.closeSessionOnDBSessionClose (h : Kept s) {caller : Caller}
    (hi : s.closes[i]? = some (request, caller))
    (hallowed : Allowed s (.closeSessionOnDBSessionClose i)) :
    Kept (s.closeSessionOnDBSessionClose i request caller) := by
  have htally := tally_eraseIdx hi Prod.snd (.factory 0)
  unfold State.closeSessionOnDBSessionClose
  cases caller with
  | user =>
      refine h.freed hi hallowed (fun hone => ?_) h.deleted (fun hzero => (h.notCalled hzero).2)
        h.notDeleted h.poolCloses
      have hcounted := h.counted hone
      rw [if_neg (by simp)] at htally
      change s.closedSessions 0 + _ = _
      omega
  | factory call =>
      obtain rfl := h.callers request call (List.mem_of_getElem? hi)
      have hone : s.closeCalls = 1 := by
        rcases Nat.le_one_iff_eq_zero_or_eq_one.mp h.closeCalls.2 with hzero | hone
        · have huser := (h.notCalled hzero).1 _ (List.mem_of_getElem? hi)
          cases huser
        · exact hone
      have hcounted := h.counted hone
      have hnotDeleted : s.deleted = false := by
        by_contra hdeleted
        have hall := (h.deleted hone).mp (Bool.not_eq_false _ ▸ hdeleted)
        rw [if_pos rfl] at htally
        omega
      rw [if_pos rfl] at htally
      have hcount : Function.update s.closedSessions 0 (s.closedSessions 0 + 1) 0 +
          tally Prod.snd (.factory 0) (s.closes.eraseIdx i) = s.numberOfSessionsToClose 0 := by
        rw [Function.update_self]
        omega
      change Kept (if s.closedSessions 0 + 1 = s.numberOfSessionsToClose 0 then _ else _)
      split_ifs with hlast
      · -- The last session: the factory is deleted.
        change Kept (if s.deleted = true then _ else _)
        rw [hnotDeleted, if_neg Bool.false_ne_true]
        obtain ⟨hnone, hempty⟩ := h.notDeleted hnotDeleted
        have hpool : s.closeCalls = s.trace.count .factoryClosed + (s.poolCloses ++ [0]).length := by
          rw [hone, hempty, List.count_eq_zero_of_not_mem hnone]
          rfl
        refine h.freed hi hallowed (fun _ => hcount) (fun _ => iff_of_true rfl ?_)
          (fun hzero => by omega) (fun heq => nomatch heq) fun _ => hpool
        change Function.update s.closedSessions 0 (s.closedSessions 0 + 1) 0 = _
        rw [Function.update_self]
        exact hlast
      · refine h.freed hi hallowed (fun _ => hcount) (fun _ => ?_) (fun _ => hnotDeleted)
          h.notDeleted h.poolCloses
        refine iff_of_false ?_ fun hall => hlast ?_
        · change s.deleted ≠ true
          rw [hnotDeleted]
          exact Bool.false_ne_true
        · change Function.update s.closedSessions 0 (s.closedSessions 0 + 1) 0 = _ at hall
          rwa [Function.update_self] at hall

end DatabaseJones.SessionFactory
