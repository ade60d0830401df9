import DatabaseJones.NdbConnectionPool.Places

/-!
# Closing sessions

A session that is closed goes to the free list, or its native object is queued to be destroyed.
Closing it again does nothing, so long as nobody else has got it.
-/

namespace DatabaseJones.NdbConnectionPool

open DatabaseJones.Library

variable {properties : Properties} {s : State} {d handle : ℕ} {held : List ℕ}
  {hand : List Caller} {caller : Caller}

/-! ## Putting away -/

/-- The native session in the hand is queued to be destroyed. -/
theorem Kept.closeDbSessionImpl (h : Kept properties s (d :: held) (caller :: hand)) :
    Kept properties (s.closeDbSessionImpl (some d) caller) held hand := by
  obtain ⟨hdestroyed, husers, hfree⟩ := h.not_destroyed_of_held List.mem_cons_self
  have hused := h.used hdestroyed
  refine
    { hused with
      place := fun other => ?_
      impl := fun other hother => hused.impl other (hother.imp_right (List.mem_cons_of_mem _))
      callbacks := fun other => ?_
      left := ?_ }
  · have hplace := hused.place other
    simp only [State.closeDbSessionImpl, State.queued, tally_append, tally_singleton,
      List.count_cons, beq_iff_eq, Option.some.injEq] at hplace ⊢
    change _ + _ + (tally _ _ s.execQueue + _) + _ = _ at hplace
    omega
  · have hcallbacks := hused.callbacks other
    simp only [State.closeDbSessionImpl, tally_append, tally_singleton, List.count_cons,
      beq_iff_eq] at hcallbacks ⊢
    change _ = _ + tally _ _ s.execQueue + _ at hcallbacks
    omega
  · have hleft := hused.left
    simp only [State.closeDbSessionImpl, tally_append, tally_singleton, List.count_cons,
      beq_iff_eq] at hleft ⊢
    rw [add_assoc, add_comm (if caller = Caller.pool then 1 else 0)]
    exact hleft

/-- A session object is changed. -/
theorem Kept.modify (h : Kept properties s held hand) {f : NdbSession → NdbSession}
    (himpl : s.Live d ∨ d ∈ held → (f (s.sessions d)).impl = some d)
    (hopen : users d s.trace ≠ [] ∨ (d, .user) ∈ s.fetches →
      (f (s.sessions d)).isOpenNdbSession = true) :
    Kept properties (s.modify d f) held hand := by
  refine { h with impl := fun other hother => ?_, isOpen := fun other hother => ?_ }
  · change (Function.update s.sessions d (f (s.sessions d)) other).impl = some other
    by_cases heq : other = d
    · subst heq
      rw [Function.update_self]
      exact himpl hother
    · rw [Function.update_of_ne heq]
      exact h.impl other hother
  · change (Function.update s.sessions d (f (s.sessions d)) other).isOpenNdbSession = true
    by_cases heq : other = d
    · subst heq
      rw [Function.update_self]
      exact hopen hother
    · rw [Function.update_of_ne heq]
      exact h.isOpen other hother

/-- The native session in the hand is put on the free list. -/
theorem Kept.push (h : Kept properties s (d :: held) hand)
    (hclosed : .closeCalled properties.pool ∉ s.connection.trace) :
    Kept properties { s with ndbSessionFreeList := d :: s.ndbSessionFreeList } held hand := by
  refine
    { h with
      place := fun other => ?_
      impl := fun other hother => h.impl other ?_
      closed := fun hcalled => absurd hcalled hclosed }
  · have hplace := h.place other
    simp only [State.queued, List.count_cons] at hplace ⊢
    omega
  · rcases hother with (husers | hfree) | hheld
    · exact Or.inl (Or.inl husers)
    · rcases List.mem_cons.mp hfree with rfl | hfree
      · exact Or.inr List.mem_cons_self
      · exact Or.inl (Or.inr hfree)
    · exact Or.inr (List.mem_cons_of_mem _ hheld)

/-- While the pool is open, its connection is not disconnecting. -/
theorem Kept.isDisconnecting_eq_false (h : Kept properties s held hand)
    (hclosed : .closeCalled properties.pool ∉ s.connection.trace) :
    (s.ndbConnection properties).isDisconnecting = false := by
  unfold State.ndbConnection
  cases hpool : s.connection.ndbConnection properties.pool with
  | none => rfl
  | some c =>
      by_contra hdisconnecting
      exact hclosed (h.connection.closeCalled_of_disconnecting hpool
        (Bool.not_eq_false _ ▸ hdisconnecting))

/-! ## Closing a session -/

/-- A user calls `close`; `rest` are the native sessions in the hand afterwards. -/
theorem Kept.closeCalled (h : Kept properties s held hand) (hhandle : handle < s.handles)
    {rest : List ℕ}
    (hplace : ∀ other, ((users other s.trace).erase handle).length + rest.count other =
      (users other s.trace).length + held.count other)
    (himpl : ∀ other ∈ rest, (s.sessions other).impl = some other) :
    Kept properties (s.emit (.closeCalled handle)) rest (.user handle :: hand) := by
  have hcount : ∀ other : Output, other ≠ .closeCalled handle →
      (s.trace ++ [Output.closeCalled handle]).count other = s.trace.count other := by
    intro other hne
    rw [List.count_append, List.count_singleton, if_neg (by simpa using hne.symm), Nat.add_zero]
  have husers : ∀ other, users other (s.trace ++ [Output.closeCalled handle]) =
      (users other s.trace).erase handle := fun other => users_concat other s.trace _
  have hsub : ∀ other, users other (s.trace ++ [Output.closeCalled handle]) ≠ [] →
      users other s.trace ≠ [] := by
    intro other hne hnil
    rw [husers, hnil] at hne
    exact hne rfl
  refine
    { h with
      place := fun other => ?_
      createdOnce := fun other => (hcount (.created other) (by simp)).symm ▸ h.createdOnce other
      fresh := fun other hother => ?_
      uses := fun other user => ?_
      users_nodup := fun other => (husers other).symm ▸ (h.users_nodup other).erase handle
      closeCalled_lt := fun user huser => ?_
      impl := fun other hother => ?_
      isOpen := fun other hother => h.isOpen other (hother.imp_left (hsub other))
      callbacks := fun user => ?_
      left := ?_
      freeList_le := fun length hlength => h.freeList_le length ?_
      permitted := h.permitted.concat trivial }
  · have hold := h.place other
    have hnew := hplace other
    change (users other (s.trace ++ [Output.closeCalled handle])).length +
      s.ndbSessionFreeList.count other + (_ + (s.trace ++ [Output.closeCalled handle]).count _) + _ =
      (s.trace ++ [Output.closeCalled handle]).count _
    rw [husers, hcount _ (by simp), hcount _ (by simp)]
    change _ + _ + (s.queued other + _) + _ = _
    omega
  · refine ⟨fun hcreated => (h.fresh other hother).1 ?_, (h.fresh other hother).2⟩
    simpa [State.emit] using hcreated
  · change user ∈ users other (s.trace ++ [Output.closeCalled handle]) ↔
      _ ∧ _ ∧ .closeCalled user ∉ s.trace ++ [Output.closeCalled handle]
    rw [husers, (h.users_nodup other).mem_erase_iff, h.uses]
    simp only [List.mem_append, List.mem_singleton, Output.closeCalled.injEq]
    tauto
  · rcases List.mem_append.mp huser with huser | huser
    · exact h.closeCalled_lt user huser
    · cases List.mem_singleton.mp huser
      exact hhandle
  · rcases hother with (hother | hother) | hother
    · exact h.impl other (Or.inl (Or.inl (hsub other hother)))
    · exact h.impl other (Or.inl (Or.inr hother))
    · exact himpl other hother
  · have hcallbacks := h.callbacks user
    simp only [State.emit, List.count_append, List.count_nil, List.count_cons, beq_iff_eq,
      reduceCtorEq, if_false, Output.closeCalled.injEq, Caller.user.injEq] at hcallbacks ⊢
    omega
  · simpa [State.emit] using h.left
  · simpa [State.emit] using hlength

/-- A session is closed by the user who has it. -/
theorem Kept.closeNdbSession (h : Kept properties s [d] [.user handle])
    (hopen : (s.sessions d).isOpenNdbSession = true)
    (hconnected : (s.ndbConnection properties).isConnected = true)
    (hroom : (s.ndbConnection properties).isDisconnecting = false →
      .closeCalled properties.pool ∉ s.connection.trace ∧
        s.ndbSessionFreeList.length < properties.ndb_session_pool_max) :
    Kept properties (s.closeNdbSession properties d (.user handle)) [] [] ∧
      (s.closeNdbSession properties d (.user handle)).ndbSessionFreeList.length ≤
        properties.ndb_session_pool_max := by
  obtain ⟨-, husers, hfree⟩ := h.not_destroyed_of_held List.mem_cons_self
  have hfetch : (d, .user) ∉ s.fetches := by
    intro hmem
    have honce := h.createdOnce d
    have hplace := h.place d
    have hpos : 0 < tally Prod.fst d s.fetches := tally_pos hmem
    simp only [List.count_cons_self] at hplace
    omega
  unfold State.closeNdbSession
  simp only [hopen, hconnected, Bool.true_eq_false, Bool.not_true, Bool.false_eq_true, if_false]
  cases hdisconnecting : (s.ndbConnection properties).isDisconnecting with
  | true =>
      have hclosed : s.ndbSessionFreeList = [] := by
        refine h.closed ?_
        by_contra hnot
        rw [h.isDisconnecting_eq_false hnot] at hdisconnecting
        exact Bool.false_ne_true hdisconnecting
      rw [Bool.true_or, if_pos rfl, h.impl d (Or.inr List.mem_cons_self)]
      refine ⟨?_, ?_⟩
      · -- The session loses its native object, which is no longer in the hand.
        have hqueued := h.closeDbSessionImpl
        refine hqueued.modify (d := d) (f := fun session => { session with impl := none })
          (fun hlive => ?_) fun huser => ?_
        · simp only [State.Live, State.closeDbSessionImpl, State.emit, users_used] at hlive
          simp [husers, hfree] at hlive
        · simp only [State.closeDbSessionImpl, State.emit, users_used] at huser
          simp [husers, hfetch] at huser
      · change s.ndbSessionFreeList.length ≤ _
        rw [hclosed]
        exact Nat.zero_le _
  | false =>
      obtain ⟨hclosed, hlength⟩ := hroom hdisconnecting
      rw [Bool.false_or, if_neg (by simpa using hlength.le)]
      have hmarked := h.modify (f := fun session => { session with isOpenNdbSession := false })
        (h.impl d) fun huser => absurd huser (by simp [husers, hfetch])
      exact ⟨(hmarked.push hclosed).callback, hlength⟩

theorem Kept.close (h : Kept properties s [] []) (hhandle : handle < s.handles)
    (hallowed : Allowed properties s (.close handle)) :
    Kept properties (s.close properties handle) [] [] := by
  have hmem := fun other => h.uses other handle
  unfold State.close
  dsimp only
  change if _ then _ else _ at hallowed
  split_ifs at hallowed with hcalled
  · -- The user has closed the session before.
    obtain ⟨hallowed, hlength⟩ := hallowed
    have hclose : Kept properties (s.emit (.closeCalled handle)) [] [.user handle] :=
      h.closeCalled hhandle
        (fun other => by rw [List.erase_of_not_mem fun huser => ((hmem other).mp huser).2.2 hcalled])
        (by simp)
    have hagain : (s.emit (.closeCalled handle)).closeNdbSession properties (s.session handle)
        (.user handle) = (s.emit (.closeCalled handle)).callback properties (.user handle) := by
      unfold State.closeNdbSession
      rcases hallowed with hclosed | hdisconnected
      · exact if_pos hclosed
      · have hdisconnected' : ((s.emit (.closeCalled handle)).ndbConnection properties).isConnected =
            false := hdisconnected
        simp [hdisconnected']
    rw [hagain]
    exact hclose.callback.closeReturned hlength
  · have huser : handle ∈ users (s.session handle) s.trace := (hmem _).mpr ⟨hhandle, rfl, hcalled⟩
    have hclose : Kept properties (s.emit (.closeCalled handle)) [s.session handle]
        [.user handle] := by
      refine h.closeCalled hhandle (fun other => ?_) fun other hother => ?_
      · by_cases hother : other = s.session handle
        · rw [hother, List.length_erase_of_mem huser, List.count_singleton_self, List.count_nil]
          have := List.length_pos_of_mem huser
          omega
        · have hnone : handle ∉ users other s.trace := fun hmem' =>
            hother ((hmem other).mp hmem').2.1.symm
          rw [List.erase_of_not_mem hnone, List.count_nil,
            List.count_eq_zero_of_not_mem (by simpa using hother)]
      · rw [List.mem_singleton.mp hother]
        exact h.impl _ (Or.inl (Or.inl (List.ne_nil_of_mem huser)))
    obtain ⟨hconnected, hroom⟩ := hallowed
    have hopen := h.isOpen _ (Or.inl (List.ne_nil_of_mem huser))
    obtain ⟨hkept, hlength⟩ := hclose.closeNdbSession hopen hconnected fun hdisconnecting =>
      ⟨by simpa [State.emit] using (hroom hdisconnecting).1, (hroom hdisconnecting).2⟩
    exact hkept.closeReturned hlength

end DatabaseJones.NdbConnectionPool

/-!
## Opening sessions

A user gets a session from the free list or waits for a new one; prefetched sessions are put on
the list while the pool is open.
-/

namespace DatabaseJones.NdbConnectionPool

open DatabaseJones.Library

variable {properties : Properties} {s : State} {d i : ℕ} {held : List ℕ}
  {hand : List Caller} {kind : Fetch}

/-! ## Opening sessions -/

/-- A user receives the native session that was in the hand. -/
theorem Kept.receive (h : Kept properties s (d :: held) hand)
    (hopen : (s.sessions d).isOpenNdbSession = true) : Kept properties (s.receive d) held hand := by
  have husers : ∀ other, users other (s.trace ++ [.opened s.handles d]) =
      if d = other then users other s.trace ++ [s.handles] else users other s.trace :=
    fun other => users_concat other s.trace _
  have hnotCalled : .closeCalled s.handles ∉ s.trace := fun hcalled =>
    absurd (h.closeCalled_lt _ hcalled) (lt_irrefl _)
  have hnew : ∀ other, s.handles ∉ users other s.trace := fun other huser =>
    absurd ((h.uses other _).mp huser).1 (lt_irrefl _)
  refine
    { h with
      place := fun other => ?_
      createdOnce := fun other => ?_
      fresh := fun other hother => ?_
      uses := fun other handle => ?_
      users_nodup := fun other => ?_
      closeCalled_lt := fun handle hcalled => ?_
      impl := fun other hother => ?_
      isOpen := fun other hother => ?_
      callbacks := fun handle => ?_
      freeList_le := fun length hlength => h.freeList_le length ?_
      permitted := h.permitted.concat trivial }
  · have hplace := h.place other
    change (users other (s.trace ++ [.opened s.handles d])).length +
      s.ndbSessionFreeList.count other + (s.queued other + (s.trace ++ _).count _) + _ =
      (s.trace ++ _).count _
    rw [husers]
    simp only [List.count_append, List.count_cons, List.count_nil, beq_iff_eq, reduceCtorEq,
      if_false] at hplace ⊢
    split_ifs at hplace ⊢ with heq
    · rw [List.length_append, List.length_singleton]
      omega
    · omega
  · simpa [State.receive, State.emit] using h.createdOnce other
  · simpa [State.receive, State.emit] using h.fresh other hother
  · change handle ∈ users other (s.trace ++ [.opened s.handles d]) ↔ handle < s.handles + 1 ∧
      Function.update s.session s.handles d handle = other ∧
      .closeCalled handle ∉ s.trace ++ [Output.opened s.handles d]
    have hmem : handle ∈ users other (s.trace ++ [.opened s.handles d]) ↔
        handle ∈ users other s.trace ∨ d = other ∧ handle = s.handles := by
      rw [husers]
      split_ifs with heq <;> simp [heq]
    rw [hmem]
    by_cases hhandle : handle = s.handles
    · subst hhandle
      simp [hnew, hnotCalled]
    · have hlt : handle < s.handles + 1 ↔ handle < s.handles := by omega
      rw [Function.update_of_ne hhandle, hlt, h.uses]
      simp [hhandle]
  · change (users other (s.trace ++ [.opened s.handles d])).Nodup
    rw [husers]
    split_ifs
    · exact List.nodup_append.mpr ⟨h.users_nodup other, List.nodup_singleton _, by
        rintro user huser _ hsingle rfl
        exact hnew other (List.mem_singleton.mp hsingle ▸ huser)⟩
    · exact h.users_nodup other
  · have hcalled : .closeCalled handle ∈ s.trace := by simpa [State.receive, State.emit] using hcalled
    exact Nat.lt_succ_of_lt (h.closeCalled_lt handle hcalled)
  · by_cases heq : other = d
    · exact heq ▸ h.impl d (Or.inr List.mem_cons_self)
    · refine h.impl other (hother.imp (fun hlive => hlive.imp_left fun hsome => ?_)
        (List.mem_cons_of_mem _))
      change users other (s.trace ++ [.opened s.handles d]) ≠ [] at hsome
      rwa [husers, if_neg (Ne.symm heq)] at hsome
  · by_cases heq : other = d
    · exact heq ▸ hopen
    · refine h.isOpen other (hother.imp_left fun hsome => ?_)
      change users other (s.trace ++ [.opened s.handles d]) ≠ [] at hsome
      rwa [husers, if_neg (Ne.symm heq)] at hsome
  · simpa [State.receive, State.emit] using h.callbacks handle
  · simpa [State.receive, State.emit] using hlength

/-- A session object that does not have its native object yet. -/
theorem Kept.fetch (h : Kept properties s held hand) {isOpen : Bool}
    (hopen : kind = .user → isOpen = true) : Kept properties (s.fetch kind isOpen) held hand := by
  have hfresh := h.fresh s.created (le_refl _)
  have hplace := h.place s.created
  rw [List.count_eq_zero_of_not_mem hfresh.1] at hplace
  have hnotLive : ¬ (s.Live s.created ∨ s.created ∈ held) := by
    rintro ((huser | hfree) | hheld)
    · have := List.length_pos_of_ne_nil huser
      omega
    · have := List.count_pos_iff.mpr hfree
      omega
    · have := List.count_pos_iff.mpr hheld
      omega
  have hmodify : Kept properties (s.modify s.created fun _ => { isOpenNdbSession := isOpen })
      held hand := by
    refine h.modify (fun hlive => absurd hlive hnotLive) ?_
    rintro (huser | hmem)
    · exact absurd (Or.inl (Or.inl huser)) hnotLive
    · exact absurd hmem (hfresh.2 .user)
  refine
    { hmodify with
      createdOnce := fun d => ?_
      fresh := fun d hd => ?_
      isOpen := fun d hd => ?_ }
  · have honce := h.createdOnce d
    change s.trace.count _ + tally _ _ (s.fetches ++ [(s.created, kind)]) ≤ 1
    rw [tally_append, tally_singleton]
    split_ifs with heq
    · dsimp only at heq
      subst heq
      rw [List.count_eq_zero_of_not_mem hfresh.1,
        tally_eq_zero fun entry hentry heq => hfresh.2 entry.2 (heq ▸ hentry)]
    · exact honce
  · change s.created + 1 ≤ d at hd
    obtain ⟨hcreated, hfetches⟩ := h.fresh d (by omega)
    refine ⟨hcreated, fun other hmem => ?_⟩
    rcases List.mem_append.mp hmem with hmem | hmem
    · exact hfetches other hmem
    · obtain ⟨rfl, -⟩ := Prod.mk.inj (List.mem_singleton.mp hmem)
      omega
  · by_cases heq : d = s.created
    · subst heq
      change (Function.update s.sessions s.created _ s.created).isOpenNdbSession = true
      rw [Function.update_self]
      rcases hd with huser | hmem
      · exact absurd (Or.inl (Or.inl huser)) hnotLive
      · rcases List.mem_append.mp hmem with hmem | hmem
        · exact absurd hmem (hfresh.2 .user)
        · exact hopen (Prod.mk.inj (List.mem_singleton.mp hmem)).2.symm
    · refine hmodify.isOpen d (hd.imp_right fun hmem => ?_)
      rcases List.mem_append.mp hmem with hmem | hmem
      · exact hmem
      · exact absurd (Prod.mk.inj (List.mem_singleton.mp hmem)).1 heq

theorem Kept.getDBSession (h : Kept properties s [] []) : Kept properties s.getDBSession [] [] := by
  unfold State.getDBSession
  cases hfree : s.ndbSessionFreeList with
  | nil => exact h.fetch fun _ => rfl
  | cons d rest =>
      have himpl := h.impl d (Or.inl (Or.inr (hfree ▸ List.mem_cons_self)))
      have hpopped : Kept properties { s with ndbSessionFreeList := rest } [d] [] := by
        refine
          { h with
            place := fun other => ?_
            impl := fun other hother => ?_
            closed := fun hclosed => ?_ }
        · have hplace := h.place other
          simp only [hfree, State.queued, List.count_cons, List.count_nil] at hplace ⊢
          omega
        · rcases hother with (huser | hmem) | hmem
          · exact h.impl other (Or.inl (Or.inl huser))
          · exact h.impl other (Or.inl (Or.inr (hfree ▸ List.mem_cons_of_mem _ hmem)))
          · exact List.mem_singleton.mp hmem ▸ himpl
        · have hnil := h.closed hclosed
          rw [hfree] at hnil
          exact absurd hnil (List.cons_ne_nil _ _)
      refine (hpopped.modify (d := d) (f := fun session => { session with isOpenNdbSession := true })
        (fun _ => himpl) fun _ => rfl).receive ?_
      change (Function.update s.sessions d _ d).isOpenNdbSession = true
      rw [Function.update_self]

theorem Kept.prefetchSession (h : Kept properties s [] []) :
    Kept properties (s.prefetchSession properties) [] [] := by
  unfold State.prefetchSession
  split_ifs
  · exact h
  · exact h.fetch fun heq => nomatch heq

/-- A prefetched session comes while the pool is open. -/
theorem Kept.onFetch (h : Kept properties s [d] [])
    (hclosed : .closeCalled properties.pool ∉ s.connection.trace) :
    Kept properties (s.onFetch properties d) [] [] := by
  unfold State.onFetch
  rw [h.isDisconnecting_eq_false hclosed, if_neg Bool.false_ne_true]
  dsimp only
  split_ifs
  · exact (h.push hclosed).fetch fun heq => nomatch heq
  · exact h.push hclosed

/-- The native object of a session was created. -/
theorem Kept.created (h : Kept properties s [] []) (hi : s.fetches[i]? = some (d, kind)) :
    Kept properties ((State.modify { s with fetches := s.fetches.eraseIdx i } d fun session =>
      { session with impl := some d }).emit (.created d)) [d] [] := by
  have htally := fun other => tally_eraseIdx hi Prod.fst other
  have hmem := List.mem_of_getElem? hi
  have hlt : d < s.created := by
    by_contra hge
    exact (h.fresh d (by omega)).2 kind hmem
  have hcount : ∀ other : Output, other ≠ .created d →
      (s.trace ++ [Output.created d]).count other = s.trace.count other := by
    intro other hne
    rw [List.count_append, List.count_singleton, if_neg (by simpa using hne.symm), Nat.add_zero]
  have herased : Kept properties { s with fetches := s.fetches.eraseIdx i } [] [] := by
    refine
      { h with
        createdOnce := fun other => ?_
        fresh := fun other hother => ⟨(h.fresh other hother).1, fun kind hkind =>
          (h.fresh other hother).2 kind (List.mem_of_mem_eraseIdx hkind)⟩
        isOpen := fun other hother => h.isOpen other (hother.imp_right List.mem_of_mem_eraseIdx) }
    have honce := h.createdOnce other
    have htally := htally other
    change s.trace.count _ + tally Prod.fst other (s.fetches.eraseIdx i) ≤ 1
    omega
  have hmodify := herased.modify (d := d) (f := fun session => { session with impl := some d })
    (fun _ => rfl) (herased.isOpen d)
  refine
    { hmodify with
      place := fun other => ?_
      createdOnce := fun other => ?_
      fresh := fun other hother => ⟨fun hcreated => ?_, (herased.fresh other hother).2⟩
      uses := fun other handle => ?_
      users_nodup := fun other => ?_
      closeCalled_lt := fun handle hcalled => h.closeCalled_lt handle ?_
      impl := fun other hother => ?_
      isOpen := fun other hother => hmodify.isOpen other ?_
      callbacks := fun handle => ?_
      freeList_le := fun length hlength => h.freeList_le length ?_
      permitted := h.permitted.concat trivial }
  · have hplace := h.place other
    simp only [State.emit, State.modify, State.queued, users_created, List.count_append,
      List.count_cons, List.count_nil, beq_iff_eq, reduceCtorEq, if_false,
      Output.created.injEq] at hplace ⊢
    omega
  · have honce := h.createdOnce other
    have htally := htally other
    simp only [State.emit, State.modify, List.count_append, List.count_cons, List.count_nil,
      beq_iff_eq, Output.created.injEq] at htally ⊢
    omega
  · rcases List.mem_append.mp hcreated with hcreated | hcreated
    · exact (h.fresh other hother).1 hcreated
    · cases List.mem_singleton.mp hcreated
      exact absurd hlt (Nat.not_lt.mpr hother)
  · simpa [State.emit, State.modify] using h.uses other handle
  · simpa [State.emit, State.modify] using h.users_nodup other
  · simpa [State.emit, State.modify] using hcalled
  · by_cases heq : other = d
    · subst heq
      change (Function.update s.sessions other _ other).impl = some other
      rw [Function.update_self]
    · refine hmodify.impl other (Or.inl ?_)
      rcases hother with hlive | hheld
      · simpa [State.Live, State.emit, State.modify] using hlive
      · exact absurd (List.mem_singleton.mp hheld) heq
  · simpa [State.emit, State.modify] using hother
  · simpa [State.emit, State.modify] using h.callbacks handle
  · simpa [State.emit, State.modify] using hlength

theorem Kept.fetched (h : Kept properties s [] []) (hi : s.fetches[i]? = some (d, kind))
    {success : Bool} (hallowed : Allowed properties s (.fetched i success)) :
    Kept properties (s.fetched properties i d kind success) [] [] := by
  have hcreated := h.created hi
  unfold State.fetched
  cases success with
  | true =>
      dsimp only
      rw [if_pos rfl]
      cases kind with
      | user =>
          refine hcreated.receive ?_
          change (Function.update s.sessions d _ d).isOpenNdbSession = true
          rw [Function.update_self]
          exact h.isOpen d (Or.inr (List.mem_of_getElem? hi))
      | prefetch => exact hcreated.onFetch (hallowed rfl (d, .prefetch) hi rfl)
  | false =>
      have herased : Kept properties { s with fetches := s.fetches.eraseIdx i } [] [] := by
        refine
          { h with
            createdOnce := fun other => ?_
            fresh := fun other hother => ⟨(h.fresh other hother).1, fun kind hkind =>
              (h.fresh other hother).2 kind (List.mem_of_mem_eraseIdx hkind)⟩
            isOpen := fun other hother => h.isOpen other (hother.imp_right List.mem_of_mem_eraseIdx) }
        have honce := h.createdOnce other
        have htally := tally_eraseIdx hi Prod.fst other
        change s.trace.count _ + tally Prod.fst other (s.fetches.eraseIdx i) ≤ 1
        omega
      dsimp only
      rw [if_neg Bool.false_ne_true]
      cases kind with
      | user => exact herased.emit users_openFailed (by simp) (by simp) rfl (by simp) trivial
      | prefetch => exact herased

end DatabaseJones.NdbConnectionPool
