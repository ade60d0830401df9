import DatabaseJones.NdbTransaction.Session

/-!
# Transaction contexts of a session

A session hands out at most `maxTxContexts` contexts; the handlers that come later wait in
`seizeTxQueue`, and a context that is released goes to the one that waits longest.  The counts of
the session and of the native session agree as long as no context is released while its native
transaction is open, which happens where fetching the results of a scan fails.
-/

namespace DatabaseJones.NdbTransaction

open DatabaseJones.Library

/-! ## Reading the trace -/

def Output.seized? : Output → Option ℕ
  | .seized handler => some handler
  | _ => none

def Output.released? : Output → Option ℕ
  | .released handler => some handler
  | _ => none

/-- The contexts that were handed out, and those that were released, by their handlers. -/
def seizedBy (trace : List Output) : List ℕ := trace.filterMap Output.seized?

def releasedBy (trace : List Output) : List ℕ := trace.filterMap Output.released?

/-- A handler asks for a context when it is given its first operations. -/
def addAsker (askers : List ℕ) : Output → List ℕ
  | .requested request =>
      if request.kind ≠ .nothing ∧ request.size ≠ 0 ∧ request.handler ∉ askers then
        askers ++ [request.handler]
      else askers
  | _ => askers

/-- The handlers that have asked for a context, in their order. -/
def askers (trace : List Output) : List ℕ := trace.foldl addAsker []

/-! ## What is expected of a session -/

/-- The open contexts are those handed out and not released, for both sides, and not too many; each
handler gets at most one, in the order in which they asked, and as many get one as there can be. -/
structure ServesContexts (session : Session) : Prop where
  counts : session.openTxContexts + (releasedBy session.trace).length =
    (seizedBy session.trace).length
  native : session.nContexts = session.openTxContexts + session.freeList
  bounded : session.openTxContexts ≤ session.maxTxContexts
  once : (seizedBy session.trace).Nodup
  inOrder : askers session.trace =
    seizedBy session.trace ++ session.seizeTxQueue.map Request.handler
  served : (seizedBy session.trace).length =
    min (askers session.trace).length ((releasedBy session.trace).length + session.maxTxContexts)

/-- A context that is released belongs to a closed transaction. -/
def ReleasesClosed (session : Session) : Event → Prop
  | .callback =>
      match session.callbacks with
      | .finish request execMode :: _ => execMode ≠ .noCommit →
          (session.handlers request.handler).impl = true →
          (session.handlers request.handler).isOpen = false
      | _ => True
  | _ => True

instance (session : Session) (event : Event) : Decidable (ReleasesClosed session event) := by
  unfold ReleasesClosed
  split
  · split <;> infer_instance
  · infer_instance

/-! ## What most functions leave alone -/

/-- The part of a session that contexts are about. -/
structure ContextView where
  maxTxContexts : ℕ
  openTxContexts : ℕ
  nContexts : ℕ
  freeList : ℕ
  seizeTxQueue : List Request
  impl : ℕ → Bool
  sentSeizeImpl : ℕ → Bool
  askers : List ℕ
  seized : List ℕ
  released : List ℕ

def Session.contextView (session : Session) : ContextView where
  maxTxContexts := session.maxTxContexts
  openTxContexts := session.openTxContexts
  nContexts := session.nContexts
  freeList := session.freeList
  seizeTxQueue := session.seizeTxQueue
  impl handler := (session.handlers handler).impl
  sentSeizeImpl handler := (session.handlers handler).sentSeizeImpl
  askers := askers session.trace
  seized := seizedBy session.trace
  released := releasedBy session.trace

/-- An output that is not about contexts. -/
def Output.isQuiet : Output → Bool
  | .requested _ | .seized _ | .released _ => false
  | _ => true

section
variable {session : Session} {request : Request}

theorem askers_append (trace : List Output) (output : Output) :
    askers (trace ++ [output]) = addAsker (askers trace) output := by
  unfold askers
  rw [List.foldl_append]
  rfl

theorem contextView_emit {output : Output} (h : output.isQuiet = true) :
    (session.emit output).contextView = session.contextView := by
  unfold Session.contextView Session.emit
  cases output with
  | requested request => cases h
  | seized handler => cases h
  | released handler => cases h
  | _ => simp [askers_append, addAsker, seizedBy, releasedBy, Output.seized?, Output.released?]

/-- A change of a handler that keeps its context. -/
theorem contextView_update {handler : ℕ} {change : Handler → Handler}
    (himpl : ∀ value, (change value).impl = value.impl)
    (hsent : ∀ value, (change value).sentSeizeImpl = value.sentSeizeImpl) :
    (session.update handler change).contextView = session.contextView := by
  have hsame : ∀ other, (Function.update session.handlers handler
        (change (session.handlers handler)) other).impl = (session.handlers other).impl ∧
      (Function.update session.handlers handler
        (change (session.handlers handler)) other).sentSeizeImpl =
          (session.handlers other).sentSeizeImpl := by
    intro other
    by_cases hother : other = handler
    · rw [hother, Function.update_self]
      exact ⟨himpl _, hsent _⟩
    · rw [Function.update_of_ne hother]
      exact ⟨rfl, rfl⟩
  unfold Session.contextView Session.update
  simp only [hsame]

theorem contextView_runCall (call : ApiCall) :
    (session.runCall call).contextView = session.contextView := by
  unfold Session.runCall
  rw [contextView_emit rfl]
  cases call.stage with
  | prepareAndExecute => exact contextView_update (fun _ => rfl) fun _ => rfl
  | execute => exact contextView_update (fun _ => rfl) fun _ => rfl
  | fetchResults => rfl
  | close next => rfl

theorem contextView_enqueue (call : ApiCall) :
    (session.enqueue call).contextView = session.contextView := by
  unfold Session.enqueue
  dsimp only
  split_ifs
  · exact contextView_runCall call
  · rfl

theorem contextView_advance : session.advance.contextView = session.contextView := by
  unfold Session.advance
  dsimp only
  split
  · rfl
  · exact contextView_runCall _

theorem contextView_prepareOperations :
    (session.prepareOperations request).contextView = session.contextView := by
  unfold Session.prepareOperations
  split_ifs
  · exact contextView_enqueue _
  · exact contextView_emit rfl

theorem contextView_executeScan :
    (session.executeScan request).contextView = session.contextView := by
  unfold Session.executeScan
  split_ifs
  · exact contextView_enqueue _
  · exact contextView_emit rfl

theorem contextView_executeSpecific :
    (session.executeSpecific request).contextView = session.contextView := by
  unfold Session.executeSpecific
  split
  · exact contextView_executeScan
  · exact contextView_executeScan
  · rfl
  · exact contextView_prepareOperations
  · exact contextView_prepareOperations

theorem contextView_onFetchComplete (outcome : Session.Outcome) :
    (session.onFetchComplete request outcome).contextView = session.contextView := by
  unfold Session.onFetchComplete
  split
  · dsimp only
    split_ifs
    · rw [contextView_enqueue]
      exact contextView_update (fun _ => rfl) fun _ => rfl
    · rw [contextView_enqueue]
      exact contextView_update (fun _ => rfl) fun _ => rfl
    · exact contextView_enqueue _
  · exact contextView_enqueue _
  · exact contextView_enqueue _

theorem contextView_answered (call : ApiCall) (outcome : Session.Outcome) :
    (session.answered call outcome).contextView = session.contextView := by
  have hadvance : ∀ other : Session, other.contextView = session.contextView →
      other.advance.contextView = session.contextView :=
    fun other h => contextView_advance.trans h
  unfold Session.answered
  dsimp only
  split
  · split
    · rw [contextView_emit rfl, contextView_advance]
    · split
      · exact contextView_advance
      · rw [contextView_enqueue, contextView_advance]
  · split
    · exact contextView_advance
    · rw [contextView_onFetchComplete, contextView_advance]
  · split
    · rw [contextView_executeScan, contextView_advance]
    · rw [contextView_enqueue, contextView_advance]
  · exact contextView_advance
  · split_ifs
    · exact contextView_advance
    · rw [contextView_prepareOperations, contextView_advance]
  · refine hadvance _ ?_
    split_ifs
    · rfl
    · exact contextView_update (fun _ => rfl) fun _ => rfl

theorem contextView_arrived (outcome : Session.Outcome) (task : Task) :
    (session.arrived outcome task).contextView = session.contextView := by
  cases task with
  | getAllValues request => exact contextView_prepareOperations
  | fetchAllResults request => exact contextView_onFetchComplete outcome

/-! ## The invariant -/

/-- The contexts that are in use are those of the handlers that have one, and handlers wait only
while all contexts are in use. -/
structure ContextView.Kept (view : ContextView) : Prop where
  counts : view.openTxContexts + view.released.length = view.seized.length
  native : view.nContexts = view.openTxContexts + view.freeList
  bounded : view.openTxContexts ≤ view.maxTxContexts
  nodup : view.askers.Nodup
  inOrder : view.askers = view.seized ++ view.seizeTxQueue.map Request.handler
  waits : view.seizeTxQueue ≠ [] → view.openTxContexts = view.maxTxContexts
  sent : ∀ handler, view.sentSeizeImpl handler = true ↔ handler ∈ view.askers
  impl : ∀ handler, view.impl handler = true ↔ handler ∈ view.seized ∧ handler ∉ view.released
  releasedNodup : view.released.Nodup
  subset : view.released ⊆ view.seized

/-- As many handlers have been served as there can be. -/
theorem ContextView.Kept.servesContexts (h : session.contextView.Kept) :
    ServesContexts session := by
  have horder := congrArg List.length h.inOrder
  have hcounts := h.counts
  have hbounded := h.bounded
  rw [List.length_append, List.length_map] at horder
  refine ⟨hcounts, h.native, hbounded, ?_, h.inOrder, ?_⟩
  · have hnodup := h.nodup
    rw [h.inOrder] at hnodup
    exact (List.nodup_append.mp hnodup).1
  · dsimp only [Session.contextView] at horder hcounts hbounded
    by_cases hqueue : session.seizeTxQueue = []
    · rw [hqueue, List.length_nil] at horder
      omega
    · have hfull : session.openTxContexts = session.maxTxContexts := h.waits hqueue
      omega

/-- A native context for one more handler. -/
theorem exists_seizeTransaction {used : ℕ} (hnative : session.nContexts = used + session.freeList)
    (hlt : used < session.maxTxContexts) :
    ∃ nContexts freeList, session.seizeTransaction = some { session with nContexts, freeList } ∧
      nContexts = used + 1 + freeList := by
  unfold Session.seizeTransaction
  split_ifs with hfree hroom
  · exact ⟨session.nContexts, session.freeList - 1, rfl, by omega⟩
  · exact ⟨session.nContexts + 1, session.freeList, rfl, by omega⟩
  · omega

theorem contextView_onContext :
    (session.onContext request).contextView =
      { session.contextView with
        impl := Function.update session.contextView.impl request.handler true
        seized := session.contextView.seized ++ [request.handler] } := by
  unfold Session.onContext
  rw [contextView_executeSpecific]
  have hsame : ∀ other, (Function.update session.handlers request.handler
      { session.handlers request.handler with impl := true } other).sentSeizeImpl =
        (session.handlers other).sentSeizeImpl := by
    intro other
    by_cases hother : other = request.handler
    · rw [hother, Function.update_self]
    · rw [Function.update_of_ne hother]
  have himpl : (fun other => (Function.update session.handlers request.handler
      { session.handlers request.handler with impl := true } other).impl) =
        Function.update (fun other => (session.handlers other).impl) request.handler true := by
    funext other
    by_cases hother : other = request.handler
    · rw [hother, Function.update_self, Function.update_self]
    · rw [Function.update_of_ne hother, Function.update_of_ne hother]
  unfold Session.contextView Session.emit Session.update
  simp only [hsame, himpl, askers_append, addAsker, seizedBy, releasedBy, List.filterMap_append,
    List.filterMap_cons, List.filterMap_nil, Output.seized?, Output.released?, List.append_nil]

/-- A handler that waits longest, or comes while there is room, gets a context. -/
theorem ContextView.Kept.handOut {view : ContextView} {handler : ℕ} {waiting : List Request}
    {nContexts freeList : ℕ}
    (hcounts : view.openTxContexts + view.released.length = view.seized.length)
    (hlt : view.openTxContexts < view.maxTxContexts)
    (hnative : nContexts = view.openTxContexts + 1 + freeList)
    (hnodup : view.askers.Nodup)
    (hinOrder : view.askers = view.seized ++ [handler] ++ waiting.map Request.handler)
    (hwaits : waiting ≠ [] → view.openTxContexts + 1 = view.maxTxContexts)
    (hsent : ∀ handler, view.sentSeizeImpl handler = true ↔ handler ∈ view.askers)
    (himpl : ∀ other, other ≠ handler →
      (view.impl other = true ↔ other ∈ view.seized ∧ other ∉ view.released))
    (hreleased : view.released.Nodup) (hsubset : view.released ⊆ view.seized) :
    ContextView.Kept { view with
      openTxContexts := view.openTxContexts + 1
      nContexts
      freeList
      seizeTxQueue := waiting
      impl := Function.update view.impl handler true
      seized := view.seized ++ [handler] } where
  counts := by
    dsimp only
    rw [List.length_append, List.length_singleton]
    omega
  native := hnative
  bounded := hlt
  nodup := hnodup
  inOrder := hinOrder
  waits := hwaits
  sent := hsent
  impl other := by
    have hnot : handler ∉ view.seized := by
      rw [hinOrder, List.append_assoc] at hnodup
      intro hmem
      exact (List.nodup_append.mp hnodup).2.2 handler hmem handler List.mem_cons_self rfl
    dsimp only
    by_cases hother : other = handler
    · rw [hother, Function.update_self]
      refine iff_of_true rfl ⟨List.mem_append_right _ (List.mem_singleton_self _), fun hmem => ?_⟩
      exact hnot (hsubset hmem)
    · rw [Function.update_of_ne hother, himpl other hother, List.mem_append, List.mem_singleton,
        or_iff_left hother]
  releasedNodup := hreleased
  subset := fun _ hmem => List.mem_append_left _ (hsubset hmem)

/-- A handler that has not asked before asks for a context. -/
theorem ContextView.Kept.seizeTransactionContext {handler : ℕ}
    (hcounts : session.contextView.openTxContexts + session.contextView.released.length =
      session.contextView.seized.length)
    (hnative : session.nContexts = session.openTxContexts + session.freeList)
    (hbounded : session.openTxContexts ≤ session.maxTxContexts)
    (hnodup : session.contextView.askers.Nodup)
    (hinOrder : session.contextView.askers = session.contextView.seized ++
      session.seizeTxQueue.map Request.handler ++ [handler])
    (hwaits : session.seizeTxQueue ≠ [] → session.openTxContexts = session.maxTxContexts)
    (hsent : ∀ handler, session.contextView.sentSeizeImpl handler = true ↔
      handler ∈ session.contextView.askers)
    (himpl : ∀ other, session.contextView.impl other = true ↔
      other ∈ session.contextView.seized ∧ other ∉ session.contextView.released)
    (hreleased : session.contextView.released.Nodup)
    (hsubset : session.contextView.released ⊆ session.contextView.seized)
    (hrequest : request.handler = handler) :
    (session.seizeTransactionContext request).contextView.Kept := by
  unfold Session.seizeTransactionContext
  split_ifs with hroom
  · have hqueue : session.seizeTxQueue = [] := by
      by_contra hne
      have := hwaits hne
      omega
    obtain ⟨nContexts, freeList, hseize, hcontexts⟩ := @exists_seizeTransaction
      { session with openTxContexts := session.openTxContexts + 1 } session.openTxContexts hnative
      hroom
    dsimp only
    rw [hseize]
    dsimp only
    rw [contextView_onContext, hrequest]
    have hkept := @ContextView.Kept.handOut session.contextView handler [] nContexts freeList hcounts
      hroom hcontexts hnodup (by rw [hinOrder, hqueue]; simp) (fun h => absurd rfl h) hsent
      (fun other _ => himpl other) hreleased hsubset
    rw [← hqueue] at hkept
    exact hkept
  · refine ⟨hcounts, hnative, hbounded, hnodup, ?_, fun _ => ?_, hsent, himpl, hreleased, hsubset⟩
    · change session.contextView.askers = session.contextView.seized ++
        (session.seizeTxQueue ++ [request]).map Request.handler
      rw [List.map_append, List.map_singleton, hrequest, ← List.append_assoc]
      exact hinOrder
    · change session.openTxContexts = session.maxTxContexts
      omega

theorem contextView_giveUp (handler : ℕ) :
    (session.update handler fun value => { value with impl := false }).contextView =
      { session.contextView with impl := Function.update session.contextView.impl handler false } := by
  have hsame : ∀ other, (Function.update session.handlers handler
      { session.handlers handler with impl := false } other).sentSeizeImpl =
        (session.handlers other).sentSeizeImpl := by
    intro other
    by_cases hother : other = handler
    · rw [hother, Function.update_self]
    · rw [Function.update_of_ne hother]
  have himpl : (fun other => (Function.update session.handlers handler
      { session.handlers handler with impl := false } other).impl) =
        Function.update (fun other => (session.handlers other).impl) handler false := by
    funext other
    by_cases hother : other = handler
    · rw [hother, Function.update_self, Function.update_self]
    · rw [Function.update_of_ne hother, Function.update_of_ne hother]
  unfold Session.contextView Session.update
  simp only [hsame, himpl]

/-- A handler with a closed transaction releases its context. -/
theorem ContextView.Kept.release (h : session.contextView.Kept) {handler : ℕ}
    (himpl : (session.handlers handler).impl = true)
    (hclosed : (session.handlers handler).isOpen = false) :
    ∃ released, session.releaseTransactionContext handler = (released, true) ∧
      (released.update handler fun value => { value with impl := false }).contextView.Kept := by
  obtain ⟨hseized, hnot⟩ := (h.impl handler).mp himpl
  have hcounts := h.counts
  have hpos : 0 < session.openTxContexts := by
    -- The handler has a context that was not released.
    have hlt : session.contextView.released.length < session.contextView.seized.length := by
      have hsub := (List.nodup_cons.mpr ⟨hnot, h.releasedNodup⟩).subperm
        (List.cons_subset.mpr ⟨hseized, h.subset⟩)
      exact hsub.length_le
    change session.openTxContexts + _ = _ at hcounts
    omega
  have hnative : session.nContexts = session.openTxContexts - 1 + (session.freeList + 1) := by
    have := h.native
    change session.nContexts = session.openTxContexts + session.freeList at this
    omega
  have hcounts' : session.openTxContexts - 1 + (session.contextView.released ++ [handler]).length =
      session.contextView.seized.length := by
    change session.openTxContexts + _ = _ at hcounts
    rw [List.length_append, List.length_singleton]
    omega
  have hreleased : (session.contextView.released ++ [handler]).Nodup :=
    List.nodup_append.mpr ⟨h.releasedNodup, List.nodup_singleton _, fun other hother last hlast =>
      (by rw [List.mem_singleton.mp hlast]; rintro rfl; exact hnot hother)⟩
  have hsubset : session.contextView.released ++ [handler] ⊆ session.contextView.seized :=
    List.append_subset.mpr ⟨h.subset, fun _ hmem => List.mem_singleton.mp hmem ▸ hseized⟩
  have himpl' : ∀ other, Function.update session.contextView.impl handler false other = true ↔
      other ∈ session.contextView.seized ∧ other ∉ session.contextView.released ++ [handler] := by
    intro other
    by_cases hother : other = handler
    · rw [hother, Function.update_self]
      simp
    · rw [Function.update_of_ne hother, h.impl, List.mem_append, List.mem_singleton,
        or_iff_left hother]
  unfold Session.releaseTransactionContext
  rw [hclosed]
  simp only [Bool.not_false, if_true, true_and, if_pos hpos]
  generalize hreleasing : Session.emit
    { session with freeList := session.freeList + 1, openTxContexts := session.openTxContexts - 1 }
    (.released handler) = releasing
  have hview : releasing.contextView = { session.contextView with
      openTxContexts := session.openTxContexts - 1
      freeList := session.freeList + 1
      released := session.contextView.released ++ [handler] } := by
    rw [← hreleasing]
    unfold Session.contextView Session.emit
    simp [askers_append, addAsker, seizedBy, releasedBy, Output.seized?, Output.released?]
  have hmax : releasing.maxTxContexts = session.maxTxContexts :=
    congrArg ContextView.maxTxContexts hview
  have hopen : releasing.openTxContexts = session.openTxContexts - 1 :=
    congrArg ContextView.openTxContexts hview
  have hqueue : releasing.seizeTxQueue = session.seizeTxQueue :=
    congrArg ContextView.seizeTxQueue hview
  have hcontexts : releasing.nContexts = session.openTxContexts - 1 + releasing.freeList := by
    rw [show releasing.nContexts = session.nContexts from congrArg ContextView.nContexts hview,
      show releasing.freeList = session.freeList + 1 from congrArg ContextView.freeList hview,
      hnative]
  have hbounded := h.bounded
  change session.openTxContexts ≤ session.maxTxContexts at hbounded
  cases hwaiting : releasing.seizeTxQueue with
  | nil =>
      refine ⟨releasing, rfl, ?_⟩
      rw [contextView_giveUp, hview]
      refine ⟨hcounts', hnative, ?_, h.nodup, h.inOrder, fun hne => ?_, h.sent, himpl', hreleased,
        hsubset⟩
      · change session.openTxContexts - 1 ≤ session.maxTxContexts
        omega
      · exact absurd (hqueue.symm.trans hwaiting) hne
  | cons request waiting =>
      rw [hwaiting] at hqueue
      have hinOrder := h.inOrder
      change session.contextView.askers = session.contextView.seized ++
        session.seizeTxQueue.map Request.handler at hinOrder
      rw [← hqueue, List.map_cons] at hinOrder
      have hfull : session.openTxContexts = session.maxTxContexts := by
        refine h.waits ?_
        change session.seizeTxQueue ≠ []
        rw [← hqueue]
        exact List.cons_ne_nil _ _
      obtain ⟨nContexts, freeList, hseize, hnext⟩ := @exists_seizeTransaction
        { releasing with seizeTxQueue := waiting } (session.openTxContexts - 1) hcontexts
        (by rw [hmax]; omega)
      dsimp only
      rw [hseize]
      refine ⟨_, rfl, ?_⟩
      have hother : request.handler ≠ handler := by
        rintro rfl
        have hnodup := h.nodup
        rw [hinOrder] at hnodup
        exact (List.nodup_append.mp hnodup).2.2 _ hseized _ List.mem_cons_self rfl
      rw [contextView_giveUp, contextView_onContext]
      have hkept := @ContextView.Kept.handOut
        { session.contextView with
          openTxContexts := session.openTxContexts - 1
          impl := Function.update session.contextView.impl handler false
          released := session.contextView.released ++ [handler] }
        request.handler waiting nContexts freeList hcounts'
        (by change session.openTxContexts - 1 < session.maxTxContexts; omega) hnext h.nodup
        (by rw [List.append_assoc]; exact hinOrder)
        (fun _ => by change session.openTxContexts - 1 + 1 = session.maxTxContexts; omega) h.sent
        (fun other _ => himpl' other) hreleased hsubset
      rw [Function.update_comm hother.symm] at hkept
      have hlast : Session.contextView { releasing with
          seizeTxQueue := waiting
          nContexts
          freeList
          openTxContexts := releasing.openTxContexts + 1 } =
          { session.contextView with
            openTxContexts := session.openTxContexts - 1 + 1
            nContexts
            freeList
            seizeTxQueue := waiting
            released := session.contextView.released ++ [handler] } := by
        change { releasing.contextView with
          seizeTxQueue := waiting
          nContexts
          freeList
          openTxContexts := releasing.openTxContexts + 1 } = _
        rw [hview, hopen]
      dsimp only at hlast ⊢
      rw [hlast]
      exact hkept

/-! ## Steps -/

theorem ContextView.Kept.finish (h : session.contextView.Kept) {execMode : ExecMode}
    (hclosed : execMode ≠ .noCommit → (session.handlers request.handler).impl = true →
      (session.handlers request.handler).isOpen = false) :
    (session.finish request execMode).contextView.Kept := by
  unfold Session.finish
  split_ifs with hmode himpl
  · rw [contextView_emit rfl]
    exact h
  · obtain ⟨released, hrelease, hkept⟩ := h.release himpl (hclosed hmode himpl)
    rw [hrelease]
    dsimp only
    rw [contextView_emit rfl]
    exact hkept
  · rw [contextView_emit rfl]
    exact h

theorem contextView_getTransactionHandler :
    session.getTransactionHandler.1.contextView = session.contextView := by
  unfold Session.getTransactionHandler
  split <;> rfl

theorem contextView_request (handler : ℕ) (mode : ExecMode) (kind : Kind) (size : ℕ) :
    (session.request handler mode kind size).1.contextView =
      { session.contextView with
        askers := addAsker session.contextView.askers
          (.requested (session.request handler mode kind size).2) } := by
  unfold Session.request Session.contextView Session.emit
  simp [askers_append, seizedBy, releasedBy, Output.seized?, Output.released?]

theorem ContextView.Kept.complete (h : session.contextView.Kept) (execMode : ExecMode) :
    (session.complete execMode).contextView.Kept := by
  unfold Session.complete
  split
  · rw [contextView_emit rfl]
    exact h
  · next handler htx =>
      split_ifs
      · rw [contextView_emit rfl]
        exact h
      · have hview : ∀ other : Session, other.contextView = session.contextView →
            (other.request handler execMode .nothing 0).1.contextView = session.contextView := by
          intro other hother
          rw [contextView_request, hother]
          simp [addAsker, Session.request]
        dsimp only
        split_ifs
        · rw [contextView_enqueue, hview { session with tx := none } rfl]
          exact h
        · rw [contextView_emit rfl, hview { session with tx := none } rfl]
          exact h

theorem contextView_markSent (handler : ℕ) :
    (session.update handler fun value => { value with sentSeizeImpl := true }).contextView =
      { session.contextView with
        sentSeizeImpl := Function.update session.contextView.sentSeizeImpl handler true } := by
  have hsame : ∀ other, (Function.update session.handlers handler
      { session.handlers handler with sentSeizeImpl := true } other).impl =
        (session.handlers other).impl := by
    intro other
    by_cases hother : other = handler
    · rw [hother, Function.update_self]
    · rw [Function.update_of_ne hother]
  have hsent : (fun other => (Function.update session.handlers handler
      { session.handlers handler with sentSeizeImpl := true } other).sentSeizeImpl) =
        Function.update (fun other => (session.handlers other).sentSeizeImpl) handler true := by
    funext other
    by_cases hother : other = handler
    · rw [hother, Function.update_self, Function.update_self]
    · rw [Function.update_of_ne hother, Function.update_of_ne hother]
  unfold Session.contextView Session.update
  simp only [hsame, hsent]

/-- A request that is not the first one of its handler, or has no operations. -/
theorem addAsker_of_mem {handlers : List ℕ}
    (h : request.size = 0 ∨ request.handler ∈ handlers) :
    addAsker handlers (.requested request) = handlers :=
  if_neg fun hnew => h.elim hnew.2.1 hnew.2.2

/-- A handler asks for a context before its first operations. -/
theorem ContextView.Kept.ask (h : session.contextView.Kept) {asked : Session}
    (hview : asked.contextView = { session.contextView with
      askers := session.contextView.askers ++ [request.handler]
      sentSeizeImpl := Function.update session.contextView.sentSeizeImpl request.handler true })
    (hnew : request.handler ∉ session.contextView.askers) :
    (asked.seizeTransactionContext request).contextView.Kept := by
  have hopen : asked.openTxContexts = session.openTxContexts :=
    congrArg ContextView.openTxContexts hview
  have hmax : asked.maxTxContexts = session.maxTxContexts :=
    congrArg ContextView.maxTxContexts hview
  have hcontexts : asked.nContexts = session.nContexts := congrArg ContextView.nContexts hview
  have hfree : asked.freeList = session.freeList := congrArg ContextView.freeList hview
  have hqueue : asked.seizeTxQueue = session.seizeTxQueue :=
    congrArg ContextView.seizeTxQueue hview
  refine ContextView.Kept.seizeTransactionContext ?_ ?_ ?_ ?_ ?_ ?_ ?_ ?_ ?_ ?_ rfl
  · rw [hview]
    exact h.counts
  · rw [hopen, hcontexts, hfree]
    exact h.native
  · rw [hopen, hmax]
    exact h.bounded
  · rw [hview]
    refine List.nodup_append.mpr ⟨h.nodup, List.nodup_singleton _, fun other hother last hlast => ?_⟩
    rw [List.mem_singleton.mp hlast]
    rintro rfl
    exact hnew hother
  · rw [hview, hqueue]
    exact congrArg (· ++ [request.handler]) h.inOrder
  · rw [hqueue, hopen, hmax]
    exact h.waits
  · rw [hview]
    intro other
    dsimp only
    by_cases hother : other = request.handler
    · rw [hother, Function.update_self]
      exact iff_of_true rfl (List.mem_append_right _ (List.mem_singleton_self _))
    · rw [Function.update_of_ne hother, h.sent, List.mem_append, List.mem_singleton,
        or_iff_left hother]
  · rw [hview]
    exact h.impl
  · rw [hview]
    exact h.releasedNodup
  · rw [hview]
    exact h.subset

theorem ContextView.Kept.execute (h : session.contextView.Kept) {kind : Kind}
    (hkind : kind ≠ .nothing) (size : ℕ) : (session.execute kind size).contextView.Kept := by
  unfold Session.execute
  rcases hget : session.getTransactionHandler with ⟨got, handler⟩
  have hgot : got.contextView = session.contextView := by
    have := @contextView_getTransactionHandler session
    rwa [hget] at this
  dsimp only
  generalize hmode : (if (got.handlers handler).autocommit = true then ExecMode.commit
    else .noCommit) = mode
  have hview := @contextView_request got handler mode kind size
  rw [hgot] at hview
  change (got.request handler mode kind size).1.contextView = { session.contextView with
    askers := addAsker session.contextView.askers
      (.requested ⟨got.nextRequest, handler, mode, kind, size⟩) } at hview
  have hsent : (got.handlers handler).sentSeizeImpl = true ↔
      handler ∈ session.contextView.askers := by
    rw [← h.sent, ← hgot]
    rfl
  -- The session behind the request, with the handler retired or not.
  have hasks : ∀ asked : Session,
      asked.contextView = (got.request handler mode kind size).1.contextView →
      asked.handlers = got.handlers → size ≠ 0 →
        (if (asked.handlers handler).sentSeizeImpl = true then
            asked.executeSpecific (got.request handler mode kind size).2
          else
            (asked.update handler fun value =>
              { value with sentSeizeImpl := true }).seizeTransactionContext
                (got.request handler mode kind size).2).contextView.Kept := by
    intro asked hasked hhandlers hsize
    rw [hhandlers]
    split_ifs with hs
    · rw [contextView_executeSpecific, hasked, hview, addAsker_of_mem (.inr (hsent.mp hs))]
      exact h
    · have hnew : handler ∉ session.contextView.askers := fun hmem => hs (hsent.mpr hmem)
      refine h.ask ?_ hnew
      have hadd : addAsker session.contextView.askers
          (.requested ⟨got.nextRequest, handler, mode, kind, size⟩) =
          session.contextView.askers ++ [handler] :=
        if_pos ⟨hkind, hsize, hnew⟩
      rw [contextView_markSent, hasked, hview, hadd]
      rfl
  by_cases hsize : size = 0
  · rw [if_pos hsize, contextView_emit rfl, hview, addAsker_of_mem (.inl hsize)]
    exact h
  · rw [if_neg hsize]
    by_cases hauto : (got.handlers handler).autocommit = true
    · rw [if_pos hauto]
      exact hasks { (got.request handler mode kind size).1 with tx := none } rfl rfl hsize
    · rw [if_neg hauto]
      exact hasks (got.request handler mode kind size).1 rfl rfl hsize

theorem ContextView.Kept.step (h : session.contextView.Kept) {event : Event} {next : Session}
    (hclosed : ReleasesClosed session event)
    (hstep : NdbTransaction.step session event = some next) : next.contextView.Kept := by
  cases event with
  | execute kind size =>
      simp only [NdbTransaction.step] at hstep
      split_ifs at hstep with hkind
      exact Option.some.inj hstep ▸ h.execute hkind size
  | begin =>
      cases Option.some.inj hstep
      unfold Session.begin
      rcases hget : session.getTransactionHandler with ⟨got, handler⟩
      have hgot : got.contextView = session.contextView := by
        have := @contextView_getTransactionHandler session
        rwa [hget] at this
      dsimp only
      split_ifs
      · rw [@contextView_update got handler (fun value => { value with autocommit := false })
          (fun _ => rfl) fun _ => rfl, hgot]
        exact h
      · rw [contextView_emit rfl, hgot]
        exact h
  | commit => exact Option.some.inj hstep ▸ h.complete .commit
  | rollback => exact Option.some.inj hstep ▸ h.complete .rollback
  | answer outcome =>
      simp only [NdbTransaction.step] at hstep
      split at hstep
      · cases Option.some.inj hstep
        rw [contextView_answered]
        exact h
      · cases hstep
  | arrive task outcome =>
      simp only [NdbTransaction.step] at hstep
      split_ifs at hstep
      cases Option.some.inj hstep
      rw [contextView_arrived]
      exact h
  | callback =>
      simp only [NdbTransaction.step] at hstep
      simp only [ReleasesClosed] at hclosed
      split at hstep
      · cases hstep
      · next request index rest hcallbacks =>
          cases Option.some.inj hstep
          rw [contextView_emit rfl, @contextView_update _ request.handler
            (fun value => { value with executedOperations := value.executedOperations + 1 })
            (fun _ => rfl) fun _ => rfl]
          exact h
      · next request execMode rest hcallbacks =>
          rw [hcallbacks] at hclosed
          cases Option.some.inj hstep
          exact @ContextView.Kept.finish { session with callbacks := rest } request h _ hclosed

theorem kept_init (maxTxContexts : ℕ) :
    (Session.contextView { maxTxContexts }).Kept where
  counts := rfl
  native := rfl
  bounded := Nat.zero_le _
  nodup := List.nodup_nil
  inOrder := rfl
  waits hne := absurd rfl hne
  sent _ := iff_of_false Bool.false_ne_true List.not_mem_nil
  impl _ := iff_of_false Bool.false_ne_true fun h => List.not_mem_nil h.1
  releasedNodup := List.nodup_nil
  subset := List.nil_subset _

end

/-- Contexts are served in every run in which no context of an open transaction is released. -/
theorem servesContexts_of_guarded {maxTxContexts : ℕ} {events : List Event} {session : Session}
    (hguarded : Guarded step ReleasesClosed { maxTxContexts } events)
    (hrun : run step { maxTxContexts } events = some session) : ServesContexts session :=
  (invariant_of_guarded (fun session : Session => session.contextView.Kept)
    (fun _ _ _ h hclosed hstep => h.step hclosed hstep) (kept_init maxTxContexts) hguarded
    hrun).servesContexts

/-- Two handlers that share one context. -/
theorem servesContexts_two_handlers : ∃ session,
    run step { maxTxContexts := 1 } [.execute (.keyOperations false) 1,
      .execute (.keyOperations false) 1, .answer .success, .callback, .callback] = some session ∧
      seizedBy session.trace = [0, 1] ∧ ServesContexts session := by
  refine ⟨_, rfl, by decide, ?_⟩
  exact @servesContexts_of_guarded 1 [.execute (.keyOperations false) 1,
    .execute (.keyOperations false) 1, .answer .success, .callback, .callback] _ (by decide) rfl

/-- Fetching the results of a scan fails, and the context is given up while it is in use. -/
theorem not_servesContexts_failed_scan :
    ¬ ∀ (maxTxContexts : ℕ) (events : List Event) (session : Session),
      run step { maxTxContexts } events = some session → ServesContexts session := by
  intro hclaim
  have hserves := hclaim 1 [.execute .scan 1, .execute .scan 1, .answer .success,
    .answer (.error false), .answer .success, .callback, .callback] _ rfl
  exact absurd hserves.native (by decide)

end DatabaseJones.NdbTransaction
