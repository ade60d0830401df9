import DatabaseJones.Transaction.Phase

/-!
# Batches nothing refers to

Once no field of the handler and no statement in flight refers to a batch, nothing
happens to it any more: it is not executed, not completed and not called back.
`Absent` says the first, and `Avoids` the second of a step; the lemmas go through
the functions of the handler one by one, for any client and in any state.
-/

namespace DatabaseJones.Transaction

open DatabaseJones.Library

/-! ## Absence -/

/-- Nothing refers to the batches `avoid`. -/
structure Absent (avoid : ℕ → Prop) (world : World) : Prop where
  submitted : ∀ number, avoid number → number < world.submissions
  callback : ¬ avoid world.handler.transactionExecuteCallback
  pending : ∀ batch ∈ world.handler.pendingBatches, ¬ avoid batch.number
  operationsList : ∀ op ∈ world.handler.operationsList, ¬ avoid op.batch
  inFlight : ∀ op, .operation op ∈ world.inFlight → ¬ avoid op.batch

/-- Nothing on the trace concerns the batches `avoid`. -/
structure Unrelated (avoid : ℕ → Prop) (added : List Output) : Prop where
  executed : ∀ op ∈ executedOps added, ¬ avoid op.batch
  completed : ∀ completion ∈ completions added, ¬ avoid completion.1.batch
  called : ∀ number ∈ calledBack added, ¬ avoid number

/-- From one world to another nothing happens to the batches `avoid`, and nothing
can happen to them later; and once `begin` was answered, it is not sent again. -/
structure Avoids (avoid : ℕ → Prop) (before after : World) : Prop where
  absent : Absent avoid after
  trace : ∃ added, after.trace = before.trace ++ added ∧ Unrelated avoid added
  submissions : before.submissions ≤ after.submissions
  started : before.handler.firstTime = false → after.handler.firstTime = false ∧
    (.begin ∈ after.inFlight → .begin ∈ before.inFlight)

variable {avoid : ℕ → Prop} {client : Client} {before middle after world : World}

theorem Unrelated.nil : Unrelated avoid [] := ⟨by simp, by simp, by simp⟩

theorem Unrelated.append {added more : List Output} (h₁ : Unrelated avoid added)
    (h₂ : Unrelated avoid more) : Unrelated avoid (added ++ more) where
  executed := by
    intro op hop
    rw [executedOps_append, List.mem_append] at hop
    exact hop.elim (h₁.executed op) (h₂.executed op)
  completed := by
    intro completion hmem
    rw [completions_append, List.mem_append] at hmem
    exact hmem.elim (h₁.completed completion) (h₂.completed completion)
  called := by
    intro number hmem
    rw [calledBack_append, List.mem_append] at hmem
    exact hmem.elim (h₁.called number) (h₂.called number)

theorem Avoids.trans (h₁ : Avoids avoid before middle) (h₂ : Avoids avoid middle after) :
    Avoids avoid before after := by
  obtain ⟨added, htrace, hadded⟩ := h₁.trace
  obtain ⟨more, htrace', hmore⟩ := h₂.trace
  refine ⟨h₂.absent, ⟨added ++ more, by rw [htrace', htrace, List.append_assoc],
    hadded.append hmore⟩, h₁.submissions.trans h₂.submissions, fun hstarted => ?_⟩
  obtain ⟨hmiddle, hbegin⟩ := h₁.started hstarted
  obtain ⟨hafter, hbegin'⟩ := h₂.started hmiddle
  exact ⟨hafter, fun h => hbegin (hbegin' h)⟩

/-- A change of fields that no batch is referred to in. -/
theorem Absent.fields (h : Absent avoid before) (hsubmissions : after.submissions = before.submissions)
    (hcallback : ¬ avoid after.handler.transactionExecuteCallback)
    (hpending : ∀ batch ∈ after.handler.pendingBatches, ¬ avoid batch.number)
    (hlist : ∀ op ∈ after.handler.operationsList, ¬ avoid op.batch)
    (hflight : ∀ query ∈ after.inFlight, query ∈ before.inFlight)
    (htrace : after.trace = before.trace)
    (hfirst : before.handler.firstTime = false → after.handler.firstTime = false) :
    Avoids avoid before after where
  absent := ⟨fun number hnumber => hsubmissions ▸ h.submitted number hnumber, hcallback, hpending,
    hlist, fun op hop => h.inFlight op (hflight _ hop)⟩
  trace := ⟨[], by rw [htrace, List.append_nil], .nil⟩
  submissions := hsubmissions.ge
  started := fun hstarted => ⟨hfirst hstarted, hflight _⟩

/-- An observation that concerns no batch of `avoid`. -/
theorem Absent.emit (h : Absent avoid world) (output : Output) (houtput : Unrelated avoid [output]) :
    Avoids avoid world (world.emit output) where
  absent := ⟨h.submitted, h.callback, h.pending, h.operationsList, h.inFlight⟩
  trace := ⟨[output], rfl, houtput⟩
  submissions := le_refl _
  started := fun hstarted => ⟨hstarted, id⟩

/-- A statement that is not an operation of a batch of `avoid`, nor `begin`. -/
theorem Absent.send (h : Absent avoid world) (query : Query)
    (hquery : ∀ op, query = .operation op → ¬ avoid op.batch)
    (hbegin : query = .begin → world.handler.firstTime = true) :
    Avoids avoid world (world.send query) where
  absent := by
    refine ⟨h.submitted, h.callback, h.pending, h.operationsList, fun op hop => ?_⟩
    rcases List.mem_append.mp hop with hop | hop
    · exact h.inFlight op hop
    · exact hquery op (List.mem_singleton.mp hop).symm
  trace := by
    refine ⟨[.sent query], rfl, ?_, by simp, by simp⟩
    cases query <;> simp_all
  submissions := le_refl _
  started := by
    intro hstarted
    refine ⟨hstarted, fun hmem => ?_⟩
    rcases List.mem_append.mp hmem with hmem | hmem
    · exact hmem
    · simp [hbegin (List.mem_singleton.mp hmem).symm] at hstarted

/-! ## The functions of the handler -/

theorem Absent.executeOperations (h : Absent avoid world) :
    Avoids avoid world world.executeOperations := by
  have hset : Avoids avoid world { world with handler := { world.handler with
      numberOfOperations := world.handler.operationsList.length, currentOperation := 0 } } :=
    h.fields rfl h.callback h.pending h.operationsList (fun _ => id) rfl id
  unfold World.executeOperations
  cases hfirst : world.handler.operationsList[0]? with
  | none =>
      simp only [hfirst]
      exact hset.trans (hset.absent.emit .threw ⟨by simp, by simp, by simp⟩)
  | some op =>
      simp only [hfirst]
      refine hset.trans (hset.absent.send _ ?_ nofun)
      rintro op' ⟨rfl⟩
      exact h.operationsList op (List.mem_of_getElem? hfirst)

theorem Absent.execute (h : Absent avoid world) (size : ℕ) :
    Avoids avoid world (world.execute size) := by
  -- the new batch has a number that no batch of `avoid` has
  have hnew : ¬ avoid world.submissions := fun hnumber => lt_irrefl _ (h.submitted _ hnumber)
  have hops : ∀ op ∈ Batch.list ⟨world.submissions, size, world.tx⟩, ¬ avoid op.batch := by
    intro op hop
    rwa [Batch.batch_of_mem_list hop]
  set submitted : World := World.emit { world with submissions := world.submissions + 1 }
    (.submitted ⟨world.submissions, size, world.tx⟩) with hsubmitted
  have hsubmit : Avoids avoid world submitted :=
    ⟨⟨fun number hnumber => (h.submitted number hnumber).trans (Nat.lt_succ_self _), h.callback,
      h.pending, h.operationsList, h.inFlight⟩, ⟨_, rfl, by simp, by simp, by simp⟩,
      Nat.le_succ _, fun hstarted => ⟨hstarted, id⟩⟩
  have hheld : Avoids avoid submitted { submitted with handler := { submitted.handler with
      operationsList := Batch.list ⟨world.submissions, size, world.tx⟩
      transactionExecuteCallback := world.submissions } } :=
    hsubmit.absent.fields rfl hnew hsubmit.absent.pending hops (fun _ => id) rfl id
  simp only [World.execute, ← hsubmitted]
  split_ifs with hfirst hrunning
  · exact hsubmit.trans (hheld.trans (hheld.absent.send _ (fun _ heq => by cases heq) fun _ => hfirst))
  · refine hsubmit.trans (hsubmit.absent.fields rfl hsubmit.absent.callback ?_
      hsubmit.absent.operationsList (fun _ => id) rfl id)
    intro batch hbatch
    rcases List.mem_append.mp hbatch with hold | hadded
    · exact h.pending batch hold
    · rwa [List.mem_singleton.mp hadded]
  · exact hsubmit.trans (hheld.trans hheld.absent.executeOperations)

theorem Absent.call (h : Absent avoid world) (call : Call) :
    Avoids avoid world (world.call call) := by
  cases call with
  | execute size => exact h.execute size
  | begin => exact h.fields rfl h.callback h.pending h.operationsList (fun _ => id) rfl id
  | commit =>
      have hsend := h.send .commit nofun nofun
      exact hsend.trans (hsend.absent.fields rfl h.callback h.pending h.operationsList
        (fun _ => id) rfl id)
  | rollback =>
      have hsend := h.send .rollback nofun nofun
      exact hsend.trans (hsend.absent.fields rfl h.callback h.pending h.operationsList
        (fun _ => id) rfl id)

theorem Absent.refl (h : Absent avoid world) : Avoids avoid world world :=
  h.fields rfl h.callback h.pending h.operationsList (fun _ => id) rfl id

theorem Absent.runCallback (h : Absent avoid world) (callback : Callback) :
    Avoids avoid world (world.runCallback client callback) := by
  unfold World.runCallback
  induction client callback generalizing world with
  | nil => exact h.refl
  | cons call calls ih => exact (h.call call).trans (ih (h.call call).absent)

theorem Absent.callBatch (h : Absent avoid world) (error : Option BatchError) :
    Avoids avoid world (world.callBatch client error) := by
  have hemit := h.emit (.batchCallback world.handler.transactionExecuteCallback error)
    ⟨by simp, by simp, by simpa using h.callback⟩
  exact hemit.trans (hemit.absent.runCallback _)

theorem Absent.callOperation (h : Absent avoid world) {op : Operation} (hop : ¬ avoid op.batch)
    (outcome : Outcome) : Avoids avoid world (world.callOperation client op outcome) := by
  have hemit := h.emit (.completed op outcome) ⟨by simp, by simpa using hop, by simp⟩
  exact hemit.trans (hemit.absent.runCallback _)

theorem Absent.batchComplete (h : Absent avoid world) :
    Avoids avoid world (world.batchComplete client) := by
  have hcalled : Avoids avoid world (world.callBatch client (world.handler.error.map .rolledBack)) :=
    h.callBatch _
  unfold World.batchComplete
  set called := world.callBatch client (world.handler.error.map .rolledBack) with hcalledEq
  have hthere := hcalled.absent
  cases hpending : called.handler.pendingBatches with
  | nil =>
      simp only [hpending]
      exact hcalled.trans (hthere.fields rfl hthere.callback (by simp) hthere.operationsList
        (fun _ => id) rfl id)
  | cons nextBatch pendingBatches =>
      simp only [hpending]
      have hpend := hthere.pending
      rw [hpending] at hpend
      have hnext : ¬ avoid nextBatch.number := hpend nextBatch List.mem_cons_self
      have htaken : Avoids avoid called { called with handler := { called.handler with
          executedOperations := [], numberOfOperations := 0, pendingBatches
          operationsList := nextBatch.list, transactionExecuteCallback := nextBatch.number
          error := none } } := by
        refine hthere.fields rfl hnext (fun batch hbatch => ?_) (fun op hop => ?_) (fun _ => id) rfl
          id
        · exact hpend batch (List.mem_cons_of_mem _ hbatch)
        · rwa [Batch.batch_of_mem_list hop]
      exact hcalled.trans (htaken.trans htaken.absent.executeOperations)

theorem Absent.abortOperations (h : Absent avoid world) (cause : Operation) {ops : List Operation}
    (hops : ∀ op ∈ ops, ¬ avoid op.batch) :
    Avoids avoid world (world.abortOperations client cause ops) := by
  induction ops generalizing world with
  | nil => exact h.refl
  | cons op ops ih =>
      have hcalled : Avoids avoid world (world.callOperation client op (.rolledBack cause)) :=
        h.callOperation (hops op List.mem_cons_self) _
      have hthere := hcalled.absent
      set called := world.callOperation client op (.rolledBack cause) with hcalledEq
      have hrecorded : Avoids avoid called { called with handler := { called.handler with
          currentOperation := called.handler.currentOperation + 1
          executedOperations := called.handler.executedOperations ++ [op] } } :=
        hthere.fields rfl hthere.callback hthere.pending hthere.operationsList (fun _ => id) rfl id
      exact hcalled.trans (hrecorded.trans
        (ih hrecorded.absent fun op' hop' => hops op' (List.mem_cons_of_mem _ hop')))

theorem Absent.operationCompleteCallback (h : Absent avoid world) (op : Operation)
    (failed : Bool) : Avoids avoid world (world.operationCompleteCallback client op failed) := by
  unfold World.operationCompleteCallback
  generalize (if failed then some op else world.handler.error) = error
  have hrecorded (current : ℕ) : Avoids avoid world { world with handler := { world.handler with
      error, executedOperations := world.handler.executedOperations ++ [op]
      currentOperation := current } } :=
    h.fields rfl h.callback h.pending h.operationsList (fun _ => id) rfl id
  have hthere (current : ℕ) := (hrecorded current).absent
  dsimp only
  split_ifs with hcomplete
  · exact (hrecorded world.handler.currentOperation).trans (hthere _).batchComplete
  · cases error with
    | some cause =>
        have hrest : ∀ op' ∈ (world.handler.operationsList.take
            world.handler.numberOfOperations).drop (world.handler.currentOperation + 1),
            ¬ avoid op'.batch := fun op' hop' =>
          h.operationsList op' (List.mem_of_mem_take (List.mem_of_mem_drop hop'))
        have haborted : Avoids avoid _ (World.abortOperations client cause _ _) :=
          (hthere (world.handler.currentOperation + 1)).abortOperations cause hrest
        exact (hrecorded _).trans (haborted.trans haborted.absent.batchComplete)
    | none =>
        cases hnext : world.handler.operationsList[world.handler.currentOperation + 1]? with
        | none =>
            exact (hrecorded _).trans ((hthere _).emit .threw ⟨by simp, by simp, by simp⟩)
        | some next =>
            refine (hrecorded _).trans ((hthere _).send _ ?_ nofun)
            rintro op' ⟨rfl⟩
            exact h.operationsList next (List.mem_of_getElem? hnext)

theorem Absent.executeOnBegin (h : Absent avoid world) (failed : Bool) :
    Avoids avoid world (world.executeOnBegin client failed) := by
  have hstart {world : World} (h : Absent avoid world) : Avoids avoid world
      (World.executeOperations { world with handler := { world.handler with firstTime := false } }) := by
    have hset : Avoids avoid world
        { world with handler := { world.handler with firstTime := false } } :=
      h.fields rfl h.callback h.pending h.operationsList (fun _ => id) rfl fun _ => rfl
    exact hset.trans hset.absent.executeOperations
  cases failed with
  | false => exact hstart h
  | true =>
      have hcalled : Avoids avoid world (world.callBatch client (some .beginFailed)) := h.callBatch _
      exact hcalled.trans (hstart hcalled.absent)

/-- One event leaves the batches that nothing refers to as they are. -/
theorem Absent.step (h : Absent avoid before) {event : Event}
    (hstep : step client before event = some after) : Avoids avoid before after := by
  cases event with
  | call call =>
      obtain rfl : before.call call = after := Option.some.inj hstep
      exact h.call call
  | answer query failed =>
      simp only [Transaction.step, Option.ite_none_right_eq_some, Option.some.injEq] at hstep
      obtain ⟨hquery, rfl⟩ := hstep
      have herase : Avoids avoid before
          { before with inFlight := before.inFlight.erase query } :=
        h.fields rfl h.callback h.pending h.operationsList (fun _ => List.mem_of_mem_erase) rfl id
      have hthere := herase.absent
      cases query with
      | begin => exact herase.trans (hthere.executeOnBegin failed)
      | operation op =>
          have hcalled : Avoids avoid _ (World.callOperation client _ op _) :=
            hthere.callOperation (h.inFlight op hquery) (if failed then .failed else .success)
          exact herase.trans (hcalled.trans (hcalled.absent.operationCompleteCallback op failed))
      | commit => exact herase
      | rollback => exact herase

/-- And so does a run. -/
theorem Absent.run (h : Absent avoid before) {events : List Event}
    (hrun : run (Transaction.step client) before events = some after) :
    Avoids avoid before after := by
  induction events generalizing before with
  | nil =>
      obtain rfl : before = after := Option.some.inj hrun
      exact h.refl
  | cons event events ih =>
      obtain ⟨next, hnext, hrest⟩ := run_cons_eq_some.mp hrun
      have hstep := h.step hnext
      exact hstep.trans (ih hstep.absent hrest)

end DatabaseJones.Transaction
