import DatabaseJones.Transaction.Delivery

/-!
# Failed transactions

`StaysFailed` is what the comment on `TransactionHandler` promises: it keeps
track "for each transaction if there has been an error reported", and returns "an
error on all subsequent operations".  Nothing of a failed transaction is sent any
more, nothing of it succeeds any more, and the error does not reach operations of
another transaction.

The code keeps one error for the handler, forgets it when a pending batch is
started, and keeps it when none is pending.  So the law holds in the runs in
which no batch of a failed transaction is, or gets, submitted, and no batch with
another operation behind a successful one runs while the handler still holds an
old error (`Contained`).  `Quarantine` is the invariant: no unfinished batch
belongs to a failed transaction.
-/

namespace DatabaseJones.Transaction

open DatabaseJones.Library

/-! ## The law -/

/-- An operation of the explicit transaction `tx` completed with an error. -/
def Failed (tx : ℕ) (trace : List Output) : Prop :=
  ∃ completion ∈ completions trace, completion.1.tx = some tx ∧ completion.2 ≠ .success

instance (tx : ℕ) (trace : List Output) : Decidable (Failed tx trace) :=
  inferInstanceAs (Decidable (∃ completion ∈ completions trace, _ ∧ _))

/-- The output completes an operation of the transaction with an error. -/
def Output.Fails (tx : ℕ) : Output → Prop
  | .completed op outcome => op.tx = some tx ∧ outcome ≠ .success
  | _ => False

/-- The output sends an operation of the transaction to the server, or completes
one without an error. -/
def Output.Proceeds (tx : ℕ) : Output → Prop
  | .sent (.operation op) => op.tx = some tx
  | .completed op .success => op.tx = some tx
  | _ => False

/-- A transaction that failed does not proceed later. -/
def FailedStays (trace : List Output) : Prop :=
  trace.Pairwise fun earlier later => ∀ tx, earlier.Fails tx → ¬ later.Proceeds tx

/-- An error is propagated within a batch or an explicit transaction only. -/
def NoLeak (trace : List Output) : Prop :=
  ∀ op cause, (op, Outcome.rolledBack cause) ∈ completions trace →
    op.batch = cause.batch ∨ op.tx = cause.tx ∧ op.tx ≠ none

/-- Failed transactions stay failed, and every operation of theirs completes. -/
structure StaysFailed (world : World) : Prop where
  stays : FailedStays world.trace
  noLeak : NoLeak world.trace
  completes : world.work = [] → ∀ op ∈ allOperations world.trace, ∀ tx, op.tx = some tx →
    Failed tx world.trace → op ∈ completedOps world.trace

/-! ## The condition -/

/-- The calls that the answer to an operation lets the user make. -/
def answerCalls (client : Client) (world : World) (op : Operation) (failed : Bool) : List Call :=
  client (.operation op) ++
    if failed = true ∨ world.handler.error ≠ none ∨
        world.handler.executedOperations.length + 1 = world.handler.numberOfOperations then
      operationCalls client
          (world.handler.operationsList.drop (world.handler.currentOperation + 1)) ++
        client (.batch world.handler.transactionExecuteCallback)
    else []

/-- An event that does not meet the one error field of the handler: no batch is
submitted in a failed transaction, none of the failing transaction is pending, and
an old error is not read. -/
def Contained (client : Client) (world : World) (event : Event) : Prop :=
  Separate client world event ∧
    match event with
    | .call (.execute _) => ∀ tx ∈ world.tx, ¬ Failed tx world.trace
    | .call _ => True
    | .answer (.operation op) failed =>
        (failed = false → world.handler.error ≠ none →
          world.handler.executedOperations.length + 1 = world.handler.numberOfOperations) ∧
        (failed = true → ∀ tx ∈ op.tx, ∀ pending ∈ world.handler.pendingBatches,
          pending.tx ≠ some tx) ∧
        (∀ tx ∈ world.tx, Failed tx world.trace ∨ failed = true ∧ op.tx = some tx →
          Departs (answerCalls client world op failed))
    | .answer _ _ => True

instance (client : Client) (world : World) : DecidablePred (Contained client world)
  | .call (.execute _) => inferInstanceAs (Decidable (_ ∧ ∀ tx ∈ world.tx, _))
  | .call .begin => inferInstanceAs (Decidable (_ ∧ True))
  | .call .commit => inferInstanceAs (Decidable (_ ∧ True))
  | .call .rollback => inferInstanceAs (Decidable (_ ∧ True))
  | .answer (.operation _) _ => inferInstanceAs (Decidable (_ ∧ _ ∧ _ ∧ _))
  | .answer .begin _ => inferInstanceAs (Decidable (_ ∧ True))
  | .answer .commit _ => inferInstanceAs (Decidable (_ ∧ True))
  | .answer .rollback _ => inferInstanceAs (Decidable (_ ∧ True))

/-! ## Extending the trace -/

theorem failed_append {tx : ℕ} {trace added : List Output} :
    Failed tx (trace ++ added) ↔ Failed tx trace ∨ Failed tx added := by
  simp only [Failed, completions_append, List.mem_append, or_and_right, exists_or]

theorem Output.Fails.failed {tx : ℕ} {output : Output} {trace : List Output}
    (hfails : output.Fails tx) (hmem : output ∈ trace) : Failed tx trace := by
  cases output with
  | completed op outcome =>
      exact ⟨(op, outcome), List.mem_filterMap.mpr ⟨_, hmem, rfl⟩, hfails⟩
  | _ => exact hfails.elim

/-- What is put on the trace keeps the law if it sends nothing of a failed
transaction, and completes nothing of one, nor anything behind a first completion,
without an error. -/
theorem FailedStays.append {trace added : List Output} (htrace : FailedStays trace)
    (hsent : ∀ op ∈ executedOps added, ∀ tx, op.tx = some tx → ¬ Failed tx (trace ++ added))
    (hcompleted : ∀ completion ∈ completions added, completion.2 = .success →
      ∀ tx, completion.1.tx = some tx → ¬ Failed tx trace)
    (hwithin : (completions added).Pairwise fun _ later => later.2 ≠ .success) :
    FailedStays (trace ++ added) := by
  have hproceeds (output : Output) (hmem : output ∈ added) (tx : ℕ) (h : output.Proceeds tx)
      (hfailed : Failed tx (trace ++ added)) :
      ∃ op, output = .completed op .success ∧ op.tx = some tx := by
    match output, h with
    | .sent (.operation op), h =>
        exact absurd hfailed (hsent op (List.mem_filterMap.mpr ⟨_, hmem, rfl⟩) tx h)
    | .completed op .success, h => exact ⟨op, rfl, h⟩
  refine List.pairwise_append.mpr ⟨htrace, ?_, ?_⟩
  · refine (List.pairwise_filterMap.mp hwithin).imp_of_mem ?_
    intro earlier later hearlier hlater hsuccess tx hfails hlaterProceeds
    obtain ⟨op, rfl, -⟩ := hproceeds later hlater tx hlaterProceeds
      (failed_append.mpr (.inr (hfails.failed hearlier)))
    cases earlier with
    | completed op' outcome => exact hsuccess _ rfl _ rfl rfl
    | _ => exact hfails.elim
  · intro earlier hearlier later hlater tx hfails hlaterProceeds
    have hfailed := hfails.failed hearlier
    obtain ⟨op, rfl, htx⟩ := hproceeds later hlater tx hlaterProceeds
      (failed_append.mpr (.inl hfailed))
    exact hcompleted (op, .success) (List.mem_filterMap.mpr ⟨_, hlater, rfl⟩) rfl tx htx hfailed

theorem NoLeak.append {trace added : List Output} (htrace : NoLeak trace) (hadded : NoLeak added) :
    NoLeak (trace ++ added) := by
  intro op cause hmem
  rw [completions_append, List.mem_append] at hmem
  exact hmem.elim (htrace op cause) (hadded op cause)

/-! ## The invariant -/

/-- No unfinished batch belongs to a failed transaction, and transactions are
numbered in the order they begin. -/
structure Quarantine (world : World) (phase : Phase) : Prop where
  unfailed : ∀ batch ∈ phase.unfinished world, ∀ tx, batch.tx = some tx → ¬ Failed tx world.trace
  bounded : ∀ batch ∈ phase.unfinished world, ∀ tx, batch.tx = some tx → tx ≤ world.transactions
  failedBounded : ∀ tx, Failed tx world.trace → tx ≤ world.transactions
  stays : FailedStays world.trace
  noLeak : NoLeak world.trace

/-! ## One event -/

variable {client : Client} {world next : World} {phase : Phase} {added : List Output}

theorem quarantine_fresh (autocommit : Bool) : Quarantine (World.fresh autocommit) .idle where
  unfailed := by simp [Phase.unfinished]
  bounded := by simp [Phase.unfinished]
  failedBounded := by simp [Failed, World.fresh]
  stays := List.Pairwise.nil
  noLeak := by simp [NoLeak, World.fresh]

/-- A step that completes nothing. -/
theorem Quarantine.quiet {calls : List Call} {phase' : Phase} (hworld : Quarantine world phase)
    (hsubmits : Submits calls world next added) (hcompleted : completions added = [])
    (hunfinished : ∀ batch ∈ phase'.unfinished next,
      batch ∈ phase.unfinished world ∨ batch ∈ submittedBatches added)
    (hnew : ∀ batch ∈ submittedBatches added, ∀ tx, batch.tx = some tx → ¬ Failed tx world.trace)
    (hsent : ∀ op ∈ executedOps added, ∃ batch ∈ phase'.unfinished next, op.tx = batch.tx) :
    Quarantine next phase' := by
  have hsame (tx : ℕ) : Failed tx next.trace ↔ Failed tx world.trace := by
    rw [hsubmits.trace, failed_append]
    simp [Failed, hcompleted]
  have hunfailed : ∀ batch ∈ phase'.unfinished next, ∀ tx, batch.tx = some tx →
      ¬ Failed tx next.trace := by
    intro batch hbatch tx htx
    rw [hsame]
    rcases hunfinished batch hbatch with hold | hadded
    · exact hworld.unfailed batch hold tx htx
    · exact hnew batch hadded tx htx
  refine ⟨hunfailed, ?_, ?_, ?_, ?_⟩
  · intro batch hbatch tx htx
    rcases hunfinished batch hbatch with hold | hadded
    · exact (hworld.bounded batch hold tx htx).trans hsubmits.transactions
    · exact (hsubmits.batchTx batch hadded tx htx).2
  · intro tx hfailed
    exact (hworld.failedBounded tx ((hsame tx).mp hfailed)).trans hsubmits.transactions
  · have htrace := hsubmits.trace
    rw [htrace]
    refine hworld.stays.append (fun op hop tx htx => ?_) (by simp [hcompleted]) (by simp [hcompleted])
    obtain ⟨batch, hbatch, heq⟩ := hsent op hop
    rw [← htrace]
    exact hunfailed batch hbatch tx (heq ▸ htx)
  · rw [hsubmits.trace]
    exact hworld.noLeak.append (by simp [NoLeak, hcompleted])

/-- The batches that a list of calls submits, in a transaction that did not fail
or after leaving it, do not belong to a failed transaction. -/
theorem Quarantine.not_failed_of_submitted {calls : List Call} (hworld : Quarantine world phase)
    (hsubmits : Submits calls world next added)
    (hcalls : ∀ tx, world.tx = some tx → Failed tx world.trace → Departs calls) :
    ∀ batch ∈ submittedBatches added, ∀ tx, batch.tx = some tx → ¬ Failed tx world.trace := by
  intro batch hbatch tx htx hfailed
  have hbound := hworld.failedBounded tx hfailed
  rcases (hsubmits.batchTx batch hbatch tx htx).1 with hcurrent | hlater
  · have hlater := (hsubmits.departs (hcalls tx hcurrent hfailed)).1 batch hbatch tx htx
    omega
  · omega

/-- Calls only add the batches they submit. -/
theorem mem_unfinished_of_busy {calls : List Call} (hbusy : Busy calls world next added) :
    ∀ batch ∈ phase.unfinished next,
      batch ∈ phase.unfinished world ∨ batch ∈ submittedBatches added := by
  have hpending := congrArg Handler.pendingBatches hbusy.handler
  cases phase with
  | idle => simp [Phase.unfinished]
  | beginning batch => simp [Phase.unfinished]
  | running batch index =>
      simp only [Phase.unfinished, hpending, List.mem_cons, List.mem_append]
      tauto

/-- The completions that the answer to an operation adds. -/
structure Completes (batch : Batch) (failed : Bool) (added : List Output) : Prop where
  member : ∀ completion ∈ completions added, completion.1.tx = batch.tx
  failed : ∀ completion ∈ completions added, completion.2 ≠ .success → failed = true
  within : (completions added).Pairwise fun _ later => later.2 ≠ .success
  noLeak : NoLeak added

theorem Advances.completes {batch : Batch} {index : ℕ} {failed : Bool} {error : Option Operation}
    (hadvances : Advances batch index failed error next added) : Completes batch failed added where
  member := by simp [hadvances.completed]
  failed := by simp [hadvances.completed]
  within := by simp [hadvances.completed]
  noLeak := by simp [NoLeak, hadvances.completed]

/-- A batch that ends with an old error in the handler has no operation left. -/
theorem Finishes.completes {batch : Batch} {index : ℕ} {failed : Bool} {error : Option Operation}
    {started : List Batch} (hfinishes : Finishes batch index failed error started next added)
    (hold : failed = false → error ≠ none → index + 1 = batch.size) :
    Completes batch failed added := by
  have hcompleted := hfinishes.completed
  have hmember : ∀ completion ∈ completions added, completion.1.tx = batch.tx := by
    intro completion hmem
    rw [hcompleted, List.mem_cons, List.mem_map] at hmem
    rcases hmem with rfl | ⟨op, hop, rfl⟩
    · rfl
    · exact Batch.tx_of_mem_list (List.mem_of_mem_drop hop)
  cases hfailed : failed with
  | true =>
      rw [hfailed] at hcompleted
      refine ⟨hmember, fun _ _ _ => rfl, ?_, ?_⟩
      · rw [hcompleted, List.pairwise_cons, List.pairwise_map, List.forall_mem_map]
        exact ⟨fun _ _ => nofun, List.pairwise_of_forall fun _ _ => nofun⟩
      · intro op cause hmem
        simp only [hcompleted, if_true, Option.getD_some, List.mem_cons, Prod.mk.injEq, reduceCtorEq,
          and_false, List.mem_map, Outcome.rolledBack.injEq, false_or] at hmem
        obtain ⟨op', hop, rfl, rfl⟩ := hmem
        exact .inl (Batch.batch_of_mem_list (List.mem_of_mem_drop hop))
  | false =>
      have hlast : index + 1 = batch.size := by
        rcases hfinishes.cause with htrue | herror | hlast
        · exact absurd (hfailed.symm.trans htrue) (by simp)
        · exact hold hfailed herror
        · exact hlast
      have hdrop : batch.list.drop (index + 1) = [] := List.drop_of_length_le (by simp [hlast])
      rw [hdrop, hfailed] at hcompleted
      exact ⟨hmember, by simp [hcompleted], by simp [hcompleted], by simp [NoLeak, hcompleted]⟩

/-- The answer to an operation, given what it completes, what it sends and which
batches it leaves unfinished. -/
theorem Quarantine.completes {batch : Batch} {index : ℕ} {failed : Bool} {calls : List Call}
    {phase' : Phase} (hworld : Quarantine world (.running batch index))
    (hsubmits : Submits calls world next added) (hcompletes : Completes batch failed added)
    (hpending : failed = true → ∀ tx ∈ batch.tx, ∀ pending ∈ world.handler.pendingBatches,
      pending.tx ≠ some tx)
    (hcalls : ∀ tx ∈ world.tx, Failed tx world.trace ∨ failed = true ∧ batch.tx = some tx →
      Departs calls)
    (hunfinished : ∀ pending ∈ phase'.unfinished next, (pending = batch ∧ failed = false) ∨
      pending ∈ world.handler.pendingBatches ∨ pending ∈ submittedBatches added)
    (hsent : ∀ op ∈ executedOps added, ∃ pending ∈ phase'.unfinished next, op.tx = pending.tx) :
    Quarantine next phase' := by
  have hbatch : batch ∈ Phase.unfinished world (.running batch index) := List.mem_cons_self
  have hold (pending : Batch) (hmem : pending ∈ world.handler.pendingBatches) :
      pending ∈ Phase.unfinished world (.running batch index) := List.mem_cons_of_mem _ hmem
  have hfailing (tx : ℕ) (h : Failed tx added) : failed = true ∧ batch.tx = some tx := by
    obtain ⟨completion, hmem, htx, hne⟩ := h
    exact ⟨hcompletes.failed completion hmem hne, hcompletes.member completion hmem ▸ htx⟩
  have hbound (tx : ℕ) (h : Failed tx next.trace) : tx ≤ world.transactions := by
    rw [hsubmits.trace, failed_append] at h
    rcases h with h | h
    · exact hworld.failedBounded tx h
    · exact hworld.bounded batch hbatch tx (hfailing tx h).2
  have hunfailed : ∀ pending ∈ phase'.unfinished next, ∀ tx, pending.tx = some tx →
      ¬ Failed tx next.trace := by
    intro pending hmem tx htx hfailed
    have hle := hbound tx hfailed
    rw [hsubmits.trace, failed_append] at hfailed
    rcases hunfinished pending hmem with ⟨rfl, hsuccess⟩ | hpend | hnew
    · rcases hfailed with h | h
      · exact hworld.unfailed _ hbatch tx htx h
      · simp [hsuccess] at hfailing
        exact hfailing tx h
    · rcases hfailed with h | h
      · exact hworld.unfailed pending (hold pending hpend) tx htx h
      · obtain ⟨hfail, hbatchTx⟩ := hfailing tx h
        exact hpending hfail tx hbatchTx pending hpend htx
    · rcases (hsubmits.batchTx pending hnew tx htx).1 with hcurrent | hlater
      · have hdeparts := hcalls tx hcurrent (hfailed.imp_right (hfailing tx))
        have hlater := (hsubmits.departs hdeparts).1 pending hnew tx htx
        omega
      · omega
  refine ⟨hunfailed, ?_, fun tx h => (hbound tx h).trans hsubmits.transactions, ?_, ?_⟩
  · intro pending hmem tx htx
    rcases hunfinished pending hmem with ⟨rfl, -⟩ | hpend | hnew
    · exact (hworld.bounded _ hbatch tx htx).trans hsubmits.transactions
    · exact (hworld.bounded pending (hold pending hpend) tx htx).trans hsubmits.transactions
    · exact (hsubmits.batchTx pending hnew tx htx).2
  · rw [hsubmits.trace]
    refine hworld.stays.append ?_ ?_ hcompletes.within
    · intro op hop tx htx
      obtain ⟨pending, hmem, heq⟩ := hsent op hop
      rw [← hsubmits.trace]
      exact hunfailed pending hmem tx (heq ▸ htx)
    · intro completion hmem _ tx htx
      exact hworld.unfailed batch hbatch tx (hcompletes.member completion hmem ▸ htx)
  · rw [hsubmits.trace]
    exact hworld.noLeak.append hcompletes.noLeak

/-- The operation in flight is answered. -/
theorem Quarantine.answered_operation {batch : Batch} {index : ℕ}
    (hworld : Quarantine world (.running batch index))
    (hphase : Phase.Holds world (.running batch index)) (hclient : client.Positive) (failed : Bool)
    (hcontained : Contained client world (.answer (.operation (batch.op index)) failed)) :
    ∃ phase, phase.Holds (world.answered client (.operation (batch.op index)) failed) ∧
      Quarantine (world.answered client (.operation (batch.op index)) failed) phase := by
  obtain ⟨calls, started, added, hcontinues, hends⟩ :=
    Transaction.answered_operation hphase hclient failed
  obtain ⟨-, hnumber, hindex, hcurrent, hexecuted, hlist, hcallback, -, -⟩ := hphase
  obtain ⟨-, hold, hpending, hcalls⟩ := hcontained
  have hlength : world.handler.executedOperations.length = index := by
    rw [hexecuted, List.length_take, Batch.length_list]
    omega
  rw [hlength, hnumber] at hold
  have hanswerCalls : client (.operation (batch.op index)) ++ calls =
      answerCalls client world (batch.op index) failed := by
    unfold answerCalls
    congr 1
    rw [hlength, hnumber, hlist, hcurrent, hcallback]
    rcases hends with ⟨rfl, -, hadvances⟩ | ⟨rfl, hfinishes⟩
    · have hmore := hadvances.more
      rw [if_neg]
      rintro (hfailed | herror | hlast)
      · simp [hadvances.success] at hfailed
      · exact herror hadvances.clean
      · omega
    · rw [if_pos hfinishes.cause]
      rfl
  rw [← hanswerCalls] at hcalls
  rcases hends with ⟨-, rfl, hadvances⟩ | ⟨-, hfinishes⟩
  · refine ⟨_, hadvances.holds, hworld.completes hcontinues.toSubmits hadvances.completes hpending
      hcalls ?_ ?_⟩
    · intro pending hmem
      rcases List.mem_cons.mp hmem with rfl | hmem
      · exact .inl ⟨rfl, hadvances.success⟩
      · have hqueue := hcontinues.pending
        rw [List.nil_append] at hqueue
        rw [← hqueue, List.mem_append] at hmem
        exact .inr hmem
    · intro op hop
      rw [hadvances.executed, List.mem_singleton] at hop
      exact ⟨batch, List.mem_cons_self, by rw [hop, Batch.op_tx]⟩
  · have hcompletes := hfinishes.completes hold
    rcases hfinishes.next with ⟨rfl, hsent, hidle, -⟩ | ⟨next, rfl, hsent, hrunning, -⟩
    · refine ⟨.idle, hidle, hworld.completes hcontinues.toSubmits hcompletes hpending hcalls ?_ ?_⟩
      · simp [Phase.unfinished]
      · simp [hsent]
    · refine ⟨.running next 0, hrunning, hworld.completes hcontinues.toSubmits hcompletes hpending
        hcalls ?_ ?_⟩
      · intro pending hmem
        have hqueue := hcontinues.pending
        rw [List.singleton_append] at hqueue
        rw [Phase.unfinished, ← hqueue, List.mem_append] at hmem
        exact .inr hmem
      · intro op hop
        rw [hsent, List.mem_singleton] at hop
        exact ⟨next, List.mem_cons_self, by rw [hop, Batch.op_tx]⟩

/-- One event. -/
theorem Quarantine.step {event : Event} (hworld : Quarantine world phase)
    (hphase : phase.Holds world) (hclient : client.Positive)
    (hcontained : Contained client world event) (hstep : step client world event = some next) :
    ∃ phase, phase.Holds next ∧ Quarantine next phase := by
  cases event with
  | call call =>
      obtain rfl : world.call call = next := Option.some.inj hstep
      by_cases hquiet : ∀ size, call ≠ .execute size
      · obtain ⟨added, hbusy⟩ := busy_call world call (.inl hquiet)
        have hnone : executeSizes [call] = [] := by
          cases call <;> simp_all [executeSizes]
        have hempty : submittedBatches added = [] := by
          rw [← List.map_eq_nil_iff (f := Batch.size), hbusy.sizes, hnone]
        exact ⟨phase, hphase.busy hbusy (by simp [hnone]) (.inl hnone),
          hworld.quiet hbusy.toSubmits hbusy.completed (mem_unfinished_of_busy hbusy)
            (by simp [hempty]) (by simp [hbusy.executed])⟩
      push Not at hquiet
      obtain ⟨size, rfl⟩ := hquiet
      obtain ⟨⟨hsize, hbegin⟩, hunfailed⟩ := hcontained
      have hnew {added : List Output} (hsubmits : Submits [.execute size] world
          (world.execute size) added) := hworld.not_failed_of_submitted hsubmits
        fun tx htx hfailed => absurd hfailed (hunfailed tx htx)
      cases phase with
      | idle =>
          rcases Transaction.execute_idle hphase hsize with
            ⟨-, hbeginning, hsubmits⟩ | ⟨-, hrunning, hpending, hsubmits⟩
          · exact ⟨_, hbeginning, hworld.quiet hsubmits rfl (by simp [Phase.unfinished])
              (hnew hsubmits) (by simp)⟩
          · change (world.call (.execute size)).handler.pendingBatches = [] at hpending
            exact ⟨_, hrunning, hworld.quiet hsubmits rfl (by simp [Phase.unfinished, hpending])
              (hnew hsubmits) (by simp [Phase.unfinished])⟩
      | beginning batch =>
          have hmem : Query.begin ∈ world.work := by simp [hphase.2.2.2.2.2.2.2]
          exact absurd (List.mem_of_mem_filter hmem) hbegin
      | running batch index =>
          obtain ⟨added, hbusy⟩ := busy_call world (.execute size)
            (.inr ⟨hphase.1, hphase.2.2.1.pos.trans_eq hphase.2.1.symm⟩)
          exact ⟨_, hphase.busy hbusy (by simpa [executeSizes] using hsize)
            (.inr ⟨batch, index, rfl⟩), hworld.quiet hbusy.toSubmits hbusy.completed
              (mem_unfinished_of_busy hbusy) (hnew hbusy.toSubmits) (by simp [hbusy.executed])⟩
  | answer query failed =>
      simp only [Transaction.step, Option.ite_none_right_eq_some, Option.some.injEq] at hstep
      obtain ⟨hquery, rfl⟩ := hstep
      rcases hphase.answer hquery with
        ⟨rfl, batch, rfl⟩ | ⟨batch, index, rfl, rfl⟩ | hquiet
      · have hcalls : executeSizes (beginCalls client batch failed) = [] := by
          cases failed with
          | false => rfl
          | true =>
              have hnone := hcontained.1 rfl
              rwa [hphase.2.2.2.2.2.1] at hnone
        obtain ⟨added, hsubmits, hnone, hsent, hcompleted, -, hrunning, hpending, -⟩ :=
          answered_begin hphase hcalls
        exact ⟨_, hrunning, hworld.quiet hsubmits hcompleted (by simp [Phase.unfinished, hpending])
          (by simp [hnone]) (by simp [hsent, Phase.unfinished])⟩
      · exact hworld.answered_operation hphase hclient failed hcontained
      · have hbusy : Busy [] world (world.answered client _ failed) [] := answered_quiet hquiet failed
        exact ⟨phase, hphase.busy hbusy (by simp [executeSizes]) (.inl rfl),
          hworld.quiet hbusy.toSubmits rfl (mem_unfinished_of_busy hbusy) (by simp) (by simp)⟩

/-! ## Runs -/

/-- In every run whose events do not meet the one error field, failed transactions
stay failed. -/
theorem staysFailed_of_contained {client : Client} {autocommit : Bool} {events : List Event}
    {final : World} (hclient : client.Positive)
    (hcontained : Guarded (step client) (Contained client) (World.fresh autocommit) events)
    (hrun : run (step client) (World.fresh autocommit) events = some final) :
    StaysFailed final := by
  obtain ⟨finished, phase, haccounts, hquarantine⟩ := invariant_of_guarded
    (fun world => ∃ finished phase,
      Accounts False world finished phase ∧ Quarantine world phase)
    (fun world event next hworld hcontained hstep => by
      obtain ⟨finished, phase, haccounts, hquarantine⟩ := hworld
      obtain ⟨finished', phase', haccounts'⟩ :=
        haccounts.step hclient hcontained.1 False.elim hstep
      obtain ⟨phase'', hholds, hquarantine'⟩ :=
        hquarantine.step haccounts.holds hclient hcontained hstep
      obtain rfl := haccounts'.holds.unique hholds
      exact ⟨finished', _, haccounts', hquarantine'⟩)
    ⟨[], .idle, accounts_fresh autocommit, quarantine_fresh autocommit⟩ hcontained hrun
  exact ⟨hquarantine.stays, hquarantine.noLeak,
    fun hwork op hop _ _ _ => (haccounts.completed_all hwork).symm ▸ hop⟩

/-- The second operation of three fails; the user rolls back and goes on. -/
theorem staysFailed_of_contained_rollback :
    ∃ final, run (step passive) (World.fresh false)
        [.call (.execute 3), .answer .begin false, .answer (.operation ⟨0, 0, some 0⟩) false,
          .answer (.operation ⟨0, 1, some 0⟩) true, .call .rollback, .answer .rollback false,
          .call .begin, .call (.execute 1), .answer (.operation ⟨1, 0, some 1⟩) false] =
        some final ∧ StaysFailed final :=
  ⟨_, rfl, @staysFailed_of_contained passive false
    [.call (.execute 3), .answer .begin false, .answer (.operation ⟨0, 0, some 0⟩) false,
      .answer (.operation ⟨0, 1, some 0⟩) true, .call .rollback, .answer .rollback false,
      .call .begin, .call (.execute 1), .answer (.operation ⟨1, 0, some 1⟩) false]
    _ positive_passive (by decide) rfl⟩

/-- A batch submitted after an operation of its transaction failed is sent to the
server. -/
theorem not_staysFailed_of_later_batch :
    ¬ ∀ (client : Client) (autocommit : Bool) (events : List Event) (final : World),
      client.Positive → run (step client) (World.fresh autocommit) events = some final →
        StaysFailed final := by
  intro hclaim
  have hfinal := hclaim passive false
    [.call (.execute 2), .answer .begin false, .answer (.operation ⟨0, 0, some 0⟩) true,
      .call (.execute 2)] _ positive_passive rfl
  have hpair := hfinal.stays.sublist (show List.Sublist [.completed ⟨0, 0, some 0⟩ .failed,
    .sent (.operation ⟨1, 0, some 0⟩)] _ by decide)
  exact (List.pairwise_cons.mp hpair).1 _ (List.mem_singleton_self _) 0 ⟨rfl, nofun⟩ rfl

end DatabaseJones.Transaction
