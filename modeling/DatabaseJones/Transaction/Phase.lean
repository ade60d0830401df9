import DatabaseJones.Transaction.Trace

/-!
# What the handler can be doing

While no two batches wait for `begin`, the handler is idle, waits for the answer
to `begin`, or runs one batch with exactly one of its operations in flight.
`Phase` names the three and `Phase.Holds` says what the fields of the handler are
in each.

`Submits` is what any list of calls does to the trace and to the transaction the
user is in.  The events that do not answer an operation are treated here; the
answer to an operation is the subject of `Completion.lean`.
-/

namespace DatabaseJones.Transaction

/-! ## Phases -/

/-- Idle, waiting for `begin` with a batch to run, or running the operation at
place `index` of a batch. -/
inductive Phase
  | idle
  | beginning (batch : Batch)
  | running (batch : Batch) (index : ℕ)

/-- What the fields of the handler are in a phase. -/
def Phase.Holds (world : World) : Phase → Prop
  | .idle =>
      world.handler.numberOfOperations = 0 ∧ world.handler.executedOperations = [] ∧
        world.handler.pendingBatches = [] ∧ world.work = []
  | .beginning batch =>
      world.handler.firstTime = true ∧ world.handler.numberOfOperations = 0 ∧
        world.handler.executedOperations = [] ∧ world.handler.pendingBatches = [] ∧
        world.handler.operationsList = batch.list ∧
        world.handler.transactionExecuteCallback = batch.number ∧
        0 < batch.size ∧ world.work = [.begin]
  | .running batch index =>
      world.handler.firstTime = false ∧ world.handler.numberOfOperations = batch.size ∧
        index < batch.size ∧ world.handler.currentOperation = index ∧
        world.handler.executedOperations = batch.list.take index ∧
        world.handler.operationsList = batch.list ∧
        world.handler.transactionExecuteCallback = batch.number ∧
        (∀ pending ∈ world.handler.pendingBatches, 0 < pending.size) ∧
        world.work = [.operation (batch.op index)]

/-- Batches are numbered in the order they are submitted. -/
def World.Numbered (world : World) : Prop :=
  (submittedBatches world.trace).map Batch.number = List.range world.submissions

/-! ## Calls -/

/-- The batch sizes of the `execute` calls in a list of calls. -/
def executeSizes (calls : List Call) : List ℕ :=
  calls.filterMap fun call => match call with
    | .execute size => some size
    | .begin => none
    | .commit => none
    | .rollback => none

@[simp] theorem executeSizes_append (first second : List Call) :
    executeSizes (first ++ second) = executeSizes first ++ executeSizes second :=
  List.filterMap_append

/-- The calls do not start with an `execute` call: whatever they execute, they
have left the transaction they were made in. -/
def Departs (calls : List Call) : Prop := ∀ size, calls.head? ≠ some (.execute size)

instance : DecidablePred Departs
  | [] => .isTrue (by simp [Departs])
  | .execute size :: calls => .isFalse (by simp [Departs])
  | .begin :: calls => .isTrue (by simp [Departs])
  | .commit :: calls => .isTrue (by simp [Departs])
  | .rollback :: calls => .isTrue (by simp [Departs])

/-- What a list of calls does to the trace, and which transactions the batches it
submits belong to. -/
structure Submits (calls : List Call) (before after : World) (added : List Output) : Prop where
  trace : after.trace = before.trace ++ added
  numbered : before.Numbered → after.Numbered
  sizes : (submittedBatches added).map Batch.size = executeSizes calls
  transactions : before.transactions ≤ after.transactions
  tx : ∀ tx, after.tx = some tx → before.tx = some tx ∨ before.transactions < tx
  batchTx : ∀ batch ∈ submittedBatches added, ∀ tx, batch.tx = some tx →
    (before.tx = some tx ∨ before.transactions < tx) ∧ tx ≤ after.transactions
  departs : Departs calls → (∀ batch ∈ submittedBatches added, ∀ tx, batch.tx = some tx →
    before.transactions < tx) ∧ (calls ≠ [] → ∀ tx, after.tx = some tx → before.transactions < tx)

variable {before middle after world : World} {added more : List Output}

/-- Nothing is submitted, and the transaction stays. -/
theorem Submits.quiet (htrace : after.trace = before.trace ++ added)
    (hsubmitted : submittedBatches added = []) (hsubmissions : after.submissions = before.submissions)
    (htransactions : after.transactions = before.transactions) (htx : after.tx = before.tx) :
    Submits [] before after added where
  trace := htrace
  numbered := by
    intro hnumbered
    rw [World.Numbered, htrace, submittedBatches_append, hsubmitted, List.append_nil, hsubmissions]
    exact hnumbered
  sizes := by simp [hsubmitted, executeSizes]
  transactions := htransactions.ge
  tx := fun tx h => .inl (htx ▸ h)
  batchTx := by simp [hsubmitted]
  departs := by simp [hsubmitted]

theorem Submits.trans {first second : List Call} (h₁ : Submits first before middle added)
    (h₂ : Submits second middle after more) :
    Submits (first ++ second) before after (added ++ more) where
  trace := by rw [h₂.trace, h₁.trace, List.append_assoc]
  numbered := fun hbefore => h₂.numbered (h₁.numbered hbefore)
  sizes := by simp [h₁.sizes, h₂.sizes]
  transactions := h₁.transactions.trans h₂.transactions
  tx := by
    intro tx htx
    rcases h₂.tx tx htx with hmiddle | hlater
    · exact h₁.tx tx hmiddle
    · exact .inr (h₁.transactions.trans_lt hlater)
  batchTx := by
    intro batch hbatch tx htx
    rw [submittedBatches_append, List.mem_append] at hbatch
    rcases hbatch with hbatch | hbatch
    · obtain ⟨hwhich, hle⟩ := h₁.batchTx batch hbatch tx htx
      exact ⟨hwhich, hle.trans h₂.transactions⟩
    · obtain ⟨hmiddle | hlater, hle⟩ := h₂.batchTx batch hbatch tx htx
      · exact ⟨h₁.tx tx hmiddle, hle⟩
      · exact ⟨.inr (h₁.transactions.trans_lt hlater), hle⟩
  departs := by
    intro hdeparts
    cases first with
    | nil =>
        have hnone : submittedBatches added = [] := by
          rw [← List.map_eq_nil_iff (f := Batch.size), h₁.sizes]
          rfl
        obtain ⟨hbatches, hafter⟩ := h₂.departs hdeparts
        rw [submittedBatches_append, hnone, List.nil_append]
        exact ⟨fun batch hbatch tx htx => h₁.transactions.trans_lt (hbatches batch hbatch tx htx),
          fun hne tx htx => h₁.transactions.trans_lt (hafter hne tx htx)⟩
    | cons call first =>
        obtain ⟨hbatches, hmiddle⟩ := h₁.departs hdeparts
        have hlater (tx : ℕ) (htx : middle.tx = some tx ∨ middle.transactions < tx) :
            before.transactions < tx :=
          htx.elim (hmiddle (List.cons_ne_nil _ _) tx) h₁.transactions.trans_lt
        refine ⟨fun batch hbatch tx htx => ?_, fun _ tx htx => hlater tx (h₂.tx tx htx)⟩
        rw [submittedBatches_append, List.mem_append] at hbatch
        rcases hbatch with hbatch | hbatch
        · exact hbatches batch hbatch tx htx
        · exact hlater tx (h₂.batchTx batch hbatch tx htx).1

theorem World.tx_eq_some {tx : ℕ} (htx : world.tx = some tx) : tx = world.transactions := by
  unfold World.tx at htx
  split_ifs at htx
  exact (Option.some.inj htx).symm

/-- Two worlds agree on the counters, and on what the handler remembers of errors
and transactions. -/
structure Frame (before after : World) : Prop where
  submissions : after.submissions = before.submissions
  error : after.handler.error = before.handler.error
  autocommit : after.handler.autocommit = before.handler.autocommit
  transactions : after.transactions = before.transactions

theorem Frame.tx (hframe : Frame before after) : after.tx = before.tx := by
  rw [World.tx, World.tx, hframe.autocommit, hframe.transactions]

theorem executeOperations_frame (world : World) : Frame world world.executeOperations := by
  unfold World.executeOperations
  cases hlist : world.handler.operationsList[0]? <;> simp only [hlist] <;> exact ⟨rfl, rfl, rfl, rfl⟩

/-- `execute` names the batch and never touches the recorded error. -/
theorem execute_frame (world : World) (size : ℕ) :
    Frame { world with submissions := world.submissions + 1 } (world.execute size) := by
  simp only [World.execute]
  split_ifs with hfirst hrunning
  · exact ⟨rfl, rfl, rfl, rfl⟩
  · exact ⟨rfl, rfl, rfl, rfl⟩
  · obtain ⟨hsubmissions, herror, hautocommit, htransactions⟩ := executeOperations_frame { world with
      submissions := world.submissions + 1
      trace := world.trace ++ [.submitted ⟨world.submissions, size, world.tx⟩]
      handler := { world.handler with
        operationsList := Batch.list ⟨world.submissions, size, world.tx⟩
        transactionExecuteCallback := world.submissions } }
    exact ⟨hsubmissions, herror, hautocommit, htransactions⟩

/-- The batch that the next `execute` call submits. -/
def World.nextBatch (world : World) (size : ℕ) : Batch := ⟨world.submissions, size, world.tx⟩

theorem submits_execute {size : ℕ} (htrace : (world.execute size).trace = world.trace ++ added)
    (hadded : submittedBatches added = [world.nextBatch size]) :
    Submits [.execute size] world (world.execute size) added where
  trace := htrace
  numbered := by
    intro hnumbered
    rw [World.Numbered, htrace, submittedBatches_append, hadded, List.map_append, hnumbered,
      (execute_frame world size).submissions, List.range_succ]
    rfl
  sizes := by simp [hadded, executeSizes, World.nextBatch]
  transactions := (execute_frame world size).transactions.ge
  tx := fun tx htx => .inl ((execute_frame world size).tx ▸ htx)
  batchTx := by
    intro batch hbatch tx htx
    rw [hadded, List.mem_singleton] at hbatch
    subst hbatch
    rw [(execute_frame world size).transactions]
    exact ⟨.inl htx, (World.tx_eq_some htx).le⟩
  departs := by
    intro hdeparts
    exact absurd rfl (hdeparts size)

/-- The calls `begin`, `commit` and `rollback` on any handler, and `execute` calls
on one that is running a batch: batches are put behind the running one, and
nothing else that matters is done to the handler. -/
structure Busy (calls : List Call) (before after : World) (added : List Output) : Prop
    extends Submits calls before after added where
  handler : after.handler = { before.handler with
    autocommit := after.handler.autocommit
    pendingBatches := before.handler.pendingBatches ++ submittedBatches added }
  work : after.work = before.work
  executed : executedOps added = []
  completed : completions added = []
  called : calledBack added = []

theorem Busy.refl (world : World) : Busy [] world world [] where
  toSubmits := .quiet (List.append_nil _).symm rfl rfl rfl rfl
  handler := by simp
  work := rfl
  executed := rfl
  completed := rfl
  called := rfl

theorem Busy.trans {first second : List Call} (h₁ : Busy first before middle added)
    (h₂ : Busy second middle after more) : Busy (first ++ second) before after (added ++ more) where
  toSubmits := h₁.toSubmits.trans h₂.toSubmits
  handler := by
    rw [h₂.handler, h₁.handler]
    simp
  work := h₂.work.trans h₁.work
  executed := by simp [h₁.executed, h₂.executed]
  completed := by simp [h₁.completed, h₂.completed]
  called := by simp [h₁.called, h₂.called]

/-- One call. -/
theorem busy_call (world : World) (call : Call)
    (hcall : (∀ size, call ≠ .execute size) ∨
      world.handler.firstTime = false ∧ 0 < world.handler.numberOfOperations) :
    ∃ added, Busy [call] world (world.call call) added := by
  cases call with
  | execute size =>
      obtain ⟨hfirst, hrunning⟩ := hcall.resolve_left fun h => h size rfl
      have htrace : (world.execute size).trace = world.trace ++ [.submitted (world.nextBatch size)] := by
        simp [World.execute, World.emit, hfirst, hrunning, World.nextBatch]
      refine ⟨_, submits_execute htrace rfl, ?_, ?_, rfl, rfl, rfl⟩
      · simp [World.call, World.execute, World.emit, hfirst, hrunning, World.nextBatch]
      · simp [World.call, World.execute, World.emit, World.work, hfirst, hrunning]
  | begin =>
      refine ⟨[], ⟨?_, id, rfl, ?_, ?_, by simp, ?_⟩, ?_, rfl, rfl, rfl, rfl⟩
      · exact (List.append_nil _).symm
      · exact Nat.le_succ _
      · simp [World.call, World.begin, World.tx]
      · simp [World.call, World.begin, World.tx]
      · simp [World.call, World.begin]
  | commit =>
      refine ⟨[.sent .commit], ⟨rfl, ?_, rfl, le_refl _, ?_, by simp, ?_⟩, ?_, ?_, rfl, rfl, rfl⟩
      · simp [World.call, World.commit, World.send, World.Numbered]
      · simp [World.call, World.commit, World.send, World.tx]
      · simp [World.call, World.commit, World.send, World.tx]
      · simp [World.call, World.commit, World.send]
      · simp [World.call, World.commit, World.send, World.work]
  | rollback =>
      refine ⟨[.sent .rollback], ⟨rfl, ?_, rfl, le_refl _, ?_, by simp, ?_⟩, ?_, ?_, rfl, rfl, rfl⟩
      · simp [World.call, World.rollback, World.send, World.Numbered]
      · simp [World.call, World.rollback, World.send, World.tx]
      · simp [World.call, World.rollback, World.send, World.tx]
      · simp [World.call, World.rollback, World.send]
      · simp [World.call, World.rollback, World.send, World.work]

/-- A list of calls. -/
theorem busy_calls (calls : List Call) (world : World)
    (hcalls : executeSizes calls = [] ∨
      world.handler.firstTime = false ∧ 0 < world.handler.numberOfOperations) :
    ∃ added, Busy calls world (calls.foldl World.call world) added := by
  induction calls generalizing world with
  | nil => exact ⟨[], .refl world⟩
  | cons call calls ih =>
      have hhead : (∀ size, call ≠ .execute size) ∨
          world.handler.firstTime = false ∧ 0 < world.handler.numberOfOperations := by
        refine hcalls.imp_left fun hnone size heq => ?_
        simp [heq, executeSizes] at hnone
      obtain ⟨added, hcall⟩ := busy_call world call hhead
      have htail : executeSizes calls = [] ∨ (world.call call).handler.firstTime = false ∧
          0 < (world.call call).handler.numberOfOperations := by
        rw [hcall.handler]
        refine hcalls.imp_left fun hnone => ?_
        rw [← List.singleton_append, executeSizes_append] at hnone
        exact (List.append_eq_nil_iff.mp hnone).2
      obtain ⟨more, hrest⟩ := ih (world.call call) htail
      exact ⟨added ++ more, hcall.trans hrest⟩

/-- Calls that put only batches with operations behind the running one keep the
phase. -/
theorem Phase.Holds.busy {phase : Phase} {calls : List Call} (hphase : phase.Holds before)
    (hbusy : Busy calls before after added) (hsizes : ∀ size ∈ executeSizes calls, 0 < size)
    (hrunning : executeSizes calls = [] ∨ ∃ batch index, phase = .running batch index) :
    phase.Holds after := by
  have hpending : after.handler.pendingBatches =
      before.handler.pendingBatches ++ submittedBatches added := by rw [hbusy.handler]
  have hnew : executeSizes calls = [] → submittedBatches added = [] := fun hnone => by
    rw [← List.map_eq_nil_iff (f := Batch.size), hbusy.sizes, hnone]
  cases phase with
  | idle =>
      have hnone := hnew (hrunning.resolve_right (by simp))
      simp only [Phase.Holds] at hphase ⊢
      rw [hbusy.handler, hbusy.work, hnone, List.append_nil]
      exact hphase
  | beginning batch =>
      have hnone := hnew (hrunning.resolve_right (by simp))
      simp only [Phase.Holds] at hphase ⊢
      rw [hbusy.handler, hbusy.work, hnone, List.append_nil]
      exact hphase
  | running batch index =>
      obtain ⟨hfirst, hnumber, hindex, hcurrent, hexecuted, hlist, hcallback, hold, hwork⟩ := hphase
      simp only [Phase.Holds]
      rw [hbusy.handler, hbusy.work]
      refine ⟨hfirst, hnumber, hindex, hcurrent, hexecuted, hlist, hcallback, ?_, hwork⟩
      intro pending hmem
      rcases List.mem_append.mp hmem with hmem | hmem
      · exact hold pending hmem
      · refine hsizes pending.size ?_
        rw [← hbusy.sizes]
        exact List.mem_map_of_mem hmem

/-! ## Events that answer no operation -/

variable {client : Client} {batch : Batch}

theorem World.work_send (world : World) (query : Query) :
    (world.send query).work = world.work ++ World.work { world with inFlight := [query] } := by
  simp [World.work, World.send]

/-- An `execute` call on an idle handler. -/
theorem execute_idle {size : ℕ} (hphase : Phase.Holds world .idle) (hsize : 0 < size) :
    (world.handler.firstTime = true ∧
        Phase.Holds (world.execute size) (.beginning (world.nextBatch size)) ∧
        Submits [.execute size] world (world.execute size)
          [.submitted (world.nextBatch size), .sent .begin]) ∨
      (world.handler.firstTime = false ∧
        Phase.Holds (world.execute size) (.running (world.nextBatch size) 0) ∧
        (world.execute size).handler.pendingBatches = [] ∧
        Submits [.execute size] world (world.execute size)
          [.submitted (world.nextBatch size),
            .sent (.operation ((world.nextBatch size).op 0))]) := by
  obtain ⟨hnumber, hexecuted, hpending, hwork⟩ := hphase
  cases hfirst : world.handler.firstTime with
  | true =>
      refine .inl ⟨rfl, ?_, submits_execute ?_ rfl⟩
      · simp only [World.execute, World.emit, hfirst, if_true]
        refine ⟨rfl, hnumber, hexecuted, hpending, rfl, rfl, hsize, ?_⟩
        rw [World.work_send]
        exact congrArg (· ++ [Query.begin]) hwork
      · simp [World.execute, World.emit, hfirst, World.send, World.nextBatch]
  | false =>
      have hop := (world.nextBatch size).getElem?_list hsize
      have hexecute : world.execute size = World.send { world with
          submissions := world.submissions + 1
          trace := world.trace ++ [.submitted (world.nextBatch size)]
          handler := { world.handler with
            operationsList := (world.nextBatch size).list
            transactionExecuteCallback := (world.nextBatch size).number
            numberOfOperations := (world.nextBatch size).list.length
            currentOperation := 0 } } (.operation ((world.nextBatch size).op 0)) := by
        simp only [World.nextBatch] at hop ⊢
        simp [World.execute, World.emit, hfirst, hnumber, World.executeOperations, hop]
      refine .inr ⟨rfl, ?_, ?_, submits_execute ?_ rfl⟩
      · rw [hexecute]
        refine ⟨hfirst, Batch.length_list _, hsize, rfl, hexecuted, rfl, rfl, ?_, ?_⟩
        · simp [World.send, hpending]
        · rw [World.work_send]
          exact congrArg (· ++ [Query.operation _]) hwork
      · rw [hexecute]
        exact hpending
      · rw [hexecute]
        simp [World.send]

/-- The only statement of the handler in flight is no longer in flight. -/
theorem work_erase {query : Query} (hwork : world.work = [query]) :
    World.work { world with inFlight := world.inFlight.erase query } = [] := by
  unfold World.work at hwork ⊢
  rw [← List.erase_filter, hwork, List.erase_cons_head]

/-- `executeOperations` starts the batch that the handler holds. -/
theorem executeOperations_starts (batch : Batch) (world : World)
    (hfirst : world.handler.firstTime = false)
    (hlist : world.handler.operationsList = batch.list)
    (hcallback : world.handler.transactionExecuteCallback = batch.number)
    (hexecuted : world.handler.executedOperations = []) (hsize : 0 < batch.size)
    (hpending : ∀ pending ∈ world.handler.pendingBatches, 0 < pending.size)
    (hwork : world.work = []) :
    Phase.Holds world.executeOperations (.running batch 0) ∧
      world.executeOperations.handler.pendingBatches = world.handler.pendingBatches ∧
      Submits [] world world.executeOperations [.sent (.operation (batch.op 0))] := by
  have hexecute : world.executeOperations = World.send { world with
      handler := { world.handler with
        numberOfOperations := world.handler.operationsList.length
        currentOperation := 0 } } (.operation (batch.op 0)) := by
    simp [World.executeOperations, hlist, batch.getElem?_list hsize]
  have hframe := executeOperations_frame world
  refine ⟨?_, ?_, .quiet ?_ rfl hframe.submissions hframe.transactions hframe.tx⟩
  · rw [hexecute]
    refine ⟨hfirst, ?_, hsize, rfl, hexecuted, hlist, hcallback, hpending, ?_⟩
    · simp [World.send, hlist]
    · rw [World.work_send]
      exact congrArg (· ++ [Query.operation _]) hwork
  · rw [hexecute]
    rfl
  · rw [hexecute]
    rfl

/-- The calls that the answer to `begin` lets the user make. -/
def beginCalls (client : Client) (batch : Batch) (failed : Bool) : List Call :=
  if failed then client (.batch batch.number) else []

/-- The answer to `begin` starts the batch that waited for it, whether `begin`
failed or not, unless the callback of the batch makes an `execute` call. -/
theorem answered_begin {failed : Bool} (hphase : Phase.Holds world (.beginning batch))
    (hcalls : executeSizes (beginCalls client batch failed) = []) :
    ∃ added, Submits (beginCalls client batch failed) world
        (world.answered client .begin failed) added ∧
      submittedBatches added = [] ∧ executedOps added = [batch.op 0] ∧ completions added = [] ∧
      (failed = false → calledBack added = []) ∧
      Phase.Holds (world.answered client .begin failed) (.running batch 0) ∧
      (world.answered client .begin failed).handler.pendingBatches = [] ∧
      (world.answered client .begin failed).handler.error = world.handler.error := by
  obtain ⟨hfirst, hnumber, hexecuted, hpending, hlist, hcallback, hsize, hwork⟩ := hphase
  -- the callback of the batch, if it is called
  obtain ⟨called, added, hanswered, hsubmits, hhandler, hcalledWork, hexecutedOps, hcompleted,
      hcalled⟩ : ∃ called added,
      world.answered client .begin failed =
        World.executeOperations { called with handler := { called.handler with firstTime := false } } ∧
      Submits (beginCalls client batch failed) world called added ∧
      called.handler = { world.handler with autocommit := called.handler.autocommit } ∧
      called.work = [] ∧ executedOps added = [] ∧ completions added = [] ∧
      (failed = false → calledBack added = []) := by
    cases failed with
    | false =>
        exact ⟨{ world with inFlight := world.inFlight.erase .begin }, [], rfl,
          .quiet (List.append_nil _).symm rfl rfl rfl rfl, rfl, work_erase hwork, rfl, rfl,
          fun _ => rfl⟩
    | true =>
        set emitted := World.emit { world with inFlight := world.inFlight.erase .begin }
          (.batchCallback batch.number (some .beginFailed)) with hemitted
        obtain ⟨added, hbusy⟩ := busy_calls (client (.batch batch.number)) emitted (.inl hcalls)
        have hnone : submittedBatches added = [] := by
          rw [← List.map_eq_nil_iff (f := Batch.size), hbusy.sizes]
          exact hcalls
        have hemit : Submits [] world emitted [.batchCallback batch.number (some .beginFailed)] :=
          .quiet rfl rfl rfl rfl rfl
        refine ⟨_, .batchCallback batch.number (some .beginFailed) :: added, ?_,
          hemit.trans hbusy.toSubmits, ?_, hbusy.work.trans (work_erase hwork), ?_, ?_, nofun⟩
        · simp only [World.answered, World.executeOnBegin, World.callBatch, World.runCallback,
            if_true, hcallback, hemitted]
        · have hsame := hbusy.handler
          rw [hnone, List.append_nil] at hsame
          exact hsame
        · simpa using hbusy.executed
        · simpa using hbusy.completed
  have hnone : submittedBatches added = [] := by
    rw [← List.map_eq_nil_iff (f := Batch.size), hsubmits.sizes, hcalls]
  obtain ⟨hholds, hkept, hstarts⟩ := executeOperations_starts batch
    { called with handler := { called.handler with firstTime := false } } rfl
    (by rw [hhandler]; exact hlist) (by rw [hhandler]; exact hcallback)
    (by rw [hhandler]; exact hexecuted) hsize (by rw [hhandler]; simp [hpending]) hcalledWork
  have herror := (executeOperations_frame
    { called with handler := { called.handler with firstTime := false } }).error
  rw [← hanswered] at hholds hkept hstarts herror
  have hreset : Submits [] called
      { called with handler := { called.handler with firstTime := false } } [] :=
    .quiet (List.append_nil _).symm rfl rfl rfl rfl
  have hall := hsubmits.trans (hreset.trans hstarts)
  simp only [List.append_nil, List.nil_append] at hall
  refine ⟨_, hall, ?_, ?_, ?_, ?_, hholds, ?_, ?_⟩
  · simp [hnone]
  · simp [hexecutedOps]
  · simp [hcompleted]
  · intro hsuccess
    simp [hcalled hsuccess]
  · rw [hkept, hhandler]
    exact hpending
  · rw [herror, hhandler]

/-- The answer to `commit` and `rollback` concerns no batch. -/
theorem answered_quiet {query : Query} (hquery : query = .commit ∨ query = .rollback)
    (failed : Bool) : Busy [] world (world.answered client query failed) [] := by
  have hanswered : world.answered client query failed =
      { world with inFlight := world.inFlight.erase query } := by
    rcases hquery with rfl | rfl <;> rfl
  rw [hanswered]
  refine ⟨.quiet (List.append_nil _).symm rfl rfl rfl rfl, by simp, ?_, rfl, rfl, rfl⟩
  unfold World.work
  rw [← List.erase_filter]
  refine List.erase_of_not_mem ?_
  rcases hquery with rfl | rfl <;> simp

/-- A statement that is answered is the one the phase says, or it concerns no batch. -/
theorem Phase.Holds.answer {phase : Phase} (hphase : phase.Holds world) {query : Query}
    (hquery : query ∈ world.inFlight) :
    (query = .begin ∧ ∃ batch, phase = .beginning batch) ∨
      (∃ batch index, query = .operation (batch.op index) ∧ phase = .running batch index) ∨
      query = .commit ∨ query = .rollback := by
  by_cases hquiet : query = .commit ∨ query = .rollback
  · exact .inr (.inr hquiet)
  have hmem : query ∈ world.work := by
    cases query <;> simp_all [World.work]
  cases phase with
  | idle => simp [hphase.2.2.2] at hmem
  | beginning batch =>
      rw [hphase.2.2.2.2.2.2.2, List.mem_singleton] at hmem
      exact .inl ⟨hmem, batch, rfl⟩
  | running batch index =>
      rw [hphase.2.2.2.2.2.2.2.2, List.mem_singleton] at hmem
      exact .inr (.inl ⟨batch, index, hmem, rfl⟩)

theorem Batch.eq_of_list_eq {batch other : Batch} (hsize : 0 < batch.size)
    (hlist : batch.list = other.list) : batch = other := by
  have hsizes : batch.size = other.size := by
    rw [← Batch.length_list batch, hlist, Batch.length_list]
  have hfirst := batch.getElem?_list hsize
  rw [hlist, other.getElem?_list (hsizes ▸ hsize)] at hfirst
  obtain ⟨hnumber, -, htx⟩ := Operation.mk.inj (Option.some.inj hfirst)
  obtain ⟨number, size, tx⟩ := batch
  obtain ⟨number', size', tx'⟩ := other
  simp_all

/-- The fields of the handler and what is in flight determine the phase. -/
theorem Phase.Holds.unique {phase phase' : Phase} (hphase : phase.Holds world)
    (hphase' : phase'.Holds world) : phase = phase' := by
  cases phase with
  | idle =>
      have hwork := hphase.2.2.2
      cases phase' with
      | idle => rfl
      | beginning batch => simp [hphase'.2.2.2.2.2.2.2] at hwork
      | running batch index => simp [hphase'.2.2.2.2.2.2.2.2] at hwork
  | beginning batch =>
      have hwork := hphase.2.2.2.2.2.2.2
      cases phase' with
      | idle => simp [hphase'.2.2.2] at hwork
      | beginning other =>
          rw [Batch.eq_of_list_eq hphase.2.2.2.2.2.2.1
            (hphase.2.2.2.2.1.symm.trans hphase'.2.2.2.2.1)]
      | running other index => simp [hphase'.2.2.2.2.2.2.2.2] at hwork
  | running batch index =>
      have hwork := hphase.2.2.2.2.2.2.2.2
      cases phase' with
      | idle => simp [hphase'.2.2.2] at hwork
      | beginning other => simp [hphase'.2.2.2.2.2.2.2] at hwork
      | running other index' =>
          rw [Batch.eq_of_list_eq hphase.2.2.1.pos
            (hphase.2.2.2.2.2.1.symm.trans hphase'.2.2.2.2.2.1),
            ← hphase.2.2.2.1, ← hphase'.2.2.2.1]

end DatabaseJones.Transaction
