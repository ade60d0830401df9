import DatabaseJones.Transaction.Phase

/-!
# The answer to an operation

While a batch is running, exactly one of its operations is in flight.
`answered_operation` says once everything its answer can do: either the next
operation of the batch is sent (`Advances`), or the rest of the batch is
completed with the propagated error, its callback is called, and the next pending
batch, if there is one, is started (`Finishes`).

Between the answer and its end no operation is in flight but the batch still
occupies the handler (`Completing`), so the calls of user callbacks only put
batches behind it.
-/

namespace DatabaseJones.Transaction

variable {client : Client} {batch : Batch} {before middle after world : World}
  {started : List Batch} {calls : List Call} {added more : List Output}

/-! ## While a batch occupies the handler -/

/-- Every `execute` call a client makes from a callback has an operation in it. -/
def Client.Positive (client : Client) : Prop :=
  ∀ callback, ∀ size ∈ executeSizes (client callback), 0 < size

/-- A user that makes no call from a callback. -/
def passive : Client := fun _ => []

theorem positive_passive : passive.Positive := by
  simp [Client.Positive, passive, executeSizes]

/-- The calls of user callbacks, and the handler itself, at work on a batch:
`started` is what is taken from the pending batches. -/
structure Continues (calls : List Call) (started : List Batch) (before after : World)
    (added : List Output) : Prop extends Submits calls before after added where
  pending : before.handler.pendingBatches ++ submittedBatches added =
    started ++ after.handler.pendingBatches

theorem Continues.trans {first second : List Call} (h₁ : Continues first [] before middle added)
    (h₂ : Continues second started middle after more) :
    Continues (first ++ second) started before after (added ++ more) where
  toSubmits := h₁.toSubmits.trans h₂.toSubmits
  pending := by
    rw [submittedBatches_append, ← List.append_assoc, h₁.pending, List.nil_append, h₂.pending]

/-- Nothing is submitted and no batch is started. -/
theorem Continues.quiet (htrace : after.trace = before.trace ++ added)
    (hsubmitted : submittedBatches added = [])
    (hpending : after.handler.pendingBatches = before.handler.pendingBatches)
    (hsubmissions : after.submissions = before.submissions)
    (htransactions : after.transactions = before.transactions) (htx : after.tx = before.tx) :
    Continues [] [] before after added where
  toSubmits := .quiet htrace hsubmitted hsubmissions htransactions htx
  pending := by simp [hsubmitted, hpending]

/-- A batch occupies the handler, `count` of its operations are complete, and
none is in flight. -/
structure Completing (batch : Batch) (count : ℕ) (world : World) : Prop where
  nonempty : 0 < batch.size
  firstTime : world.handler.firstTime = false
  numberOfOperations : world.handler.numberOfOperations = batch.size
  executedOperations : world.handler.executedOperations = batch.list.take count
  operationsList : world.handler.operationsList = batch.list
  callback : world.handler.transactionExecuteCallback = batch.number
  pending : ∀ pending ∈ world.handler.pendingBatches, 0 < pending.size
  work : world.work = []

/-- A user callback, run right after `output` was put on the trace. -/
theorem Completing.runCallback {count : ℕ} (hworld : Completing batch count world)
    (hclient : client.Positive) (output : Output) (houtput : output.submitted? = none)
    (callback : Callback) :
    ∃ added, Continues (client callback) [] world
        ((world.emit output).runCallback client callback) (output :: added) ∧
      Completing batch count ((world.emit output).runCallback client callback) ∧
      ((world.emit output).runCallback client callback).handler.error = world.handler.error ∧
      ((world.emit output).runCallback client callback).handler.currentOperation =
        world.handler.currentOperation ∧
      executedOps added = [] ∧ completions added = [] ∧ calledBack added = [] := by
  have hrunning : 0 < (world.emit output).handler.numberOfOperations :=
    hworld.nonempty.trans_eq hworld.numberOfOperations.symm
  obtain ⟨added, hbusy⟩ := busy_calls (client callback) (world.emit output)
    (.inr ⟨hworld.firstTime, hrunning⟩)
  change Busy _ _ ((world.emit output).runCallback client callback) _ at hbusy
  have hhandler := hbusy.handler
  have hemit : Continues [] [] world (world.emit output) [output] :=
    .quiet rfl (by simp [houtput]) rfl rfl rfl rfl
  have hcalls : Continues (client callback) [] (world.emit output)
      ((world.emit output).runCallback client callback) added :=
    ⟨hbusy.toSubmits, (congrArg Handler.pendingBatches hhandler).symm⟩
  refine ⟨added, hemit.trans hcalls, ⟨hworld.nonempty, ?_, ?_, ?_, ?_, ?_, ?_, ?_⟩, ?_, ?_,
    hbusy.executed, hbusy.completed, hbusy.called⟩
  · exact (congrArg Handler.firstTime hhandler).trans hworld.firstTime
  · exact (congrArg Handler.numberOfOperations hhandler).trans hworld.numberOfOperations
  · exact (congrArg Handler.executedOperations hhandler).trans hworld.executedOperations
  · exact (congrArg Handler.operationsList hhandler).trans hworld.operationsList
  · exact (congrArg Handler.transactionExecuteCallback hhandler).trans hworld.callback
  · intro pending hpending
    rw [congrArg Handler.pendingBatches hhandler, List.mem_append] at hpending
    rcases hpending with hold | hnew
    · exact hworld.pending pending hold
    · apply hclient callback
      rw [← hbusy.sizes]
      exact List.mem_map_of_mem hnew
  · exact hbusy.work.trans hworld.work
  · rw [hhandler]
    rfl
  · rw [hhandler]
    rfl

/-- The calls of the callbacks of operations. -/
def operationCalls (client : Client) (ops : List Operation) : List Call :=
  ops.flatMap fun op => client (.operation op)

/-- The loop that completes the rest of a batch with the propagated error.  The
induction is on how much of the batch is left. -/
theorem Completing.abortOperations {count : ℕ} (cause : Operation) (hclient : client.Positive)
    (hcount : count ≤ batch.size) (hworld : Completing batch count world) :
    ∃ added, Continues (operationCalls client (batch.list.drop count)) [] world
        (world.abortOperations client cause (batch.list.drop count)) added ∧
      Completing batch batch.size (world.abortOperations client cause (batch.list.drop count)) ∧
      (world.abortOperations client cause (batch.list.drop count)).handler.error =
        world.handler.error ∧
      executedOps added = [] ∧
      completions added = (batch.list.drop count).map (fun op => (op, .rolledBack cause)) ∧
      calledBack added = [] := by
  induction hleft : batch.size - count generalizing count world with
  | zero =>
      have hall : count = batch.size := by omega
      subst hall
      have hdrop : batch.list.drop batch.size = [] := List.drop_of_length_le (by simp)
      rw [hdrop]
      exact ⟨[], .quiet (List.append_nil _).symm rfl rfl rfl rfl rfl, hworld, rfl, rfl, rfl, rfl⟩
  | succ left ih =>
      have hindex : count < batch.size := by omega
      rw [Batch.drop_list hindex]
      obtain ⟨added, hcontinues, hcompleting, herror, -, hexecuted, hcompleted, hcalled⟩ :=
        hworld.runCallback hclient (.completed (batch.op count) (.rolledBack cause)) rfl
          (.operation (batch.op count))
      set next := (world.emit (.completed (batch.op count) (.rolledBack cause))).runCallback client
        (.operation (batch.op count)) with hnext
      -- the state the loop continues from, with the operation recorded
      set recorded : World := { next with handler := { next.handler with
        currentOperation := next.handler.currentOperation + 1
        executedOperations := next.handler.executedOperations ++ [batch.op count] } } with hrecorded
      have hcompletingNext : Completing batch (count + 1) recorded := by
        refine ⟨hcompleting.nonempty, hcompleting.firstTime, hcompleting.numberOfOperations, ?_,
          hcompleting.operationsList, hcompleting.callback, hcompleting.pending, hcompleting.work⟩
        change next.handler.executedOperations ++ _ = _
        rw [hcompleting.executedOperations, Batch.take_succ_list hindex]
      have hrecord : Continues [] [] next recorded [] :=
        .quiet (List.append_nil _).symm rfl rfl rfl rfl rfl
      obtain ⟨more, hmore, hfinal, herror', hexecuted', hcompleted', hcalled'⟩ :=
        ih (by omega) hcompletingNext (by omega)
      refine ⟨_, hcontinues.trans (hrecord.trans hmore), hfinal, herror'.trans herror, ?_, ?_, ?_⟩
      · simp [hexecuted, hexecuted']
      · simp [hcompleted, hcompleted']
      · simp [hcalled, hcalled']

/-- `batchComplete` calls the callback of the batch and starts the first pending
batch, if there is one. -/
theorem Completing.batchComplete (hworld : Completing batch batch.size world)
    (hclient : client.Positive) :
    ∃ started rest,
      Continues (client (.batch batch.number)) started world (world.batchComplete client)
        (.batchCallback batch.number (world.handler.error.map .rolledBack) :: rest) ∧
      completions rest = [] ∧ calledBack rest = [] ∧
      ((started = [] ∧ executedOps rest = [] ∧ Phase.Holds (world.batchComplete client) .idle ∧
          (world.batchComplete client).handler.error = world.handler.error) ∨
        (∃ next, started = [next] ∧ executedOps rest = [next.op 0] ∧
          Phase.Holds (world.batchComplete client) (.running next 0) ∧
          (world.batchComplete client).handler.error = none)) := by
  obtain ⟨added, hcontinues, hcompleting, herror, -, hexecuted, hcompleted, hcalled⟩ :=
    hworld.runCallback hclient
      (.batchCallback batch.number (world.handler.error.map .rolledBack)) rfl (.batch batch.number)
  set called := (world.emit (.batchCallback batch.number
    (world.handler.error.map .rolledBack))).runCallback client (.batch batch.number) with hcalledEq
  have hcallBatch : world.callBatch client (world.handler.error.map .rolledBack) = called := by
    rw [World.callBatch, hworld.callback]
  unfold World.batchComplete
  rw [hcallBatch]
  cases hpending : called.handler.pendingBatches with
  | nil =>
      simp only [hpending]
      have hreset : Continues [] [] called { called with handler := { called.handler with
          executedOperations := [], numberOfOperations := 0, pendingBatches := [] } } [] :=
        .quiet (List.append_nil _).symm rfl hpending.symm rfl rfl rfl
      have hall := hcontinues.trans hreset
      rw [List.append_nil, List.append_nil] at hall
      exact ⟨[], added, hall, hcompleted, hcalled,
        .inl ⟨rfl, hexecuted, ⟨rfl, rfl, rfl, hcompleting.work⟩, herror⟩⟩
  | cons next pending =>
      simp only [hpending]
      have hpositive : 0 < next.size := hcompleting.pending next (by simp [hpending])
      have hlater : ∀ later ∈ pending, 0 < later.size := fun later hlater =>
        hcompleting.pending later (by rw [hpending]; exact List.mem_cons_of_mem _ hlater)
      set taken : World := { called with handler := { called.handler with
        executedOperations := [], numberOfOperations := 0, pendingBatches := pending
        operationsList := next.list, transactionExecuteCallback := next.number
        error := none } } with htaken
      obtain ⟨hholds, hkept, hstarts⟩ := executeOperations_starts next taken
        hcompleting.firstTime rfl rfl rfl hpositive hlater hcompleting.work
      have hreset : Submits [] called taken [] := .quiet (List.append_nil _).symm rfl rfl rfl rfl
      have htake : Continues [] [next] called taken.executeOperations
          [.sent (.operation (next.op 0))] := by
        refine ⟨hreset.trans hstarts, ?_⟩
        rw [hkept, hpending]
        simp [htaken]
      have hall := hcontinues.trans htake
      rw [List.append_nil] at hall
      exact ⟨[next], _, hall, by simp [hcompleted], by simp [hcalled],
        .inr ⟨next, rfl, by simp [hexecuted], hholds, (executeOperations_frame taken).error⟩⟩

/-! ## What the answer does -/

/-- What the answer to operation `index` of `batch` does if it does not end the
batch: the next operation is sent.  `error` is the error recorded before. -/
structure Advances (batch : Batch) (index : ℕ) (failed : Bool) (error : Option Operation)
    (after : World) (added : List Output) : Prop where
  success : failed = false
  clean : error = none
  more : index + 1 < batch.size
  executed : executedOps added = [batch.op (index + 1)]
  completed : completions added = [(batch.op index, .success)]
  called : calledBack added = []
  holds : Phase.Holds after (.running batch (index + 1))
  error : after.handler.error = none

/-- What it does if it ends the batch: the operations behind it are completed
with the propagated error, the callback is called, and the first pending batch is
started. -/
structure Finishes (batch : Batch) (index : ℕ) (failed : Bool) (error : Option Operation)
    (started : List Batch) (after : World) (added : List Output) : Prop where
  cause : failed = true ∨ error ≠ none ∨ index + 1 = batch.size
  completed : completions added =
    (batch.op index, if failed then .failed else .success) ::
      (batch.list.drop (index + 1)).map fun op =>
        (op, .rolledBack ((if failed then some (batch.op index) else error).getD (batch.op index)))
  called : ∃ first error rest, added = first ++ .batchCallback batch.number error :: rest ∧
    completions rest = [] ∧ calledBack first = [] ∧ calledBack rest = []
  next : (started = [] ∧ executedOps added = [] ∧ Phase.Holds after .idle ∧
      after.handler.error = if failed then some (batch.op index) else error) ∨
    (∃ next, started = [next] ∧ executedOps added = [next.op 0] ∧
      Phase.Holds after (.running next 0) ∧ after.handler.error = none)

/-- The trace of an operation's own callback. -/
structure Reports (op : Operation) (failed : Bool) (added : List Output) : Prop where
  executed : executedOps added = []
  completed : completions added = [(op, if failed then .failed else .success)]
  called : calledBack added = []

/-- The calls of the callbacks behind operation `index` of a batch that ends. -/
def endCalls (client : Client) (batch : Batch) (index : ℕ) : List Call :=
  operationCalls client (batch.list.drop (index + 1)) ++ client (.batch batch.number)

/-- `operationCompleteCallback` of the operation at place `index`, after the
operation's own callback put `first` on the trace. -/
theorem Completing.operationCompleteCallback {index : ℕ} (hworld : Completing batch index world)
    (hindex : index < batch.size) (hcurrent : world.handler.currentOperation = index)
    (hclient : client.Positive) (failed : Bool) :
    ∃ calls started added,
      Continues calls started world
        (world.operationCompleteCallback client (batch.op index) failed) added ∧
      ∀ first, Reports (batch.op index) failed first →
        (calls = [] ∧ started = [] ∧ Advances batch index failed world.handler.error
          (world.operationCompleteCallback client (batch.op index) failed) (first ++ added)) ∨
        (calls = endCalls client batch index ∧
          Finishes batch index failed world.handler.error started
            (world.operationCompleteCallback client (batch.op index) failed) (first ++ added)) := by
  set error := if failed then some (batch.op index) else world.handler.error with herror
  -- the state with the operation recorded
  set recorded : ℕ → World := fun current => { world with handler := { world.handler with
    error, executedOperations := world.handler.executedOperations ++ [batch.op index]
    currentOperation := current } } with hrecordedEq
  have hrecord (current : ℕ) : Continues [] [] world (recorded current) [] :=
    .quiet (List.append_nil _).symm rfl rfl rfl rfl rfl
  have hrecorded (current : ℕ) : Completing batch (index + 1) (recorded current) := by
    refine ⟨hworld.nonempty, hworld.firstTime, hworld.numberOfOperations, ?_,
      hworld.operationsList, hworld.callback, hworld.pending, hworld.work⟩
    change world.handler.executedOperations ++ _ = _
    rw [hworld.executedOperations, Batch.take_succ_list hindex]
  have hlength : (world.handler.executedOperations ++ [batch.op index]).length =
      world.handler.numberOfOperations ↔ index + 1 = batch.size := by
    rw [hworld.executedOperations, hworld.numberOfOperations, ← Batch.take_succ_list hindex]
    simp
    omega
  subst hcurrent
  set index := world.handler.currentOperation with hcurrent
  by_cases hlast : index + 1 = batch.size
  · have hcomplete := hrecorded index
    rw [hlast] at hcomplete
    have hanswer : world.operationCompleteCallback client (batch.op index) failed =
        (recorded index).batchComplete client := by
      exact if_pos (hlength.mpr hlast)
    rw [hanswer]
    obtain ⟨started, rest, hcontinues, hcompleted, hcalled, hnext⟩ :=
      hcomplete.batchComplete hclient
    have hdrop : batch.list.drop (index + 1) = [] := List.drop_of_length_le (by simp [hlast])
    refine ⟨_, started, _, (hrecord index).trans hcontinues, fun first hfirst => .inr ⟨?_,
      .inr (.inr hlast), ?_, ⟨first, _, rest, rfl, hcompleted, hfirst.called, hcalled⟩, ?_⟩⟩
    · simp [endCalls, operationCalls, hdrop]
    · simp [hfirst.completed, hcompleted, hdrop]
    · simpa [hfirst.executed, hrecordedEq, herror] using hnext
  · have htake : batch.list.take batch.size = batch.list := List.take_of_length_le (by simp)
    cases herrorCase : error with
    | none =>
        have hmore : index + 1 < batch.size := by omega
        have hsuccess : failed = false ∧ world.handler.error = none := by
          cases failed <;> simp_all
        have hanswer : world.operationCompleteCallback client (batch.op index) failed =
            (recorded (index + 1)).send (.operation (batch.op (index + 1))) := by
          have hget := batch.getElem?_list hmore
          rw [← hworld.operationsList] at hget
          simp only [World.operationCompleteCallback, mt hlength.mp hlast, if_false, ← herror,
            herrorCase, ← hcurrent, hget, hrecordedEq]
        rw [hanswer]
        have hnext := hrecorded (index + 1)
        refine ⟨[], [], _, (hrecord (index + 1)).trans (.quiet rfl rfl rfl rfl rfl rfl),
          fun first hfirst => .inl ⟨rfl, rfl, hsuccess.1, hsuccess.2, hmore, ?_, ?_, ?_, ?_,
            herrorCase⟩⟩
        · simp [hfirst.executed]
        · simp [hfirst.completed, hsuccess.1]
        · simp [hfirst.called]
        · refine ⟨hnext.firstTime, hnext.numberOfOperations, hmore, rfl, hnext.executedOperations,
            hnext.operationsList, hnext.callback, hnext.pending, ?_⟩
          rw [World.work_send]
          exact congrArg (· ++ [Query.operation _]) hnext.work
    | some cause =>
        have hcause : failed = true ∨ world.handler.error ≠ none := by
          cases failed with
          | true => exact .inl rfl
          | false => exact .inr fun hnone => by simp [hnone, herrorCase] at herror
        have hanswer : world.operationCompleteCallback client (batch.op index) failed =
            ((recorded (index + 1)).abortOperations client cause
              (batch.list.drop (index + 1))).batchComplete client := by
          have hlist : world.handler.operationsList.take world.handler.numberOfOperations =
              batch.list := by rw [hworld.operationsList, hworld.numberOfOperations, htake]
          simp only [World.operationCompleteCallback, mt hlength.mp hlast, if_false, ← herror,
            herrorCase, ← hcurrent, hlist, hrecordedEq]
        rw [hanswer]
        obtain ⟨aborted, habort, hcompleting, hkept, hexecuted, hcompleted, hcalled⟩ :=
          (hrecorded (index + 1)).abortOperations cause hclient hindex
        obtain ⟨started, rest, hcontinues, hcompleted', hcalled', hnext⟩ :=
          hcompleting.batchComplete hclient
        refine ⟨_, started, _, (hrecord (index + 1)).trans (habort.trans hcontinues),
          fun first hfirst => .inr ⟨rfl, hcause.imp_right .inl, ?_, ⟨first ++ aborted, _, rest,
            (List.append_assoc first aborted _).symm, hcompleted', ?_, hcalled'⟩, ?_⟩⟩
        · simp [hfirst.completed, hcompleted, hcompleted', ← herror, herrorCase]
        · simp [hfirst.called, hcalled]
        · rw [hkept] at hnext
          have herrorNext : (recorded (index + 1)).handler.error = some cause := herrorCase
          simpa [hfirst.executed, hexecuted, herrorNext, ← herror, herrorCase] using hnext

/-- Everything the answer to the operation in flight can do. -/
theorem answered_operation {index : ℕ} (hphase : Phase.Holds world (.running batch index))
    (hclient : client.Positive) (failed : Bool) :
    ∃ calls started added,
      Continues (client (.operation (batch.op index)) ++ calls) started world
        (world.answered client (.operation (batch.op index)) failed) added ∧
      ((calls = [] ∧ started = [] ∧ Advances batch index failed world.handler.error
          (world.answered client (.operation (batch.op index)) failed) added) ∨
        (calls = endCalls client batch index ∧
          Finishes batch index failed world.handler.error started
            (world.answered client (.operation (batch.op index)) failed) added)) := by
  obtain ⟨hfirst, hnumber, hindex, hcurrent, hexecutedOps, hlist, hcallback, hpending, hwork⟩ :=
    hphase
  set taken : World := { world with
    inFlight := world.inFlight.erase (.operation (batch.op index)) } with htaken
  have hworld : Completing batch index taken :=
    ⟨by omega, hfirst, hnumber, hexecutedOps, hlist, hcallback, hpending, work_erase hwork⟩
  have htake : Continues [] [] world taken [] :=
    .quiet (List.append_nil _).symm rfl rfl rfl rfl rfl
  obtain ⟨added, hcontinues, hcompleting, herror, hsame, hexecuted, hcompleted, hcalled⟩ :=
    hworld.runCallback hclient
      (.completed (batch.op index) (if failed then .failed else .success)) rfl
      (.operation (batch.op index))
  set called := World.runCallback client (taken.emit
    (.completed (batch.op index) (if failed then .failed else .success)))
    (.operation (batch.op index)) with hcalledEq
  obtain ⟨calls, started, more, hmore, hends⟩ :=
    hcompleting.operationCompleteCallback hindex (hsame.trans hcurrent) hclient failed
  rw [herror] at hends
  exact ⟨calls, started, _, htake.trans (hcontinues.trans hmore),
    hends _ ⟨by simp [hexecuted], by simp [hcompleted], by simp [hcalled]⟩⟩

end DatabaseJones.Transaction
