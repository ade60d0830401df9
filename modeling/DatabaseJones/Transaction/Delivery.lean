import DatabaseJones.Transaction.Completion

/-!
# No lost or repeated work

`RunsOnce` says what a user expects of a transaction handler: every operation of
every batch is executed at most once and completes once, in the order of
submission, and every batch calls back once, after its operations completed.

The handler does this in every run in which no `execute` call is made while the
answer to `begin` is outstanding, `begin` succeeds, and no batch is empty
(`Orderly`).  The accounting invariant `Accounts` splits the submitted batches
into the finished ones and the unfinished ones of the phase; each event moves the
boundary.

Outside such runs the law fails: the second of two `execute` calls made before
`begin` is answered overwrites the first (`not_runsOnce`).
-/

namespace DatabaseJones.Transaction

open DatabaseJones.Library

/-! ## The law -/

/-- The operations of all batches, in the order of submission. -/
def allOperations (trace : List Output) : List Operation :=
  (submittedBatches trace).flatMap Batch.list

/-- The operations that completed, in order. -/
def completedOps (trace : List Output) : List Operation := (completions trace).map Prod.fst

/-- Every callback of a batch comes after the completion of its operations. -/
def CallsBackAfter (trace : List Output) : Prop :=
  ∀ first number error rest, trace = first ++ .batchCallback number error :: rest →
    ∃ batch ∈ submittedBatches trace, batch.number = number ∧
      ∀ op ∈ batch.list, op ∈ completedOps first

/-- No lost or repeated work.  `settled` is the state in which the driver has
answered everything it was given. -/
structure RunsOnce (world : World) : Prop where
  numbers : ((submittedBatches world.trace).map Batch.number).Nodup
  distinct : (allOperations world.trace).Nodup
  executed : (executedOps world.trace).Sublist (allOperations world.trace)
  completed : completedOps world.trace <+: allOperations world.trace
  called : calledBack world.trace <+: (submittedBatches world.trace).map Batch.number
  after : CallsBackAfter world.trace
  settled : world.work = [] → completedOps world.trace = allOperations world.trace ∧
    calledBack world.trace = (submittedBatches world.trace).map Batch.number

/-- An event that keeps the batches apart: no batch is empty, no batch is submitted
while `begin` is in flight, and not from the callback that reports that `begin`
failed either. -/
def Separate (client : Client) (world : World) : Event → Prop
  | .call (.execute size) => 0 < size ∧ .begin ∉ world.inFlight
  | .call _ => True
  | .answer .begin failed =>
      failed = true → executeSizes (client (.batch world.handler.transactionExecuteCallback)) = []
  | .answer _ _ => True

/-- The events of an orderly run: no batch is empty, no batch is submitted while
`begin` is in flight, and `begin` succeeds. -/
def Orderly (world : World) : Event → Prop
  | .call (.execute size) => 0 < size ∧ .begin ∉ world.inFlight
  | .call _ => True
  | .answer .begin failed => failed = false
  | .answer _ _ => True

instance (client : Client) (world : World) : DecidablePred (Separate client world)
  | .call (.execute size) => inferInstanceAs (Decidable (0 < size ∧ .begin ∉ world.inFlight))
  | .call .begin => .isTrue trivial
  | .call .commit => .isTrue trivial
  | .call .rollback => .isTrue trivial
  | .answer .begin failed => inferInstanceAs (Decidable (failed = true →
      executeSizes (client (.batch world.handler.transactionExecuteCallback)) = []))
  | .answer (.operation _) _ => .isTrue trivial
  | .answer .commit _ => .isTrue trivial
  | .answer .rollback _ => .isTrue trivial

instance (world : World) : DecidablePred (Orderly world)
  | .call (.execute size) => inferInstanceAs (Decidable (0 < size ∧ .begin ∉ world.inFlight))
  | .call .begin => .isTrue trivial
  | .call .commit => .isTrue trivial
  | .call .rollback => .isTrue trivial
  | .answer .begin failed => inferInstanceAs (Decidable (failed = false))
  | .answer (.operation _) _ => .isTrue trivial
  | .answer .commit _ => .isTrue trivial
  | .answer .rollback _ => .isTrue trivial

theorem Orderly.separate {client : Client} {world : World} {event : Event}
    (horderly : Orderly world event) : Separate client world event := by
  match event, horderly with
  | .call (.execute _), horderly => exact horderly
  | .call .begin, _ => trivial
  | .call .commit, _ => trivial
  | .call .rollback, _ => trivial
  | .answer .begin _, horderly => exact fun hfailed => by simp_all [Orderly]
  | .answer (.operation _) _, _ => trivial
  | .answer .commit _, _ => trivial
  | .answer .rollback _, _ => trivial

theorem Orderly.begin_succeeds {world : World} {event : Event} (horderly : Orderly world event) :
    event ≠ .answer .begin true := by
  rintro rfl
  exact absurd horderly (by simp [Orderly])

/-! ## Callbacks come after completions -/

@[simp] theorem completedOps_append (first second : List Output) :
    completedOps (first ++ second) = completedOps first ++ completedOps second := by
  simp [completedOps]

theorem CallsBackAfter.append {trace added : List Output} (htrace : CallsBackAfter trace)
    (hadded : ∀ first number error rest, added = first ++ .batchCallback number error :: rest →
      ∃ batch ∈ submittedBatches (trace ++ added), batch.number = number ∧
        ∀ op ∈ batch.list, op ∈ completedOps (trace ++ first)) :
    CallsBackAfter (trace ++ added) := by
  intro first number error rest hsplit
  rcases List.append_eq_append_iff.mp hsplit with ⟨middle, rfl, hrest⟩ | ⟨middle, htraceEq, hrest⟩
  · exact hadded middle number error rest hrest
  · cases middle with
    | nil =>
        rw [List.append_nil] at htraceEq
        subst htraceEq
        have hfound := hadded [] number error rest hrest.symm
        rwa [List.append_nil] at hfound
    | cons output middle =>
        rw [List.cons_append, List.cons.injEq] at hrest
        obtain ⟨houtput, -⟩ := hrest
        subst houtput
        obtain ⟨batch, hbatch, hnumber, hops⟩ := htrace first number error middle htraceEq
        exact ⟨batch, by simp [hbatch], hnumber, hops⟩

theorem CallsBackAfter.append_quiet {trace added : List Output} (htrace : CallsBackAfter trace)
    (hadded : calledBack added = []) : CallsBackAfter (trace ++ added) := by
  refine htrace.append fun first number error rest hsplit => ?_
  rw [hsplit] at hadded
  simp at hadded

/-- A trace with one batch callback in it is split in one way. -/
theorem split_unique {first rest first' rest' : List Output} {number number' : ℕ}
    {error error' : Option BatchError} (hfirst : calledBack first = []) (hrest : calledBack rest = [])
    (hsplit : first ++ .batchCallback number error :: rest =
      first' ++ .batchCallback number' error' :: rest') : first' = first ∧ number' = number := by
  rcases List.append_eq_append_iff.mp hsplit with ⟨middle, rfl, hmiddle⟩ | ⟨middle, rfl, hmiddle⟩
  · cases middle with
    | nil => simp_all
    | cons output middle =>
        rw [List.cons_append, List.cons.injEq] at hmiddle
        rw [hmiddle.2] at hrest
        simp at hrest
  · cases middle with
    | nil => simp_all
    | cons output middle =>
        rw [List.cons_append, List.cons.injEq] at hmiddle
        rw [← hmiddle.1] at hfirst
        simp at hfirst

/-! ## The accounting invariant -/

/-- The batches a phase still has to finish. -/
def Phase.unfinished (world : World) : Phase → List Batch
  | .idle => []
  | .beginning batch => [batch]
  | .running batch _ => batch :: world.handler.pendingBatches

/-- The operations of unfinished batches that have completed. -/
def Phase.completed : Phase → List Operation
  | .idle => []
  | .beginning _ => []
  | .running batch index => batch.list.take index

/-- The operations of unfinished batches that may have been executed. -/
def Phase.executed : Phase → List Operation
  | .idle => []
  | .beginning _ => []
  | .running batch index => batch.list.take (index + 1)

/-- The submitted batches are the finished ones and then those the phase still
has to finish, and what was executed and completed is accordingly; and so are the
callbacks, if the run is `clean`: if `begin` did not fail in it. -/
structure Accounts (clean : Prop) (world : World) (finished : List Batch) (phase : Phase) :
    Prop where
  holds : phase.Holds world
  numbered : world.Numbered
  submitted : submittedBatches world.trace = finished ++ phase.unfinished world
  completed : completedOps world.trace = finished.flatMap Batch.list ++ phase.completed
  executed : (executedOps world.trace).Sublist (finished.flatMap Batch.list ++ phase.executed)
  called : clean → calledBack world.trace = finished.map Batch.number
  after : clean → CallsBackAfter world.trace

theorem nodup_flatMap_list {batches : List Batch} (hnumbers : (batches.map Batch.number).Nodup) :
    (batches.flatMap Batch.list).Nodup := by
  rw [List.nodup_flatMap]
  constructor
  · intro batch _
    refine List.Nodup.map (fun index index' heq => ?_) List.nodup_range
    exact congrArg Operation.index heq
  · refine (List.pairwise_map.mp hnumbers).imp fun hne op hop hop' => hne ?_
    rw [← Batch.batch_of_mem_list hop, Batch.batch_of_mem_list hop']

variable {clean : Prop} {client : Client} {world next : World} {finished : List Batch}
  {phase : Phase}

theorem Accounts.allOperations (haccounts : Accounts clean world finished phase) :
    allOperations world.trace =
      finished.flatMap Batch.list ++ (phase.unfinished world).flatMap Batch.list := by
  rw [Transaction.allOperations, haccounts.submitted, List.flatMap_append]

theorem Accounts.numbers (haccounts : Accounts clean world finished phase) :
    ((submittedBatches world.trace).map Batch.number).Nodup := by
  rw [haccounts.numbered]
  exact List.nodup_range

/-- When the driver has answered everything, no batch is unfinished. -/
theorem Accounts.settled (haccounts : Accounts clean world finished phase)
    (hwork : world.work = []) : phase = .idle := by
  have hphase := haccounts.holds
  cases phase with
  | idle => rfl
  | beginning batch => simp_all [Phase.Holds]
  | running batch index => simp_all [Phase.Holds]

/-- When the driver has answered everything, every operation has completed. -/
theorem Accounts.completed_all (haccounts : Accounts clean world finished phase)
    (hwork : world.work = []) : completedOps world.trace = Transaction.allOperations world.trace := by
  have hidle := haccounts.settled hwork
  subst hidle
  rw [haccounts.allOperations, haccounts.completed]
  rfl

/-- The law follows from the accounts. -/
theorem Accounts.runsOnce (haccounts : Accounts True world finished phase) : RunsOnce world := by
  refine ⟨haccounts.numbers, nodup_flatMap_list haccounts.numbers, ?_, ?_, ?_,
    haccounts.after trivial, fun hwork => ⟨haccounts.completed_all hwork, ?_⟩⟩
  · rw [haccounts.allOperations]
    refine haccounts.executed.trans ((List.Sublist.refl _).append ?_)
    cases phase with
    | idle => exact List.Sublist.refl _
    | beginning batch => exact List.nil_sublist _
    | running batch index => exact (List.take_sublist _ _).trans (by simp [Phase.unfinished])
  · rw [haccounts.allOperations, haccounts.completed]
    refine (List.prefix_append_right_inj _).mpr ?_
    cases phase with
    | idle => exact List.nil_prefix
    | beginning batch => exact List.nil_prefix
    | running batch index => exact (List.take_prefix _ _).trans (by simp [Phase.unfinished])
  · rw [haccounts.called trivial, haccounts.submitted, List.map_append]
    exact List.prefix_append _ _
  · have hidle := haccounts.settled hwork
    subst hidle
    rw [haccounts.called trivial, haccounts.submitted]
    simp [Phase.unfinished]

/-! ## One event -/

theorem accounts_fresh (autocommit : Bool) : Accounts clean (World.fresh autocommit) [] .idle where
  holds := ⟨rfl, rfl, rfl, rfl⟩
  numbered := rfl
  submitted := rfl
  completed := rfl
  executed := List.Sublist.refl _
  called := fun _ => rfl
  after := by
    intro _ first number error rest hsplit
    simp [World.fresh] at hsplit

/-- Calls that put batches behind the running one, or put nothing. -/
theorem Accounts.busy {calls : List Call} {added : List Output}
    (haccounts : Accounts clean world finished phase) (hbusy : Busy calls world next added)
    (hsizes : ∀ size ∈ executeSizes calls, 0 < size)
    (hrunning : executeSizes calls = [] ∨ ∃ batch index, phase = .running batch index) :
    Accounts clean next finished phase where
  holds := haccounts.holds.busy hbusy hsizes hrunning
  numbered := hbusy.numbered haccounts.numbered
  submitted := by
    rw [hbusy.trace, submittedBatches_append, haccounts.submitted]
    rcases hrunning with hnone | ⟨batch, index, rfl⟩
    · have hnew : submittedBatches added = [] := by
        rw [← List.map_eq_nil_iff (f := Batch.size), hbusy.sizes, hnone]
      cases phase <;> simp [Phase.unfinished, hnew, congrArg Handler.pendingBatches hbusy.handler]
    · simp [Phase.unfinished, congrArg Handler.pendingBatches hbusy.handler]
  completed := by
    rw [hbusy.trace, completedOps_append, haccounts.completed]
    simp [completedOps, hbusy.completed]
  executed := by
    rw [hbusy.trace, executedOps_append, hbusy.executed, List.append_nil]
    exact haccounts.executed
  called := by
    intro hclean
    rw [hbusy.trace, calledBack_append, hbusy.called, List.append_nil, haccounts.called hclean]
  after := by
    intro hclean
    rw [hbusy.trace]
    exact (haccounts.after hclean).append_quiet hbusy.called

/-- A batch is submitted to an idle handler. -/
theorem Accounts.execute_idle {size : ℕ} (haccounts : Accounts clean world finished .idle)
    (hsize : 0 < size) : ∃ phase, Accounts clean (world.execute size) finished phase := by
  rcases Transaction.execute_idle haccounts.holds hsize with
    ⟨-, hphase, hsubmits⟩ | ⟨-, hphase, hpending, hsubmits⟩
  · refine ⟨_, hphase, hsubmits.numbered haccounts.numbered, ?_, ?_, ?_, fun hclean => ?_,
      fun hclean => ?_⟩
    · simp [hsubmits.trace, haccounts.submitted, Phase.unfinished]
    · simpa [hsubmits.trace, completedOps, Phase.completed] using haccounts.completed
    · simpa [hsubmits.trace, Phase.executed] using haccounts.executed
    · simpa [hsubmits.trace] using haccounts.called hclean
    · rw [hsubmits.trace]
      exact (haccounts.after hclean).append_quiet rfl
  · refine ⟨_, hphase, hsubmits.numbered haccounts.numbered, ?_, ?_, ?_, fun hclean => ?_,
      fun hclean => ?_⟩
    · simp [hsubmits.trace, haccounts.submitted, Phase.unfinished, hpending]
    · simpa [hsubmits.trace, completedOps, Phase.completed] using haccounts.completed
    · have hexecuted := haccounts.executed
      rw [Phase.executed, List.append_nil] at hexecuted
      rw [hsubmits.trace, executedOps_append, Phase.executed, Batch.take_succ_list hsize]
      exact hexecuted.append (by simp)
    · simpa [hsubmits.trace] using haccounts.called hclean
    · rw [hsubmits.trace]
      exact (haccounts.after hclean).append_quiet rfl

/-- `begin` is answered. -/
theorem Accounts.answered_begin {batch : Batch} {failed : Bool}
    (haccounts : Accounts clean world finished (.beginning batch))
    (hcalls : executeSizes (beginCalls client batch failed) = [])
    (hclean : clean → failed = false) :
    Accounts clean (world.answered client .begin failed) finished (.running batch 0) := by
  obtain ⟨added, hsubmits, hnone, hsent, hcompleted, hcalled, hphase, hpending, -⟩ :=
    Transaction.answered_begin haccounts.holds hcalls
  refine ⟨hphase, hsubmits.numbered haccounts.numbered, ?_, ?_, ?_, fun h => ?_, fun h => ?_⟩
  · simpa [hsubmits.trace, hnone, Phase.unfinished, hpending] using haccounts.submitted
  · simpa [hsubmits.trace, completedOps, hcompleted, Phase.completed] using haccounts.completed
  · have hexecuted := haccounts.executed
    rw [Phase.executed, List.append_nil] at hexecuted
    rw [hsubmits.trace, executedOps_append, hsent, Phase.executed,
      Batch.take_succ_list hphase.2.2.1]
    exact hexecuted.append (by simp)
  · rw [hsubmits.trace, calledBack_append, hcalled (hclean h), List.append_nil, haccounts.called h]
  · rw [hsubmits.trace]
    exact (haccounts.after h).append_quiet (hcalled (hclean h))

/-- The operation in flight is answered: the boundary moves past it, or past its
batch. -/
theorem Accounts.answered_operation {batch : Batch} {index : ℕ}
    (haccounts : Accounts clean world finished (.running batch index)) (hclient : client.Positive)
    (failed : Bool) : ∃ finished phase,
      Accounts clean (world.answered client (.operation (batch.op index)) failed) finished
        phase := by
  have hindex := haccounts.holds.2.2.1
  obtain ⟨calls, started, added, hcontinues, ⟨-, rfl, hadvances⟩ | ⟨-, hfinishes⟩⟩ :=
    Transaction.answered_operation haccounts.holds hclient failed
  · refine ⟨finished, .running batch (index + 1), hadvances.holds,
      hcontinues.numbered haccounts.numbered, ?_, ?_, ?_, fun hclean => ?_, fun hclean => ?_⟩
    · rw [hcontinues.trace, submittedBatches_append, haccounts.submitted]
      have hpending := hcontinues.pending
      rw [List.nil_append] at hpending
      simp [Phase.unfinished, hpending]
    · rw [hcontinues.trace, completedOps_append, haccounts.completed]
      simp [completedOps, hadvances.completed, Phase.completed, Batch.take_succ_list hindex]
    · rw [hcontinues.trace, executedOps_append, hadvances.executed, Phase.executed,
        Batch.take_succ_list hadvances.more, ← List.append_assoc]
      exact haccounts.executed.append (List.Sublist.refl _)
    · rw [hcontinues.trace, calledBack_append, hadvances.called, List.append_nil,
        haccounts.called hclean]
    · rw [hcontinues.trace]
      exact (haccounts.after hclean).append_quiet hadvances.called
  set after := world.answered client (.operation (batch.op index)) failed with hafter
  have hcompleted : completedOps after.trace = (finished ++ [batch]).flatMap Batch.list := by
    rw [hcontinues.trace, completedOps_append, haccounts.completed, Phase.completed,
      List.flatMap_append, List.append_assoc]
    congr 1
    have hlist := List.take_append_drop index batch.list
    rw [Batch.drop_list hindex] at hlist
    simpa [completedOps, hfinishes.completed, Function.comp_def] using hlist
  have hsubmitted : submittedBatches after.trace =
      (finished ++ [batch]) ++ (started ++ after.handler.pendingBatches) := by
    rw [hcontinues.trace, submittedBatches_append, haccounts.submitted, ← hcontinues.pending]
    simp [Phase.unfinished]
  have hexecuted : (executedOps world.trace).Sublist ((finished ++ [batch]).flatMap Batch.list) := by
    refine haccounts.executed.trans ?_
    rw [List.flatMap_append]
    exact (List.Sublist.refl _).append ((List.take_sublist _ _).trans (by simp))
  obtain ⟨first, error, rest, hadded, hrest, hfirst, hcalledRest⟩ := hfinishes.called
  have hcalled : clean → calledBack after.trace = (finished ++ [batch]).map Batch.number := by
    intro hclean
    rw [hcontinues.trace, calledBack_append, haccounts.called hclean, hadded]
    simp [hfirst, hcalledRest]
  have hcallsBack : clean → CallsBackAfter after.trace := by
    intro hclean
    rw [hcontinues.trace]
    refine (haccounts.after hclean).append fun first' number error' rest' hsplit => ?_
    rw [hadded] at hsplit
    obtain ⟨rfl, rfl⟩ := split_unique hfirst hcalledRest hsplit
    refine ⟨batch, by simp [haccounts.submitted, Phase.unfinished], rfl, fun op hop => ?_⟩
    -- nothing completes behind the callback, so the batch is complete before it
    have hbefore : completedOps (world.trace ++ first') = completedOps after.trace := by
      rw [hcontinues.trace, hadded]
      simp [completedOps, hrest]
    rw [hbefore, hcompleted]
    simp [hop]
  have hnumbered := hcontinues.numbered haccounts.numbered
  rcases hfinishes.next with ⟨rfl, hsent, hphase, -⟩ | ⟨next, rfl, hsent, hphase, -⟩
  · refine ⟨finished ++ [batch], .idle, hphase, hnumbered, ?_, ?_, ?_, hcalled, hcallsBack⟩
    · rw [hsubmitted, hphase.2.2.1]
      rfl
    · rw [hcompleted, Phase.completed, List.append_nil]
    · rw [hcontinues.trace, executedOps_append, hsent, List.append_nil, Phase.executed,
        List.append_nil]
      exact hexecuted
  · refine ⟨finished ++ [batch], .running next 0, hphase, hnumbered, ?_, ?_, ?_, hcalled,
      hcallsBack⟩
    · rw [hsubmitted]
      rfl
    · rw [hcompleted, Phase.completed, List.take_zero, List.append_nil]
    · rw [hcontinues.trace, executedOps_append, hsent, Phase.executed,
        Batch.take_succ_list hphase.2.2.1]
      exact hexecuted.append (by simp)

/-- One event. -/
theorem Accounts.step {event : Event} (haccounts : Accounts clean world finished phase)
    (hclient : client.Positive) (hseparate : Separate client world event)
    (hclean : clean → event ≠ .answer .begin true) (hstep : step client world event = some next) :
    ∃ finished phase, Accounts clean next finished phase := by
  cases event with
  | call call =>
      obtain rfl : world.call call = next := Option.some.inj hstep
      by_cases hquiet : ∀ size, call ≠ .execute size
      · obtain ⟨added, hbusy⟩ := busy_call world call (.inl hquiet)
        have hnone : executeSizes [call] = [] := by
          cases call <;> simp_all [executeSizes]
        exact ⟨finished, phase, haccounts.busy hbusy (by simp [hnone]) (.inl hnone)⟩
      push Not at hquiet
      obtain ⟨size, rfl⟩ := hquiet
      obtain ⟨hsize, hbegin⟩ := hseparate
      cases phase with
      | idle =>
          obtain ⟨phase, hphase⟩ := haccounts.execute_idle hsize
          exact ⟨finished, phase, hphase⟩
      | beginning batch =>
          have hmem : Query.begin ∈ world.work := by simp [haccounts.holds.2.2.2.2.2.2.2]
          exact absurd (List.mem_of_mem_filter hmem) hbegin
      | running batch index =>
          obtain ⟨added, hbusy⟩ := busy_call world (.execute size) (.inr ⟨haccounts.holds.1,
            haccounts.holds.2.2.1.pos.trans_eq haccounts.holds.2.1.symm⟩)
          exact ⟨finished, _, haccounts.busy hbusy (by simpa [executeSizes] using hsize)
            (.inr ⟨batch, index, rfl⟩)⟩
  | answer query failed =>
      simp only [Transaction.step, Option.ite_none_right_eq_some, Option.some.injEq] at hstep
      obtain ⟨hquery, rfl⟩ := hstep
      rcases haccounts.holds.answer hquery with
        ⟨rfl, batch, rfl⟩ | ⟨batch, index, rfl, rfl⟩ | hquiet
      · refine ⟨finished, _, haccounts.answered_begin ?_ ?_⟩
        · cases failed with
          | false => rfl
          | true =>
              have hnone := hseparate rfl
              rwa [haccounts.holds.2.2.2.2.2.1] at hnone
        · intro h
          cases failed with
          | false => rfl
          | true => exact absurd rfl (hclean h)
      · exact haccounts.answered_operation hclient failed
      · exact ⟨finished, phase, haccounts.busy (answered_quiet hquiet failed) (by simp [executeSizes])
          (.inl rfl)⟩

/-! ## Runs -/

/-- In every run whose events are orderly, no work is lost or repeated. -/
theorem runsOnce_of_orderly {client : Client} {autocommit : Bool} {events : List Event}
    {final : World} (hclient : client.Positive)
    (horderly : Guarded (step client) Orderly (World.fresh autocommit) events)
    (hrun : run (step client) (World.fresh autocommit) events = some final) : RunsOnce final := by
  obtain ⟨finished, phase, haccounts⟩ := invariant_of_guarded
    (fun world => ∃ finished phase, Accounts True world finished phase)
    (fun world event next haccounts horderly hstep => by
      obtain ⟨finished, phase, haccounts⟩ := haccounts
      exact haccounts.step hclient horderly.separate (fun _ => horderly.begin_succeeds) hstep)
    ⟨[], .idle, accounts_fresh autocommit⟩ horderly hrun
  exact haccounts.runsOnce

/-- Two batches of one explicit transaction, the second submitted while the first
is running; the last operation of the first fails. -/
theorem runsOnce_of_orderly_two_batches :
    ∃ final, run (step passive) (World.fresh false)
        [.call (.execute 2), .answer .begin false,
          .answer (.operation ⟨0, 0, some 0⟩) false, .call (.execute 1),
          .answer (.operation ⟨0, 1, some 0⟩) true,
          .answer (.operation ⟨1, 0, some 0⟩) false] = some final ∧ RunsOnce final :=
  ⟨_, rfl, @runsOnce_of_orderly passive false
    [.call (.execute 2), .answer .begin false, .answer (.operation ⟨0, 0, some 0⟩) false,
      .call (.execute 1), .answer (.operation ⟨0, 1, some 0⟩) true,
      .answer (.operation ⟨1, 0, some 0⟩) false]
    _ positive_passive (by decide) rfl⟩

/-- Two batches submitted before `begin` is answered: the handler forgets the
first one and sends `begin` twice. -/
theorem not_runsOnce_of_overlapping_begin :
    ¬ ∀ (client : Client) (autocommit : Bool) (events : List Event) (final : World),
      client.Positive → run (step client) (World.fresh autocommit) events = some final →
        RunsOnce final := by
  intro hclaim
  have hruns := hclaim passive false
    [.call (.execute 1), .call (.execute 1), .answer .begin false, .answer .begin false,
      .answer (.operation ⟨1, 0, some 0⟩) false, .answer (.operation ⟨1, 0, some 0⟩) false] _
    positive_passive rfl
  have hsettled := hruns.settled (by decide)
  exact absurd hsettled.1 (by decide)

end DatabaseJones.Transaction
