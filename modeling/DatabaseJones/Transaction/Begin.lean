import DatabaseJones.Transaction.Absent
import DatabaseJones.Transaction.Completion

/-!
# Failure to begin

When the driver reports that `begin` failed, `executeOnBegin` calls the callback
of the batch with the error, and then executes the batch all the same: there is
no `return` between the two.  And when several batches were submitted before the
answer, the handler remembers the last one only.

`Spared` says what is expected for one batch.  `begin_failure_iff` shows that
the handler spares the batches exactly when there is one batch and its callback
submits another one, which then is executed in its place.
-/

namespace DatabaseJones.Transaction

open DatabaseJones.Library

/-! ## The law -/

/-- What is expected of a batch when `begin` failed: nothing of it is sent, its
operations complete at most once and with an error, its callback is called once. -/
structure Spared (number : ℕ) (trace : List Output) : Prop where
  notSent : ∀ op ∈ executedOps trace, op.batch ≠ number
  once : (((completions trace).map Prod.fst).filter fun op => op.batch = number).Nodup
  error : ∀ completion ∈ completions trace, completion.1.batch = number →
    completion.2 ≠ .success
  called : (calledBack trace).count number = 1

/-- The batches submitted before are spared from here on, whatever happens. -/
def BeginFailureHandled (client : Client) (submissions : ℕ) (world : World) : Prop :=
  ∀ events final, run (step client) world events = some final →
    ∀ number < submissions, Spared number final.trace

/-- No batch is empty. -/
def NonEmpty (_ : World) : Event → Prop
  | .call (.execute size) => 0 < size
  | _ => True

instance (world : World) : DecidablePred (NonEmpty world)
  | .call (.execute size) => inferInstanceAs (Decidable (0 < size))
  | .call .begin => .isTrue trivial
  | .call .commit => .isTrue trivial
  | .call .rollback => .isTrue trivial
  | .answer _ _ => .isTrue trivial

/-! ## Before `begin` is answered -/

/-- No `begin` has been answered, or the answer to one is being handled: the
handler holds the batch submitted last.  `called` are the batches called back, and
`answered` counts the answers to `begin`. -/
structure Waiting (called : List ℕ) (answered : ℕ) (world : World) : Prop where
  firstTime : world.handler.firstTime = true
  pending : world.handler.pendingBatches = []
  noOperation : ∀ op, .operation op ∉ world.inFlight
  executed : executedOps world.trace = []
  completed : completions world.trace = []
  called : calledBack world.trace = called
  begins : world.inFlight.count .begin + answered = world.submissions
  last : 0 < world.submissions → ∃ batch : Batch, batch.number + 1 = world.submissions ∧
    0 < batch.size ∧ world.handler.operationsList = batch.list ∧
    world.handler.transactionExecuteCallback = batch.number

variable {client : Client} {before after world : World} {called : List ℕ} {answered : ℕ}

theorem waiting_fresh : Waiting [] 0 (World.fresh false) :=
  ⟨rfl, rfl, by simp [World.fresh], rfl, rfl, rfl, rfl, by simp [World.fresh]⟩

theorem Waiting.call (h : Waiting called answered world) {call : Call}
    (hcall : ∀ size ∈ executeSizes [call], 0 < size) :
    Waiting called answered (world.call call) := by
  obtain ⟨hfirst, hpending, hnoOperation, hexecuted, hcompleted, hcalled, hbegins, hlast⟩ := h
  cases call with
  | execute size =>
      have hsize : 0 < size := hcall size (by simp [executeSizes])
      simp only [World.call, World.execute, World.emit, hfirst, if_true]
      refine ⟨rfl, hpending, ?_, ?_, ?_, ?_, ?_, fun _ => ⟨_, rfl, hsize, rfl, rfl⟩⟩
      · simpa [World.send] using hnoOperation
      · simpa [World.send] using hexecuted
      · simpa [World.send] using hcompleted
      · simpa [World.send] using hcalled
      · simp only [World.send, List.count_append, List.count_singleton_self]
        omega
  | begin => exact ⟨hfirst, hpending, hnoOperation, hexecuted, hcompleted, hcalled, hbegins, hlast⟩
  | commit =>
      refine ⟨hfirst, hpending, ?_, ?_, ?_, ?_, ?_, hlast⟩ <;>
        simpa [World.call, World.commit, World.send]
  | rollback =>
      refine ⟨hfirst, hpending, ?_, ?_, ?_, ?_, ?_, hlast⟩ <;>
        simpa [World.call, World.rollback, World.send]

theorem submissions_call (world : World) (call : Call) :
    (world.call call).submissions = world.submissions + (executeSizes [call]).length := by
  cases call with
  | execute size => exact (execute_frame world size).submissions
  | begin => rfl
  | commit => rfl
  | rollback => rfl

theorem Waiting.calls (h : Waiting called answered world) {calls : List Call}
    (hcalls : ∀ size ∈ executeSizes calls, 0 < size) :
    Waiting called answered (calls.foldl World.call world) ∧
      (calls.foldl World.call world).submissions =
        world.submissions + (executeSizes calls).length := by
  induction calls generalizing world with
  | nil => exact ⟨h, rfl⟩
  | cons call calls ih =>
      rw [← List.singleton_append, executeSizes_append, List.forall_mem_append] at hcalls
      obtain ⟨hwaiting, hsubmissions⟩ := ih (h.call hcalls.1) hcalls.2
      refine ⟨hwaiting, hsubmissions.trans ?_⟩
      have hsizes := congrArg List.length (executeSizes_append [call] calls)
      rw [List.singleton_append, List.length_append] at hsizes
      rw [submissions_call, hsizes, Nat.add_assoc]

/-- The batch submitted last is executed, and the other ones are forgotten. -/
structure Started (number : ℕ) (before after : World) : Prop where
  trace : ∃ op : Operation, op.batch = number ∧
    after.trace = before.trace ++ [.sent (.operation op)]
  firstTime : after.handler.firstTime = false
  submissions : after.submissions = before.submissions
  begins : after.inFlight.count .begin = before.inFlight.count .begin
  forgotten : ∀ other < before.submissions, other ≠ number → Absent (· = other) after

theorem Waiting.start (h : Waiting called answered world) (hsubmitted : 0 < world.submissions) :
    Started (world.submissions - 1) world
      (World.executeOperations
        { world with handler := { world.handler with firstTime := false } }) := by
  obtain ⟨batch, hnumber, hsize, hlist, hcallback⟩ := h.last hsubmitted
  have hlast : world.submissions - 1 = batch.number := by omega
  have hexecute : World.executeOperations
      { world with handler := { world.handler with firstTime := false } } =
      World.send { world with handler := { world.handler with
        firstTime := false, numberOfOperations := world.handler.operationsList.length
        currentOperation := 0 } } (.operation (batch.op 0)) := by
    simp [World.executeOperations, hlist, batch.getElem?_list hsize]
  rw [hexecute, hlast]
  refine ⟨⟨batch.op 0, rfl, rfl⟩, rfl, rfl, ?_, fun other hother hne => ⟨?_, ?_, ?_, ?_, ?_⟩⟩
  · simp [World.send]
  · rintro number rfl
    exact hother
  · exact fun heq => hne (heq.symm.trans hcallback)
  · simp [World.send, h.pending]
  · intro op hop heq
    change op ∈ world.handler.operationsList at hop
    rw [hlist] at hop
    exact hne (heq.symm.trans (Batch.batch_of_mem_list hop))
  · intro op hop heq
    rcases List.mem_append.mp hop with hop | hop
    · exact h.noOperation op hop
    · rw [List.mem_singleton, Query.operation.injEq] at hop
      exact hne (heq.symm.trans (by rw [hop, Batch.op_batch]))

/-- What the answer to the first `begin` does: the callback of the batch submitted
last is called if `begin` failed, and then the batch submitted last is executed. -/
theorem Waiting.answered_begin (h : Waiting [] 0 world) (hclient : client.Positive)
    (hbegin : .begin ∈ world.inFlight) (failed : Bool) :
    ∃ middle, Waiting (if failed then [world.submissions - 1] else []) 1 middle ∧
      middle.submissions = world.submissions +
        (if failed then (executeSizes (client (.batch (world.submissions - 1)))).length else 0) ∧
      Started (middle.submissions - 1) middle (world.answered client .begin failed) := by
  have hpositive : 0 < world.submissions := by
    rw [← h.begins]
    exact Nat.add_pos_left (List.count_pos_iff.mpr hbegin) 0
  obtain ⟨batch, hnumber, -, -, hcallback⟩ := h.last hpositive
  have hlast : world.submissions - 1 = batch.number := by omega
  have herased : Waiting [] 1 { world with inFlight := world.inFlight.erase .begin } := by
    refine ⟨h.firstTime, h.pending, fun op hop => h.noOperation op (List.mem_of_mem_erase hop),
      h.executed, h.completed, h.called, ?_, h.last⟩
    have hcount := h.begins
    rw [Nat.add_zero] at hcount
    simp only [List.count_erase_self, hcount]
    omega
  cases failed with
  | false => exact ⟨_, herased, rfl, herased.start hpositive⟩
  | true =>
      have hemitted : Waiting [world.submissions - 1] 1 (World.emit
          { world with inFlight := world.inFlight.erase .begin }
          (.batchCallback batch.number (some .beginFailed))) := by
        refine ⟨herased.firstTime, herased.pending, herased.noOperation, ?_, ?_, ?_,
          herased.begins, herased.last⟩
        · simpa [World.emit] using h.executed
        · simpa [World.emit] using h.completed
        · simp [World.emit, h.called, hlast]
      obtain ⟨hcalled, hsubmissions⟩ := hemitted.calls (hclient (.batch batch.number))
      have hmore : 0 < ((client (.batch batch.number)).foldl World.call (World.emit
          { world with inFlight := world.inFlight.erase .begin }
          (.batchCallback batch.number (some .beginFailed)))).submissions := by
        rw [hsubmissions]
        exact Nat.add_pos_left hpositive _
      refine ⟨_, hcalled, ?_, ?_⟩
      · rw [hsubmissions, hlast]
        rfl
      · have hstarted := hcalled.start hmore
        simp only [World.answered, World.executeOnBegin, World.callBatch, World.runCallback,
          hcallback, if_true]
        exact hstarted

/-! ## Batches that cannot be spared -/

/-- An operation of the batch was sent, or the batch is forgotten before its
callback was called. -/
def Doomed (number : ℕ) (world : World) : Prop :=
  (∃ op ∈ executedOps world.trace, op.batch = number) ∨
    Absent (· = number) world ∧ number ∉ calledBack world.trace

/-- What an event leaves on the trace stays there. -/
theorem trace_growth {events : List Event} (hrun : run (step client) before events = some after) :
    ∃ added, after.trace = before.trace ++ added := by
  have habsent : Absent (fun _ => False) before :=
    ⟨fun _ => False.elim, id, fun _ _ => id, fun _ _ => id, fun _ _ => id⟩
  obtain ⟨added, htrace, -⟩ := (habsent.run hrun).trace
  exact ⟨added, htrace⟩

theorem Doomed.run {number : ℕ} (h : Doomed number before) {events : List Event}
    (hrun : run (step client) before events = some after) : Doomed number after := by
  rcases h with ⟨op, hop, hnumber⟩ | ⟨habsent, hcalled⟩
  · obtain ⟨added, htrace⟩ := trace_growth hrun
    exact .inl ⟨op, by simp [htrace, hop], hnumber⟩
  · have havoids := habsent.run hrun
    obtain ⟨added, htrace, hunrelated⟩ := havoids.trace
    refine .inr ⟨havoids.absent, ?_⟩
    rw [htrace, calledBack_append, List.mem_append, not_or]
    exact ⟨hcalled, fun hmem => hunrelated.called number hmem rfl⟩

theorem Doomed.not_spared {number : ℕ} (h : Doomed number world) :
    ¬ Spared number world.trace := by
  intro hspared
  rcases h with ⟨op, hop, hnumber⟩ | ⟨-, hcalled⟩
  · exact hspared.notSent op hop hnumber
  · have hcount := hspared.called
    rw [List.count_eq_zero.mpr hcalled] at hcount
    exact absurd hcount (by decide)

/-- After the first answer to `begin`: if another `begin` is in flight, several
batches were submitted, and one of them cannot be spared. -/
def Opened (world : World) : Prop :=
  world.handler.firstTime = false ∧
    (.begin ∈ world.inFlight →
      2 ≤ world.submissions ∧ ∃ number < world.submissions, Doomed number world)

theorem Opened.step {event : Event} (h : Opened before)
    (hstep : step client before event = some after) : Opened after := by
  have habsent : Absent (fun _ => False) before :=
    ⟨fun _ => False.elim, id, fun _ _ => id, fun _ _ => id, fun _ _ => id⟩
  have havoids := habsent.step hstep
  obtain ⟨hfirst, hbegins⟩ := havoids.started h.1
  refine ⟨hfirst, fun hbegin => ?_⟩
  obtain ⟨htwo, number, hnumber, hdoomed⟩ := h.2 (hbegins hbegin)
  exact ⟨htwo.trans havoids.submissions, number, hnumber.trans_le havoids.submissions,
    hdoomed.run (show run (Transaction.step client) _ [event] = some after from
      run_cons_eq_some.mpr ⟨after, hstep, rfl⟩)⟩

/-- The batch that is started is not spared. -/
theorem Started.doomed {number : ℕ} (h : Started number before after) : Doomed number after := by
  obtain ⟨op, hop, htrace⟩ := h.trace
  exact .inl ⟨op, by simp [htrace], hop⟩

/-- The failure of the first `begin` dooms a batch, unless it is the only one and
there is another one to be executed in its place. -/
theorem Waiting.doomed (h : Waiting [] 0 world) (hclient : client.Positive)
    (hbegin : .begin ∈ world.inFlight)
    (hcase : ¬ (world.submissions = 1 ∧ executeSizes (client (.batch 0)) ≠ [])) :
    ∃ number < world.submissions, Doomed number (world.answered client .begin true) := by
  obtain ⟨middle, hmiddle, hsubmissions, hstarted⟩ := h.answered_begin hclient hbegin true
  have hpositive : 0 < world.submissions := by
    rw [← h.begins]
    exact Nat.add_pos_left (List.count_pos_iff.mpr hbegin) 0
  simp only [if_true] at hmiddle hsubmissions
  by_cases hsingle : world.submissions = 1
  · -- the only batch is executed
    have hnone : executeSizes (client (.batch 0)) = [] := by
      by_contra hne
      exact hcase ⟨hsingle, hne⟩
    rw [hsingle, Nat.sub_self, hnone, List.length_nil, Nat.add_zero] at hsubmissions
    have hdoomed := hstarted.doomed
    rw [hsubmissions] at hdoomed
    exact ⟨0, hpositive, hdoomed⟩
  · -- the first batch is forgotten
    refine ⟨0, hpositive, .inr ⟨hstarted.forgotten 0 (by omega) (by omega), ?_⟩⟩
    obtain ⟨op, -, htrace⟩ := hstarted.trace
    rw [htrace, calledBack_append, hmiddle.called]
    simp
    omega

theorem Waiting.step {event : Event} (h : Waiting [] 0 before) (hclient : client.Positive)
    (hnonempty : NonEmpty before event) (hstep : step client before event = some after) :
    Waiting [] 0 after ∨ Opened after := by
  cases event with
  | call call =>
      obtain rfl : before.call call = after := Option.some.inj hstep
      refine .inl (h.call ?_)
      cases call with
      | execute size =>
          change 0 < size at hnonempty
          simpa [executeSizes] using hnonempty
      | begin => simp [executeSizes]
      | commit => simp [executeSizes]
      | rollback => simp [executeSizes]
  | answer query failed =>
      simp only [Transaction.step, Option.ite_none_right_eq_some, Option.some.injEq] at hstep
      obtain ⟨hquery, rfl⟩ := hstep
      have herase {query : Query} (hne : query ≠ .begin) :
          Waiting [] 0 { before with inFlight := before.inFlight.erase query } := by
        refine ⟨h.firstTime, h.pending, fun op hop => h.noOperation op (List.mem_of_mem_erase hop),
          h.executed, h.completed, h.called, ?_, h.last⟩
        simpa [List.count_erase_of_ne hne.symm] using h.begins
      cases query with
      | begin =>
          obtain ⟨middle, hmiddle, -, hstarted⟩ := h.answered_begin hclient hquery failed
          have hcount := hmiddle.begins
          rw [← hstarted.begins, ← hstarted.submissions] at hcount
          refine .inr ⟨hstarted.firstTime, fun hbegin => ?_⟩
          have hmore := List.count_pos_iff.mpr hbegin
          exact ⟨by omega, _, by omega, hstarted.submissions ▸ hstarted.doomed⟩
      | operation op => exact absurd hquery (h.noOperation op)
      | commit => exact .inl (herase fun heq => by cases heq)
      | rollback => exact .inl (herase fun heq => by cases heq)

/-! ## Failure to begin -/

/-- What the handler is before `begin` fails, in any run without empty batches. -/
theorem waiting_or_opened {autocommit : Bool} {events : List Event} (hclient : client.Positive)
    (hnonempty : Guarded (step client) NonEmpty (World.fresh autocommit) events)
    (hrun : run (step client) (World.fresh autocommit) events = some world) :
    Waiting [] 0 world ∨ Opened world := by
  refine invariant_of_guarded (fun world => Waiting [] 0 world ∨ Opened world)
    (fun world event next hworld hnonempty hstep => ?_) ?_ hnonempty hrun
  · rcases hworld with hwaiting | hopened
    · exact hwaiting.step hclient hnonempty hstep
    · exact .inr (hopened.step hstep)
  · cases autocommit with
    | false => exact .inl waiting_fresh
    | true => exact .inr ⟨rfl, by simp [World.fresh]⟩

/-- One batch, whose callback submits another one: the first is spared, since the
second is executed in its place. -/
theorem Waiting.handled (h : Waiting [] 0 world) (hclient : client.Positive)
    (hbegin : .begin ∈ world.inFlight) (hsingle : world.submissions = 1)
    (hreenters : executeSizes (client (.batch 0)) ≠ []) :
    BeginFailureHandled client world.submissions (world.answered client .begin true) := by
  intro events final hrun number hnumber
  obtain rfl : number = 0 := by omega
  obtain ⟨middle, hmiddle, hsubmissions, hstarted⟩ := h.answered_begin hclient hbegin true
  simp only [if_true, hsingle, Nat.sub_self] at hmiddle hsubmissions
  have hmore := List.length_pos_iff.mpr hreenters
  obtain ⟨op, hop, htrace⟩ := hstarted.trace
  obtain ⟨added, hadded, hunrelated⟩ :=
    ((hstarted.forgotten 0 (by omega) (by omega)).run hrun).trace
  have hother : op.batch ≠ 0 := by omega
  have hcompletions : completions final.trace = completions added := by
    simp [hadded, htrace, hmiddle.completed]
  refine ⟨?_, ?_, ?_, ?_⟩
  · intro op' hop'
    simp only [hadded, htrace, executedOps_append, hmiddle.executed, List.nil_append,
      List.mem_append] at hop'
    rcases hop' with hop' | hop'
    · rw [show op' = op by simpa using hop']
      exact hother
    · exact hunrelated.executed op' hop'
  · rw [List.filter_eq_nil_iff.mpr]
    · exact List.nodup_nil
    · intro op' hop'
      rw [hcompletions] at hop'
      obtain ⟨completion, hmem, rfl⟩ := List.mem_map.mp hop'
      simpa using hunrelated.completed completion hmem
  · intro completion hmem hzero
    rw [hcompletions] at hmem
    exact absurd hzero (hunrelated.completed completion hmem)
  · have hzero : 0 ∉ calledBack added := fun hmem => hunrelated.called 0 hmem rfl
    simp [hadded, htrace, hmiddle.called, List.count_eq_zero.mpr hzero]

/-- When `begin` fails, the batches submitted before are spared exactly if there is
one of them and its callback submits another one.  Otherwise one of them is not
spared, whatever happens later. -/
theorem begin_failure_iff {autocommit : Bool} {events : List Event} (hclient : client.Positive)
    (hnonempty : Guarded (step client) NonEmpty (World.fresh autocommit) events)
    (hrun : run (step client) (World.fresh autocommit) events = some world)
    (hbegin : .begin ∈ world.inFlight) :
    (BeginFailureHandled client world.submissions (world.answered client .begin true) ↔
        world.submissions = 1 ∧ executeSizes (client (.batch 0)) ≠ []) ∧
      (¬ (world.submissions = 1 ∧ executeSizes (client (.batch 0)) ≠ []) →
        ∃ number < world.submissions, ∀ events final,
          run (step client) (world.answered client .begin true) events = some final →
            ¬ Spared number final.trace) := by
  have hfails : ¬ (world.submissions = 1 ∧ executeSizes (client (.batch 0)) ≠ []) →
      ∃ number < world.submissions, ∀ events final,
        run (step client) (world.answered client .begin true) events = some final →
          ¬ Spared number final.trace := by
    intro hcase
    have hdoomed : ∃ number < world.submissions,
        Doomed number (world.answered client .begin true) := by
      rcases waiting_or_opened hclient hnonempty hrun with hwaiting | hopened
      · exact hwaiting.doomed hclient hbegin hcase
      · obtain ⟨-, number, hnumber, hdoomed⟩ := hopened.2 hbegin
        have hstep : step client world (.answer .begin true) =
            some (world.answered client .begin true) := if_pos hbegin
        exact ⟨number, hnumber, hdoomed.run
          (show run (step client) world [.answer .begin true] = some _ from
            run_cons_eq_some.mpr ⟨_, hstep, rfl⟩)⟩
    obtain ⟨number, hnumber, hdoomed⟩ := hdoomed
    exact ⟨number, hnumber, fun events final hrun => (hdoomed.run hrun).not_spared⟩
  refine ⟨⟨fun hhandled => ?_, fun ⟨hsingle, hreenters⟩ => ?_⟩, hfails⟩
  · by_contra hcase
    obtain ⟨number, hnumber, hnever⟩ := hfails hcase
    exact hnever [] _ rfl (hhandled [] _ rfl number hnumber)
  · rcases waiting_or_opened hclient hnonempty hrun with hwaiting | hopened
    · exact hwaiting.handled hclient hbegin hsingle hreenters
    · have htwo := (hopened.2 hbegin).1
      omega

/-- A batch of two operations in an explicit transaction. -/
theorem begin_failure_iff_passive :
    ∃ world, run (step passive) (World.fresh false) [.call (.execute 2)] = some world ∧
      ¬ BeginFailureHandled passive world.submissions (world.answered passive .begin true) :=
  ⟨_, rfl, fun hhandled => absurd ((begin_failure_iff positive_passive (by decide)
    (show run (step passive) (World.fresh false) [.call (.execute 2)] = some _ from rfl)
    (by decide)).1.mp hhandled).2 (by decide)⟩

/-- The first operation of the batch is sent although `begin` failed, and then the
callback is called a second time. -/
theorem not_beginFailureHandled :
    ¬ ∀ (client : Client) (events : List Event) (world : World), client.Positive →
      run (step client) (World.fresh false) events = some world → .begin ∈ world.inFlight →
        BeginFailureHandled client world.submissions (world.answered client .begin true) := by
  intro hclaim
  have hhandled := hclaim passive [.call (.execute 1)] _ positive_passive rfl (by decide)
  have hspared := hhandled [.answer (.operation ⟨0, 0, some 0⟩) false] _ rfl 0 (by decide)
  exact absurd hspared.called (by decide)

end DatabaseJones.Transaction
