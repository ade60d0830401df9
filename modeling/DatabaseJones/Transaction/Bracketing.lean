import DatabaseJones.Transaction.Completion
import DatabaseJones.Transaction.Session

/-!
# Operations and their transactions

In every run of a session in which all calls fit the flags of the handler, the server's
transaction is open for the operations of the user's transactions, and for no others
(`bracketed_of_fits`).  The invariant `Bracketing` says this of the trace and of the
operations that are still to be sent.

The flag `firstTime` is not set again when a transaction ends, so the second transaction
of a session sends no `begin` (`not_bracketed`).
-/

namespace DatabaseJones.Transaction

open DatabaseJones.Library

/-! ## The server's transaction along a trace -/

variable {trace : List Output} {output : Output} {op : Operation} {client : Client}
  {world : World} {moment : Moment}

@[simp] theorem serverOpen_append (trace : List Output) (output : Output) :
    serverOpen (trace ++ [output]) = openAfter (serverOpen trace) output := by
  simp [serverOpen]

/-- An output that is not a statement about transactions. -/
def Output.quiet : Output → Bool
  | .sent .begin => false
  | .sent .commit => false
  | .sent .rollback => false
  | _ => true

theorem openAfter_of_quiet (h : output.quiet = true) (wasOpen : Bool) :
    openAfter wasOpen output = wasOpen := by
  match output, h with
  | .submitted _, _ => rfl
  | .sent (.operation _), _ => rfl
  | .completed _ _, _ => rfl
  | .batchCallback _ _, _ => rfl
  | .threw, _ => rfl

theorem ends_of_quiet (h : output.quiet = true) : output.ends = false := by
  match output, h with
  | .submitted _, _ => rfl
  | .sent (.operation _), _ => rfl
  | .completed _ _, _ => rfl
  | .batchCallback _ _, _ => rfl
  | .threw, _ => rfl

theorem NotEndedSince.append {number : ℕ} (h : NotEndedSince trace number)
    (houtput : output.ends = false) : NotEndedSince (trace ++ [output]) number := by
  obtain ⟨first, batch, rest, rfl, hnumber, hrest⟩ := h
  refine ⟨first, batch, rest ++ [output], by simp, hnumber, fun next hnext => ?_⟩
  rcases List.mem_append.mp hnext with hnext | hnext
  · exact hrest next hnext
  · rwa [List.mem_singleton.mp hnext]

theorem notEndedSince_submitted (trace : List Output) (batch : Batch) :
    NotEndedSince (trace ++ [.submitted batch]) batch.number :=
  ⟨trace, batch, [], rfl, rfl, by simp⟩

theorem Sendable.quiet (h : Sendable trace op) (houtput : output.quiet = true) :
    Sendable (trace ++ [output]) op := by
  refine ⟨fun htx => ⟨?_, (h.1 htx).2.append (ends_of_quiet houtput)⟩, fun htx => ?_⟩
  · rw [serverOpen_append, openAfter_of_quiet houtput, (h.1 htx).1]
  · rw [serverOpen_append, openAfter_of_quiet houtput, h.2 htx]

theorem Sendable.begin (h : Sendable trace op) (htx : op.tx ≠ none) :
    Sendable (trace ++ [.sent .begin]) op :=
  ⟨fun _ => ⟨by simp [openAfter], (h.1 htx).2.append rfl⟩, fun hnone => absurd hnone htx⟩

/-- No operation outside of a transaction is hindered by the end of one. -/
theorem sendable_ended (htx : op.tx = none) (houtput : output.ends = true) :
    Sendable (trace ++ [output]) op := by
  refine ⟨fun hsome => absurd htx hsome, fun _ => ?_⟩
  rw [serverOpen_append]
  match output, houtput with
  | .sent .commit, _ => rfl
  | .sent .rollback, _ => rfl

theorem bracketed_nil : Bracketed [] := fun first op rest hsplit => by
  simp at hsplit

theorem Bracketed.append (h : Bracketed trace)
    (houtput : ∀ op, output = .sent (.operation op) → Sendable trace op) :
    Bracketed (trace ++ [output]) := by
  intro first op rest hsplit
  rcases List.eq_nil_or_concat rest with rfl | ⟨rest, last, rfl⟩
  · obtain ⟨rfl, hlast⟩ := List.append_inj' hsplit rfl
    exact houtput op (List.singleton_inj.mp hlast)
  · rw [List.concat_eq_append, ← List.cons_append, ← List.append_assoc] at hsplit
    exact h first op rest (List.append_inj' hsplit rfl).1

/-! ## The invariant -/

/-- An operation that the handler may send now or later.  While the handler has not sent
its first `begin`, it only holds operations of transactions. -/
def World.MaySend (world : World) (op : Operation) : Prop :=
  Sendable world.trace op ∧ (world.handler.firstTime = true → op.tx ≠ none)

/-- Every operation that was sent was sendable, and so is every operation that is left;
outside of the user's transactions the server has none open. -/
structure Bracketing (moment : Moment) (world : World) : Prop where
  bracketed : Bracketed world.trace
  maySend : ∀ op ∈ world.unsent moment, world.MaySend op
  closed : world.handler.autocommit = true → serverOpen world.trace = false

theorem mem_unsent {op : Operation} : op ∈ world.unsent moment ↔
    ((world.handler.firstTime = true ∨ .begin ∈ world.inFlight ∨ moment = .beginning) ∧
        op ∈ world.handler.operationsList) ∨
      (¬ (moment = .failing ∨ world.handler.error.isSome = true) ∧
        op ∈ world.handler.operationsList.drop (world.handler.currentOperation + 1)) ∨
      op ∈ world.handler.pendingBatches.flatMap Batch.list := by
  rw [World.unsent, List.mem_append, List.mem_append, or_assoc]
  refine or_congr ?_ (or_congr_left ?_)
  · split_ifs with h <;> simp [h]
  · split_ifs with h <;> simp [h]

/-- A world that has no other operations to send than another one, and the same flags. -/
theorem Bracketing.weaken {moment' : Moment} {world' : World} (h : Bracketing moment world)
    (htrace : world'.trace = world.trace)
    (hfirst : world'.handler.firstTime = true → world.handler.firstTime = true)
    (hautocommit : world'.handler.autocommit = world.handler.autocommit)
    (hunsent : ∀ op ∈ world'.unsent moment', op ∈ world.unsent moment) :
    Bracketing moment' world' where
  bracketed := htrace ▸ h.bracketed
  maySend op hop := by
    obtain ⟨hsendable, htx⟩ := h.maySend op (hunsent op hop)
    exact ⟨htrace ▸ hsendable, fun hfirst' => htx (hfirst hfirst')⟩
  closed := by
    rw [hautocommit, htrace]
    exact h.closed

theorem Bracketing.emit (h : Bracketing moment world) (output : Output) (houtput : output.quiet = true)
    (hsent : ∀ op, output = .sent (.operation op) → Sendable world.trace op) :
    Bracketing moment (world.emit output) where
  bracketed := h.bracketed.append hsent
  maySend op hop := ⟨(h.maySend op hop).1.quiet houtput, (h.maySend op hop).2⟩
  closed hautocommit := by
    rw [World.emit, serverOpen_append, openAfter_of_quiet houtput]
    exact h.closed hautocommit

theorem Bracketing.pending (h : Bracketing moment world) {op : Operation}
    (hop : op ∈ world.handler.pendingBatches.flatMap Batch.list) : world.MaySend op :=
  h.maySend op (mem_unsent.mpr (.inr (.inr hop)))

/-! ## The functions of the handler -/

/-- Executing a list of operations that may all be sent. -/
theorem bracketing_executeOperations (hbracketed : Bracketed world.trace)
    (hclosed : world.handler.autocommit = true → serverOpen world.trace = false)
    (hlist : ∀ op ∈ world.handler.operationsList, world.MaySend op)
    (hpending : ∀ op ∈ world.handler.pendingBatches.flatMap Batch.list, world.MaySend op) :
    Bracketing moment world.executeOperations := by
  have hstarted : Bracketing moment { world with handler := { world.handler with
      numberOfOperations := world.handler.operationsList.length, currentOperation := 0 } } := by
    refine ⟨hbracketed, fun op hop => ?_, hclosed⟩
    rcases mem_unsent.mp hop with ⟨-, hop⟩ | ⟨-, hop⟩ | hop
    · exact hlist op hop
    · exact hlist op (List.mem_of_mem_drop hop)
    · exact hpending op hop
  rw [World.executeOperations]
  split
  · exact hstarted.emit _ rfl fun _ hop => by cases hop
  · next op hop =>
      have hsent := hlist op (List.mem_of_getElem? hop)
      refine (hstarted.emit (.sent (.operation op)) rfl fun op' hop' => ?_).weaken
        rfl id rfl fun op' hop' => ?_
      · obtain rfl : op = op' := by simpa using hop'
        exact hsent.1
      · simpa [mem_unsent, World.send, World.emit] using hop'

/-- The operations of a batch of a transaction, when the server has been told to begin. -/
theorem maySend_begun {batch : Batch} (htx : batch.tx ≠ none) {op : Operation}
    (hop : op ∈ batch.list) :
    Sendable (trace ++ [.submitted batch] ++ [.sent .begin]) op ∧ op.tx ≠ none := by
  have hsome : op.tx ≠ none := by rwa [Batch.tx_of_mem_list hop]
  refine ⟨⟨fun _ => ⟨?_, ?_⟩, fun hnone => absurd hnone hsome⟩, hsome⟩
  · rw [serverOpen_append]
    rfl
  · rw [Batch.batch_of_mem_list hop]
    exact (notEndedSince_submitted _ _).append rfl

/-- The operations of a batch, when the server's transaction is as the user's. -/
theorem sendable_submitted {batch : Batch} (hopen : batch.tx ≠ none → serverOpen trace = true)
    (hclosed : batch.tx = none → serverOpen trace = false) {op : Operation} (hop : op ∈ batch.list) :
    Sendable (trace ++ [.submitted batch]) op := by
  have htx := Batch.tx_of_mem_list hop
  refine ⟨fun hsome => ⟨?_, ?_⟩, fun hnone => ?_⟩
  · rw [serverOpen_append]
    exact hopen (htx ▸ hsome)
  · rw [Batch.batch_of_mem_list hop]
    exact notEndedSince_submitted _ _
  · rw [serverOpen_append]
    exact hclosed (htx ▸ hnone)

theorem Bracketing.execute {size : ℕ} (h : Bracketing moment world)
    (hfits : CallMade.Fits ⟨moment, world, .execute size⟩) :
    Bracketing moment (world.execute size) := by
  set batch : Batch := ⟨world.submissions, size, world.tx⟩ with hbatch
  set submitted := { world with submissions := world.submissions + 1 }.emit (.submitted batch)
    with hsubmitted
  have hkept : Bracketing moment submitted :=
    (show Bracketing moment { world with submissions := world.submissions + 1 } from h.weaken
      rfl id rfl fun _ hop => hop).emit _ rfl fun _ hop => by cases hop
  have htx : batch.tx = none ↔ world.handler.autocommit = true := by
    simp [hbatch, World.tx]
  simp only [CallMade.Fits] at hfits
  by_cases hfirst : world.handler.firstTime = true
  · have hautocommit : world.handler.autocommit = false := by
      by_contra hauto
      rw [if_pos (by simpa using hauto), hfirst] at hfits
      cases hfits
    have hsome : batch.tx ≠ none := by
      rw [ne_eq, htx, hautocommit]
      exact Bool.false_ne_true
    have hexecute : world.execute size = { submitted with handler := { submitted.handler with
        operationsList := batch.list, transactionExecuteCallback := batch.number } }.send .begin :=
      if_pos hfirst
    rw [hexecute]
    refine ⟨hkept.bracketed.append fun _ hop => by simp at hop, fun op hop => ?_, fun hclosed => ?_⟩
    · rcases mem_unsent.mp hop with ⟨-, hop⟩ | ⟨-, hop⟩ | hop
      · obtain ⟨hsendable, hop⟩ := maySend_begun hsome hop
        exact ⟨hsendable, fun _ => hop⟩
      · obtain ⟨hsendable, hop⟩ := maySend_begun hsome (List.mem_of_mem_drop hop)
        exact ⟨hsendable, fun _ => hop⟩
      · obtain ⟨hsendable, hop⟩ := h.pending hop
        exact ⟨(hsendable.quiet rfl).begin (hop hfirst), hop⟩
    · exact absurd (hautocommit.symm.trans hclosed) Bool.false_ne_true
  · have hmay : ∀ op ∈ batch.list, submitted.MaySend op := by
      refine fun op hop => ⟨sendable_submitted (fun hsome => ?_) (fun hnone => ?_) hop,
        fun hfirst' => absurd hfirst' hfirst⟩
      · rw [ne_eq, htx] at hsome
        rw [if_neg hsome] at hfits
        exact hfits.resolve_left hfirst
      · exact h.closed (htx.mp hnone)
    by_cases hbusy : 0 < world.handler.numberOfOperations
    · have hexecute : world.execute size = { submitted with handler := { submitted.handler with
          pendingBatches := submitted.handler.pendingBatches ++ [batch] } } :=
        (if_neg hfirst).trans (if_pos hbusy)
      rw [hexecute]
      refine ⟨hkept.bracketed, fun op hop => ?_, hkept.closed⟩
      rw [mem_unsent, List.flatMap_append, List.mem_append, ← or_assoc, ← or_assoc] at hop
      rcases hop with hop | hop
      · exact hkept.maySend op (mem_unsent.mpr (or_assoc.mp hop))
      · exact hmay op (by simpa using hop)
    · have hexecute : world.execute size = { submitted with handler := { submitted.handler with
          operationsList := batch.list,
          transactionExecuteCallback := batch.number } }.executeOperations :=
        (if_neg hfirst).trans (if_neg hbusy)
      rw [hexecute]
      exact bracketing_executeOperations hkept.bracketed hkept.closed hmay
        fun op hop => hkept.pending hop

/-- `commit` and `rollback`, when all operations that are left are outside of transactions. -/
theorem Bracketing.ended {query : Query} (h : Bracketing moment world)
    (hquery : Output.ends (.sent query) = true) (hunsent : ∀ op ∈ world.unsent moment, op.tx = none) :
    Bracketing moment
      { world.send query with handler := { world.handler with autocommit := true } } := by
  have hclosed : serverOpen (world.trace ++ [.sent query]) = false := by
    rw [serverOpen_append]
    match query, hquery with
    | .commit, _ => rfl
    | .rollback, _ => rfl
  refine ⟨h.bracketed.append fun op hop => ?_, fun op hop => ?_, fun _ => hclosed⟩
  · rw [hop] at hquery
    exact nomatch hquery
  · have hold : op ∈ world.unsent moment := by
      simp only [mem_unsent] at hop ⊢
      refine hop.imp_left fun ⟨hmoment, hop⟩ => ⟨hmoment.imp_right (Or.imp_left fun hbegin => ?_), hop⟩
      rcases List.mem_append.mp hbegin with hbegin | hbegin
      · exact hbegin
      · rw [← List.mem_singleton.mp hbegin] at hquery
        exact nomatch hquery
    refine ⟨sendable_ended (hunsent op hold) hquery, fun hfirst => ?_⟩
    exact absurd (hunsent op hold) ((h.maySend op hold).2 hfirst)

theorem Bracketing.call (h : Bracketing moment world) (call : Call)
    (hfits : CallMade.Fits ⟨moment, world, call⟩) : Bracketing moment (world.call call) := by
  cases call with
  | execute size => exact h.execute hfits
  | begin => exact ⟨h.bracketed, h.maySend, nofun⟩
  | commit => exact h.ended rfl hfits
  | rollback => exact h.ended rfl hfits

/-- The calls of a callback. -/
theorem Bracketing.calls {calls : List Call} (h : Bracketing moment world)
    (hfits : ∀ made ∈ callsAt moment world calls, made.Fits) :
    Bracketing moment (calls.foldl World.call world) := by
  induction calls generalizing world with
  | nil => exact h
  | cons call calls ih =>
      rw [callsAt, List.forall_mem_cons] at hfits
      exact ih (h.call _ hfits.1) hfits.2

theorem Bracketing.callBatch {error : Option BatchError} (h : Bracketing moment world)
    (hfits : ∀ made ∈ world.callsInBatch client moment error, made.Fits) :
    Bracketing moment (world.callBatch client error) :=
  (h.emit (.batchCallback _ _) rfl fun _ hop => nomatch hop).calls hfits

theorem Bracketing.callOperation {op : Operation} {outcome : Outcome} (h : Bracketing moment world)
    (hfits : ∀ made ∈ world.callsInOperation client moment op outcome, made.Fits) :
    Bracketing moment (world.callOperation client op outcome) :=
  (h.emit (.completed _ _) rfl fun _ hop => nomatch hop).calls hfits

theorem Bracketing.batchComplete (h : Bracketing .settled world)
    (hfits : ∀ made ∈ world.callsInBatchComplete client, made.Fits) :
    Bracketing .settled (world.batchComplete client) := by
  have hcalled := h.callBatch hfits
  rw [World.batchComplete]
  dsimp only
  split
  · next hpending =>
      exact hcalled.weaken rfl id rfl fun op hop => hop
  · next nextBatch pendingBatches hpending =>
      have hlist : ∀ op ∈ (nextBatch :: pendingBatches).flatMap Batch.list,
          (world.callBatch client (world.handler.error.map .rolledBack)).MaySend op :=
        fun op hop => hcalled.pending (hpending ▸ hop)
      rw [List.flatMap_cons] at hlist
      exact bracketing_executeOperations hcalled.bracketed hcalled.closed
        (fun op hop => hlist op (List.mem_append_left _ hop))
        (fun op hop => hlist op (List.mem_append_right _ hop))

theorem Bracketing.abortOperations {cause : Operation} {ops : List Operation}
    (h : Bracketing .settled world) (hfits : ∀ made ∈ World.callsInAbort client cause ops world,
      made.Fits) : Bracketing .settled (world.abortOperations client cause ops) := by
  induction ops generalizing world with
  | nil => exact h
  | cons op ops ih =>
      rw [World.callsInAbort, List.forall_mem_append] at hfits
      refine ih ((h.callOperation hfits.1).weaken rfl id rfl fun op hop => ?_) hfits.2
      rw [mem_unsent] at hop ⊢
      exact hop.imp_right (Or.imp_left (And.imp_right fun hop =>
        List.drop_subset_drop_left _ (Nat.le_succ _) hop))

theorem Bracketing.operationCompleteCallback {op : Operation} {failed : Bool}
    (h : Bracketing (if failed then .failing else .settled) world)
    (hfits : ∀ made ∈ world.callsInOperationComplete client op failed, made.Fits) :
    Bracketing .settled (world.operationCompleteCallback client op failed) := by
  set error := if failed then some op else world.handler.error with herror
  -- the error now stands for the operation that is failing
  have hrecorded : ∀ current ≥ world.handler.currentOperation,
      Bracketing .settled { world with handler := { world.handler with
        error := error
        executedOperations := world.handler.executedOperations ++ [op]
        currentOperation := current } } := by
    refine fun current hcurrent => h.weaken rfl id rfl fun next hnext => ?_
    rw [mem_unsent] at hnext ⊢
    refine hnext.imp (And.imp_left (Or.imp_right (Or.imp_right fun hmoment => by cases hmoment)))
      (Or.imp_left fun hboth => ⟨?_, List.drop_subset_drop_left _ (Nat.succ_le_succ hcurrent) hboth.2⟩)
    have hnoError := hboth.1
    cases failed with
    | true => exact absurd (.inr rfl) hnoError
    | false => simpa [herror] using hnoError
  rw [World.callsInOperationComplete] at hfits
  rw [World.operationCompleteCallback]
  dsimp only at hfits ⊢
  rw [← herror] at hfits ⊢
  split_ifs at hfits ⊢ with hcomplete
  · exact (hrecorded _ le_rfl).batchComplete hfits
  · have hnext := hrecorded (world.handler.currentOperation + 1) (Nat.le_succ _)
    cases hcause : error with
    | some cause =>
        rw [hcause] at hfits hnext
        rw [List.forall_mem_append] at hfits
        exact (hnext.abortOperations hfits.1).batchComplete hfits.2
    | none =>
        rw [hcause] at hnext
        have hremains : ∀ next, world.handler.operationsList[world.handler.currentOperation + 1]? =
            some next → Sendable world.trace next := by
          refine fun next hget => (h.maySend next (mem_unsent.mpr (.inr (.inl ⟨?_, ?_⟩)))).1
          · cases failed with
            | true => exact absurd hcause (by simp [herror])
            | false => simpa [herror] using hcause
          · exact List.mem_of_getElem? (i := 0) (by rwa [List.getElem?_drop])
        dsimp only
        split
        · exact hnext.emit .threw rfl fun _ hop => by cases hop
        · next next hop =>
            refine (hnext.emit (.sent (.operation next)) rfl fun op' hop' => ?_).weaken
              rfl id rfl fun op' hop' => ?_
            · obtain rfl : next = op' := by simpa using hop'
              exact hremains next hop
            · simpa [mem_unsent, World.send, World.emit] using hop'

/-- `executeOnBegin`, while the batch behind the `begin` is still to be sent. -/
theorem Bracketing.executeOnBegin {failed : Bool} (h : Bracketing .beginning world)
    (hfits : ∀ made ∈ (if failed then world.callsInBatch client .beginning (some .beginFailed)
      else []), made.Fits) :
    Bracketing .settled (world.executeOnBegin client failed) := by
  have hcalled : Bracketing .beginning
      (if failed then world.callBatch client (some .beginFailed) else world) := by
    split_ifs at hfits ⊢
    · exact h.callBatch hfits
    · exact h
  have hmay : ∀ op, (if failed then world.callBatch client (some .beginFailed)
      else world).MaySend op → Sendable (if failed then world.callBatch client (some .beginFailed)
      else world).trace op := fun op hop => hop.1
  refine bracketing_executeOperations hcalled.bracketed hcalled.closed (fun op hop => ?_)
    (fun op hop => ?_)
  · exact ⟨hmay op (hcalled.maySend op (mem_unsent.mpr (.inl ⟨.inr (.inr rfl), hop⟩))), nofun⟩
  · exact ⟨hmay op (hcalled.pending hop), nofun⟩

theorem Bracketing.answered {query : Query} {failed : Bool} (h : Bracketing .settled world)
    (hquery : query ∈ world.inFlight)
    (hfits : ∀ made ∈ world.callsInAnswer client query failed, made.Fits) :
    Bracketing .settled (world.answered client query failed) := by
  have hkept : ∀ {moment}, moment ≠ .beginning →
      Bracketing moment { world with inFlight := world.inFlight.erase query } := by
    refine fun hmoment => h.weaken rfl id rfl fun op hop => ?_
    rw [mem_unsent] at hop ⊢
    refine hop.imp (And.imp_left (Or.imp_right fun hbegin => ?_))
      (Or.imp_left (And.imp_left fun hnot herror => ?_))
    · exact .inl (List.mem_of_mem_erase (hbegin.resolve_right hmoment))
    · exact hnot (.inr (herror.resolve_left nofun))
  cases query with
  | begin =>
      refine Bracketing.executeOnBegin (h.weaken rfl id rfl fun op hop => ?_) hfits
      rw [mem_unsent] at hop ⊢
      refine hop.imp (And.imp_left fun _ => .inr (.inl hquery))
        (Or.imp_left (And.imp_left fun hnot herror => ?_))
      exact hnot (.inr (herror.resolve_left nofun))
  | operation op =>
      rw [World.callsInAnswer, List.forall_mem_append] at hfits
      refine Bracketing.operationCompleteCallback (Bracketing.callOperation (hkept ?_) hfits.1)
        hfits.2
      split_ifs <;> nofun
  | commit => exact hkept nofun
  | rollback => exact hkept nofun

/-! ## Runs -/

theorem bracketing_fresh (autocommit : Bool) : Bracketing .settled (World.fresh autocommit) :=
  ⟨bracketed_nil, fun op hop => by simp [mem_unsent, World.fresh] at hop, fun _ => rfl⟩

/-- The invariant of a session. -/
def Session.Bracketing : Session → Prop
  | none => True
  | some world => Transaction.Bracketing .settled world

theorem Session.Bracketing.step {session next : Session} {event : Event}
    (h : session.Bracketing) (hfits : session.Fits client event)
    (hstep : session.step client event = some next) : next.Bracketing := by
  cases session with
  | none =>
      match event, hstep with
      | .call (.execute size), hstep =>
          obtain rfl := Option.some.inj hstep
          exact (bracketing_fresh true).execute rfl
      | .call .begin, hstep =>
          obtain rfl := Option.some.inj hstep
          exact (bracketing_fresh false).call .begin trivial
      | .call .commit, hstep =>
          obtain rfl := Option.some.inj hstep
          trivial
      | .call .rollback, hstep =>
          obtain rfl := Option.some.inj hstep
          trivial
  | some world =>
      obtain ⟨world', hworld, rfl⟩ := Option.map_eq_some_iff.mp hstep
      cases event with
      | call call =>
          obtain rfl := Option.some.inj hworld
          exact Transaction.Bracketing.call h _ (hfits _ (List.mem_singleton.mpr rfl))
      | answer query failed =>
          simp only [Transaction.step, Option.ite_none_right_eq_some, Option.some.injEq] at hworld
          obtain ⟨hquery, rfl⟩ := hworld
          exact Transaction.Bracketing.answered h hquery hfits

/-- In every run of a session whose calls fit the flags of the handler, operations are sent
inside of the server's transaction if and only if they were submitted inside of the user's. -/
theorem bracketed_of_fits {client : Client} {events : List Event} {final : World}
    (hfits : Guarded (Session.step client) (Session.Fits client) none events)
    (hrun : run (Session.step client) none events = some (some final)) :
    Bracketed final.trace := by
  have hstart : Session.Bracketing none := trivial
  have hinvariant := invariant_of_guarded Session.Bracketing
    (fun session event next h hfits hstep => h.step hfits hstep) hstart hfits hrun
  exact Transaction.Bracketing.bracketed hinvariant

/-- A transaction with two batches, and an operation behind it. -/
theorem bracketed_of_fits_first_transaction :
    ∃ final, run (Session.step passive) none
        [.call .begin, .call (.execute 1), .answer .begin false,
          .answer (.operation ⟨0, 0, some 1⟩) false, .call (.execute 1),
          .answer (.operation ⟨1, 0, some 1⟩) false, .call .commit, .answer .commit false,
          .call (.execute 1), .answer (.operation ⟨2, 0, none⟩) false] = some (some final) ∧
      Bracketed final.trace :=
  ⟨_, rfl, @bracketed_of_fits passive
    [.call .begin, .call (.execute 1), .answer .begin false,
      .answer (.operation ⟨0, 0, some 1⟩) false, .call (.execute 1),
      .answer (.operation ⟨1, 0, some 1⟩) false, .call .commit, .answer .commit false,
      .call (.execute 1), .answer (.operation ⟨2, 0, none⟩) false]
    _ (by decide) rfl⟩

/-- The operation of a transaction that is not the first use of the session is sent with no
transaction open. -/
theorem not_bracketed :
    ¬ ∀ (client : Client) (events : List Event) (final : World),
      run (Session.step client) none events = some (some final) → Bracketed final.trace := by
  intro hclaim
  have hbracketed := hclaim passive
    [.call (.execute 1), .answer (.operation ⟨0, 0, none⟩) false, .call .begin, .call (.execute 1)]
    _ rfl
  have hsent := hbracketed [.submitted ⟨0, 1, none⟩, .sent (.operation ⟨0, 0, none⟩),
    .completed ⟨0, 0, none⟩ .success, .batchCallback 0 none, .submitted ⟨1, 1, some 1⟩]
    ⟨1, 0, some 1⟩ [] (by decide)
  exact absurd (hsent.1 nofun).1 (by decide)

end DatabaseJones.Transaction
