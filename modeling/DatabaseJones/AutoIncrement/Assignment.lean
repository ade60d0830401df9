import DatabaseJones.AutoIncrement.Handler

/-!
# Every operation gets an answer

An operation that needs a value is to be asked for, waits in the queue of its table, or has
got an answer.  A handler counts those without an answer, so that it calls the final callback
when the last one gets it.
-/

namespace DatabaseJones.AutoIncrement

open DatabaseJones.Library
open DatabaseJones.QueuedAsyncCall (Call)

variable {τ : Type} [DecidableEq τ] {state : State τ} {table : τ} {call : Call Request}
  {value : UInt64}

/-! ## Reading the trace -/

theorem outstanding_append (table : τ) (first second : List (Output τ)) :
    outstanding table (first ++ second) = outstanding table first + outstanding table second := by
  unfold outstanding
  rw [List.countP_append, List.countP_append]
  push_cast
  ring

theorem outstanding_prefetched (table other : τ) :
    outstanding table [.prefetched other] = if other = table then 1 else 0 := by
  simp [outstanding, Output.prefetches, Output.sends, List.countP_singleton]

theorem outstanding_sent (table other : τ) (request : Request) :
    outstanding table [.sent other request] = if other = table then -1 else 0 := by
  by_cases h : other = table <;>
    simp [outstanding, Output.prefetches, Output.sends, h]

/-- Outputs about handlers neither prefetch nor send anything. -/
theorem outstanding_eq_zero {outputs : List (Output τ)}
    (h : ∀ output ∈ outputs, output.handler?.isSome) (table : τ) : outstanding table outputs = 0 := by
  have hnone : ∀ output ∈ outputs, ¬ (output.prefetches table = true) ∧ ¬ (output.sends table = true) := by
    intro output hmem
    have hsome := h output hmem
    cases output with
    | prefetched _ => exact nomatch hsome
    | sent _ _ => exact nomatch hsome
    | _ => exact ⟨Bool.false_ne_true, Bool.false_ne_true⟩
  rw [outstanding, List.countP_eq_zero.mpr fun output hmem => (hnone output hmem).1,
    List.countP_eq_zero.mpr fun output hmem => (hnone output hmem).2]
  rfl

/-- The size that a request is made with is one plus the requests outstanding. -/
def Sizes (trace : List (Output τ)) : Prop :=
  ∀ before table request, before ++ [.getValue table request] <+: trace →
    request.batchSize = 1 + outstanding table before

theorem Sizes.concat {trace : List (Output τ)} (h : Sizes trace) {output : Output τ}
    (houtput : ∀ table request, output = .getValue table request →
      request.batchSize = 1 + outstanding table trace) : Sizes (trace ++ [output]) := by
  intro before table request hbegins
  rcases List.prefix_concat_iff.mp hbegins with heq | hbegins
  · obtain ⟨rfl, hlast⟩ := List.append_inj' heq rfl
    exact houtput table request (List.cons.inj hlast).1.symm
  · exact h before table request hbegins

theorem Sizes.append {trace outputs : List (Output τ)} (h : Sizes trace)
    (houtputs : ∀ output ∈ outputs, output.handler?.isSome) : Sizes (trace ++ outputs) := by
  induction outputs generalizing trace with
  | nil => rwa [List.append_nil]
  | cons output outputs ih =>
      have hfirst := @Sizes.concat _ _ _ h output fun table request heq => by
        have hsome := houtputs output List.mem_cons_self
        rw [heq] at hsome
        exact nomatch hsome
      have hrest := ih hfirst fun other hmem => houtputs other (List.mem_cons_of_mem _ hmem)
      rwa [List.append_assoc] at hrest

/-! ## Caches -/

/-- The caches between two events, and the requests that were made of them. -/
structure Sized (state : State τ) : Prop where
  atRest : ∀ table, AtRest (state.caches table).execQueue
  batchSize : ∀ table, (state.caches table).batchSize = 1 + outstanding table state.trace
  sizes : Sizes state.trace
  sent : ∀ table request, .sent table request ∈ state.trace → .getValue table request ∈ state.trace
  asked : ∀ table, ∀ call ∈ (state.caches table).execQueue.queue,
    .getValue table call.data ∈ state.trace

theorem sized_init : Sized ({} : State τ) where
  atRest _ := atRest_init
  batchSize _ := rfl
  sizes before table request hbegins := by
    have := hbegins.length_le
    simp at this
  sent _ _ h := absurd h List.not_mem_nil
  asked _ _ h := absurd h List.not_mem_nil

/-- One cache changes, and the trace grows. -/
theorem Sized.update (h : Sized state) {after : State τ} {cache : Cache} {outputs : List (Output τ)}
    (hcaches : after.caches = Function.update state.caches table cache)
    (htrace : after.trace = state.trace ++ outputs) (hatRest : AtRest cache.execQueue)
    (hbatchSize : cache.batchSize = (state.caches table).batchSize + outstanding table outputs)
    (hother : ∀ other, other ≠ table → outstanding other outputs = 0)
    (hsizes : Sizes after.trace)
    (hsent : ∀ other request, .sent other request ∈ outputs →
      .getValue other request ∈ after.trace)
    (hasked : ∀ call ∈ cache.execQueue.queue, .getValue table call.data ∈ after.trace) :
    Sized after where
  atRest other := by
    rw [hcaches]
    by_cases heq : other = table
    · rw [heq, Function.update_self]
      exact hatRest
    · rw [Function.update_of_ne heq]
      exact h.atRest other
  batchSize other := by
    rw [hcaches, htrace, outstanding_append]
    by_cases heq : other = table
    · rw [heq, Function.update_self, hbatchSize, h.batchSize]
      ring
    · rw [Function.update_of_ne heq, h.batchSize, hother other heq]
      ring
  sizes := hsizes
  sent other request hmem := by
    have hsplit := hmem
    rw [htrace, List.mem_append] at hsplit
    rcases hsplit with hmem | hmem
    · rw [htrace]
      exact List.mem_append_left _ (h.sent other request hmem)
    · exact hsent other request hmem
  asked other call hmem := by
    by_cases heq : other = table
    · rw [hcaches, heq, Function.update_self] at hmem
      rw [heq]
      exact hasked call hmem
    · rw [hcaches, Function.update_of_ne heq] at hmem
      rw [htrace]
      exact List.mem_append_left _ (h.asked other call hmem)

theorem Sized.prefetch (h : Sized state) (table : τ) : Sized (state.prefetch table) := by
  refine h.update rfl rfl (h.atRest table) ?_ ?_ ?_ ?_ ?_
  · rw [outstanding_prefetched, if_pos rfl]
  · intro other hother
    rw [outstanding_prefetched, if_neg hother.symm]
  · exact h.sizes.concat fun _ _ heq => nomatch heq
  · exact fun _ _ hmem => nomatch List.mem_singleton.mp hmem
  · exact fun call hmem => List.mem_append_left _ (h.asked table call hmem)

/-- Outputs about handlers. -/
theorem Sized.append (h : Sized state) {after : State τ} {outputs : List (Output τ)}
    (hcaches : after.caches = state.caches) (htrace : after.trace = state.trace ++ outputs)
    (houtputs : ∀ output ∈ outputs, output.handler?.isSome) : Sized after where
  atRest other := hcaches ▸ h.atRest other
  batchSize other := by
    rw [hcaches, htrace, outstanding_append, outstanding_eq_zero houtputs, add_zero, h.batchSize]
  sizes := by
    rw [htrace]
    exact h.sizes.append houtputs
  sent other request hmem := by
    rw [htrace, List.mem_append] at hmem ⊢
    rcases hmem with hmem | hmem
    · exact Or.inl (h.sent other request hmem)
    · exact nomatch houtputs _ hmem
  asked other call hmem := by
    rw [hcaches] at hmem
    rw [htrace]
    exact List.mem_append_left _ (h.asked other call hmem)

theorem Sized.prefetchAll (h : Sized state) (opList : List (ℕ × τ)) :
    Sized (opList.foldl (fun state op => state.prefetch op.2) state) := by
  induction opList generalizing state with
  | nil => exact h
  | cons op rest ih => exact ih (h.prefetch op.2)

theorem Sized.newHandler (h : Sized state) (ops : List (Operation τ)) :
    Sized (state.newHandler ops) := by
  refine @Sized.append _ _ _ (h.prefetchAll (autoincOpList ops)) _ [.batch state.count ops] rfl rfl ?_
  exact fun _ hmem => List.mem_singleton.mp hmem ▸ rfl

theorem Sized.getValue (h : Sized state) (handler : ℕ) (op : ℕ × τ) :
    Sized (state.getValue handler op) := by
  obtain ⟨index, table⟩ := op
  obtain ⟨queue, call, hatRest, hdata, hqueue, hafter⟩ := getValue_spec (h.atRest table) handler index
  have hsizes : Sizes (state.trace ++ [.getValue table call.data]) := by
    refine h.sizes.concat fun other request heq => ?_
    injection heq with hother hrequest
    rw [← hother, ← hrequest, hdata]
    exact h.batchSize table
  have hasked : ∀ other ∈ queue.queue, ∀ outputs,
      .getValue table other.data ∈ state.trace ++ .getValue table call.data :: outputs := by
    intro other hmem outputs
    rw [hqueue, List.mem_append, List.mem_singleton] at hmem
    rcases hmem with hmem | rfl
    · exact List.mem_append_left _ (h.asked table other hmem)
    · exact List.mem_append_right _ List.mem_cons_self
  have hgetValue : ∀ other, outstanding other [.getValue table call.data] = 0 := fun _ => rfl
  have hpair : ∀ outputs, Output.getValue table call.data :: outputs =
      [.getValue table call.data] ++ outputs := fun _ => rfl
  rw [hafter]
  refine h.update rfl rfl hatRest ?_ ?_ ?_ ?_ fun other hmem => hasked other hmem _
  · rw [hpair, outstanding_append, hgetValue]
    split_ifs
    · rw [outstanding_sent, if_pos rfl, zero_add]
      rfl
    · rfl
  · intro other hother
    rw [hpair, outstanding_append, hgetValue]
    split_ifs
    · rw [outstanding_sent, if_neg hother.symm, zero_add]
    · rfl
  · split_ifs
    · have hsent := @Sizes.concat _ _ _ hsizes (.sent table call.data) fun _ _ heq => nomatch heq
      rwa [List.append_assoc] at hsent
    · exact hsizes
  · intro other request hmem
    split_ifs at hmem ⊢
    · simp only [List.mem_cons, reduceCtorEq, Output.sent.injEq, List.not_mem_nil, or_false,
        false_or] at hmem
      obtain ⟨rfl, rfl⟩ := hmem
      exact List.mem_append_right _ List.mem_cons_self
    · exact nomatch List.mem_singleton.mp hmem

theorem Sized.complete (h : Sized state) {after : State τ}
    (hstep : step state (.complete table call value) = some after) : Sized after := by
  obtain ⟨rest, returned, hqueue, hatRest, hleft, -, hafter⟩ :=
    step_complete_spec (h.atRest table) hstep
  have hrest : ∀ other ∈ rest, .getValue table other.data ∈ state.trace := by
    intro other hmem
    refine h.asked table other ?_
    rw [hqueue]
    exact List.mem_cons_of_mem _ hmem
  have hpopped : Sized
      { state with
        caches := Function.update state.caches table
          ⟨(state.caches table).batchSize - if rest = [] then 0 else 1, returned⟩
        trace := state.trace ++ rest.head?.toList.map fun next => .sent table next.data } := by
    refine h.update rfl rfl hatRest ?_ ?_ ?_ ?_ ?_
    · cases rest with
      | nil => exact (sub_zero (state.caches table).batchSize).trans (add_zero _).symm
      | cons next rest =>
          have hsent := outstanding_sent table table next.data
          rw [if_pos rfl] at hsent
          exact congrArg ((state.caches table).batchSize + ·) hsent.symm
    · intro other hother
      cases rest with
      | nil => rfl
      | cons next rest => exact (outstanding_sent other table next.data).trans (if_neg hother.symm)
    · cases rest with
      | nil => exact (List.append_nil state.trace).symm ▸ h.sizes
      | cons next rest => exact h.sizes.concat fun _ _ heq => nomatch heq
    · intro other request hmem
      cases rest with
      | nil => exact absurd hmem List.not_mem_nil
      | cons next rest =>
          injection List.mem_singleton.mp hmem with hother hrequest
          rw [hother, hrequest]
          exact List.mem_append_left _ (hrest next List.mem_cons_self)
    · intro other hmem
      rw [hleft] at hmem
      exact List.mem_append_left _ (hrest other hmem)
  rw [hafter]
  refine @Sized.append _ _ _ hpopped _ _ rfl rfl ?_
  intro output hmem
  rcases List.mem_cons.mp hmem with rfl | hmem
  · rfl
  · split_ifs at hmem
    · rw [List.mem_singleton.mp hmem]
      rfl
    · exact absurd hmem List.not_mem_nil

/-! ## Handlers -/

/-- How often a request for an operation of a handler waits in the queue of a table. -/
def requested (state : State τ) (handler index : ℕ) (table : τ) : ℕ :=
  (state.caches table).execQueue.queue.countP fun call =>
    call.data.handler = handler ∧ call.data.index = index

/-- What is observed of a handler after its answers. -/
def closing (handler : ℕ) (opList : List (ℕ × τ)) (answers : List (Answer τ)) : List (Output τ) :=
  if opList = [] then [.prepareOperations handler]
  else if answers.length = opList.length then [.final handler 0] else []

/-- Every operation of a handler is to be asked for, waits in a queue, or has an answer. -/
structure Balanced (operations : ℕ → List (Operation τ)) (answers : ℕ → List (Answer τ))
    (todo : ℕ → List (ℕ × τ)) (state : State τ) : Prop where
  opList : ∀ handler, (state.handlers handler).autoincOpList =
    if handler < state.count then autoincOpList (operations handler) else []
  needed : ∀ handler, (state.handlers handler).valuesNeeded =
    (state.handlers handler).autoincOpList.length - (answers handler).length
  errors : ∀ handler, (state.handlers handler).errors = 0
  told : ∀ handler, about Output.handler? handler state.trace =
    if handler < state.count then
      .batch handler (operations handler) :: (answers handler).map (Answer.output handler) ++
        closing handler (autoincOpList (operations handler)) (answers handler)
    else []
  balance : ∀ handler index table,
    (state.handlers handler).autoincOpList.count (index, table) =
      ((answers handler).map Answer.op).count (index, table) + requested state handler index table +
        (todo handler).count (index, table)

variable {operations : ℕ → List (Operation τ)} {answers : ℕ → List (Answer τ)}
  {todo : ℕ → List (ℕ × τ)}

theorem balanced_init : Balanced (fun _ => []) (fun _ => []) (fun _ => []) ({} : State τ) where
  opList _ := rfl
  needed _ := rfl
  errors _ := rfl
  told _ := rfl
  balance _ _ _ := rfl

/-- Outputs about no handler. -/
theorem Balanced.silent (h : Balanced operations answers todo state) {after : State τ}
    {outputs : List (Output τ)} (hhandlers : after.handlers = state.handlers)
    (hcount : after.count = state.count)
    (hqueue : ∀ table, (after.caches table).execQueue = (state.caches table).execQueue)
    (htrace : after.trace = state.trace ++ outputs)
    (houtputs : ∀ output ∈ outputs, output.handler? = none) :
    Balanced operations answers todo after where
  opList handler := by
    rw [hhandlers, hcount]
    exact h.opList handler
  needed handler := by
    rw [hhandlers]
    exact h.needed handler
  errors handler := by
    rw [hhandlers]
    exact h.errors handler
  told handler := by
    rw [htrace, about_append, about_of_forall_none houtputs, List.append_nil, hcount]
    exact h.told handler
  balance handler index table := by
    rw [hhandlers, requested, hqueue]
    exact h.balance handler index table

theorem Balanced.prefetch (h : Balanced operations answers todo state) (table : τ) :
    Balanced operations answers todo (state.prefetch table) := by
  refine h.silent rfl rfl ?_ rfl ?_
  · intro other
    rw [State.prefetch]
    by_cases heq : other = table
    · rw [heq]
      dsimp only
      rw [Function.update_self]
    · dsimp only
      rw [Function.update_of_ne heq]
  · exact fun output hmem => List.mem_singleton.mp hmem ▸ rfl

/-- The answers are to operations of the handler, at most one for each. -/
theorem Balanced.subperm (h : Balanced operations answers todo state) (handler : ℕ) :
    ((answers handler).map Answer.op).Subperm (state.handlers handler).autoincOpList := by
  rw [List.subperm_ext_iff]
  rintro ⟨index, table⟩ -
  rw [h.balance]
  omega

/-- A handler that waits for a request has not got all its answers. -/
theorem Balanced.length_lt (h : Balanced operations answers todo state) {handler index : ℕ}
    (hpos : 0 < requested state handler index table) :
    handler < state.count ∧
      (answers handler).length < (state.handlers handler).autoincOpList.length := by
  have hbalance := h.balance handler index table
  refine ⟨?_, ?_⟩
  · by_contra hge
    rw [h.opList, if_neg hge, List.count_nil] at hbalance
    omega
  · have hsubperm := h.subperm handler
    have hle := hsubperm.length_le
    rw [List.length_map] at hle
    refine lt_of_le_of_ne hle fun heq => ?_
    have hperm := hsubperm.perm_of_length_le (by rw [List.length_map, heq])
    have hcount := hperm.count_eq (index, table)
    omega

/-- Nothing is known of a handler that has not been created. -/
theorem Balanced.fresh (h : Balanced operations answers todo state) (handler : ℕ)
    (hfresh : state.count ≤ handler) : answers handler = [] ∧
      ∀ index table, requested state handler index table = 0 := by
  have hopList : (state.handlers handler).autoincOpList = [] := by
    rw [h.opList, if_neg (Nat.not_lt_of_le hfresh)]
  have hsubperm := h.subperm handler
  rw [hopList] at hsubperm
  refine ⟨List.map_eq_nil_iff.mp (List.subperm_nil.mp hsubperm), fun index table => ?_⟩
  have hbalance := h.balance handler index table
  rw [hopList, List.count_nil] at hbalance
  omega

theorem Balanced.prefetchAll (h : Balanced operations answers todo state)
    (opList : List (ℕ × τ)) :
    Balanced operations answers todo (opList.foldl (fun state op => state.prefetch op.2) state) ∧
      (opList.foldl (fun state op => state.prefetch op.2) state).count = state.count ∧
      (opList.foldl (fun state op => state.prefetch op.2) state).handlers = state.handlers := by
  induction opList generalizing state with
  | nil => exact ⟨h, rfl, rfl⟩
  | cons op rest ih => exact ih (h.prefetch op.2)

/-- A new handler has to ask for all its values; without any it is done at once. -/
theorem Balanced.create (h : Balanced operations answers (fun _ => []) state) {after : State τ}
    (ops : List (Operation τ))
    (hcaches : after.caches = state.caches) (hcount : after.count = state.count + 1)
    (hhandlers : after.handlers = Function.update state.handlers state.count
      { valuesNeeded := (autoincOpList ops).length, autoincOpList := autoincOpList ops })
    (htrace : after.trace = state.trace ++ .batch state.count ops ::
      if autoincOpList ops = [] then [.prepareOperations state.count] else []) :
    Balanced (Function.update operations state.count ops) answers
      (Function.update (fun _ => []) state.count (autoincOpList ops)) after := by
  obtain ⟨hanswers, hrequested⟩ := h.fresh state.count le_rfl
  have hlt : ∀ handler, handler ≠ state.count → (handler < state.count + 1 ↔ handler < state.count) := by
    intro handler hne
    omega
  refine ⟨?_, ?_, ?_, ?_, ?_⟩
  · intro handler
    rw [hhandlers, hcount]
    by_cases heq : handler = state.count
    · rw [heq, Function.update_self, Function.update_self, if_pos (Nat.lt_succ_self _)]
    · rw [Function.update_of_ne heq, Function.update_of_ne heq, h.opList,
        if_congr (hlt handler heq) rfl rfl]
  · intro handler
    rw [hhandlers]
    by_cases heq : handler = state.count
    · rw [heq, Function.update_self, hanswers]
      exact (sub_zero _).symm
    · rw [Function.update_of_ne heq]
      exact h.needed handler
  · intro handler
    rw [hhandlers]
    by_cases heq : handler = state.count
    · rw [heq, Function.update_self]
    · rw [Function.update_of_ne heq]
      exact h.errors handler
  · have houtputs : ∀ output ∈ Output.batch state.count ops ::
        if autoincOpList ops = [] then [.prepareOperations state.count] else [],
        output.handler? = some state.count := by
      split_ifs <;> simp [Output.handler?]
    intro handler
    rw [htrace, about_append, h.told, hcount]
    by_cases heq : handler = state.count
    · rw [heq, about_of_forall houtputs, if_neg (Nat.lt_irrefl _), if_pos (Nat.lt_succ_self _),
        Function.update_self, hanswers, List.nil_append, List.map_nil, closing]
      by_cases hempty : autoincOpList ops = []
      · rw [if_pos hempty, if_pos hempty]
        rfl
      · rw [if_neg hempty, if_neg hempty,
          if_neg fun hlength => hempty (List.eq_nil_of_length_eq_zero hlength.symm)]
        rfl
    · rw [about_of_forall_ne houtputs heq, List.append_nil, Function.update_of_ne heq,
        if_congr (hlt handler heq) rfl rfl]
  · intro handler index table
    rw [hhandlers, requested, hcaches]
    by_cases heq : handler = state.count
    · have hnone := hrequested index table
      rw [requested] at hnone
      rw [heq, Function.update_self, Function.update_self, hanswers, hnone]
      simp
    · rw [Function.update_of_ne heq, Function.update_of_ne heq]
      exact h.balance handler index table

/-- A request moves from the list of its handler to the queue of its table. -/
theorem Balanced.getValue (h : Balanced operations answers todo state) (hsized : Sized state)
    {handler : ℕ} {op : ℕ × τ} {rest : List (ℕ × τ)} (htodo : todo handler = op :: rest) :
    Balanced operations answers (Function.update todo handler rest) (state.getValue handler op) := by
  obtain ⟨index, table⟩ := op
  obtain ⟨queue, call, -, hdata, hqueue, hafter⟩ :=
    getValue_spec (hsized.atRest table) handler index
  have houtputs : ∀ output ∈ Output.getValue table call.data ::
      if (state.caches table).execQueue.queue = [] then [.sent table call.data] else [],
      output.handler? = none := by
    split_ifs <;> simp [Output.handler?]
  rw [hafter]
  refine ⟨h.opList, h.needed, h.errors, ?_, ?_⟩
  · intro other
    dsimp only
    rw [about_append, about_of_forall_none houtputs, List.append_nil]
    exact h.told other
  · intro other otherIndex otherTable
    have hbalance := h.balance other otherIndex otherTable
    rw [requested] at hbalance ⊢
    dsimp only
    by_cases hother : other = handler
    · rw [hother, htodo] at hbalance
      rw [hother, Function.update_self]
      by_cases htable : otherTable = table
      · rw [htable, List.count_cons] at hbalance
        rw [htable, Function.update_self, hqueue, List.countP_append, List.countP_singleton, hdata]
        simp only [beq_iff_eq, Prod.mk.injEq, and_true, true_and, decide_eq_true_eq] at hbalance ⊢
        omega
      · rw [List.count_cons_of_ne (by simp [Ne.symm htable])] at hbalance
        rw [Function.update_of_ne htable]
        exact hbalance
    · rw [Function.update_of_ne hother]
      by_cases htable : otherTable = table
      · rw [htable] at hbalance
        rw [htable, Function.update_self, hqueue, List.countP_append, List.countP_singleton, hdata]
        simp only [Ne.symm hother, false_and, decide_false, Bool.false_eq_true, if_false, add_zero]
        exact hbalance
      · rw [Function.update_of_ne htable]
        exact hbalance

/-- `getAllValues` asks for all values. -/
theorem getAll (opList : List (ℕ × τ)) (handler : ℕ) (hsized : Sized state)
    (h : Balanced operations answers todo state) (htodo : todo handler = opList) :
    Sized (opList.foldl (fun state op => state.getValue handler op) state) ∧
      Balanced operations answers (Function.update todo handler [])
        (opList.foldl (fun state op => state.getValue handler op) state) := by
  induction opList generalizing state todo with
  | nil =>
      have hupdate : Function.update todo handler [] = todo := by
        rw [← htodo, Function.update_eq_self]
      rw [hupdate]
      exact ⟨hsized, h⟩
  | cons op rest ih =>
      have hafter := ih (hsized.getValue handler op) (h.getValue hsized htodo)
        (Function.update_self _ _ _)
      rwa [Function.update_idem] at hafter

/-- A batch is executed. -/
theorem Balanced.execute (h : Balanced operations answers (fun _ => []) state) (hsized : Sized state)
    (ops : List (Operation τ)) : Sized (state.execute ops) ∧
      Balanced (Function.update operations state.count ops) answers (fun _ => [])
        (state.execute ops) := by
  obtain ⟨hbalanced, hcount, hhandlers⟩ := h.prefetchAll (autoincOpList ops)
  have hcreated : (state.newHandler ops).handlers state.count =
      { valuesNeeded := (autoincOpList ops).length, autoincOpList := autoincOpList ops } :=
    Function.update_self _ _ _
  have hclear : Function.update (fun _ : ℕ => ([] : List (ℕ × τ))) state.count [] = fun _ => [] :=
    Function.update_eq_self state.count _
  rw [State.execute, hcreated]
  by_cases hempty : autoincOpList ops = []
  · rw [if_neg (by simp [hempty])]
    have hcreate := @Balanced.create _ _ _ _ _ hbalanced
      { state.newHandler ops with
        trace := (state.newHandler ops).trace ++ [.prepareOperations state.count] } ops rfl
      (by rw [hcount]; rfl) (by rw [hcount, hhandlers]; rfl)
      (by rw [hcount, if_pos hempty]; exact List.append_assoc _ [_] [_])
    rw [hcount, hempty, hclear] at hcreate
    refine ⟨(hsized.newHandler ops).append rfl rfl ?_, hcreate⟩
    exact fun _ hmem => List.mem_singleton.mp hmem ▸ rfl
  · rw [if_pos (by simpa [List.length_pos_iff] using hempty), State.getAllValues, hcreated]
    have hcreate := @Balanced.create _ _ _ _ _ hbalanced (state.newHandler ops) ops rfl
      (by rw [hcount]; rfl) (by rw [hcount, hhandlers]; rfl)
      (by rw [hcount, if_neg hempty]; rfl)
    rw [hcount] at hcreate
    have hall := getAll (autoincOpList ops) state.count (hsized.newHandler ops) hcreate
      (Function.update_self _ _ _)
    rwa [Function.update_idem, hclear] at hall

/-- The first request of a queue gets its answer. -/
theorem Balanced.complete (h : Balanced operations answers (fun _ => []) state)
    (hsized : Sized state) {after : State τ}
    (hstep : step state (.complete table call value) = some after) :
    Balanced operations
      (Function.update answers call.data.handler (answers call.data.handler ++
        [⟨call.data.index, table, if toJS value > 0 then some (toJS value) else none⟩]))
      (fun _ => []) after := by
  obtain ⟨rest, returned, hqueue, -, hleft, -, hafter⟩ :=
    step_complete_spec (hsized.atRest table) hstep
  generalize hinsertId : (if toJS value > 0 then some (toJS value) else none) = insertId
  have hpos : 0 < requested state call.data.handler call.data.index table := by
    rw [requested, hqueue, List.countP_cons_of_pos (by simp)]
    exact Nat.succ_pos _
  obtain ⟨hlt, hlength⟩ := h.length_lt hpos
  have hneeded := h.needed call.data.handler
  have hopList := h.opList call.data.handler
  rw [if_pos hlt] at hopList
  have hsent : ∀ output ∈ rest.head?.toList.map fun next => Output.sent table next.data,
      output.handler? = none := by
    intro output hmem
    obtain ⟨next, -, rfl⟩ := List.mem_map.mp hmem
    rfl
  have hanswered : ∀ output ∈ Output.answered call.data.handler call.data.index table insertId ::
      if (state.handlers call.data.handler).valuesNeeded - 1 = 0 then
        [.final call.data.handler (state.handlers call.data.handler).errors] else [],
      output.handler? = some call.data.handler := by
    split_ifs <;> simp [Output.handler?]
  rw [hafter]
  simp only [State.operationCallback, hinsertId]
  refine ⟨?_, ?_, ?_, ?_, ?_⟩
  · intro handler
    dsimp only
    by_cases heq : handler = call.data.handler
    · rw [heq, Function.update_self]
      exact h.opList _
    · rw [Function.update_of_ne heq]
      exact h.opList handler
  · intro handler
    dsimp only
    by_cases heq : handler = call.data.handler
    · rw [heq, Function.update_self, Function.update_self, hneeded, List.length_append,
        List.length_singleton]
      push_cast
      ring
    · rw [Function.update_of_ne heq, Function.update_of_ne heq]
      exact h.needed handler
  · intro handler
    dsimp only
    by_cases heq : handler = call.data.handler
    · rw [heq, Function.update_self]
      exact h.errors _
    · rw [Function.update_of_ne heq]
      exact h.errors handler
  · intro handler
    dsimp only
    rw [about_append, about_append, about_of_forall_none hsent, List.append_nil, h.told]
    by_cases heq : handler = call.data.handler
    · rw [heq, about_of_forall hanswered, Function.update_self, if_pos hlt, if_pos hlt, closing,
        closing]
      have hnonempty : autoincOpList (operations call.data.handler) ≠ [] := by
        intro hnil
        rw [hopList, hnil] at hlength
        exact absurd hlength (Nat.not_lt_zero _)
      rw [hopList] at hlength hneeded
      have hlast : (state.handlers call.data.handler).valuesNeeded - 1 = 0 ↔
          (answers call.data.handler ++ [(⟨call.data.index, table, insertId⟩ : Answer τ)]).length =
            (autoincOpList (operations call.data.handler)).length := by
        rw [hneeded, List.length_append, List.length_singleton]
        omega
      rw [if_neg hnonempty, if_neg hnonempty, if_neg hlength.ne, if_congr hlast rfl rfl, h.errors,
        List.append_nil, List.map_append, List.cons_append, List.cons_append, List.append_assoc]
      rfl
    · rw [about_of_forall_ne hanswered heq, List.append_nil, Function.update_of_ne heq]
  · intro handler index other
    have hbalance := h.balance handler index other
    rw [requested] at hbalance ⊢
    dsimp only
    by_cases hhandler : handler = call.data.handler
    · rw [hhandler] at hbalance
      rw [hhandler, Function.update_self, Function.update_self, List.map_append, List.count_append,
        List.map_singleton, List.count_singleton]
      by_cases hother : other = table
      · rw [hother, hqueue, List.countP_cons] at hbalance
        rw [hother, Function.update_self, hleft, hbalance]
        simp only [true_and, decide_eq_true_eq, Answer.op, beq_iff_eq, Prod.mk.injEq, and_true]
        omega
      · rw [Function.update_of_ne hother, hbalance]
        simp [Answer.op, Ne.symm hother]
    · rw [Function.update_of_ne hhandler, Function.update_of_ne hhandler, hbalance]
      by_cases hother : other = table
      · rw [hother, hqueue, List.countP_cons, Function.update_self, hleft]
        simp [Ne.symm hhandler]
      · rw [Function.update_of_ne hother]

end DatabaseJones.AutoIncrement
