import DatabaseJones.Batch.Invariant
import DatabaseJones.UserContext.Reports

/-!
# Batches complete

As long as no operation of a batch fails before the batch is executed or cleared, every
operation is called back once and every batch after its operations.
-/

namespace DatabaseJones.Batch

open DatabaseJones.Library
open DatabaseJones.UserContext (DBError DBTableHandler Environment Request Step)

variable {S : Type} {state : State S} {outputs : List Output} {i b : ℕ}

/-! ## Outputs about operations -/

/-- Outputs about one operation throw nothing and call no batch back. -/
theorem Consistent.append (h : Consistent state)
    (hsubject : ∀ output ∈ outputs, ∃ i, output.subject? = some (.inl i)) :
    Batches state.batches state.numberOfBatches (state.trace ++ outputs) ∧
      .threw ∉ state.trace ++ outputs ∧ Last (state.trace ++ outputs) := by
  refine ⟨h.batches.append fun b output houtput hinr => ?_, fun hmem => ?_,
    h.last.append fun b err hmem => ?_⟩
  · obtain ⟨i, hi⟩ := hsubject output houtput
    exact Sum.inl_ne_inr (Option.some.inj (hi.symm.trans hinr))
  · rcases List.mem_append.mp hmem with hmem | hmem
    · exact h.silent hmem
    · obtain ⟨i, hi⟩ := hsubject _ hmem
      exact absurd hi (Option.some_ne_none _).symm
  · obtain ⟨i, hi⟩ := hsubject _ hmem
    exact Sum.inr_ne_inl (Option.some.inj hi)

/-- One operation changes. -/
theorem Consistent.update (h : Consistent state) {context : OperationContext S} (hi : i < state.size)
    (hsubject : ∀ output ∈ outputs, output.subject? = some (.inl i))
    (hhistory : History i context (ofContext i state.trace ++ outputs))
    (hawaiting : context.isAwaiting = false)
    (hcollected : i ∈ state.operationContexts → Collected context)
    (hbatch : ∀ b < state.numberOfBatches, i ∈ (state.batches b).operationContexts →
      InBatch b (state.batches b).stage context) :
    Consistent { state with
      contexts := Function.update state.contexts i context, trace := state.trace ++ outputs } := by
  obtain ⟨hbatches, hsilent, hlast⟩ := h.append fun output houtput => ⟨i, hsubject output houtput⟩
  exact
    { contexts := h.contexts.update le_rfl hi hsubject hhistory
      batches := hbatches
      members := h.members
      agrees := h.agrees.update context hcollected hbatch fun b htrue =>
        absurd htrue (by rw [hawaiting]; exact Bool.false_ne_true)
      silent := hsilent
      last := hlast }

/-- The counters depend on which operations are defined. -/
theorem Counted.congr {contexts changed : ℕ → OperationContext S} {batch : BatchContext}
    (h : Counted contexts batch)
    (hchanged : ∀ i ∈ batch.operationContexts, (changed i).operation = (contexts i).operation) :
    Counted changed batch := by
  intro hstage
  obtain ⟨hcount, hlt⟩ := h hstage
  refine ⟨hcount.trans (List.countP_congr fun i hi => ?_), hlt⟩
  rw [hchanged i hi]

/-- One more operation is defined. -/
theorem countP_update {contexts : ℕ → OperationContext S} {context : OperationContext S}
    {indices : List ℕ} (hnodup : indices.Nodup) (hmem : i ∈ indices)
    (hundefined : (contexts i).operation = false) (hdefined : context.operation = true) :
    indices.countP (fun j => (Function.update contexts i context j).operation) =
      indices.countP (fun j => (contexts j).operation) + 1 := by
  induction indices with
  | nil => exact absurd hmem List.not_mem_nil
  | cons head tail ih =>
      obtain ⟨hnotMem, hnodup⟩ := List.nodup_cons.mp hnodup
      by_cases heq : head = i
      · subst heq
        have hrest : tail.countP (fun j => (Function.update contexts head context j).operation) =
            tail.countP (fun j => (contexts j).operation) :=
          List.countP_congr fun j hj => by
            have hne : j ≠ head := fun heq => hnotMem (heq ▸ hj)
            rw [Function.update_of_ne hne]
        rw [List.countP_cons_of_pos (by simpa using hdefined),
          List.countP_cons_of_neg (by simp [hundefined]), hrest]
      · have hmem : i ∈ tail := (List.mem_cons.mp hmem).resolve_left fun h => heq h.symm
        rw [List.countP_cons, List.countP_cons, ih hnodup hmem, Function.update_of_ne heq]
        omega

/-! ## Execution -/

/-- A batch with a new counter is executed when all of its operations are defined. -/
theorem Consistent.executeBatchOnOperationDefined (h : Consistent state) {defined : ℕ}
    (hb : b < state.numberOfBatches) (hstage : (state.batches b).stage = .waiting)
    (hcount : (state.batches b).numberOfOperationsDefined + defined =
      (state.batches b).operationContexts.countP fun i => (state.contexts i).operation)
    (hcounted : ∀ c < state.numberOfBatches, c ≠ b → Counted state.contexts (state.batches c)) :
    Valid (state.executeBatchOnOperationDefined b defined) := by
  obtain ⟨hne, hhistory⟩ := (h.batches.history b hb).of_waiting hstage
  have hothers : ∀ batch : BatchContext, Counted state.contexts batch →
      ∀ c < state.numberOfBatches,
        Counted state.contexts (Function.update state.batches b batch c) := fun batch hbatch c hc => by
    by_cases heq : c = b
    · subst heq
      rw [Function.update_self]
      exact hbatch
    · rw [Function.update_of_ne heq]
      exact hcounted c hc heq
  have hsome : ∀ c < state.numberOfBatches, c = b ∨ c < state.numberOfBatches := fun _ hc =>
    Or.inr hc
  simp only [State.executeBatchOnOperationDefined]
  split_ifs with hall
  · have hdefined : ∀ i ∈ (state.batches b).operationContexts, (state.contexts i).operation = true :=
      List.countP_eq_length.mp (hcount.symm.trans hall)
    refine ⟨⟨h.contexts.append ?_, h.batches.change le_rfl hb hsome ?_ ?_, h.members.updateBatch rfl,
      h.agrees.updateBatch rfl ?_ ?_, ?_, h.last.concat ?_⟩, hothers _ ?_⟩
    · intro i output houtput
      obtain rfl := List.mem_singleton.mp houtput
      exact fun heq => Sum.inr_ne_inl (Option.some.inj heq)
    · intro c hc output houtput
      obtain rfl := List.mem_singleton.mp houtput
      exact fun heq => hc (Sum.inr.inj (Option.some.inj heq)).symm
    · rw [ofBatch_append, hhistory]
      have hself : ofBatch b [.executed b (state.batches b).operationContexts] =
          [.executed b (state.batches b).operationContexts] := about_singleton_self rfl
      rw [hself]
      exact .executing hne rfl
    · intro i hi
      have hin := h.agrees.inBatch b hb i hi
      rw [hstage] at hin
      exact ⟨hin.1, hdefined i hi, hin.2.1⟩
    · intro i hi hawaiting hclear
      have hnot := ((h.contexts.history i).of_isAwaiting hawaiting hclear).2.1
      exact absurd (hdefined i hi) (by rw [hnot]; exact Bool.false_ne_true)
    · intro hmem
      rcases List.mem_append.mp hmem with hmem | hmem
      · exact h.silent hmem
      · exact Output.noConfusion (List.mem_singleton.mp hmem)
    · exact fun c err heq => Output.noConfusion heq
    · exact fun hwaiting => Stage.noConfusion hwaiting
  · refine ⟨⟨h.contexts, h.batches.update ?_, h.members.updateBatch rfl,
      h.agrees.updateBatch rfl (h.agrees.inBatch b hb) fun _ _ _ _ => hstage, h.silent, h.last⟩,
      hothers _ fun _ => ⟨hcount, ?_⟩⟩
    · rw [hhistory]
      exact .waiting hne hstage
    · exact lt_of_le_of_ne (hcount ▸ List.countP_le_length) hall

/-! ## Table handlers -/

variable {environment : Environment S} {handler : Except DBError DBTableHandler}
  {request : Request S}

theorem onTableHandler_answered (hclear : (state.contexts i).clear = false)
    (hsettled : (state.contexts i).isSettled = false) (err : DBError) :
    state.onTableHandler i (some (.answered err)) = { state with
      contexts := Function.update state.contexts i { state.contexts i with isSettled := true }
      trace := state.trace ++ [.resolved i (some err), .callback i (some err)] } := by
  simp [State.onTableHandler, hclear, State.applyCallback, State.output, State.update, hsettled]

theorem onTableHandler_executed (hclear : (state.contexts i).clear = false)
    (hcallback : (state.contexts i).operationDefinedCallback = none) :
    state.onTableHandler i (some .executed) = { state with
      contexts := Function.update state.contexts i { state.contexts i with operation := true }
      trace := state.trace ++ [.resolved i none] } := by
  simp only [State.onTableHandler, hclear, Bool.false_eq_true, if_false, hcallback]
  rfl

theorem onTableHandler_executed_batch (hclear : (state.contexts i).clear = false)
    (hcallback : (state.contexts i).operationDefinedCallback = some b) :
    state.onTableHandler i (some .executed) = ({ state with
      contexts := Function.update state.contexts i { state.contexts i with operation := true }
      trace := state.trace ++ [.resolved i none] } : State S).executeBatchOnOperationDefined b 1 := by
  simp only [State.onTableHandler, hclear, Bool.false_eq_true, if_false, hcallback]
  rfl

/-- An operation is added to the batch. -/
theorem Valid.collect (h : Valid state) {context : OperationContext S} (hcollected : Collected context)
    (hsubject : ∀ output ∈ outputs, output.subject? = some (.inl state.size))
    (hhistory : History state.size context outputs) :
    Valid { state with
      contexts := Function.update state.contexts state.size context
      size := state.size + 1
      operationContexts := state.operationContexts ++ [state.size]
      trace := state.trace ++ outputs } := by
  obtain ⟨hbatches, hsilent, hlast⟩ :=
    h.append fun output houtput => ⟨state.size, hsubject output houtput⟩
  have hnotMem : state.size ∉ state.operationContexts := fun hmem =>
    lt_irrefl _ (h.members.lt _ hmem)
  have hnotBatch : ∀ b < state.numberOfBatches, state.size ∉ (state.batches b).operationContexts :=
    fun b hb hmem => lt_irrefl _ (h.members.batchLt b hb _ hmem)
  have hagrees := h.agrees.update context (fun hmem => absurd hmem hnotMem)
    (fun b hb hmem => absurd hmem (hnotBatch b hb)) fun b _ => by
      rw [hcollected.2.1]
      exact (Option.some_ne_none b).symm
  refine ⟨⟨h.contexts.update (Nat.le_succ _) (Nat.lt_succ_self _) hsubject ?_, hbatches,
    h.members.collect, hagrees.collect ?_, hsilent, hlast⟩, fun b hb =>
    (h.counted b hb).congr fun i hi => ?_⟩
  · rw [h.contexts.fresh _ le_rfl]
    exact hhistory
  · rw [Function.update_self]
    exact hcollected
  · have hne : i ≠ state.size := fun heq => hnotBatch b hb (heq ▸ hi)
    exact congrArg OperationContext.operation (Function.update_of_ne hne _ _)

theorem Valid.add (h : Valid state) {handler : Option (Except DBError DBTableHandler)}
    (hallowed : Allowed environment state (.add request handler)) :
    Valid (state.add environment request handler) := by
  have hcollect : ∀ step : Step,
      let resolved := ({ state.update state.size { request } with size := state.size + 1 } :
        State S).onTableHandler state.size (some step)
      Valid { resolved with
        operationContexts := resolved.operationContexts ++ [state.size] } := by
    intro step
    dsimp only
    cases step with
    | answered err =>
        rw [onTableHandler_answered (by simp [State.update]) (by simp [State.update])]
        simp only [State.update, Function.update_self, Function.update_idem]
        exact h.collect ⟨rfl, rfl, Or.inr (Or.inl rfl)⟩ (by simp [Output.subject?])
          (.failed err rfl rfl rfl rfl)
    | executed =>
        rw [onTableHandler_executed (by simp [State.update]) (by simp [State.update])]
        simp only [State.update, Function.update_self, Function.update_idem]
        exact h.collect ⟨rfl, rfl, Or.inl rfl⟩ (by simp [Output.subject?])
          (.defined rfl rfl rfl rfl)
  simp only [State.add]
  split
  · simp only [State.update, Function.update_idem]
    rw [← List.append_nil state.trace]
    exact h.collect ⟨rfl, rfl, Or.inr (Or.inr rfl)⟩ (fun _ hmem => absurd hmem List.not_mem_nil)
      (.waiting rfl rfl rfl)
  · rename_i hnot
    rcases hallowed with ⟨hneeds, hnone⟩ | hsome
    · exact (hnot hneeds hnone).elim
    · obtain ⟨step, hstep⟩ := Option.isSome_iff_exists.mp hsome
      rw [hstep, if_pos Option.isSome_some]
      exact hcollect step

/-- An operation that waits for its table handler is collected, or the batch waits for it. -/
theorem Valid.stage_of_isAwaiting (h : Valid state) (hawaiting : (state.contexts i).isAwaiting = true)
    (hclear : (state.contexts i).clear = false) (hb : b < state.numberOfBatches)
    (hi : i ∈ (state.batches b).operationContexts) : (state.batches b).stage = .waiting ∧
      (state.contexts i).operationDefinedCallback = some b := by
  obtain ⟨-, hoperation, -⟩ := (h.contexts.history i).of_isAwaiting hawaiting hclear
  have hin := h.agrees.inBatch b hb i hi
  cases hstage : (state.batches b).stage with
  | waiting =>
      rw [hstage] at hin
      rcases hin.2.2 with hdefined | ⟨-, hcallback⟩
      · exact absurd hdefined (by rw [hoperation]; exact Bool.false_ne_true)
      · exact ⟨rfl, hcallback⟩
  | executing =>
      rw [hstage] at hin
      exact absurd hin.2.1 (by rw [hoperation]; exact Bool.false_ne_true)
  | finished =>
      rw [hstage] at hin
      exact absurd hin.2.1 (by rw [hoperation]; exact Bool.false_ne_true)

/-- The table handler of an operation that was cleared. -/
theorem Valid.resolve_cleared (h : Valid state) (hi : i < state.size)
    (hclear : (state.contexts i).clear = true) :
    Valid (state.resolve environment i handler) := by
  have hresolve : state.resolve environment i handler = { state with
      contexts := Function.update state.contexts i { state.contexts i with isAwaiting := false }
      trace := state.trace ++ [] } := by
    simp [State.resolve, State.onTableHandler, State.update, hclear]
  rw [hresolve]
  refine ⟨h.update hi (fun _ hmem => absurd hmem List.not_mem_nil) ?_ rfl (fun hmem => ?_)
    fun b hb hmem => ?_, fun b hb => (h.counted b hb).congr fun j _ => ?_⟩
  · rw [List.append_nil]
    exact (h.contexts.history i).resolve_cleared hclear
  · exact absurd (h.agrees.collected i hmem).1 (by rw [hclear]; exact Bool.noConfusion)
  · exact absurd (h.agrees.inBatch b hb i hmem).clear_eq_false
      (by rw [hclear]; exact Bool.noConfusion)
  · by_cases heq : j = i
    · subst heq
      show (Function.update state.contexts j _ j).operation = _
      rw [Function.update_self]
    · exact congrArg OperationContext.operation (Function.update_of_ne heq _ _)

/-- The table handler of an operation that no batch waits for. -/
theorem Valid.resolve_collected (h : Valid state) {context : OperationContext S} (hi : i < state.size)
    (hawaiting : (state.contexts i).isAwaiting = true) (hclear : (state.contexts i).clear = false)
    (hcallback : (state.contexts i).operationDefinedCallback = none)
    (hsubject : ∀ output ∈ outputs, output.subject? = some (.inl i))
    (hhistory : History i context outputs) (hcollected : Collected context)
    (hdefined : context.isAwaiting = false) :
    Valid { state with
      contexts := Function.update state.contexts i context, trace := state.trace ++ outputs } := by
  have hempty := ((h.contexts.history i).of_isAwaiting hawaiting hclear).1
  have hnotBatch : ∀ b < state.numberOfBatches, i ∉ (state.batches b).operationContexts :=
    fun b hb hmem => by
      have hsome := (h.stage_of_isAwaiting hawaiting hclear hb hmem).2
      exact Option.some_ne_none b (hsome.symm.trans hcallback)
  refine ⟨h.update hi hsubject ?_ hdefined (fun _ => hcollected) fun b hb hmem =>
    absurd hmem (hnotBatch b hb), fun b hb => (h.counted b hb).congr fun j hj => ?_⟩
  · rw [hempty]
    exact hhistory
  · have hne : j ≠ i := fun heq => hnotBatch b hb (heq ▸ hj)
    exact congrArg OperationContext.operation (Function.update_of_ne hne _ _)

/-- The table handler of an operation that a batch waits for. -/
theorem Valid.resolve_batch (h : Valid state) (hi : i < state.size)
    (hawaiting : (state.contexts i).isAwaiting = true) (hclear : (state.contexts i).clear = false)
    (hcallback : (state.contexts i).operationDefinedCallback = some b) :
    Valid (({ state with
      contexts := Function.update state.contexts i
        { state.contexts i with isAwaiting := false, operation := true }
      trace := state.trace ++ [.resolved i none] } : State S).executeBatchOnOperationDefined b 1) := by
  obtain ⟨hempty, hoperation, hsettled⟩ := (h.contexts.history i).of_isAwaiting hawaiting hclear
  obtain ⟨hb, hmem, hstage⟩ := h.agrees.callback i b hawaiting hclear hcallback
  have hnotMem := h.members.notMem b hb i hmem
  refine Consistent.executeBatchOnOperationDefined (h.update hi ?_ ?_ rfl ?_ ?_) hb hstage ?_ ?_
  · exact fun output houtput => by rw [List.mem_singleton.mp houtput]; rfl
  · rw [hempty]
    exact .defined rfl rfl hsettled hclear
  · exact fun hcollected => absurd hcollected hnotMem
  · intro c hc hi
    obtain rfl := h.members.disjoint b hb c hc i hmem hi
    rw [hstage]
    exact ⟨hclear, hsettled, Or.inl rfl⟩
  · rw [countP_update (h.members.batchNodup b hb) hmem hoperation rfl]
    exact congrArg (· + 1) (h.counted b hb hstage).1
  · intro c hc hne
    refine (h.counted c hc).congr fun j hj => ?_
    have hji : j ≠ i := fun heq => hne (h.members.disjoint c hc b hb j hj (heq ▸ hmem))
    exact congrArg OperationContext.operation (Function.update_of_ne hji _ _)

theorem Valid.resolve (h : Valid state) (hi : i < state.size)
    (hawaiting : (state.contexts i).isAwaiting = true)
    (hallowed : Allowed environment state (.resolve i handler)) :
    Valid (state.resolve environment i handler) := by
  cases hclear : (state.contexts i).clear with
  | true => exact h.resolve_cleared hi hclear
  | false =>
      obtain ⟨-, hoperation, hsettled⟩ := (h.contexts.history i).of_isAwaiting hawaiting hclear
      have hexecuted : Valid ((state.update i
          { state.contexts i with isAwaiting := false }).onTableHandler i (some .executed)) := by
        cases hcallback : (state.contexts i).operationDefinedCallback with
        | none =>
            rw [onTableHandler_executed (by simpa [State.update] using hclear)
              (by simpa [State.update] using hcallback)]
            simp only [State.update, Function.update_self, Function.update_idem]
            exact h.resolve_collected hi hawaiting hclear hcallback (by simp [Output.subject?])
              (.defined rfl rfl hsettled hclear) ⟨hclear, hcallback, Or.inl rfl⟩ rfl
        | some b =>
            rw [onTableHandler_executed_batch (by simpa [State.update] using hclear)
              (by simpa [State.update] using hcallback)]
            simp only [State.update, Function.update_self, Function.update_idem]
            exact h.resolve_batch hi hawaiting hclear hcallback
      rw [State.resolve]
      rcases hallowed with hcleared | hstep | ⟨hcallback, hsome⟩
      · exact absurd hcleared (by rw [hclear]; exact Bool.false_ne_true)
      · rw [hstep]
        exact hexecuted
      · obtain ⟨step, hstep⟩ := Option.isSome_iff_exists.mp hsome
        rw [hstep]
        cases step with
        | executed => exact hexecuted
        | answered err =>
            rw [onTableHandler_answered (by simpa [State.update] using hclear)
              (by simpa [State.update] using hsettled)]
            simp only [State.update, Function.update_self, Function.update_idem]
            exact h.resolve_collected hi hawaiting hclear hcallback (by simp [Output.subject?])
              (.failed err rfl hoperation rfl hclear) ⟨hclear, hcallback, Or.inr (Or.inl rfl)⟩ rfl

/-! ## Clearing, executing and completing a batch -/

/-- Some contexts change and add their outputs. -/
theorem forEach_eq {call : State S → ℕ → State S × Bool}
    (change : ℕ → OperationContext S → OperationContext S) (news : ℕ → List Output)
    (hcall : ∀ state i, (state.contexts i).isSettled = false →
      call state i = ({ state with
        contexts := Function.update state.contexts i (change i (state.contexts i))
        trace := state.trace ++ news i }, false))
    {indices : List ℕ} (hnodup : indices.Nodup)
    (hunsettled : ∀ i ∈ indices, (state.contexts i).isSettled = false) :
    forEach call indices state = ({ state with
      contexts := fun i =>
        if i ∈ indices then change i (state.contexts i) else state.contexts i
      trace := state.trace ++ indices.flatMap news }, false) := by
  induction indices generalizing state with
  | nil => simp [forEach]
  | cons head tail ih =>
      obtain ⟨hnotMem, hnodup⟩ := List.nodup_cons.mp hnodup
      have hne : ∀ i ∈ tail, i ≠ head := fun i hi heq => hnotMem (heq ▸ hi)
      rw [forEach, hcall state head (hunsettled head List.mem_cons_self)]
      simp only [Bool.false_eq_true, if_false]
      have hrest : ∀ i ∈ tail, (Function.update state.contexts head
          (change head (state.contexts head)) i).isSettled = false := fun i hi => by
        rw [Function.update_of_ne (hne i hi)]
        exact hunsettled i (List.mem_cons_of_mem _ hi)
      rw [ih hnodup hrest]
      simp only [List.append_assoc, List.flatMap_cons]
      congr 2
      funext i
      by_cases heq : i = head
      · subst heq
        rw [if_neg hnotMem, if_pos List.mem_cons_self, Function.update_self]
      · rw [Function.update_of_ne heq]
        simp [heq]

theorem Valid.clear (h : Valid state) (hallowed : Allowed environment state .clear) :
    Valid state.clear := by
  let news (i : ℕ) : List Output := [.cleared i, .callback i (some clearError)]
  let changed (i : ℕ) : OperationContext S :=
    if i ∈ state.operationContexts then { state.contexts i with clear := true, isSettled := true }
    else state.contexts i
  have hclear : state.clear = { state with
      contexts := changed
      operationContexts := []
      trace := state.trace ++ state.operationContexts.flatMap news } := by
    rw [State.clear, forEach_eq (fun _ context => { context with clear := true, isSettled := true })
      news (fun state i hsettled => by
        simp [State.clearContext, State.applyCallback, State.output, State.update, hsettled, news])
      h.members.nodup hallowed]
    rfl
  have hsubject : ∀ i, ∀ output ∈ news i, output.subject? = some (.inl i) := by
    simp [news, Output.subject?]
  have hkept : ∀ i, i ∉ state.operationContexts → changed i = state.contexts i := fun i hi =>
    if_neg hi
  have hchanged : ∀ i ∈ state.operationContexts, changed i =
      { state.contexts i with clear := true, isSettled := true } := fun i hi => if_pos hi
  obtain ⟨hbatches, hsilent, hlast⟩ := h.append fun output houtput => by
    obtain ⟨i, -, houtput⟩ := List.mem_flatMap.mp houtput
    exact ⟨i, hsubject i output houtput⟩
  have hcontexts := h.contexts.change h.members.nodup le_rfl h.members.lt hsubject hkept fun i hi => by
    rw [hchanged i hi]
    exact (h.contexts.history i).clear (hallowed i hi)
  have hagrees := h.agrees.clear hkept (fun i hi => by rw [hchanged i hi]) h.members.notMem
  rw [hclear]
  exact ⟨⟨hcontexts, hbatches, h.members.clear, hagrees, hsilent, hlast⟩,
    fun b hb => (h.counted b hb).congr fun i hi =>
      congrArg OperationContext.operation (hkept i (h.members.notMem b hb i hi))⟩

/-- What a batch that is executed adds to the trace. -/
theorem Valid.started (h : Valid state) (batch : BatchContext)
    (hbatch : BatchHistory state.numberOfBatches batch outputs)
    (hsubject : ∀ output ∈ outputs, output.subject? = some (.inr state.numberOfBatches)) :
    Contexts state.contexts state.size (state.trace ++ outputs) ∧
      Batches (Function.update state.batches state.numberOfBatches batch)
        (state.numberOfBatches + 1) (state.trace ++ outputs) ∧ .threw ∉ state.trace ++ outputs := by
  refine ⟨h.contexts.append fun i output houtput hinl => ?_,
    h.batches.change (Nat.le_succ _) (Nat.lt_succ_self _) (fun c hc => ?_)
      (fun c hc output houtput hinr => ?_) ?_, fun hmem => ?_⟩
  · exact Sum.inr_ne_inl (Option.some.inj ((hsubject output houtput).symm.trans hinl))
  · exact (Nat.lt_succ_iff_lt_or_eq.mp hc).symm
  · exact hc (Sum.inr.inj (Option.some.inj ((hsubject output houtput).symm.trans hinr))).symm
  · have hself : ofBatch state.numberOfBatches outputs = outputs := about_of_forall hsubject
    rw [ofBatch_append, h.batches.fresh _ le_rfl, hself]
    exact hbatch
  · rcases List.mem_append.mp hmem with hmem | hmem
    · exact h.silent hmem
    · exact absurd (hsubject _ hmem) (Option.some_ne_none _).symm

/-- The other batches keep their counters. -/
theorem Valid.counted_update (h : Valid state) {contexts : ℕ → OperationContext S}
    {batch : BatchContext} (hchanged : ∀ i, (contexts i).operation = (state.contexts i).operation) :
    ∀ b < state.numberOfBatches + 1, b ≠ state.numberOfBatches →
      Counted contexts (Function.update state.batches state.numberOfBatches batch b) := by
  intro b hb hne
  rw [Function.update_of_ne hne]
  have hlt : b < state.numberOfBatches := lt_of_le_of_ne (Nat.le_of_lt_succ hb) hne
  exact (h.counted b hlt).congr fun i _ => hchanged i

/-- A batch without operations. -/
theorem Valid.execute_empty (h : Valid state) (hempty : state.operationContexts = []) :
    Valid state.execute := by
  have hexecute : state.execute = { state with
      operationContexts := []
      batches := Function.update state.batches state.numberOfBatches { stage := .finished }
      numberOfBatches := state.numberOfBatches + 1
      trace := state.trace ++ [.started state.numberOfBatches [],
        .batchCallback state.numberOfBatches none] } := by
    simp [State.execute, State.output, State.updateBatch, hempty]
  obtain ⟨hcontexts, hbatches, hsilent⟩ := h.started { stage := .finished }
    (.empty rfl rfl) (by simp [Output.subject?])
  have hmembers := h.members.execute { stage := .finished } hempty.symm
  have hagrees := h.agrees.execute { stage := .finished } hempty.symm (fun _ _ => rfl)
    (by simp [hempty]) (by simp [hempty]) h.members.notMem
  rw [hexecute]
  refine ⟨⟨hcontexts, hbatches, hmembers, hagrees, hsilent, ?_⟩, fun b hb => ?_⟩
  · show Last (state.trace ++ [_, _])
    rw [List.append_cons]
    refine (h.last.append (by simp)).concat fun b err heq => ?_
    obtain ⟨rfl, -⟩ := Output.batchCallback.inj heq
    exact ⟨[], by simp, fun i hi => absurd hi List.not_mem_nil⟩
  · by_cases hne : b = state.numberOfBatches
    · subst hne
      show Counted _ (Function.update state.batches _ _ _)
      rw [Function.update_self]
      exact fun hwaiting => Stage.noConfusion hwaiting
    · exact h.counted_update (fun _ => rfl) b hb hne

theorem Valid.execute (h : Valid state) (hallowed : Allowed environment state .execute) :
    Valid state.execute := by
  by_cases hempty : state.operationContexts = []
  · exact h.execute_empty hempty
  let changed (i : ℕ) : OperationContext S :=
    if i ∈ state.operationContexts ∧ (state.contexts i).operation = false then
      { state.contexts i with operationDefinedCallback := some state.numberOfBatches }
    else state.contexts i
  let batch : BatchContext :=
    { operationContexts := state.operationContexts
      numberOfOperationsDefined :=
        state.operationContexts.countP fun i => (state.contexts i).operation }
  have hexecute : state.execute = ({ state with
      contexts := changed
      operationContexts := []
      batches := Function.update state.batches state.numberOfBatches batch
      numberOfBatches := state.numberOfBatches + 1
      trace := state.trace ++ [.started state.numberOfBatches state.operationContexts] } :
        State S).executeBatchOnOperationDefined state.numberOfBatches 0 := by
    simp only [State.execute, if_neg hempty]
    rfl
  have hoperation : ∀ i, (changed i).operation = (state.contexts i).operation := fun i => by
    simp only [changed]
    split_ifs <;> rfl
  have hkept : ∀ i, i ∉ state.operationContexts → changed i = state.contexts i := fun i hi =>
    if_neg fun hmem => hi hmem.1
  have hchanged : ∀ i ∈ state.operationContexts, (state.contexts i).operation = true ∧
        changed i = state.contexts i ∨ (state.contexts i).isAwaiting = true ∧ changed i =
          { state.contexts i with operationDefinedCallback := some state.numberOfBatches } := by
    intro i hi
    cases hdefined : (state.contexts i).operation with
    | true => exact Or.inl ⟨rfl, if_neg fun hmem => by simp [hdefined] at hmem⟩
    | false =>
        obtain ⟨-, -, hoperation | hsettled | hawaiting⟩ := h.agrees.collected i hi
        · exact absurd hoperation (by rw [hdefined]; exact Bool.false_ne_true)
        · exact absurd hsettled (by rw [hallowed i hi]; exact Bool.false_ne_true)
        · exact Or.inr ⟨hawaiting, if_pos ⟨hi, hdefined⟩⟩
  obtain ⟨hcontexts, hbatches, hsilent⟩ := h.started batch (.waiting hempty rfl)
    (by simp [Output.subject?, batch])
  have hhistories := hcontexts.congr changed fun i outputs hhistory => by
    by_cases hi : i ∈ state.operationContexts
    · obtain ⟨-, heq⟩ | ⟨-, heq⟩ := hchanged i hi
      · rw [heq]
        exact hhistory
      · rw [heq]
        exact hhistory.setCallback _
    · rw [hkept i hi]
      exact hhistory
  have hin : ∀ i ∈ state.operationContexts,
      InBatch state.numberOfBatches batch.stage (changed i) := by
    intro i hi
    have hclear := (h.agrees.collected i hi).1
    obtain ⟨hdefined, heq⟩ | ⟨hawaiting, heq⟩ := hchanged i hi
    · rw [heq]
      exact ⟨hclear, hallowed i hi, Or.inl hdefined⟩
    · rw [heq]
      exact ⟨hclear, hallowed i hi, Or.inr ⟨hawaiting, rfl⟩⟩
  have hcallback : ∀ i ∈ state.operationContexts, ∀ b, (changed i).isAwaiting = true →
      (changed i).operationDefinedCallback = some b →
        b = state.numberOfBatches ∧ batch.stage = .waiting := by
    intro i hi b _ hsome
    obtain ⟨-, heq⟩ | ⟨-, heq⟩ := hchanged i hi
    · rw [heq, (h.agrees.collected i hi).2.1] at hsome
      exact absurd hsome.symm (Option.some_ne_none b)
    · rw [heq] at hsome
      exact ⟨(Option.some.inj hsome).symm, rfl⟩
  have hagrees := h.agrees.execute batch rfl hkept hin hcallback h.members.notMem
  rw [hexecute]
  refine Consistent.executeBatchOnOperationDefined ⟨hhistories, hbatches, h.members.execute batch rfl,
    hagrees, hsilent, h.last.append (by simp)⟩ (Nat.lt_succ_self _) ?_ ?_
    (h.counted_update hoperation)
  · show (Function.update state.batches _ batch _).stage = _
    rw [Function.update_self]
  · show (Function.update state.batches _ batch _).numberOfOperationsDefined + 0 =
      (Function.update state.batches _ batch _).operationContexts.countP _
    rw [Function.update_self]
    refine List.countP_congr fun i _ => ?_
    rw [hoperation i]

theorem Valid.complete (h : Valid state) (hb : b < state.numberOfBatches)
    (hstage : (state.batches b).stage = .executing) (errs : ℕ → Option DBError)
    (err : Option DBError) : Valid (state.complete b errs err) := by
  let operationContexts := (state.batches b).operationContexts
  let news (i : ℕ) : List Output := [.callback i (errs i)]
  let changed (i : ℕ) : OperationContext S :=
    if i ∈ operationContexts then { state.contexts i with isSettled := true }
    else state.contexts i
  let batch : BatchContext := { state.batches b with stage := .finished }
  have hin : ∀ i ∈ operationContexts, (state.contexts i).clear = false ∧
      (state.contexts i).operation = true ∧ (state.contexts i).isSettled = false := fun i hi => by
    have hin := h.agrees.inBatch b hb i hi
    rw [hstage] at hin
    exact hin
  have hcall : ∀ (state : State S) i, (state.contexts i).isSettled = false →
      state.applyCallback i (errs i) = ({ state with
        contexts := Function.update state.contexts i { state.contexts i with isSettled := true }
        trace := state.trace ++ news i }, false) := fun state i hsettled => by
    simp [State.applyCallback, State.output, State.update, hsettled, news]
  have hcomplete : state.complete b errs err = { state with
      contexts := changed
      batches := Function.update state.batches b batch
      trace := state.trace ++ [.completed b] ++ operationContexts.flatMap news ++
        [.batchCallback b err] } := by
    have hforEach := forEach_eq (fun _ context => { context with isSettled := true }) news hcall
      (h.members.batchNodup b hb) (show ∀ i ∈ operationContexts,
        ((state.output (.completed b)).contexts i).isSettled = false from fun i hi => (hin i hi).2.2)
    rw [State.complete, hforEach]
    rfl
  have hkept : ∀ i, i ∉ operationContexts → changed i = state.contexts i := fun i hi => if_neg hi
  have hchanged : ∀ i ∈ operationContexts, changed i =
      { state.contexts i with isSettled := true } := fun i hi => if_pos hi
  have hsubject : ∀ i, ∀ output ∈ news i, output.subject? = some (.inl i) := by
    simp [news, Output.subject?]
  have hcalled : ∀ output ∈ operationContexts.flatMap news,
      ∃ i, output.subject? = some (.inl i) := fun output houtput => by
    obtain ⟨i, -, houtput⟩ := List.mem_flatMap.mp houtput
    exact ⟨i, hsubject i output houtput⟩
  -- the callbacks of the operations come before that of the batch
  have hcontexts : Contexts changed state.size
      (state.trace ++ [.completed b] ++ operationContexts.flatMap news) := by
    refine (h.contexts.append (by simp [Output.subject?])).change (h.members.batchNodup b hb) le_rfl
      (h.members.batchLt b hb) hsubject hkept fun i hi => ?_
    have hnone : ofContext i [.completed b] = [] :=
      about_singleton_of_ne (by simp [Output.subject?])
    rw [hchanged i hi, ofContext_append, hnone, List.append_nil]
    exact (h.contexts.history i).complete (hin i hi).2.2 (hin i hi).2.1 (errs i)
  have hcallbacks : ∀ i ∈ operationContexts, (callbacksOf i
      (state.trace ++ [.completed b] ++ operationContexts.flatMap news)).length = 1 := by
    intro i hi
    rw [← callbacksOf_ofContext, (hcontexts.history i).length_callbacksOf, hchanged i hi]
    rfl
  have hbatches : Batches (Function.update state.batches b batch) state.numberOfBatches
      (state.trace ++ ([.completed b] ++ operationContexts.flatMap news ++
        [.batchCallback b err])) := by
    refine h.batches.change le_rfl hb (fun _ => Or.inr) (fun c hc output houtput hinr => ?_) ?_
    · simp only [List.mem_append, List.mem_singleton] at houtput
      obtain (rfl | houtput) | rfl := houtput
      · exact hc (Sum.inr.inj (Option.some.inj hinr)).symm
      · obtain ⟨i, hi⟩ := hcalled output houtput
        exact Sum.inl_ne_inr (Option.some.inj (hi.symm.trans hinr))
      · exact hc (Sum.inr.inj (Option.some.inj hinr)).symm
    · obtain ⟨hne, hhistory⟩ := (h.batches.history b hb).of_executing hstage
      have hcompleted : ofBatch b [.completed b] = [.completed b] := about_singleton_self rfl
      have hflatMap : ofBatch b (operationContexts.flatMap news) = [] :=
        about_flatMap_of_notMem hsubject fun _ _ => Sum.inl_ne_inr
      have hcalledBack : ofBatch b [.batchCallback b err] = [.batchCallback b err] :=
        about_singleton_self rfl
      rw [ofBatch_append, ofBatch_append, ofBatch_append, hhistory, hcompleted, hflatMap, hcalledBack]
      exact .finished err hne rfl
  have hawaiting : ∀ i ∈ operationContexts, (changed i).isAwaiting = false := by
    intro i hi
    obtain ⟨-, ⟨hnot, -⟩ | ⟨hawaiting, -⟩⟩ :=
      (h.contexts.history i).of_not_isSettled (hin i hi).2.2
    · exact absurd (hin i hi).2.1 (by rw [hnot]; exact Bool.false_ne_true)
    · rw [hchanged i hi]
      exact hawaiting
  have hfinished : ∀ i ∈ operationContexts, InBatch b batch.stage (changed i) := by
    intro i hi
    rw [hchanged i hi]
    exact ⟨(hin i hi).1, (hin i hi).2.1, rfl⟩
  have hagrees := h.agrees.complete batch rfl hkept hfinished hawaiting
    (fun i hi hmem => h.members.notMem b hb i hmem hi)
    (fun c hc hne i hi hmem => hne (h.members.disjoint c hc b hb i hi hmem))
    (by rw [hstage]; exact Stage.noConfusion)
  have hsilent : .threw ∉ state.trace ++ [.completed b] ++ operationContexts.flatMap news ++
      [.batchCallback b err] := by
    simp only [List.mem_append, List.mem_singleton]
    rintro (((hmem | hmem) | hmem) | hmem)
    · exact h.silent hmem
    · exact Output.noConfusion hmem
    · obtain ⟨i, hi⟩ := hcalled _ hmem
      exact (Option.some_ne_none _).symm hi
    · exact Output.noConfusion hmem
  have hstarted : .started b operationContexts ∈ state.trace :=
    mem_of_mem_about (h.batches.history b hb).started_mem
  have hlast : Last (state.trace ++ [.completed b] ++ operationContexts.flatMap news ++
      [.batchCallback b err]) := by
    refine ((h.last.append (by simp)).append fun c error hmem => ?_).concat fun c error heq => ?_
    · obtain ⟨i, hi⟩ := hcalled _ hmem
      exact Sum.inr_ne_inl (Option.some.inj hi)
    · obtain ⟨rfl, -⟩ := Output.batchCallback.inj heq
      exact ⟨operationContexts, by simp [hstarted], hcallbacks⟩
  rw [hcomplete]
  refine ⟨⟨hcontexts.append (by simp [Output.subject?]), ?_, h.members.updateBatch rfl, hagrees,
    hsilent, hlast⟩, fun c hc => ?_⟩
  · simpa only [List.append_assoc] using hbatches
  · by_cases hne : c = b
    · subst hne
      show Counted _ (Function.update state.batches _ _ _)
      rw [Function.update_self]
      exact fun hwaiting => Stage.noConfusion hwaiting
    · show Counted _ (Function.update state.batches _ _ _)
      rw [Function.update_of_ne hne]
      refine (h.counted c hc).congr fun i hi => congrArg OperationContext.operation (hkept i ?_)
      exact fun hmem => hne (h.members.disjoint c hc b hb i hi hmem)

theorem Valid.step (h : Valid state) {event : Event S} {next : State S}
    (hallowed : Allowed environment state event)
    (hstep : Batch.step environment state event = some next) : Valid next := by
  cases event with
  | add request handler =>
      obtain ⟨-, rfl⟩ : isBatchable request = true ∧ state.add environment request handler = next := by
        simpa [Batch.step] using hstep
      exact h.add hallowed
  | resolve i handler =>
      obtain ⟨⟨hi, hawaiting⟩, rfl⟩ : (i < state.size ∧ (state.contexts i).isAwaiting = true) ∧
          state.resolve environment i handler = next := by
        simpa [Batch.step] using hstep
      exact h.resolve hi hawaiting hallowed
  | execute =>
      obtain rfl : state.execute = next := Option.some.inj hstep
      exact h.execute hallowed
  | clear =>
      obtain rfl : state.clear = next := Option.some.inj hstep
      exact h.clear hallowed
  | complete b errs err =>
      obtain ⟨⟨hb, hstage⟩, rfl⟩ : (b < state.numberOfBatches ∧
          (state.batches b).stage = .executing) ∧ state.complete b errs err = next := by
        simpa [Batch.step] using hstep
      exact h.complete hb hstage errs err

theorem Valid.start (request : Request S) : Valid (State.start request) where
  contexts := ⟨fun _ => .waiting rfl rfl rfl, fun _ _ => rfl⟩
  batches := ⟨fun b hb => absurd hb (Nat.not_lt_zero b), fun _ _ => rfl⟩
  members :=
    { nodup := List.nodup_nil
      lt := fun _ hi => absurd hi List.not_mem_nil
      batchNodup := fun b hb => absurd hb (Nat.not_lt_zero b)
      batchLt := fun b hb => absurd hb (Nat.not_lt_zero b)
      notMem := fun b hb => absurd hb (Nat.not_lt_zero b)
      disjoint := fun b hb => absurd hb (Nat.not_lt_zero b) }
  agrees :=
    { collected := fun _ hi => absurd hi List.not_mem_nil
      inBatch := fun b hb => absurd hb (Nat.not_lt_zero b)
      callback := fun _ _ hawaiting => absurd hawaiting Bool.false_ne_true }
  silent := List.not_mem_nil
  last before b err hbegins := by
    have hnil := List.prefix_nil.mp hbegins
    simp at hnil
  counted b hb := absurd hb (Nat.not_lt_zero b)

/-! ## Completion -/

/-- A batch of which the trace tells was executed. -/
theorem Valid.lt_numberOfBatches (h : Valid state) {output : Output} (hmem : output ∈ state.trace)
    (hsubject : output.subject? = some (.inr b)) : b < state.numberOfBatches := by
  by_contra hnot
  have hfresh := h.batches.fresh b (not_lt.mp hnot)
  have habout := (mem_ofBatch hsubject).mpr hmem
  rw [hfresh] at habout
  exact List.not_mem_nil habout

theorem Valid.started_batch (h : Valid state) {contexts : List ℕ}
    (hmem : .started b contexts ∈ state.trace) :
    b < state.numberOfBatches ∧ contexts = (state.batches b).operationContexts := by
  have hb := h.lt_numberOfBatches hmem rfl
  exact ⟨hb, (h.batches.history b hb).started ((mem_ofBatch rfl).mpr hmem)⟩

theorem Valid.executed_batch (h : Valid state) {contexts : List ℕ}
    (hmem : .executed b contexts ∈ state.trace) : b < state.numberOfBatches ∧
      contexts = (state.batches b).operationContexts ∧ (state.batches b).stage ≠ .waiting ∧
        executions b state.trace = 1 := by
  have hb := h.lt_numberOfBatches hmem rfl
  have hhistory := (h.batches.history b hb).executed ((mem_ofBatch rfl).mpr hmem)
  rw [executions_ofBatch] at hhistory
  exact ⟨hb, hhistory⟩

/-- A batch does not wait when its operations are resolved. -/
theorem Valid.stage_of_resolved (h : Valid state) (hb : b < state.numberOfBatches)
    (hresolved : ∀ i ∈ (state.batches b).operationContexts, IsResolved i state.trace) :
    (state.batches b).stage ≠ .waiting := by
  intro hstage
  obtain ⟨hcount, hlt⟩ := h.counted b hb hstage
  have hdefined : ∀ i ∈ (state.batches b).operationContexts,
      (state.contexts i).operation = true := fun i hi => by
    have hin := h.agrees.inBatch b hb i hi
    rw [hstage] at hin
    obtain ⟨err, hmem⟩ := hresolved i hi
    rcases (h.contexts.history i).of_resolved ((mem_ofContext rfl).mpr hmem) with hdefined | hsettled
    · exact hdefined
    · exact absurd hsettled (by rw [hin.2.1]; exact Bool.false_ne_true)
  exact absurd hlt (by rw [hcount, List.countP_eq_length.mpr hdefined]; exact lt_irrefl _)

/-- The operations of a batch that does not wait are defined. -/
theorem Valid.defined (h : Valid state) (hb : b < state.numberOfBatches)
    (hstage : (state.batches b).stage ≠ .waiting) (hi : i ∈ (state.batches b).operationContexts) :
    (state.contexts i).operation = true := by
  have hin := h.agrees.inBatch b hb i hi
  cases heq : (state.batches b).stage with
  | waiting => exact absurd heq hstage
  | executing =>
      rw [heq] at hin
      exact hin.2.1
  | finished =>
      rw [heq] at hin
      exact hin.2.1

theorem Valid.length_callbacksOf (h : Valid state) (i : ℕ) :
    (callbacksOf i state.trace).length = if (state.contexts i).isSettled then 1 else 0 := by
  rw [← callbacksOf_ofContext]
  exact (h.contexts.history i).length_callbacksOf

theorem Valid.length_batchCallbacksOf (h : Valid state) (hb : b < state.numberOfBatches) :
    (batchCallbacksOf b state.trace).length =
      if (state.batches b).stage = .finished then 1 else 0 := by
  rw [← batchCallbacksOf_ofBatch]
  exact (h.batches.history b hb).length_batchCallbacksOf

theorem Valid.completes (h : Valid state) : Completes state.trace := by
  refine ⟨h.silent, fun i => ?_, fun i err hmem => ?_, fun b contexts hmem hne hresolved => ?_,
    fun b contexts hmem => ?_, fun b => ?_, fun b contexts hmem hdone => ?_,
    fun before b err contexts hbegins hmem => ?_, fun i hmem => ?_⟩
  · rw [h.length_callbacksOf]
    split_ifs
    · exact le_rfl
    · exact Nat.zero_le 1
  · rw [← callbacksOf_ofContext]
    exact (h.contexts.history i).callbacksOf_of_failed ((mem_ofContext rfl).mpr hmem)
  · obtain ⟨hb, rfl⟩ := h.started_batch hmem
    have hhistory := (h.batches.history b hb).executes hne (h.stage_of_resolved hb hresolved)
    exact mem_of_mem_about hhistory
  · obtain ⟨hb, rfl, hstage, hcount⟩ := h.executed_batch hmem
    refine ⟨mem_of_mem_about (h.batches.history b hb).started_mem, hcount, fun i hi => ⟨none, ?_⟩⟩
    exact mem_of_mem_about ((h.contexts.history i).resolved (h.defined hb hstage hi))
  · by_cases hb : b < state.numberOfBatches
    · rw [h.length_batchCallbacksOf hb]
      split_ifs
      · exact le_rfl
      · exact Nat.zero_le 1
    · rw [← batchCallbacksOf_ofBatch, h.batches.fresh b (not_lt.mp hb)]
      exact Nat.zero_le 1
  · obtain ⟨hb, rfl⟩ := h.started_batch hmem
    have hstage := (h.batches.history b hb).of_completed (hdone.imp_right (mem_ofBatch rfl).mpr)
    rw [h.length_batchCallbacksOf hb, if_pos hstage]
  · obtain ⟨others, hbefore, hcalled⟩ := h.last before b err hbegins
    have hothers := hbegins.subset (List.mem_append_left _ hbefore)
    rw [(h.started_batch hmem).2, ← (h.started_batch hothers).2]
    exact hcalled
  · obtain ⟨hclear, hsettled⟩ := (h.contexts.history i).of_cleared ((mem_ofContext rfl).mpr hmem)
    refine ⟨by rw [h.length_callbacksOf, if_pos hsettled], fun b contexts hexecuted hi => ?_⟩
    obtain ⟨hb, rfl, -⟩ := h.executed_batch hexecuted
    have hnot := (h.agrees.inBatch b hb i hi).clear_eq_false
    exact absurd hclear (by rw [hnot]; exact Bool.false_ne_true)

/-- A find that waits for its table handler when the batch is executed. -/
def findEvents : List (Event ℕ) :=
  [.add (.find UserContext.seven) none, .execute, .resolve 0 (.ok UserContext.peopleHandler),
    .complete 0 (fun _ => none) none]

end DatabaseJones.Batch
