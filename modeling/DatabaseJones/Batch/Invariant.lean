import DatabaseJones.Batch.Execution

/-!
# The invariant of batches

The trace tells the histories of the operations and of the batches, every operation is in one
place, and the flags of an operation agree with the stage of its batch.
-/

namespace DatabaseJones.Batch

open DatabaseJones.Library
open DatabaseJones.UserContext (DBError)

variable {S : Type} {trace outputs : List Output} {i b n m size newSize : ℕ}
  {contexts changed : ℕ → OperationContext S} {batches next : ℕ → BatchContext}
  {operationContexts : List ℕ}

/-! ## Histories of all operations -/

/-- The trace tells the histories of the operations. -/
structure Contexts (contexts : ℕ → OperationContext S) (size : ℕ) (trace : List Output) : Prop where
  history : ∀ i, History i (contexts i) (ofContext i trace)
  fresh : ∀ i, size ≤ i → ofContext i trace = []

theorem ofContext_append (i : ℕ) (first second : List Output) :
    ofContext i (first ++ second) = ofContext i first ++ ofContext i second :=
  about_append _ first second

theorem ofBatch_append (b : ℕ) (first second : List Output) :
    ofBatch b (first ++ second) = ofBatch b first ++ ofBatch b second :=
  about_append _ first second

/-- Some of the operations change, each with outputs about it. -/
theorem Contexts.change (h : Contexts contexts size trace) {indices : List ℕ}
    {news : ℕ → List Output} (hnodup : indices.Nodup) (hsize : size ≤ newSize)
    (hlt : ∀ i ∈ indices, i < newSize)
    (hsubject : ∀ i, ∀ output ∈ news i, output.subject? = some (.inl i))
    (hkept : ∀ i, i ∉ indices → changed i = contexts i)
    (hchanged : ∀ i ∈ indices, History i (changed i) (ofContext i trace ++ news i)) :
    Contexts changed newSize (trace ++ indices.flatMap news) := by
  have hother : ∀ i, i ∉ indices → ofContext i (indices.flatMap news) = [] := fun i hi =>
    about_flatMap_of_notMem hsubject fun j hj heq => hi (Sum.inl.inj heq ▸ hj)
  refine ⟨fun i => ?_, fun i hi => ?_⟩
  · rw [ofContext_append]
    by_cases hmem : i ∈ indices
    · have hself : ofContext i (indices.flatMap news) = news i :=
        about_flatMap_of_mem Sum.inl_injective hsubject hnodup hmem
      rw [hself]
      exact hchanged i hmem
    · rw [hother i hmem, List.append_nil, hkept i hmem]
      exact h.history i
  · have hmem : i ∉ indices := fun hmem => absurd (hlt i hmem) (not_lt.mpr hi)
    rw [ofContext_append, hother i hmem, List.append_nil]
    exact h.fresh i (hsize.trans hi)

/-- One operation changes or is new. -/
theorem Contexts.update (h : Contexts contexts size trace) {context : OperationContext S}
    (hsize : size ≤ newSize) (hlt : i < newSize)
    (hsubject : ∀ output ∈ outputs, output.subject? = some (.inl i))
    (hhistory : History i context (ofContext i trace ++ outputs)) :
    Contexts (Function.update contexts i context) newSize (trace ++ outputs) := by
  have hother : ∀ j, j ≠ i → ofContext j outputs = [] := fun j hj =>
    about_of_forall_ne hsubject fun heq => hj (Sum.inl.inj heq)
  refine ⟨fun j => ?_, fun j hj => ?_⟩
  · rw [ofContext_append]
    by_cases heq : j = i
    · subst heq
      have hself : ofContext j outputs = outputs := about_of_forall hsubject
      rw [hself, Function.update_self]
      exact hhistory
    · rw [hother j heq, List.append_nil, Function.update_of_ne heq]
      exact h.history j
  · have heq : j ≠ i := fun heq => absurd hlt (not_lt.mpr (heq ▸ hj))
    rw [ofContext_append, hother j heq, List.append_nil]
    exact h.fresh j (hsize.trans hj)

/-- The flags that change do not matter for the histories. -/
theorem Contexts.congr (h : Contexts contexts size trace) (changed : ℕ → OperationContext S)
    (hchanged : ∀ i outputs, History i (contexts i) outputs → History i (changed i) outputs) :
    Contexts changed size trace :=
  ⟨fun i => hchanged i _ (h.history i), h.fresh⟩

/-- Outputs about other subjects. -/
theorem Contexts.append (h : Contexts contexts size trace)
    (hsubject : ∀ i, ∀ output ∈ outputs, output.subject? ≠ some (.inl i)) :
    Contexts contexts size (trace ++ outputs) := by
  have hnone : ∀ i, ofContext i outputs = [] := fun i =>
    List.filter_eq_nil_iff.mpr fun output houtput => by simpa using hsubject i output houtput
  refine ⟨fun i => ?_, fun i hi => ?_⟩
  · rw [ofContext_append, hnone, List.append_nil]
    exact h.history i
  · rw [ofContext_append, hnone, List.append_nil]
    exact h.fresh i hi

/-! ## Histories of all batches -/

/-- The trace tells the histories of the batches. -/
structure Batches (batches : ℕ → BatchContext) (n : ℕ) (trace : List Output) : Prop where
  history : ∀ b < n, BatchHistory b (batches b) (ofBatch b trace)
  fresh : ∀ b, n ≤ b → ofBatch b trace = []

/-- A batch changes or is new. -/
theorem Batches.change (h : Batches batches n trace) {batch : BatchContext} (hn : n ≤ m)
    (hb : b < m) (hm : ∀ c < m, c = b ∨ c < n)
    (hsubject : ∀ c, c ≠ b → ∀ output ∈ outputs, output.subject? ≠ some (.inr c))
    (hbatch : BatchHistory b batch (ofBatch b (trace ++ outputs))) :
    Batches (Function.update batches b batch) m (trace ++ outputs) := by
  have hother : ∀ c, c ≠ b → ofBatch c outputs = [] := fun c hc =>
    List.filter_eq_nil_iff.mpr fun output houtput => by simpa using hsubject c hc output houtput
  refine ⟨fun c hc => ?_, fun c hc => ?_⟩
  · by_cases heq : c = b
    · subst heq
      rw [Function.update_self]
      exact hbatch
    · have hlt : c < n := (hm c hc).resolve_left heq
      rw [ofBatch_append, hother c heq, List.append_nil, Function.update_of_ne heq]
      exact h.history c hlt
  · have heq : c ≠ b := fun heq => absurd hb (not_lt.mpr (heq ▸ hc))
    rw [ofBatch_append, hother c heq, List.append_nil]
    exact h.fresh c (hn.trans hc)

/-- A batch changes silently. -/
theorem Batches.update (h : Batches batches n trace) {batch : BatchContext}
    (hbatch : BatchHistory b batch (ofBatch b trace)) :
    Batches (Function.update batches b batch) n trace := by
  refine ⟨fun c hc => ?_, h.fresh⟩
  by_cases heq : c = b
  · subst heq
    rw [Function.update_self]
    exact hbatch
  · rw [Function.update_of_ne heq]
    exact h.history c hc

theorem Batches.append (h : Batches batches n trace)
    (hsubject : ∀ b, ∀ output ∈ outputs, output.subject? ≠ some (.inr b)) :
    Batches batches n (trace ++ outputs) := by
  have hnone : ∀ b, ofBatch b outputs = [] := fun b =>
    List.filter_eq_nil_iff.mpr fun output houtput => by simpa using hsubject b output houtput
  refine ⟨fun b hb => ?_, fun b hb => ?_⟩
  · rw [ofBatch_append, hnone, List.append_nil]
    exact h.history b hb
  · rw [ofBatch_append, hnone, List.append_nil]
    exact h.fresh b hb

/-! ## The last callback -/

/-- When a batch is called back, its operations have been. -/
def Last (trace : List Output) : Prop :=
  ∀ before b err, before ++ [.batchCallback b err] <+: trace →
    ∃ contexts, .started b contexts ∈ before ∧ ∀ i ∈ contexts, (callbacksOf i before).length = 1

theorem Last.concat (h : Last trace) {output : Output}
    (houtput : ∀ b err, output = .batchCallback b err →
      ∃ contexts, .started b contexts ∈ trace ∧ ∀ i ∈ contexts, (callbacksOf i trace).length = 1) :
    Last (trace ++ [output]) := by
  intro before b err hbegins
  rcases List.prefix_concat_iff.mp hbegins with heq | hbegins
  · obtain ⟨rfl, hlast⟩ := List.append_inj' heq rfl
    exact houtput b err (List.singleton_inj.mp hlast).symm
  · exact h before b err hbegins

theorem Last.append (h : Last trace) (houtputs : ∀ b err, .batchCallback b err ∉ outputs) :
    Last (trace ++ outputs) := by
  induction outputs generalizing trace with
  | nil =>
      rw [List.append_nil]
      exact h
  | cons output outputs ih =>
      rw [List.append_cons]
      refine ih (h.concat fun b err heq => ?_) fun b err hmem =>
        houtputs b err (List.mem_cons_of_mem _ hmem)
      exact absurd (heq ▸ List.mem_cons_self) (houtputs b err)

/-! ## Operations are in one place -/

/-- An operation is collected, or in one batch that is executed, or in none. -/
structure Members (operationContexts : List ℕ) (batches : ℕ → BatchContext) (n size : ℕ) : Prop where
  nodup : operationContexts.Nodup
  lt : ∀ i ∈ operationContexts, i < size
  batchNodup : ∀ b < n, (batches b).operationContexts.Nodup
  batchLt : ∀ b < n, ∀ i ∈ (batches b).operationContexts, i < size
  notMem : ∀ b < n, ∀ i ∈ (batches b).operationContexts, i ∉ operationContexts
  disjoint : ∀ b < n, ∀ c < n, ∀ i ∈ (batches b).operationContexts,
    i ∈ (batches c).operationContexts → b = c

/-- The batches keep their operations. -/
theorem Members.congr (h : Members operationContexts batches n size)
    (hnext : ∀ b < n, (next b).operationContexts = (batches b).operationContexts) :
    Members operationContexts next n size where
  nodup := h.nodup
  lt := h.lt
  batchNodup b hb := by
    rw [hnext b hb]
    exact h.batchNodup b hb
  batchLt b hb := by
    rw [hnext b hb]
    exact h.batchLt b hb
  notMem b hb := by
    rw [hnext b hb]
    exact h.notMem b hb
  disjoint b hb c hc := by
    rw [hnext b hb, hnext c hc]
    exact h.disjoint b hb c hc

theorem Members.updateBatch (h : Members operationContexts batches n size) {batch : BatchContext}
    (hoperations : batch.operationContexts = (batches b).operationContexts) :
    Members operationContexts (Function.update batches b batch) n size :=
  h.congr fun c _ => by
    by_cases heq : c = b
    · subst heq
      rw [Function.update_self, hoperations]
    · rw [Function.update_of_ne heq]

theorem Members.collect (h : Members operationContexts batches n size) :
    Members (operationContexts ++ [size]) batches n (size + 1) where
  nodup := List.nodup_append.mpr ⟨h.nodup, List.nodup_singleton size, fun i hi j hj heq => by
    obtain rfl := List.mem_singleton.mp hj
    exact absurd (h.lt i hi) (by rw [heq]; exact lt_irrefl _)⟩
  lt i hi := by
    rcases List.mem_append.mp hi with hi | hi
    · exact (h.lt i hi).trans (Nat.lt_succ_self size)
    · rw [List.mem_singleton.mp hi]
      exact Nat.lt_succ_self size
  batchNodup := h.batchNodup
  batchLt b hb i hi := (h.batchLt b hb i hi).trans (Nat.lt_succ_self size)
  notMem b hb i hi hmem := by
    rcases List.mem_append.mp hmem with hmem | hmem
    · exact h.notMem b hb i hi hmem
    · exact absurd (h.batchLt b hb i hi) (by rw [List.mem_singleton.mp hmem]; exact lt_irrefl _)
  disjoint := h.disjoint

theorem Members.clear (h : Members operationContexts batches n size) :
    Members [] batches n size where
  nodup := List.nodup_nil
  lt _ hi := absurd hi List.not_mem_nil
  batchNodup := h.batchNodup
  batchLt := h.batchLt
  notMem _ _ _ _ := List.not_mem_nil
  disjoint := h.disjoint

/-- The collected operations become a batch. -/
theorem Members.execute (h : Members operationContexts batches n size) (batch : BatchContext)
    (hbatch : batch.operationContexts = operationContexts) :
    Members [] (Function.update batches n batch) (n + 1) size := by
  have hself : (Function.update batches n batch n).operationContexts = operationContexts := by
    rw [Function.update_self, hbatch]
  have hother : ∀ b < n, Function.update batches n batch b = batches b := fun b hb =>
    Function.update_of_ne hb.ne _ _
  refine ⟨List.nodup_nil, fun i hi => absurd hi List.not_mem_nil, fun b hb => ?_, fun b hb => ?_,
    fun _ _ _ _ => List.not_mem_nil, fun b hb c hc i => ?_⟩
  · rcases Nat.lt_succ_iff_lt_or_eq.mp hb with hb | rfl
    · rw [hother b hb]
      exact h.batchNodup b hb
    · rw [hself]
      exact h.nodup
  · rcases Nat.lt_succ_iff_lt_or_eq.mp hb with hb | rfl
    · rw [hother b hb]
      exact h.batchLt b hb
    · rw [hself]
      exact h.lt
  · rcases Nat.lt_succ_iff_lt_or_eq.mp hb with hb | rfl
    · rcases Nat.lt_succ_iff_lt_or_eq.mp hc with hc | rfl
      · rw [hother b hb, hother c hc]
        exact h.disjoint b hb c hc i
      · rw [hself, hother b hb]
        exact fun hi hmem => absurd hmem (h.notMem b hb i hi)
    · rcases Nat.lt_succ_iff_lt_or_eq.mp hc with hc | rfl
      · rw [hself, hother c hc]
        exact fun hmem hi => absurd hmem (h.notMem c hc i hi)
      · exact fun _ _ => rfl

/-! ## Flags and stages -/

/-- A collected operation is defined, called back or waits for its table handler. -/
def Collected (context : OperationContext S) : Prop :=
  context.clear = false ∧ context.operationDefinedCallback = none ∧
    (context.operation = true ∨ context.isSettled = true ∨ context.isAwaiting = true)

/-- An operation of a batch that is executed. -/
def InBatch (b : ℕ) : Stage → OperationContext S → Prop
  | .waiting, context => context.clear = false ∧ context.isSettled = false ∧
      (context.operation = true ∨
        context.isAwaiting = true ∧ context.operationDefinedCallback = some b)
  | .executing, context =>
      context.clear = false ∧ context.operation = true ∧ context.isSettled = false
  | .finished, context =>
      context.clear = false ∧ context.operation = true ∧ context.isSettled = true

theorem InBatch.clear_eq_false {context : OperationContext S} {stage : Stage}
    (h : InBatch b stage context) : context.clear = false := by
  cases stage with
  | waiting => exact h.1
  | executing => exact h.1
  | finished => exact h.1

/-- The flags of the operations agree with where they are. -/
structure Agrees (contexts : ℕ → OperationContext S) (operationContexts : List ℕ)
    (batches : ℕ → BatchContext) (n : ℕ) : Prop where
  collected : ∀ i ∈ operationContexts, Collected (contexts i)
  inBatch : ∀ b < n, ∀ i ∈ (batches b).operationContexts, InBatch b (batches b).stage (contexts i)
  callback : ∀ i b, (contexts i).isAwaiting = true → (contexts i).clear = false →
    (contexts i).operationDefinedCallback = some b →
      b < n ∧ i ∈ (batches b).operationContexts ∧ (batches b).stage = .waiting

/-- One operation changes. -/
theorem Agrees.update (h : Agrees contexts operationContexts batches n)
    (context : OperationContext S)
    (hcollected : i ∈ operationContexts → Collected context)
    (hbatch : ∀ b < n, i ∈ (batches b).operationContexts → InBatch b (batches b).stage context)
    (hcallback : ∀ b, context.isAwaiting = true → context.operationDefinedCallback ≠ some b) :
    Agrees (Function.update contexts i context) operationContexts batches n := by
  refine ⟨fun j hj => ?_, fun b hb j hj => ?_, fun j b hawaiting hclear hsome => ?_⟩
  · by_cases heq : j = i
    · subst heq
      rw [Function.update_self]
      exact hcollected hj
    · rw [Function.update_of_ne heq]
      exact h.collected j hj
  · by_cases heq : j = i
    · subst heq
      rw [Function.update_self]
      exact hbatch b hb hj
    · rw [Function.update_of_ne heq]
      exact h.inBatch b hb j hj
  · by_cases heq : j = i
    · subst heq
      rw [Function.update_self] at hawaiting hsome
      exact absurd hsome (hcallback b hawaiting)
    · rw [Function.update_of_ne heq] at hawaiting hclear hsome
      exact h.callback j b hawaiting hclear hsome

theorem Agrees.collect (h : Agrees contexts operationContexts batches n)
    (hcollected : Collected (contexts i)) : Agrees contexts (operationContexts ++ [i]) batches n where
  collected j hj := by
    rcases List.mem_append.mp hj with hj | hj
    · exact h.collected j hj
    · rw [List.mem_singleton.mp hj]
      exact hcollected
  inBatch := h.inBatch
  callback := h.callback

/-- A batch goes to another stage. -/
theorem Agrees.updateBatch (h : Agrees contexts operationContexts batches n) {batch : BatchContext}
    (hoperations : batch.operationContexts = (batches b).operationContexts)
    (hbatch : ∀ i ∈ (batches b).operationContexts, InBatch b batch.stage (contexts i))
    (hcallback : ∀ i ∈ (batches b).operationContexts, (contexts i).isAwaiting = true →
      (contexts i).clear = false → batch.stage = .waiting) :
    Agrees contexts operationContexts (Function.update batches b batch) n := by
  refine ⟨h.collected, fun c hc i hi => ?_, fun i c hawaiting hclear hsome => ?_⟩
  · by_cases heq : c = b
    · subst heq
      rw [Function.update_self] at hi ⊢
      exact hbatch i (hoperations ▸ hi)
    · rw [Function.update_of_ne heq] at hi ⊢
      exact h.inBatch c hc i hi
  · obtain ⟨hc, hi, hwaiting⟩ := h.callback i c hawaiting hclear hsome
    by_cases heq : c = b
    · subst heq
      rw [Function.update_self]
      exact ⟨hc, hoperations ▸ hi, hcallback i hi hawaiting hclear⟩
    · rw [Function.update_of_ne heq]
      exact ⟨hc, hi, hwaiting⟩

/-- The collected operations are cleared. -/
theorem Agrees.clear (h : Agrees contexts operationContexts batches n)
    (hkept : ∀ i, i ∉ operationContexts → changed i = contexts i)
    (hcleared : ∀ i ∈ operationContexts, (changed i).clear = true)
    (hnotMem : ∀ b < n, ∀ i ∈ (batches b).operationContexts, i ∉ operationContexts) :
    Agrees changed [] batches n := by
  refine ⟨fun i hi => absurd hi List.not_mem_nil, fun b hb i hi => ?_,
    fun i b hawaiting hclear hsome => ?_⟩
  · rw [hkept i (hnotMem b hb i hi)]
    exact h.inBatch b hb i hi
  · by_cases hi : i ∈ operationContexts
    · exact absurd hclear (by rw [hcleared i hi]; exact Bool.noConfusion)
    · rw [hkept i hi] at hawaiting hclear hsome
      exact h.callback i b hawaiting hclear hsome

/-- The collected operations become a batch. -/
theorem Agrees.execute (h : Agrees contexts operationContexts batches n) (batch : BatchContext)
    (hoperations : batch.operationContexts = operationContexts)
    (hkept : ∀ i, i ∉ operationContexts → changed i = contexts i)
    (hin : ∀ i ∈ operationContexts, InBatch n batch.stage (changed i))
    (hcallback : ∀ i ∈ operationContexts, ∀ b, (changed i).isAwaiting = true →
      (changed i).operationDefinedCallback = some b → b = n ∧ batch.stage = .waiting)
    (hnotMem : ∀ b < n, ∀ i ∈ (batches b).operationContexts, i ∉ operationContexts) :
    Agrees changed [] (Function.update batches n batch) (n + 1) := by
  refine ⟨fun i hi => absurd hi List.not_mem_nil, fun b hb i hi => ?_,
    fun i b hawaiting hclear hsome => ?_⟩
  · rcases Nat.lt_succ_iff_lt_or_eq.mp hb with hb | rfl
    · rw [Function.update_of_ne hb.ne] at hi ⊢
      rw [hkept i (hnotMem b hb i hi)]
      exact h.inBatch b hb i hi
    · rw [Function.update_self] at hi ⊢
      exact hin i (hoperations ▸ hi)
  · by_cases hi : i ∈ operationContexts
    · obtain ⟨rfl, hwaiting⟩ := hcallback i hi b hawaiting hsome
      rw [Function.update_self]
      exact ⟨Nat.lt_succ_self b, hoperations ▸ hi, hwaiting⟩
    · rw [hkept i hi] at hawaiting hclear hsome
      obtain ⟨hb, hmem, hwaiting⟩ := h.callback i b hawaiting hclear hsome
      rw [Function.update_of_ne hb.ne]
      exact ⟨hb.trans (Nat.lt_succ_self n), hmem, hwaiting⟩

/-- The operations of a batch are called back. -/
theorem Agrees.complete (h : Agrees contexts operationContexts batches n) (batch : BatchContext)
    (hoperations : batch.operationContexts = (batches b).operationContexts)
    (hkept : ∀ i, i ∉ (batches b).operationContexts → changed i = contexts i)
    (hin : ∀ i ∈ (batches b).operationContexts, InBatch b batch.stage (changed i))
    (hawaiting : ∀ i ∈ (batches b).operationContexts, (changed i).isAwaiting = false)
    (hnotMem : ∀ i ∈ operationContexts, i ∉ (batches b).operationContexts)
    (hdisjoint : ∀ c < n, c ≠ b → ∀ i ∈ (batches c).operationContexts,
      i ∉ (batches b).operationContexts)
    (hstage : (batches b).stage ≠ .waiting) :
    Agrees changed operationContexts (Function.update batches b batch) n := by
  refine ⟨fun i hi => ?_, fun c hc i hi => ?_, fun i c htrue hclear hsome => ?_⟩
  · rw [hkept i (hnotMem i hi)]
    exact h.collected i hi
  · by_cases heq : c = b
    · subst heq
      rw [Function.update_self] at hi ⊢
      exact hin i (hoperations ▸ hi)
    · rw [Function.update_of_ne heq] at hi ⊢
      rw [hkept i (hdisjoint c hc heq i hi)]
      exact h.inBatch c hc i hi
  · by_cases hi : i ∈ (batches b).operationContexts
    · exact absurd htrue (by rw [hawaiting i hi]; exact Bool.false_ne_true)
    · rw [hkept i hi] at htrue hclear hsome
      obtain ⟨hc, hmem, hwaiting⟩ := h.callback i c htrue hclear hsome
      have hne : c ≠ b := fun heq => hstage (heq ▸ hwaiting)
      rw [Function.update_of_ne hne]
      exact ⟨hc, hmem, hwaiting⟩

/-- A batch that waits counts its operations that are defined. -/
def Counted (contexts : ℕ → OperationContext S) (batch : BatchContext) : Prop :=
  batch.stage = .waiting →
    batch.numberOfOperationsDefined =
        batch.operationContexts.countP (fun i => (contexts i).operation) ∧
      batch.numberOfOperationsDefined < batch.operationContexts.length

/-- Everything but the counters. -/
structure Consistent (state : State S) : Prop where
  contexts : Contexts state.contexts state.size state.trace
  batches : Batches state.batches state.numberOfBatches state.trace
  members : Members state.operationContexts state.batches state.numberOfBatches state.size
  agrees : Agrees state.contexts state.operationContexts state.batches state.numberOfBatches
  silent : .threw ∉ state.trace
  last : Last state.trace

structure Valid (state : State S) : Prop extends Consistent state where
  counted : ∀ b < state.numberOfBatches, Counted state.contexts (state.batches b)

end DatabaseJones.Batch
