import DatabaseJones.Library.Run
import DatabaseJones.Library.Story
import DatabaseJones.UserContext.Operations

/-!
# Batches

A `Batch` collects the contexts of operations, whose table handlers are resolved at once or
later.  `executeBatch` of `UserContext` waits until all operations of a batch are defined and
then executes them; `clear` calls back all that have been collected.
-/

namespace DatabaseJones.Batch

open DatabaseJones.Library
open DatabaseJones.UserContext (DBError DBTableHandler Environment Request Step)

variable {S : Type}

/-! ## State -/

/-- The `UserContext` of an operation of a batch: `isAwaiting` until the table handler is
resolved, and `isSettled` once the promise is fulfilled or rejected. -/
structure OperationContext (S : Type) where
  request : Request S
  isAwaiting : Bool := false
  operation : Bool := false
  clear : Bool := false
  isSettled : Bool := false
  operationDefinedCallback : Option ℕ := none

inductive Stage
  | waiting | executing | finished
deriving DecidableEq, Repr

/-- The `UserContext` of a call of `execute()`. -/
structure BatchContext where
  operationContexts : List ℕ := []
  numberOfOperationsDefined : ℕ := 0
  stage : Stage := .waiting

/-- What can be observed: table handlers that are resolved while the operation is not cleared,
the calls of the user's callbacks, and the progress of the batches. -/
inductive Output
  | resolved (context : ℕ) (err : Option DBError)
  | cleared (context : ℕ)
  | callback (context : ℕ) (err : Option DBError)
  | started (batch : ℕ) (contexts : List ℕ)
  | executed (batch : ℕ) (contexts : List ℕ)
  | completed (batch : ℕ)
  | batchCallback (batch : ℕ) (err : Option DBError)
  | threw
deriving DecidableEq, Repr

/-- The contexts by their serial numbers, those that the batch has collected, and the batches
that are executed. -/
structure State (S : Type) where
  contexts : ℕ → OperationContext S
  size : ℕ := 0
  operationContexts : List ℕ := []
  batches : ℕ → BatchContext := fun _ => {}
  numberOfBatches : ℕ := 0
  trace : List Output := []

/-- An operation is added, its table handler is resolved at once or later; the batch is executed
or cleared; or the adapter completes the operations of a batch, in their order, and then the
batch. -/
inductive Event (S : Type)
  | add (request : Request S) (handler : Option (Except DBError DBTableHandler))
  | resolve (context : ℕ) (handler : Except DBError DBTableHandler)
  | execute
  | clear
  | complete (batch : ℕ) (errs : ℕ → Option DBError) (err : Option DBError)

/-! ## Operations -/

def State.output (state : State S) (output : Output) : State S :=
  { state with trace := state.trace ++ [output] }

def State.update (state : State S) (i : ℕ) (context : OperationContext S) : State S :=
  { state with contexts := Function.update state.contexts i context }

/-- `applyCallback`, and whether it throws because the promise is settled. -/
def State.applyCallback (state : State S) (i : ℕ) (err : Option DBError) : State S × Bool :=
  if (state.contexts i).isSettled then (state.output .threw, true)
  else
    ((state.update i { state.contexts i with isSettled := true }).output (.callback i err), false)

/-- Call a function for every context, until it throws. -/
def forEach (call : State S → ℕ → State S × Bool) : List ℕ → State S → State S × Bool
  | [], state => (state, false)
  | i :: contexts, state =>
      let (next, threw) := call state i
      if threw then (next, true) else forEach call contexts next

def State.updateBatch (state : State S) (b : ℕ) (batch : BatchContext) : State S :=
  { state with batches := Function.update state.batches b batch }

def State.executeBatchOnOperationDefined (state : State S) (b definedOperationCount : ℕ) :
    State S :=
  let batch := state.batches b
  let numberOfOperationsDefined := batch.numberOfOperationsDefined + definedOperationCount
  if numberOfOperationsDefined = batch.operationContexts.length then
    (state.updateBatch b { batch with numberOfOperationsDefined, stage := .executing }).output
      (.executed b batch.operationContexts)
  else state.updateBatch b { batch with numberOfOperationsDefined }

/-- The functions `…OnTableHandler`, with what they do for the keys and values. -/
def State.onTableHandler (state : State S) (i : ℕ) (step : Option Step) : State S :=
  if (state.contexts i).clear then state
  else
    match step with
    | none => state.output .threw
    | some (.answered err) => ((state.output (.resolved i (some err))).applyCallback i (some err)).1
    | some .executed =>
        let context := state.contexts i
        let defined := (state.update i { context with operation := true }).output (.resolved i none)
        match context.operationDefinedCallback with
        | none => defined
        | some b => defined.executeBatchOnOperationDefined b 1

/-- Whether an operation asks for its table handler, rather than answering at once. -/
def needsHandler : Request S → Bool
  | .find .undefined => false
  | .findWithProjection .undefined => false
  | .load _ .undefined => false
  | .load _ .null => false
  | .load false _ => false
  | _ => true

/-- A batch has no queries. -/
def isBatchable : Request S → Bool
  | .executeKeyQuery _ => false
  | .executeScanQuery _ => false
  | _ => true

variable (environment : Environment S)

/-- `find`, `load`, `persist`, `remove`, `update` and `save` of a batch; a context whose
operation throws is not collected. -/
def State.add (state : State S) (request : Request S)
    (handler : Option (Except DBError DBTableHandler)) : State S :=
  let i := state.size
  let created := { state.update i { request } with size := i + 1 }
  let collect (state : State S) : State S :=
    { state with operationContexts := state.operationContexts ++ [i] }
  match needsHandler request, handler with
  | true, none => collect (created.update i { request, isAwaiting := true })
  | _, handler =>
      let step := UserContext.start environment (handler.getD (.error {})) request
      let resolved := created.onTableHandler i step
      if step.isSome then collect resolved else resolved

def State.resolve (state : State S) (i : ℕ) (handler : Except DBError DBTableHandler) : State S :=
  let context := state.contexts i
  (state.update i { context with isAwaiting := false }).onTableHandler i
    (UserContext.start environment handler context.request)

def clearError : DBError where
  message := "Batch was cleared."

/-- What `clear` does for one context. -/
def State.clearContext (state : State S) (i : ℕ) : State S × Bool :=
  ((state.update i { state.contexts i with clear := true }).output (.cleared i)).applyCallback i
    (some clearError)

def State.clear (state : State S) : State S :=
  let (cleared, threw) := forEach State.clearContext state.operationContexts state
  if threw then cleared else { cleared with operationContexts := [] }

/-- `execute` and `executeBatch`. -/
def State.execute (state : State S) : State S :=
  let b := state.numberOfBatches
  let operationContexts := state.operationContexts
  let started := { state with operationContexts := [], numberOfBatches := b + 1 }.output
    (.started b operationContexts)
  if operationContexts = [] then
    (started.updateBatch b { stage := .finished }).output (.batchCallback b none)
  else
    let contexts (i : ℕ) : OperationContext S :=
      if i ∈ operationContexts ∧ (state.contexts i).operation = false then
        { state.contexts i with operationDefinedCallback := some b }
      else state.contexts i
    let numberOfOperationsDefined := operationContexts.countP fun i => (state.contexts i).operation
    ({ started with contexts }.updateBatch b
      { operationContexts, numberOfOperationsDefined }).executeBatchOnOperationDefined b 0

/-- The adapter completes the operations of a batch and then the batch. -/
def State.complete (state : State S) (b : ℕ) (errs : ℕ → Option DBError) (err : Option DBError) :
    State S :=
  let batch := state.batches b
  let (completed, threw) := forEach (fun state i => state.applyCallback i (errs i))
    batch.operationContexts (state.output (.completed b))
  if threw then completed
  else (completed.updateBatch b { batch with stage := .finished }).output (.batchCallback b err)

def step (state : State S) : Event S → Option (State S)
  | .add request handler =>
      if isBatchable request then some (state.add environment request handler) else none
  | .resolve i handler =>
      if i < state.size ∧ (state.contexts i).isAwaiting then
        some (state.resolve environment i handler)
      else none
  | .execute => some state.execute
  | .clear => some state.clear
  | .complete b errs err =>
      if b < state.numberOfBatches ∧ (state.batches b).stage = .executing then
        some (state.complete b errs err)
      else none

/-- A batch without contexts. -/
def State.start (request : Request S) : State S where
  contexts _ := { request }

/-! ## What a batch is for -/

/-- The calls of an operation's callback. -/
def callbacksOf (i : ℕ) (trace : List Output) : List (Option DBError) :=
  trace.filterMap fun output =>
    match output with
    | .callback context err => if context = i then some err else none
    | _ => none

/-- The calls of a batch's callback. -/
def batchCallbacksOf (b : ℕ) (trace : List Output) : List (Option DBError) :=
  trace.filterMap fun output =>
    match output with
    | .batchCallback batch err => if batch = b then some err else none
    | _ => none

/-- How often a batch was executed. -/
def executions (b : ℕ) (trace : List Output) : ℕ :=
  trace.countP fun output =>
    match output with
    | .executed batch _ => batch = b
    | _ => false

/-- The table handler of an operation was resolved. -/
def IsResolved (i : ℕ) (trace : List Output) : Prop := ∃ err, .resolved i err ∈ trace

/-- A batch is executed once when all of its operations are resolved.  Every operation's callback
is called once, with an error if its handler failed, and the batch callback after those of all
its operations.  An operation that is cleared is called back, too, and never executed. -/
structure Completes (trace : List Output) : Prop where
  silent : .threw ∉ trace
  once : ∀ i, (callbacksOf i trace).length ≤ 1
  failed : ∀ i err, .resolved i (some err) ∈ trace → callbacksOf i trace = [some err]
  executes : ∀ b contexts, .started b contexts ∈ trace → contexts ≠ [] →
    (∀ i ∈ contexts, IsResolved i trace) → .executed b contexts ∈ trace
  executed : ∀ b contexts, .executed b contexts ∈ trace → .started b contexts ∈ trace ∧
    executions b trace = 1 ∧ ∀ i ∈ contexts, IsResolved i trace
  batchOnce : ∀ b, (batchCallbacksOf b trace).length ≤ 1
  completed : ∀ b contexts, .started b contexts ∈ trace → contexts = [] ∨ .completed b ∈ trace →
    (batchCallbacksOf b trace).length = 1
  last : ∀ before b err contexts, before ++ [.batchCallback b err] <+: trace →
    .started b contexts ∈ trace → ∀ i ∈ contexts, (callbacksOf i before).length = 1
  cleared : ∀ i, .cleared i ∈ trace → (callbacksOf i trace).length = 1 ∧
    ∀ b contexts, .executed b contexts ∈ trace → i ∉ contexts

/-- No operation throws, none has been called back when its batch is executed or cleared, and
the operations that are waited for are defined. -/
def Allowed (state : State S) : Event S → Prop
  | .add request handler =>
      needsHandler request = true ∧ handler = none ∨
        (UserContext.start environment (handler.getD (.error {})) request).isSome = true
  | .resolve i handler =>
      (state.contexts i).clear = true ∨
        UserContext.start environment handler (state.contexts i).request = some .executed ∨
        (state.contexts i).operationDefinedCallback = none ∧
          (UserContext.start environment handler (state.contexts i).request).isSome = true
  | .execute => ∀ i ∈ state.operationContexts, (state.contexts i).isSettled = false
  | .clear => ∀ i ∈ state.operationContexts, (state.contexts i).isSettled = false
  | .complete _ _ _ => True

instance (state : State S) : ∀ event, Decidable (Allowed environment state event)
  | .add _ handler =>
      have : Decidable (handler = none) := decidable_of_iff _ Option.isNone_iff_eq_none
      inferInstanceAs (Decidable (_ ∨ _))
  | .resolve _ _ => inferInstanceAs (Decidable (_ ∨ _))
  | .execute => inferInstanceAs (Decidable (∀ _, _))
  | .clear => inferInstanceAs (Decidable (∀ _, _))
  | .complete _ _ _ => inferInstanceAs (Decidable True)

end DatabaseJones.Batch

/-!
## Histories of operations and batches

What a trace tells about one operation or one batch is one of a few histories, which the flags
of its context determine.
-/

namespace DatabaseJones.Batch

open DatabaseJones.Library
open DatabaseJones.UserContext (DBError DBTableHandler Environment Request Step)

variable {S : Type} {trace outputs : List Output} {i b : ℕ}

/-- The operation or the batch that an output is about. -/
def Output.subject? : Output → Option (ℕ ⊕ ℕ)
  | .resolved i _ | .cleared i | .callback i _ => some (.inl i)
  | .started b _ | .executed b _ | .completed b | .batchCallback b _ => some (.inr b)
  | .threw => none

abbrev ofContext (i : ℕ) (trace : List Output) : List Output := about Output.subject? (.inl i) trace

abbrev ofBatch (b : ℕ) (trace : List Output) : List Output := about Output.subject? (.inr b) trace

/-! ## Reading a trace -/

theorem callbacksOf_append (i : ℕ) (first second : List Output) :
    callbacksOf i (first ++ second) = callbacksOf i first ++ callbacksOf i second :=
  List.filterMap_append

/-- The calls of a callback are about its operation. -/
theorem callbacksOf_ofContext (i : ℕ) (trace : List Output) :
    callbacksOf i (ofContext i trace) = callbacksOf i trace := by
  unfold callbacksOf ofContext about
  rw [List.filterMap_filter]
  refine List.filterMap_congr fun output _ => ?_
  cases output with
  | callback j err =>
      by_cases h : j = i
      · simp [Output.subject?, h]
      · simp [Output.subject?, h]
  | _ => simp

theorem batchCallbacksOf_ofBatch (b : ℕ) (trace : List Output) :
    batchCallbacksOf b (ofBatch b trace) = batchCallbacksOf b trace := by
  unfold batchCallbacksOf ofBatch about
  rw [List.filterMap_filter]
  refine List.filterMap_congr fun output _ => ?_
  cases output with
  | batchCallback c err =>
      by_cases h : c = b
      · simp [Output.subject?, h]
      · simp [Output.subject?, h]
  | _ => simp

theorem executions_ofBatch (b : ℕ) (trace : List Output) :
    executions b (ofBatch b trace) = executions b trace := by
  unfold executions ofBatch about
  rw [List.countP_filter]
  refine List.countP_congr fun output _ => ?_
  cases output with
  | executed c contexts => simp [Output.subject?]
  | _ => simp

theorem mem_ofContext {output : Output} (h : output.subject? = some (.inl i)) :
    output ∈ ofContext i trace ↔ output ∈ trace :=
  ⟨mem_of_mem_about, fun hmem => mem_about_iff.mpr ⟨hmem, h⟩⟩

theorem mem_ofBatch {output : Output} (h : output.subject? = some (.inr b)) :
    output ∈ ofBatch b trace ↔ output ∈ trace :=
  ⟨mem_of_mem_about, fun hmem => mem_about_iff.mpr ⟨hmem, h⟩⟩

/-! ## Operations -/

/-- The history of an operation. -/
inductive History (i : ℕ) (context : OperationContext S) : List Output → Prop
  | waiting : context.operation = false → context.isSettled = false → context.clear = false →
      History i context []
  | defined : context.isAwaiting = false → context.operation = true → context.isSettled = false →
      context.clear = false → History i context [.resolved i none]
  | failed (err : DBError) : context.isAwaiting = false → context.operation = false →
      context.isSettled = true → context.clear = false →
      History i context [.resolved i (some err), .callback i (some err)]
  | completed (err : Option DBError) : context.isAwaiting = false → context.operation = true →
      context.isSettled = true → context.clear = false →
      History i context [.resolved i none, .callback i err]
  | cleared : context.operation = false → context.isSettled = true → context.clear = true →
      History i context [.cleared i, .callback i (some clearError)]
  | definedCleared : context.isAwaiting = false → context.operation = true →
      context.isSettled = true → context.clear = true →
      History i context [.resolved i none, .cleared i, .callback i (some clearError)]

variable {context other : OperationContext S}

theorem callbacksOf_self (i : ℕ) (err : Option DBError) : callbacksOf i [.callback i err] = [err] := by
  simp [callbacksOf]

theorem History.length_callbacksOf (h : History i context outputs) :
    (callbacksOf i outputs).length = if context.isSettled then 1 else 0 := by
  cases h with
  | waiting _ hsettled _ => rw [hsettled]; rfl
  | defined _ _ hsettled _ => rw [hsettled]; rfl
  | failed err _ _ hsettled _ => simp [hsettled, callbacksOf]
  | completed err _ _ hsettled _ => simp [hsettled, callbacksOf]
  | cleared _ hsettled _ => simp [hsettled, callbacksOf]
  | definedCleared _ _ hsettled _ => simp [hsettled, callbacksOf]

theorem History.callbacksOf_of_failed (h : History i context outputs) {err : DBError}
    (hmem : .resolved i (some err) ∈ outputs) : callbacksOf i outputs = [some err] := by
  cases h with
  | failed error _ _ _ _ =>
      obtain rfl : err = error := by simpa using hmem
      simp [callbacksOf]
  | _ => simp at hmem

theorem History.of_resolved (h : History i context outputs) {err : Option DBError}
    (hmem : .resolved i err ∈ outputs) : context.operation = true ∨ context.isSettled = true := by
  cases h with
  | waiting _ _ _ => simp at hmem
  | defined _ hoperation _ _ => exact Or.inl hoperation
  | failed _ _ _ hsettled _ => exact Or.inr hsettled
  | completed _ _ hoperation _ _ => exact Or.inl hoperation
  | cleared _ hsettled _ => exact Or.inr hsettled
  | definedCleared _ hoperation _ _ => exact Or.inl hoperation

theorem History.resolved (h : History i context outputs) (hoperation : context.operation = true) :
    .resolved i none ∈ outputs := by
  cases h with
  | waiting hnot _ _ => exact absurd hoperation (by rw [hnot]; exact Bool.false_ne_true)
  | failed _ _ hnot _ _ => exact absurd hoperation (by rw [hnot]; exact Bool.false_ne_true)
  | cleared hnot _ _ => exact absurd hoperation (by rw [hnot]; exact Bool.false_ne_true)
  | _ => exact List.mem_cons_self

theorem History.of_cleared (h : History i context outputs) (hmem : .cleared i ∈ outputs) :
    context.clear = true ∧ context.isSettled = true := by
  cases h with
  | cleared _ hsettled hclear => exact ⟨hclear, hsettled⟩
  | definedCleared _ _ hsettled hclear => exact ⟨hclear, hsettled⟩
  | _ => simp at hmem

/-- An operation whose table handler is asked for. -/
theorem History.of_isAwaiting (h : History i context outputs) (hawaiting : context.isAwaiting = true)
    (hclear : context.clear = false) :
    outputs = [] ∧ context.operation = false ∧ context.isSettled = false := by
  cases h with
  | waiting hoperation hsettled _ => exact ⟨rfl, hoperation, hsettled⟩
  | cleared _ _ hclear' => exact absurd hclear (by rw [hclear']; exact Bool.noConfusion)
  | defined hnot _ _ _ => exact absurd hawaiting (by rw [hnot]; exact Bool.false_ne_true)
  | failed _ hnot _ _ _ => exact absurd hawaiting (by rw [hnot]; exact Bool.false_ne_true)
  | completed _ hnot _ _ _ => exact absurd hawaiting (by rw [hnot]; exact Bool.false_ne_true)
  | definedCleared hnot _ _ _ => exact absurd hawaiting (by rw [hnot]; exact Bool.false_ne_true)

/-- An operation that has not been called back. -/
theorem History.of_not_isSettled (h : History i context outputs)
    (hsettled : context.isSettled = false) : context.clear = false ∧
      (context.operation = false ∧ outputs = [] ∨
        context.isAwaiting = false ∧ context.operation = true ∧ outputs = [.resolved i none]) := by
  cases h with
  | waiting hoperation _ hclear => exact ⟨hclear, Or.inl ⟨hoperation, rfl⟩⟩
  | defined hawaiting hoperation _ hclear => exact ⟨hclear, Or.inr ⟨hawaiting, hoperation, rfl⟩⟩
  | failed _ _ _ hnot _ => exact absurd hsettled (by rw [hnot]; exact Bool.noConfusion)
  | completed _ _ _ hnot _ => exact absurd hsettled (by rw [hnot]; exact Bool.noConfusion)
  | cleared _ hnot _ => exact absurd hsettled (by rw [hnot]; exact Bool.noConfusion)
  | definedCleared _ _ hnot _ => exact absurd hsettled (by rw [hnot]; exact Bool.noConfusion)

/-- The history of a cleared context whose table handler is resolved. -/
theorem History.resolve_cleared (h : History i context outputs) (hclear : context.clear = true) :
    History i { context with isAwaiting := false } outputs := by
  cases h with
  | cleared hoperation hsettled _ => exact .cleared hoperation hsettled hclear
  | definedCleared _ hoperation hsettled _ => exact .definedCleared rfl hoperation hsettled hclear
  | waiting _ _ hnot => exact absurd hclear (by rw [hnot]; exact Bool.false_ne_true)
  | defined _ _ _ hnot => exact absurd hclear (by rw [hnot]; exact Bool.false_ne_true)
  | failed _ _ _ _ hnot => exact absurd hclear (by rw [hnot]; exact Bool.false_ne_true)
  | completed _ _ _ _ hnot => exact absurd hclear (by rw [hnot]; exact Bool.false_ne_true)

/-- The history of a context that is cleared. -/
theorem History.clear (h : History i context outputs) (hsettled : context.isSettled = false) :
    History i { context with clear := true, isSettled := true }
      (outputs ++ [.cleared i, .callback i (some clearError)]) := by
  obtain ⟨-, ⟨hoperation, rfl⟩ | ⟨hawaiting, hoperation, rfl⟩⟩ := h.of_not_isSettled hsettled
  · exact .cleared hoperation rfl rfl
  · exact .definedCleared hawaiting hoperation rfl rfl

/-- The history of an operation that the adapter completes. -/
theorem History.complete (h : History i context outputs) (hsettled : context.isSettled = false)
    (hoperation : context.operation = true) (err : Option DBError) :
    History i { context with isSettled := true } (outputs ++ [.callback i err]) := by
  obtain ⟨hclear, ⟨hnot, -⟩ | ⟨hawaiting, -, rfl⟩⟩ := h.of_not_isSettled hsettled
  · exact absurd hoperation (by rw [hnot]; exact Bool.false_ne_true)
  · exact .completed err hawaiting hoperation rfl hclear

/-- The callback that waits for the definition does not matter for the history. -/
theorem History.setCallback (h : History i context outputs) (callback : Option ℕ) :
    History i { context with operationDefinedCallback := callback } outputs := by
  cases h with
  | waiting hoperation hsettled hclear => exact .waiting hoperation hsettled hclear
  | defined hawaiting hoperation hsettled hclear => exact .defined hawaiting hoperation hsettled hclear
  | failed err hawaiting hoperation hsettled hclear =>
      exact .failed err hawaiting hoperation hsettled hclear
  | completed err hawaiting hoperation hsettled hclear =>
      exact .completed err hawaiting hoperation hsettled hclear
  | cleared hoperation hsettled hclear => exact .cleared hoperation hsettled hclear
  | definedCleared hawaiting hoperation hsettled hclear =>
      exact .definedCleared hawaiting hoperation hsettled hclear

/-! ## Batches -/

/-- The history of a batch. -/
inductive BatchHistory (b : ℕ) (batch : BatchContext) : List Output → Prop
  | empty : batch.operationContexts = [] → batch.stage = .finished →
      BatchHistory b batch [.started b [], .batchCallback b none]
  | waiting : batch.operationContexts ≠ [] → batch.stage = .waiting →
      BatchHistory b batch [.started b batch.operationContexts]
  | executing : batch.operationContexts ≠ [] → batch.stage = .executing →
      BatchHistory b batch
        [.started b batch.operationContexts, .executed b batch.operationContexts]
  | finished (err : Option DBError) : batch.operationContexts ≠ [] → batch.stage = .finished →
      BatchHistory b batch [.started b batch.operationContexts,
        .executed b batch.operationContexts, .completed b, .batchCallback b err]

variable {batch : BatchContext} {contexts : List ℕ}

theorem BatchHistory.started (h : BatchHistory b batch outputs)
    (hmem : .started b contexts ∈ outputs) : contexts = batch.operationContexts := by
  cases h with
  | empty hempty _ => simpa [hempty] using hmem
  | _ => simpa using hmem

theorem BatchHistory.started_mem (h : BatchHistory b batch outputs) :
    .started b batch.operationContexts ∈ outputs := by
  cases h with
  | empty hempty _ => rw [hempty]; exact List.mem_cons_self
  | _ => exact List.mem_cons_self

theorem BatchHistory.executed (h : BatchHistory b batch outputs)
    (hmem : .executed b contexts ∈ outputs) : contexts = batch.operationContexts ∧
      batch.stage ≠ .waiting ∧ executions b outputs = 1 := by
  cases h with
  | empty _ _ => simp at hmem
  | waiting _ _ => simp at hmem
  | executing _ hstage => exact ⟨by simpa using hmem, by simp [hstage], by simp [executions]⟩
  | finished err _ hstage => exact ⟨by simpa using hmem, by simp [hstage], by simp [executions]⟩

theorem BatchHistory.executes (h : BatchHistory b batch outputs)
    (hne : batch.operationContexts ≠ []) (hstage : batch.stage ≠ .waiting) :
    .executed b batch.operationContexts ∈ outputs := by
  cases h with
  | empty hempty _ => exact absurd hempty hne
  | waiting _ hwaiting => exact absurd hwaiting hstage
  | _ => exact List.mem_cons_of_mem _ List.mem_cons_self

theorem BatchHistory.of_waiting (h : BatchHistory b batch outputs) (hstage : batch.stage = .waiting) :
    batch.operationContexts ≠ [] ∧ outputs = [.started b batch.operationContexts] := by
  cases h with
  | empty _ hnot => exact absurd (hstage.symm.trans hnot) Stage.noConfusion
  | waiting hne _ => exact ⟨hne, rfl⟩
  | executing _ hnot => exact absurd (hstage.symm.trans hnot) Stage.noConfusion
  | finished _ _ hnot => exact absurd (hstage.symm.trans hnot) Stage.noConfusion

theorem BatchHistory.of_executing (h : BatchHistory b batch outputs)
    (hstage : batch.stage = .executing) : batch.operationContexts ≠ [] ∧
      outputs = [.started b batch.operationContexts, .executed b batch.operationContexts] := by
  cases h with
  | empty _ hnot => exact absurd (hstage.symm.trans hnot) Stage.noConfusion
  | waiting _ hnot => exact absurd (hstage.symm.trans hnot) Stage.noConfusion
  | executing hne _ => exact ⟨hne, rfl⟩
  | finished _ _ hnot => exact absurd (hstage.symm.trans hnot) Stage.noConfusion

theorem BatchHistory.length_batchCallbacksOf (h : BatchHistory b batch outputs) :
    (batchCallbacksOf b outputs).length = if batch.stage = .finished then 1 else 0 := by
  cases h with
  | empty _ hstage => simp [hstage, batchCallbacksOf]
  | waiting _ hstage => simp [hstage, batchCallbacksOf]
  | executing _ hstage => simp [hstage, batchCallbacksOf]
  | finished err _ hstage => simp [hstage, batchCallbacksOf]

theorem BatchHistory.of_completed (h : BatchHistory b batch outputs)
    (hmem : batch.operationContexts = [] ∨ .completed b ∈ outputs) : batch.stage = .finished := by
  cases h with
  | empty _ hstage => exact hstage
  | waiting hne _ => simp [hne] at hmem
  | executing hne _ => simp [hne] at hmem
  | finished err _ hstage => exact hstage

end DatabaseJones.Batch
