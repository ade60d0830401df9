import DatabaseJones.QueuedAsyncCall.Queue
import DatabaseJones.QueuedAsyncCall.Exclusion

/-!
# Auto-increment values

`NdbAutoIncrement.js`.  A handler asks for the values that the operations of a batch need;
each table has one cache, whose requests are queued.  The final callback is the last thing
that a completion does, so what it does are the events that follow.
-/

namespace DatabaseJones.AutoIncrement

open DatabaseJones.Library
open DatabaseJones.QueuedAsyncCall (Call Callbacks)

variable {τ : Type}

/-! ## Values from the native call -/

/-- The double that is nearest to an unsigned 64-bit number, ties to even. -/
def toJS (cval : UInt64) : ℕ :=
  let value := cval.toNat
  if value ≤ 2 ^ 53 then value
  else
    let unit := 2 ^ (Nat.log2 value - 52)
    let quotient := value / unit
    let remainder := value % unit
    if unit < 2 * remainder ∨ unit = 2 * remainder ∧ quotient % 2 = 1 then (quotient + 1) * unit
    else quotient * unit

/-! ## State -/

/-- An operation of a batch, as far as the handler looks at it. -/
structure Operation (τ : Type) where
  table : τ
  autoIncColumnNumber : Option ℕ
  needAutoInc : Bool

/-- A call of `getValue` for the operation at a position in the batch of a handler. -/
structure Request where
  handler : ℕ
  index : ℕ
  batchSize : ℤ
deriving DecidableEq

/-- An `NdbAutoIncrementCache`. -/
structure Cache where
  batchSize : ℤ := 1
  execQueue : QueuedAsyncCall.State Request UInt64 Empty := {}

/-- An `NdbAutoIncrementHandler`. -/
structure Handler (τ : Type) where
  valuesNeeded : ℤ := 0
  autoincOpList : List (ℕ × τ) := []
  errors : ℕ := 0

/-- What can be observed.  An answer holds the value that the operation has received. -/
inductive Output (τ : Type)
  | batch (handler : ℕ) (operations : List (Operation τ))
  | prefetched (table : τ)
  | getValue (table : τ) (request : Request)
  | sent (table : τ) (request : Request)
  | answered (handler index : ℕ) (table : τ) (insertId : Option ℕ)
  | prepareOperations (handler : ℕ)
  | final (handler errors : ℕ)

/-- The caches, the handlers by number, and the values that NDB has given for a table. -/
structure State (τ : Type) where
  caches : τ → Cache := fun _ => {}
  handlers : ℕ → Handler τ := fun _ => {}
  count : ℕ := 0
  issued : τ → List UInt64 := fun _ => []
  trace : List (Output τ) := []

/-- A batch is executed; the native call for a table returns a value, or 0 on error. -/
inductive Event (τ : Type)
  | execute (operations : List (Operation τ))
  | complete (table : τ) (call : Call Request) (value : UInt64)

/-! ## The functions -/

/-- `getValue` gives its calls a `mainCallback` only. -/
def getValueCallbacks : Callbacks Request where
  preCallback _ := false
  mainCallback _ := true

/-- The operations that need a value, with their positions. -/
def autoincOpList (operations : List (Operation τ)) : List (ℕ × τ) :=
  (operations.zipIdx.filter fun (op, _) => op.autoIncColumnNumber.isSome && op.needAutoInc).map
    fun (op, index) => (index, op.table)

/-- The queue of a cache when the function on top of the stack has returned. -/
def Cache.returned (cache : Cache) : QueuedAsyncCall.State Request UInt64 Empty :=
  (QueuedAsyncCall.step getValueCallbacks cache.execQueue (.return none)).getD cache.execQueue

variable [DecidableEq τ]

/-- `prefetch(1)`. -/
def State.prefetch (state : State τ) (table : τ) : State τ :=
  let cache := state.caches table
  { state with
    caches := Function.update state.caches table { cache with batchSize := cache.batchSize + 1 }
    trace := state.trace ++ [.prefetched table] }

/-- `new NdbAutoIncrementHandler(operations)`. -/
def State.newHandler (state : State τ) (operations : List (Operation τ)) : State τ :=
  let opList := autoincOpList operations
  let prefetched := opList.foldl (fun state op => state.prefetch op.2) state
  { prefetched with
    handlers := Function.update state.handlers state.count
      { valuesNeeded := opList.length, autoincOpList := opList }
    count := state.count + 1
    trace := prefetched.trace ++ [.batch state.count operations] }

/-- `run()` of the call that has just been started, if there is one: the native call, and
`batch_size--`. -/
def State.run (state : State τ) (table : τ) : State τ :=
  let cache := state.caches table
  match cache.execQueue.stack with
  | .run call :: _ =>
      { state with
        caches := Function.update state.caches table
          { batchSize := cache.batchSize - 1, execQueue := cache.returned }
        trace := state.trace ++ [.sent table call.data] }
  | _ => state

/-- `getValue(callback)` for an operation of a handler. -/
def State.getValue (state : State τ) (handler : ℕ) (op : ℕ × τ) : State τ :=
  let cache := state.caches op.2
  let request : Request := ⟨handler, op.1, cache.batchSize⟩
  State.run { state with
    caches := Function.update state.caches op.2
      { cache with execQueue := cache.execQueue.enqueue request }
    trace := state.trace ++ [.getValue op.2 request] } op.2

/-- `getAllValues(callback)`. -/
def State.getAllValues (state : State τ) (handler : ℕ) : State τ :=
  (state.handlers handler).autoincOpList.foldl (fun state op => state.getValue handler op) state

/-- `getAutoIncrementValues()` of `executeNonScan`. -/
def State.execute (state : State τ) (operations : List (Operation τ)) : State τ :=
  let created := state.newHandler operations
  if (created.handlers state.count).valuesNeeded > 0 then created.getAllValues state.count
  else { created with trace := created.trace ++ [.prepareOperations state.count] }

/-- The function made by `makeOperationCallback`. -/
def State.operationCallback (state : State τ) (table : τ) (request : Request) (value : ℕ) :
    State τ :=
  let handler := state.handlers request.handler
  let valuesNeeded := handler.valuesNeeded - 1
  -- An error is counted in a property `erorrs` of its own.
  let insertId := if value > 0 then some value else none
  { state with
    handlers := Function.update state.handlers request.handler { handler with valuesNeeded }
    trace := state.trace ++ .answered request.handler request.index table insertId ::
      if valuesNeeded = 0 then [.final request.handler handler.errors] else [] }

/-- The main callback that has just been called, if there is one, until it returns. -/
def State.mainCallback (state : State τ) (table : τ) : State τ :=
  let cache := state.caches table
  match cache.execQueue.stack with
  | .mainCallback call value :: _ =>
      { state.operationCallback table call.data (toJS value) with
        caches := Function.update state.caches table { cache with execQueue := cache.returned } }
  | _ => state

/-- A batch of operations is executed, or a native call completes.  NDB gives no value of a
table twice. -/
def step (state : State τ) : Event τ → Option (State τ)
  | .execute operations => some (state.execute operations)
  | .complete table call value =>
      if value ≠ 0 ∧ value ∈ state.issued table then none
      else
        let cache := state.caches table
        (QueuedAsyncCall.step getValueCallbacks cache.execQueue (.complete call value)).map
          fun execQueue =>
            State.mainCallback (State.run { state with
              caches := Function.update state.caches table { cache with execQueue }
              issued := Function.update state.issued table (state.issued table ++ [value]) } table)
              table

/-! ## Reading the trace -/

/-- The handler that an output is about. -/
def Output.handler? : Output τ → Option ℕ
  | .batch handler _ => some handler
  | .prefetched _ => none
  | .getValue _ _ => none
  | .sent _ _ => none
  | .answered handler _ _ _ => some handler
  | .prepareOperations handler => some handler
  | .final handler _ => some handler

/-- The value of a table that an operation has received. -/
def Output.insertId? (table : τ) : Output τ → Option ℕ
  | .answered _ _ other insertId => if other = table then insertId else none
  | _ => none

/-- The values that operations have received for a table, in order. -/
def insertIds (table : τ) (trace : List (Output τ)) : List ℕ :=
  trace.filterMap (Output.insertId? table)

def Output.prefetches (table : τ) : Output τ → Bool
  | .prefetched other => other = table
  | _ => false

def Output.sends (table : τ) : Output τ → Bool
  | .sent other _ => other = table
  | _ => false

/-- The values of a table that were requested with `prefetch` and for which the native call
has not been made. -/
def outstanding (table : τ) (trace : List (Output τ)) : ℤ :=
  trace.countP (Output.prefetches table) - trace.countP (Output.sends table)

/-- An answer of a handler: the position of the operation, its table, and its value. -/
structure Answer (τ : Type) where
  index : ℕ
  table : τ
  insertId : Option ℕ

/-- The operation, as in the list of a handler. -/
def Answer.op (answer : Answer τ) : ℕ × τ := (answer.index, answer.table)

def Answer.output (handler : ℕ) (answer : Answer τ) : Output τ :=
  .answered handler answer.index answer.table answer.insertId

/-- What is observed of a handler after some of its operations have got an answer. -/
def story (handler : ℕ) (operations : List (Operation τ)) (answers : List (Answer τ)) :
    List (Output τ) :=
  .batch handler operations :: answers.map (Answer.output handler) ++
    if answers.length = (autoincOpList operations).length then
      [.final handler (answers.countP fun answer => answer.insertId.isNone)]
    else []

/-- Handlers that get a value or an error for each operation that needs a value, and then
call the final callback with the number of errors. -/
structure Assigns (state : State τ) : Prop where
  stories : ∀ handler operations, .batch handler operations ∈ state.trace →
    autoincOpList operations ≠ [] → ∃ answers,
      about Output.handler? handler state.trace = story handler operations answers ∧
      (answers.map Answer.op).Subperm (autoincOpList operations) ∧
      ((∀ table, (state.caches table).execQueue.running = []) →
        answers.length = (autoincOpList operations).length)
  distinct : ∀ table, (insertIds table state.trace).Nodup
  batchSize : ∀ before table request, before ++ [.getValue table request] <+: state.trace →
    request.batchSize = 1 + outstanding table before
  sent : ∀ table request, .sent table request ∈ state.trace → .getValue table request ∈ state.trace

/-- The native call returns a value, and a double represents it. -/
def Allowed (_ : State τ) : Event τ → Prop
  | .execute _ => True
  | .complete _ _ value => value ≠ 0 ∧ toJS value = value.toNat

instance (state : State τ) (event : Event τ) : Decidable (Allowed state event) := by
  cases event <;> unfold Allowed <;> infer_instance

end DatabaseJones.AutoIncrement

/-!
## Caches between two events

Between two events no function of a queue is on the stack, and the first of its calls runs.
What `getValue` and a completion do is said once here, for such queues.
-/

namespace DatabaseJones.AutoIncrement

open DatabaseJones.Library
open DatabaseJones.QueuedAsyncCall (Call)

variable {queue after : QueuedAsyncCall.State Request UInt64 Empty} {call : Call Request}
  {value : UInt64}

/-! ## Queues -/

/-- A queue of which no function is on the stack, and the first call runs. -/
structure AtRest (queue : QueuedAsyncCall.State Request UInt64 Empty) : Prop where
  stack : queue.stack = []
  running : queue.running = queue.queue.take 1

theorem atRest_init : AtRest {} := ⟨rfl, rfl⟩

/-- A queue whose main callback has been called. -/
structure CallsBack (queue : QueuedAsyncCall.State Request UInt64 Empty) (call : Call Request)
    (value : UInt64) : Prop where
  stack : queue.stack = [.mainCallback call value]
  running : queue.running = queue.queue.take 1

theorem enqueue_first (h : AtRest queue) (hqueue : queue.queue = []) (request : Request) :
    ∃ call after, call.data = request ∧ (queue.enqueue request).stack = [.run call] ∧
      QueuedAsyncCall.step getValueCallbacks (queue.enqueue request) (.return none) = some after ∧
      AtRest after ∧ after.queue = [call] := by
  have hrunning : queue.running = [] := by
    rw [h.running, hqueue]
    rfl
  have henqueue : queue.enqueue request =
      { queue with
        serial := queue.serial + 1
        queue := [⟨queue.serial, request⟩]
        stack := [.run ⟨queue.serial, request⟩]
        running := [⟨queue.serial, request⟩]
        trace := queue.trace ++ [.enqueued ⟨queue.serial, request⟩] ++
          [.started ⟨queue.serial, request⟩] } := by
    rw [QueuedAsyncCall.State.enqueue, hqueue]
    simp [QueuedAsyncCall.State.run, h.stack, hrunning]
  rw [henqueue]
  exact ⟨⟨queue.serial, request⟩, _, rfl, rfl, rfl, ⟨rfl, rfl⟩, rfl⟩

theorem enqueue_behind (h : AtRest queue) (hqueue : queue.queue ≠ []) (request : Request) :
    ∃ call, call.data = request ∧ AtRest (queue.enqueue request) ∧
      (queue.enqueue request).queue = queue.queue ++ [call] := by
  rw [QueuedAsyncCall.enqueue_eq queue request hqueue]
  refine ⟨⟨queue.serial, request⟩, rfl, ⟨h.stack, ?_⟩, rfl⟩
  exact h.running.trans (List.take_append_of_le_length (List.length_pos_iff.mpr hqueue)).symm

/-- The first call completes, the next one is started, and the main callback is called. -/
theorem complete_spec (h : AtRest queue)
    (hstep : QueuedAsyncCall.step getValueCallbacks queue (.complete call value) = some after) :
    ∃ rest, queue.queue = call :: rest ∧
      match rest with
      | [] => CallsBack after call value ∧ after.queue = []
      | next :: _ => (∃ stack, after.stack = .run next :: stack) ∧ ∃ returned,
          QueuedAsyncCall.step getValueCallbacks after (.return none) = some returned ∧
            CallsBack returned call value ∧ returned.queue = rest := by
  obtain ⟨serial, calls, stack, running, trace⟩ := queue
  obtain ⟨hstack, hrunning⟩ := h
  obtain rfl : stack = [] := hstack
  obtain rfl : running = calls.take 1 := hrunning
  cases calls with
  | nil => exact nomatch hstep
  | cons first rest =>
      rw [QueuedAsyncCall.step] at hstep
      split_ifs at hstep with hmem
      obtain rfl : call = first := List.mem_singleton.mp hmem
      rw [← Option.some.inj hstep]
      cases rest with
      | nil => exact ⟨[], rfl, ⟨rfl, by simp [QueuedAsyncCall.State.wrappedCallback,
          QueuedAsyncCall.State.advance, QueuedAsyncCall.State.finish, getValueCallbacks]⟩, rfl⟩
      | cons next rest => exact ⟨next :: rest, rfl, ⟨[_], rfl⟩, _, rfl, ⟨rfl, by simp [QueuedAsyncCall.State.wrappedCallback,
          QueuedAsyncCall.State.advance, QueuedAsyncCall.State.finish, QueuedAsyncCall.State.run, getValueCallbacks]⟩, rfl⟩

theorem CallsBack.return (h : CallsBack queue call value) : ∃ returned,
    QueuedAsyncCall.step getValueCallbacks queue (.return none) = some returned ∧
      AtRest returned ∧ returned.queue = queue.queue := by
  refine ⟨{ queue with stack := [] }, ?_, ⟨rfl, h.running⟩, rfl⟩
  rw [QueuedAsyncCall.step, h.stack]

/-! ## Functions that return -/

variable {τ : Type} [DecidableEq τ] {state : State τ} {table : τ} {batchSize : ℤ}

theorem run_of_stack_nil (hcache : state.caches table = ⟨batchSize, queue⟩)
    (hstack : queue.stack = []) : state.run table = state := by
  simp only [State.run, hcache, hstack]

theorem run_of_callsBack (hcache : state.caches table = ⟨batchSize, queue⟩)
    (h : CallsBack queue call value) : state.run table = state := by
  simp only [State.run, hcache, h.stack]

theorem run_of_run {stack : List (QueuedAsyncCall.Frame Request UInt64 Empty)}
    (hcache : state.caches table = ⟨batchSize, queue⟩) (hstack : queue.stack = .run call :: stack)
    (hstep : QueuedAsyncCall.step getValueCallbacks queue (.return none) = some after) :
    state.run table =
      { state with
        caches := Function.update state.caches table ⟨batchSize - 1, after⟩
        trace := state.trace ++ [.sent table call.data] } := by
  simp only [State.run, hcache, hstack, Cache.returned, hstep, Option.getD_some]

theorem mainCallback_of_callsBack (hcache : state.caches table = ⟨batchSize, queue⟩)
    (h : CallsBack queue call value)
    (hstep : QueuedAsyncCall.step getValueCallbacks queue (.return none) = some after) :
    state.mainCallback table =
      { state.operationCallback table call.data (toJS value) with
        caches := Function.update state.caches table ⟨batchSize, after⟩ } := by
  simp only [State.mainCallback, hcache, h.stack, Cache.returned, hstep, Option.getD_some]

/-! ## Requests and completions -/

/-- `getValue` appends its request, which is sent at once to an empty queue. -/
theorem getValue_spec (h : AtRest (state.caches table).execQueue) (handler index : ℕ) :
    ∃ after call, AtRest after ∧
      call.data = ⟨handler, index, (state.caches table).batchSize⟩ ∧
      after.queue = (state.caches table).execQueue.queue ++ [call] ∧
      state.getValue handler (index, table) =
        { state with
          caches := Function.update state.caches table
            ⟨(state.caches table).batchSize -
              if (state.caches table).execQueue.queue = [] then 1 else 0, after⟩
          trace := state.trace ++ .getValue table call.data ::
            if (state.caches table).execQueue.queue = [] then [.sent table call.data] else [] } := by
  by_cases hqueue : (state.caches table).execQueue.queue = []
  · obtain ⟨call, after, hdata, hstack, hstep, hafter, hcalls⟩ :=
      enqueue_first h hqueue ⟨handler, index, (state.caches table).batchSize⟩
    refine ⟨after, call, hafter, hdata, by rw [hqueue, hcalls, List.nil_append], ?_⟩
    rw [if_pos hqueue, if_pos hqueue, State.getValue,
      run_of_run (Function.update_self _ _ _) hstack hstep, Function.update_idem, hdata,
      List.append_assoc]
    rfl
  · obtain ⟨call, hdata, hafter, hcalls⟩ :=
      enqueue_behind h hqueue ⟨handler, index, (state.caches table).batchSize⟩
    refine ⟨_, call, hafter, hdata, hcalls, ?_⟩
    rw [if_neg hqueue, if_neg hqueue, State.getValue,
      run_of_stack_nil (Function.update_self _ _ _) hafter.stack, hdata, sub_zero]

/-- A completion sends the next request, and the handler is told about the first one. -/
theorem step_complete_spec {after : State τ} (h : AtRest (state.caches table).execQueue)
    (hstep : step state (.complete table call value) = some after) :
    ∃ rest returned, (state.caches table).execQueue.queue = call :: rest ∧ AtRest returned ∧
      returned.queue = rest ∧ (value ≠ 0 → value ∉ state.issued table) ∧
      after =
        { State.operationCallback
            { state with
              issued := Function.update state.issued table (state.issued table ++ [value])
              trace := state.trace ++ rest.head?.toList.map fun next => .sent table next.data }
            table call.data (toJS value) with
          caches := Function.update state.caches table
            ⟨(state.caches table).batchSize - if rest = [] then 0 else 1, returned⟩ } := by
  rw [step] at hstep
  split_ifs at hstep with hissued
  obtain ⟨execQueue, hqueue, hafter⟩ := Option.map_eq_some_iff.mp hstep
  obtain ⟨rest, hcalls, hrest⟩ := complete_spec h hqueue
  have hfresh : value ≠ 0 → value ∉ state.issued table := fun hvalue hmem => hissued ⟨hvalue, hmem⟩
  rw [← hafter]
  cases rest with
  | nil =>
      obtain ⟨hcallsBack, hempty⟩ := hrest
      obtain ⟨returned, hreturn, hatRest, hleft⟩ := hcallsBack.return
      refine ⟨[], returned, hcalls, hatRest, hleft.trans hempty, hfresh, ?_⟩
      rw [run_of_callsBack (Function.update_self _ _ _) hcallsBack,
        mainCallback_of_callsBack (Function.update_self _ _ _) hcallsBack hreturn,
        Function.update_idem, if_pos rfl, sub_zero]
      simp only [State.operationCallback, List.head?_nil, Option.toList_none, List.map_nil,
        List.append_nil]
  | cons next rest =>
      obtain ⟨⟨stack, hstack⟩, returned, hreturn, hcallsBack, hleft⟩ := hrest
      obtain ⟨returned', hreturn', hatRest, hleft'⟩ := hcallsBack.return
      refine ⟨next :: rest, returned', hcalls, hatRest, hleft'.trans hleft, hfresh, ?_⟩
      rw [run_of_run (Function.update_self _ _ _) hstack hreturn,
        mainCallback_of_callsBack (Function.update_self _ _ _) hcallsBack hreturn',
        Function.update_idem, Function.update_idem, if_neg (List.cons_ne_nil _ _)]
      rfl

end DatabaseJones.AutoIncrement
