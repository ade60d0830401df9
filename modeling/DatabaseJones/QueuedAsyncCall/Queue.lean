import DatabaseJones.Library.Run
import DatabaseJones.Library.Story

/-!
# Queued asynchronous calls

`QueuedAsyncCall.js`.  The queue is advanced from the wrapped callbacks, which run while
other code is still on the stack: `run()` may call back before it returns, and every
callback may enqueue more calls.  The stack is explicit here, and code that the user or the
adapter has written is the list of events that happen while its frame is on top.
-/

namespace DatabaseJones.QueuedAsyncCall

open DatabaseJones.Library

/-! ## Calls, frames and outputs -/

/-- A `QueuedAsyncCall`; `data` is what the user has stored in it. -/
structure Call (κ : Type) where
  serial : ℕ
  data : κ
deriving DecidableEq

/-- Which calls have a `preCallback` and a `mainCallback` that are functions. -/
structure Callbacks (κ : Type) where
  preCallback : κ → Bool
  mainCallback : κ → Bool

/-- A function that has not returned.  `thisCall` is the call that was shifted from the
queue, and `owner` the one whose callback was wrapped. -/
inductive Frame (κ ρ π : Type)
  | run (call : Call κ)
  | preCallback (thisCall owner : Call κ) (result : ρ) (nextCall : Option (Call κ))
  | advance (thisCall owner : Call κ) (result : ρ) (postCallback : Option π)
  | postCallback (thisCall : Call κ)
  | mainCallback (owner : Call κ) (result : ρ)

/-- What can be observed of a queue. -/
inductive Output (κ ρ π : Type)
  | enqueued (call : Call κ)
  | started (call : Call κ)
  | completed (call : Call κ) (result : ρ)
  | preCallback (call : Call κ) (result : ρ)
  | preReturned (call : Call κ) (postCallback : Option π)
  | postCallback (call : Call κ) (postCallback : π)
  | mainCallback (call : Call κ) (result : ρ)
  | threw

/-- The queue, the functions that have not returned, the calls that run, and the trace. -/
structure State (κ ρ π : Type) where
  serial : ℕ := 1
  queue : List (Call κ) := []
  stack : List (Frame κ ρ π) := []
  running : List (Call κ) := []
  trace : List (Output κ ρ π) := []

/-- Someone enqueues a call; a call that runs completes; the function on top of the stack
returns, a `preCallback` with a `postCallback` or without. -/
inductive Event (κ ρ π : Type)
  | enqueue (data : κ)
  | complete (call : Call κ) (result : ρ)
  | return (postCallback : Option π)

variable {κ ρ π : Type}

/-! ## The functions -/

/-- `run()` of a call. -/
def State.run (state : State κ ρ π) (call : Call κ) : State κ ρ π :=
  { state with
    stack := .run call :: state.stack
    running := call :: state.running
    trace := state.trace ++ [.started call] }

/-- `enqueue()` of a new call. -/
def State.enqueue (state : State κ ρ π) (data : κ) : State κ ρ π :=
  let call := ⟨state.serial, data⟩
  let pushed :=
    { state with
      serial := state.serial + 1
      queue := state.queue ++ [call]
      trace := state.trace ++ [.enqueued call] }
  if pushed.queue.length - 1 = 0 then pushed.run call else pushed

section
variable (callbacks : Callbacks κ)

/-- The last part of `wrappedCallback`: the `postCallback`, else the `mainCallback`. -/
def State.finish (state : State κ ρ π) (thisCall owner : Call κ) (result : ρ) :
    Option π → State κ ρ π
  | some postCallback =>
      { state with
        stack := .postCallback thisCall :: state.stack
        trace := state.trace ++ [.postCallback thisCall postCallback] }
  | none =>
      if callbacks.mainCallback owner.data then
        { state with
          stack := .mainCallback owner result :: state.stack
          trace := state.trace ++ [.mainCallback owner result] }
      else state

/-- `wrappedCallback` from the place where it advances the queue. -/
def State.advance (state : State κ ρ π) (thisCall owner : Call κ) (result : ρ)
    (nextCall : Option (Call κ)) (postCallback : Option π) : State κ ρ π :=
  match nextCall with
  | some next =>
      { state with stack := .advance thisCall owner result postCallback :: state.stack }.run next
  | none => state.finish callbacks thisCall owner result postCallback

/-- `wrappedCallback` of the call `owner`. -/
def State.wrappedCallback (state : State κ ρ π) (owner : Call κ) (result : ρ) : State κ ρ π :=
  match state.queue with
  | [] => { state with trace := state.trace ++ [.threw] }
  | thisCall :: queue =>
      if callbacks.preCallback thisCall.data then
        { state with
          queue
          stack := .preCallback thisCall owner result queue.head? :: state.stack
          trace := state.trace ++ [.preCallback thisCall result] }
      else { state with queue }.advance callbacks thisCall owner result queue.head? none

/-- Only a call that runs can complete, and it completes once. -/
def step [DecidableEq κ] (state : State κ ρ π) : Event κ ρ π → Option (State κ ρ π)
  | .enqueue data => some (state.enqueue data)
  | .complete call result =>
      if call ∈ state.running then
        some ({ state with
          running := state.running.erase call
          trace := state.trace ++ [Output.completed call result] }.wrappedCallback callbacks call result)
      else none
  | .return postCallback =>
      match state.stack with
      | [] => none
      | .run _ :: .advance thisCall owner result postCallback :: stack =>
          some ({ state with stack }.finish callbacks thisCall owner result postCallback)
      | .run _ :: stack => some { state with stack }
      | .preCallback thisCall owner result nextCall :: stack =>
          some ({ state with
            stack
            trace := state.trace ++ [Output.preReturned thisCall postCallback] }.advance callbacks
              thisCall owner result nextCall postCallback)
      | .advance _ _ _ _ :: _ => none
      | .postCallback _ :: stack => some { state with stack }
      | .mainCallback _ _ :: stack => some { state with stack }

end

/-! ## Reading the trace -/

/-- The call that an output is about. -/
def Output.call? : Output κ ρ π → Option (Call κ)
  | .enqueued call => some call
  | .started call => some call
  | .completed call _ => some call
  | .preCallback call _ => some call
  | .preReturned call _ => some call
  | .postCallback call _ => some call
  | .mainCallback call _ => some call
  | .threw => none

def Output.enqueued? : Output κ ρ π → Option (Call κ)
  | .enqueued call => some call
  | _ => none

def Output.started? : Output κ ρ π → Option (Call κ)
  | .started call => some call
  | _ => none

/-- The calls that have been enqueued, in order. -/
def enqueuedCalls (trace : List (Output κ ρ π)) : List (Call κ) := trace.filterMap Output.enqueued?

/-- The calls that have been started, in order. -/
def startedCalls (trace : List (Output κ ρ π)) : List (Call κ) := trace.filterMap Output.started?

/-- How far a call has come. -/
inductive Stage (ρ π : Type)
  | waiting
  | running
  | preCallback (result : ρ)
  | advancing (result : ρ) (postCallback : Option π)
  | called (result : ρ) (postCallback : Option π)

section
variable (callbacks : Callbacks κ)

/-- What is observed of a call until it completes. -/
def beginning (call : Call κ) : List (Output κ ρ π) := [.enqueued call, .started call]

/-- What is observed of the `preCallback` of a call. -/
def preStory (call : Call κ) (result : ρ) (postCallback : Option π) : List (Output κ ρ π) :=
  if callbacks.preCallback call.data then
    [.preCallback call result, .preReturned call postCallback]
  else []

/-- The callback that ends a call: the `postCallback` that its `preCallback` has returned,
or, without one, its `mainCallback` with its own result. -/
def lastCallback (call : Call κ) (result : ρ) : Option π → List (Output κ ρ π)
  | some postCallback => [.postCallback call postCallback]
  | none => if callbacks.mainCallback call.data then [.mainCallback call result] else []

/-- Everything that is observed of a call up to a stage. -/
def story (call : Call κ) : Stage ρ π → List (Output κ ρ π)
  | .waiting => [.enqueued call]
  | .running => beginning call
  | .preCallback result => beginning call ++ [.completed call result, .preCallback call result]
  | .advancing result postCallback =>
      beginning call ++ [.completed call result] ++ preStory callbacks call result postCallback
  | .called result postCallback =>
      beginning call ++ [.completed call result] ++ preStory callbacks call result postCallback ++
        lastCallback callbacks call result postCallback

/-- A queue that serves its calls one at a time and in order, and each of them once. -/
structure Serves [DecidableEq κ] (state : State κ ρ π) : Prop where
  neverThrows : .threw ∉ state.trace
  oneAtATime : state.running.length ≤ 1
  inOrder : startedCalls state.trace <+: enqueuedCalls state.trace
  stories : ∀ call ∈ enqueuedCalls state.trace,
    ∃ stage, about Output.call? call state.trace = story callbacks call stage
  settled : state.stack = [] → ∀ call result, .completed call result ∈ state.trace →
    ∃ postCallback,
      about Output.call? call state.trace = story callbacks call (.called result postCallback)
  empty : state.stack = [] → state.running = [] →
    state.queue = [] ∧ ∀ call ∈ enqueuedCalls state.trace, ∃ result, .completed call result ∈ state.trace

end

end DatabaseJones.QueuedAsyncCall
