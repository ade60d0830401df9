import DatabaseJones.QueuedAsyncCall.Queue

/-!
# Dictionary calls

`Call` and `Queue` of `DictionaryCall.js`.  The callbacks that are added for one key wait
for the same call, whose group callback runs them one after the other; a callback that adds
more callbacks is in the middle of that loop.
-/

namespace DatabaseJones.DictionaryCall

open DatabaseJones.Library
open DatabaseJones.QueuedAsyncCall (Call Callbacks)

variable {κ ρ : Type}

/-- What can be observed of the groups.  `user` names a callback that was added. -/
inductive Output (κ ρ : Type)
  | added (key : κ) (user : ℕ)
  | completed (call : Call κ) (result : ρ)
  | called (user : ℕ) (call : Call κ) (result : ρ)
  | distributed (call : Call κ)

/-- A `Queue`.  A callback list is named by the call that it was created for: `callbacks` is
the list of a key, unless it is empty, and `index` is how far the loop of a group callback
has come in its list. -/
structure State (κ ρ : Type) where
  queue : QueuedAsyncCall.State κ ρ Empty := {}
  callbacks : κ → Option (Call κ) := fun _ => none
  lists : Call κ → List ℕ := fun _ => []
  index : Call κ → ℕ := fun _ => 0
  users : ℕ := 0
  trace : List (Output κ ρ) := []

/-- Someone adds a callback for a key; a call completes; or the function on top of the stack
goes on, which is the loop of the group callback when a callback has returned. -/
inductive Event (κ ρ : Type)
  | add (key : κ)
  | complete (call : Call κ) (result : ρ)
  | proceed

/-- `queueExecCall` gives its calls a `mainCallback` only. -/
def queueCallbacks : Callbacks κ where
  preCallback _ := false
  mainCallback _ := true

variable [DecidableEq κ]

/-- `add(key, callback)` where no call exists, and `queueExecCall` after it. -/
def State.create (state : State κ ρ) (key : κ) (user : ℕ) : State κ ρ :=
  let call := ⟨state.queue.serial, key⟩
  { state with
    callbacks := Function.update state.callbacks key (some call)
    lists := Function.update state.lists call [user]
    queue := state.queue.enqueue key }

/-- `add(key, impl, arg, callback)` of a `Queue`. -/
def State.add (state : State κ ρ) (key : κ) : State κ ρ :=
  let user := state.users
  let added : State κ ρ := { state with users := user + 1, trace := state.trace ++ [.added key user] }
  match state.callbacks key with
  | some call =>
      if (state.lists call).length ≠ 0 then
        { added with lists := Function.update state.lists call (state.lists call ++ [user]) }
      else added.create key user
  | none => added.create key user

/-- The group callback of a call: the next turn of its loop, or its end. -/
def State.distribute (state : State κ ρ) (call : Call κ) (result : ρ) : Option (State κ ρ) :=
  match (state.lists call)[state.index call]? with
  | some user =>
      some { state with
        index := Function.update state.index call (state.index call + 1)
        trace := state.trace ++ [.called user call result] }
  | none =>
      (QueuedAsyncCall.step queueCallbacks state.queue (.return none)).map fun queue =>
        { state with
          queue
          callbacks := Function.update state.callbacks call.data none
          trace := state.trace ++ [.distributed call] }

def step (state : State κ ρ) : Event κ ρ → Option (State κ ρ)
  | .add key => some (state.add key)
  | .complete call result =>
      (QueuedAsyncCall.step queueCallbacks state.queue (.complete call result)).map fun queue =>
        { state with queue, trace := state.trace ++ [.completed call result] }
  | .proceed =>
      match state.queue.stack with
      | .mainCallback call result :: _ => state.distribute call result
      | _ =>
          (QueuedAsyncCall.step queueCallbacks state.queue (.return none)).map fun queue =>
            { state with queue }

/-! ## Reading the trace -/

/-- The callback that an output is about. -/
def Output.user? : Output κ ρ → Option ℕ
  | .added _ user => some user
  | .completed _ _ => none
  | .called user _ _ => some user
  | .distributed _ => none

def Output.distributed? : Output κ ρ → Option (Call κ)
  | .distributed call => some call
  | _ => none

/-- The calls whose group callback has returned. -/
def distributedCalls (trace : List (Output κ ρ)) : List (Call κ) :=
  trace.filterMap Output.distributed?

/-- The calls that have been requested and have not completed. -/
def State.Outstanding (state : State κ ρ) (call : Call κ) : Prop :=
  call ∈ QueuedAsyncCall.enqueuedCalls state.queue.trace ∧
    ∀ result, .completed call result ∉ state.trace

/-- Groups that share their calls: there is one call for a key at a time, and every callback
is called once, with the result of a call for its key that was not distributed to the end
when the callback was added. -/
structure Shares (state : State κ ρ) : Prop where
  oneCall : ∀ call other, state.Outstanding call → state.Outstanding other →
    call.data = other.data → call = other
  answers : ∀ key user, .added key user ∈ state.trace →
    about Output.user? user state.trace = [.added key user] ∨
      ∃ call result, about Output.user? user state.trace =
          [.added key user, .called user call result] ∧
        call.data = key ∧ .completed call result ∈ state.trace ∧
        ¬ List.Sublist [.distributed call, .added key user] state.trace
  served : state.queue.stack = [] → ∀ key user, .added key user ∈ state.trace →
    about Output.user? user state.trace = [.added key user] →
      ∃ call, state.Outstanding call ∧ call.data = key
  empty : state.queue.stack = [] → state.queue.running = [] → ∀ call, ¬ state.Outstanding call

end DatabaseJones.DictionaryCall
