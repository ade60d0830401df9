import DatabaseJones.Library.Run
import DatabaseJones.Library.Story

/-!
# Promises

`Promise.js`: one promise, the promises that its `then()` has returned, and the functions
that wait for a turn of the event loop.  A handler runs at the beginning of a turn; whatever
it does to the promise are the events that follow.
-/

namespace DatabaseJones.Promise

open DatabaseJones.Library

/-! ## Values -/

/-- The values of JavaScript, as far as the promise looks at them: `self` is the promise, and
objects and functions differ in what reading their property `then` does. -/
inductive Value
  | undefined
  | null
  | primitive (isTruthy : Bool) (name : ℕ)
  | self
  | object (name : ℕ)
  | throwing (name : ℕ)
  | thenable (name : ℕ)
deriving DecidableEq

/-- Whether a value is true as a condition. -/
def Value.truthy : Value → Bool
  | .undefined => false
  | .null => false
  | .primitive isTruthy _ => isTruthy
  | _ => true

/-- An argument of `then()`.  A truthy value that is no function may have a method `call`. -/
inductive Argument
  | function (name : ℕ)
  | falsy
  | truthy (call : Option ℕ)
deriving DecidableEq

def Argument.isFunction : Argument → Bool
  | .function _ => true
  | _ => false

/-- How a function ends. -/
inductive Outcome
  | returns (value : Value)
  | throws (error : Value)

inductive Side
  | fulfilled
  | rejected
deriving DecidableEq

/-- A call of `fulfill()` or `reject()`. -/
inductive Settlement
  | fulfilled (value : Value)
  | rejected (reason : Value)
deriving DecidableEq

def Settlement.side : Settlement → Side
  | .fulfilled _ => .fulfilled
  | .rejected _ => .rejected

def Settlement.value : Settlement → Value
  | .fulfilled value => value
  | .rejected reason => reason

/-- The errors that are created where a promise is resolved. -/
inductive ResolutionError
  | notCallable
  | readThen
  | resolutionProcedure
deriving DecidableEq

/-- What becomes of the promise that `then()` has returned: it is settled, or it waits for
a thenable. -/
inductive Resolution
  | fulfilled (value : Value)
  | rejected (reason : Value)
  | error (error : ResolutionError)
  | adopted (thenable : ℕ)
deriving DecidableEq

/-- What the functions of the user do: how a function ends that is called with a value, what
the getter of a property `then` throws, and how a thenable settles, if it ever does. -/
structure Behaviour where
  call : ℕ → Value → Outcome
  getThen : ℕ → Value
  settles : ℕ → Option Settlement

/-! ## Reactions -/

/-- The callback that is given to `thenPromiseFulfilledOrRejected`. -/
inductive Callback
  | fulfilledCallback (callback : Argument)
  | rejectedCallback (callback : Argument)
  | emptyFulfilledCallback
  | emptyRejectedCallback
deriving DecidableEq

/-- A function in `fulfilled_callbacks` or `rejected_callbacks`; `index` numbers the calls of
`then()`. -/
structure Reaction where
  index : ℕ
  callback : Callback
deriving DecidableEq

/-- A function given to `setImmediate`. -/
structure Immediate where
  index : ℕ
  callback : Callback
  result : Value
  isRejected : Bool
deriving DecidableEq

section
variable (behaviour : Behaviour)

/-- The Promise Resolution Procedure for a result. -/
def resolve : Value → Resolution
  | .null => .error .readThen
  | .self => .error .resolutionProcedure
  | .throwing name => .rejected (behaviour.getThen name)
  | .thenable name => .adopted name
  | value => .fulfilled value

def complete : Outcome → Resolution
  | .returns value => resolve behaviour value
  | .throws error => .rejected error

/-- A callback that is an argument of `then()`. -/
def callArgument (callback : Argument) (result : Value) (isRejected : Bool) : Resolution :=
  match callback with
  | .function name => complete behaviour (behaviour.call name result)
  | .truthy (some call) => complete behaviour (behaviour.call call result)
  | .truthy none => .error .notCallable
  | .falsy => if isRejected then .rejected result else .fulfilled result

/-- `thenPromiseFulfilledOrRejected(original_promise, callback, new_promise, result,
isRejected)`. -/
def thenPromiseFulfilledOrRejected (immediate : Immediate) : Resolution :=
  match immediate.callback with
  | .fulfilledCallback callback =>
      callArgument behaviour callback immediate.result immediate.isRejected
  | .rejectedCallback callback =>
      callArgument behaviour callback immediate.result immediate.isRejected
  | .emptyFulfilledCallback => resolve behaviour immediate.result
  | .emptyRejectedCallback => .rejected immediate.result

/-- The state that the returned promise is in at last; without one it stays pending. -/
inductive Final
  | pending
  | settled (settlement : Settlement)
  | failed (error : ResolutionError)
deriving DecidableEq

def Resolution.final : Resolution → Final
  | .fulfilled value => .settled (.fulfilled value)
  | .rejected reason => .settled (.rejected reason)
  | .error failure => .failed failure
  | .adopted name => ((behaviour.settles name).map .settled).getD .pending

end

/-! ## The promise -/

inductive Output
  | registered (index : ℕ) (fulfilled rejected : Argument)
  | settled (settlement : Settlement)
  | threw
  | turn
  | called (index : ℕ) (side : Side) (value : Value)
deriving DecidableEq

/-- The promise, the functions given to `setImmediate`, and the promises returned. -/
structure State where
  fulfilledCallbacks : List Reaction := []
  rejectedCallbacks : List Reaction := []
  resolved : Bool := false
  result : Value := .undefined
  err : Value := .undefined
  immediates : List Immediate := []
  thens : ℕ := 0
  newPromises : ℕ → Option Resolution := fun _ => none
  trace : List Output := []

inductive Event
  | then (fulfilled rejected : Argument)
  | fulfill (result : Value)
  | reject (err : Value)
  | turn

/-- The function for `fulfilled_callbacks`. -/
def fulfilledReaction (index : ℕ) (fulfilled : Argument) : Reaction :=
  ⟨index, if fulfilled.isFunction then .fulfilledCallback fulfilled else .emptyFulfilledCallback⟩

/-- The function for `rejected_callbacks`. -/
def rejectedReaction (index : ℕ) (rejected : Argument) : Reaction :=
  ⟨index, if rejected.isFunction then .rejectedCallback rejected else .emptyRejectedCallback⟩

/-- A function of `fulfilled_callbacks` or `rejected_callbacks` is called. -/
def Reaction.immediate (reaction : Reaction) (result : Value) : Immediate :=
  ⟨reaction.index, reaction.callback, result, false⟩

/-- The function that `then()` gives to `setImmediate` if the promise is resolved. -/
def State.delayed (state : State) (fulfilled rejected : Argument) : Immediate :=
  if state.err.truthy then ⟨state.thens, .rejectedCallback rejected, state.err, true⟩
  else ⟨state.thens, .fulfilledCallback fulfilled, state.result, false⟩

/-- `then(fulfilled_callback, rejected_callback)`. -/
def State.then (state : State) (fulfilled rejected : Argument) : State :=
  let registered : State :=
    { state with
      thens := state.thens + 1
      trace := state.trace ++ [.registered state.thens fulfilled rejected] }
  if state.resolved then
    { registered with immediates := state.immediates ++ [state.delayed fulfilled rejected] }
  else
    { registered with
      fulfilledCallbacks := state.fulfilledCallbacks ++ [fulfilledReaction state.thens fulfilled]
      rejectedCallbacks := state.rejectedCallbacks ++ [rejectedReaction state.thens rejected] }

/-- `fulfill(result)`. -/
def State.fulfill (state : State) (result : Value) : State :=
  if state.resolved then { state with trace := state.trace ++ [.threw] }
  else
    { state with
      resolved := true
      result
      fulfilledCallbacks := []
      immediates := state.immediates ++ state.fulfilledCallbacks.map (Reaction.immediate · result)
      trace := state.trace ++ [.settled (.fulfilled result)] }

/-- `reject(err)`. -/
def State.reject (state : State) (err : Value) : State :=
  if state.resolved then { state with trace := state.trace ++ [.threw] }
  else
    { state with
      resolved := true
      err
      rejectedCallbacks := []
      immediates := state.immediates ++ state.rejectedCallbacks.map (Reaction.immediate · err)
      trace := state.trace ++ [.settled (.rejected err)] }

/-- The handler that is called at the beginning of a turn. -/
def Immediate.calls (immediate : Immediate) : List Output :=
  match immediate.callback with
  | .fulfilledCallback (.function _) => [.called immediate.index .fulfilled immediate.result]
  | .rejectedCallback (.function _) => [.called immediate.index .rejected immediate.result]
  | _ => []

def step (behaviour : Behaviour) (state : State) : Event → Option State
  | .then fulfilled rejected => some (state.then fulfilled rejected)
  | .fulfill result => some (state.fulfill result)
  | .reject err => some (state.reject err)
  | .turn =>
      match state.immediates with
      | [] => none
      | immediate :: immediates =>
          some { state with
            immediates
            newPromises := Function.update state.newPromises immediate.index
              (some (thenPromiseFulfilledOrRejected behaviour immediate))
            trace := state.trace ++ .turn :: immediate.calls }

/-! ## Reading the trace -/

/-- The call of `then()` that an output is about. -/
def Output.index? : Output → Option ℕ
  | .registered index _ _ => some index
  | .settled _ => none
  | .threw => none
  | .turn => none
  | .called index _ _ => some index

def Output.settlement? : Output → Option Settlement
  | .settled settlement => some settlement
  | _ => none

def Output.registered? : Output → Option ℕ
  | .registered index _ _ => some index
  | _ => none

def Output.called? : Output → Option ℕ
  | .called index _ _ => some index
  | _ => none

/-- How often and how the promise was settled. -/
def settlements (trace : List Output) : List Settlement := trace.filterMap Output.settlement?

/-- The calls of `then()`, in order. -/
def registeredIndices (trace : List Output) : List ℕ := trace.filterMap Output.registered?

/-- The calls of `then()` of which a handler has been called, in order. -/
def calledIndices (trace : List Output) : List ℕ := trace.filterMap Output.called?

/-- The handler for a settlement. -/
def Settlement.handler (settlement : Settlement) (fulfilled rejected : Argument) : Argument :=
  match settlement with
  | .fulfilled _ => fulfilled
  | .rejected _ => rejected

/-- What the fields of a promise are after a settlement. -/
def Settlement.result : Settlement → Value
  | .fulfilled value => value
  | .rejected _ => .undefined

def Settlement.err : Settlement → Value
  | .fulfilled _ => .undefined
  | .rejected reason => reason

/-- A promise that is settled at most once and calls the handlers for its settlement, each
of them once, on a later turn, and in the order of their registration. -/
structure Reacts (state : State) : Prop where
  settledOnce : (settlements state.trace).length ≤ 1
  keeps : ∀ settlement, .settled settlement ∈ state.trace →
    state.resolved = true ∧ state.result = settlement.result ∧ state.err = settlement.err
  reacts : ∀ index fulfilled rejected, .registered index fulfilled rejected ∈ state.trace →
    about Output.index? index state.trace = [.registered index fulfilled rejected] ∨
      ∃ settlement, .settled settlement ∈ state.trace ∧
        (settlement.handler fulfilled rejected).isFunction = true ∧
        about Output.index? index state.trace =
          [.registered index fulfilled rejected, .called index settlement.side settlement.value]
  complete : state.immediates = [] → ∀ settlement, .settled settlement ∈ state.trace →
    ∀ index fulfilled rejected, .registered index fulfilled rejected ∈ state.trace →
      (settlement.handler fulfilled rejected).isFunction = true →
      .called index settlement.side settlement.value ∈ state.trace
  later : ∀ index side value, .called index side value ∈ state.trace →
    (∃ fulfilled rejected, List.Sublist
      [.registered index fulfilled rejected, .turn, .called index side value] state.trace) ∧
    ∃ settlement, List.Sublist [.settled settlement, .turn, .called index side value] state.trace
  numbered : registeredIndices state.trace = List.range state.thens
  inOrder : (calledIndices state.trace).Pairwise (· < ·)

/-- No handler is registered after the promise was rejected for a reason that is falsy. -/
def Allowed (state : State) : Event → Prop
  | .then fulfilled rejected => ∀ reason, .settled (.rejected reason) ∈ state.trace →
      reason.truthy = true ∨ fulfilled.isFunction = false ∧ rejected.isFunction = false
  | .fulfill _ => True
  | .reject _ => True
  | .turn => True

end DatabaseJones.Promise
