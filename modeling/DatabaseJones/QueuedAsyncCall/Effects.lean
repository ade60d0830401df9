import DatabaseJones.QueuedAsyncCall.Exclusion

/-!
# What one step of a queue adds

The outputs of a step, and the main callbacks that are on the stack after it.  Code that
uses a queue needs no more of it than this and what holds in every run.
-/

namespace DatabaseJones.QueuedAsyncCall

open DatabaseJones.Library

variable {κ ρ π : Type} {callbacks : Callbacks κ} {state : State κ ρ π}

/-! ## Completions and main callbacks -/

def Output.completion? : Output κ ρ π → Option (Call κ × ρ)
  | .completed call result => some (call, result)
  | _ => none

def Output.mainCallback? : Output κ ρ π → Option (Call κ × ρ)
  | .mainCallback call result => some (call, result)
  | _ => none

def Frame.mainCallback? : Frame κ ρ π → Option (Call κ × ρ)
  | .mainCallback owner result => some (owner, result)
  | _ => none

/-- The calls that have completed, with their results, in order. -/
def completions (trace : List (Output κ ρ π)) : List (Call κ × ρ) :=
  trace.filterMap Output.completion?

/-- The main callbacks that have been called, in order. -/
def mainCallbacks (trace : List (Output κ ρ π)) : List (Call κ × ρ) :=
  trace.filterMap Output.mainCallback?

/-- The main callbacks that have not returned. -/
def mainFrames (stack : List (Frame κ ρ π)) : List (Call κ × ρ) :=
  stack.filterMap Frame.mainCallback?

theorem completions_append (first second : List (Output κ ρ π)) :
    completions (first ++ second) = completions first ++ completions second :=
  List.filterMap_append

theorem mainCallbacks_append (first second : List (Output κ ρ π)) :
    mainCallbacks (first ++ second) = mainCallbacks first ++ mainCallbacks second :=
  List.filterMap_append

theorem mem_completions {trace : List (Output κ ρ π)} {call : Call κ} {result : ρ} :
    (call, result) ∈ completions trace ↔ .completed call result ∈ trace := by
  rw [completions, List.mem_filterMap]
  constructor
  · rintro ⟨output, hmem, houtput⟩
    cases output with
    | completed other otherResult =>
        obtain ⟨rfl, rfl⟩ := Prod.mk.inj (Option.some.inj houtput)
        exact hmem
    | _ => exact nomatch houtput
  · exact fun hmem => ⟨_, hmem, rfl⟩

theorem mem_mainCallbacks {trace : List (Output κ ρ π)} {call : Call κ} {result : ρ} :
    (call, result) ∈ mainCallbacks trace ↔ .mainCallback call result ∈ trace := by
  rw [mainCallbacks, List.mem_filterMap]
  constructor
  · rintro ⟨output, hmem, houtput⟩
    cases output with
    | mainCallback other otherResult =>
        obtain ⟨rfl, rfl⟩ := Prod.mk.inj (Option.some.inj houtput)
        exact hmem
    | _ => exact nomatch houtput
  · exact fun hmem => ⟨_, hmem, rfl⟩

/-! ## Steps -/

/-- The calls that an event enqueues. -/
def Event.enqueues (state : State κ ρ π) : Event κ ρ π → List (Call κ)
  | .enqueue data => [⟨state.serial, data⟩]
  | .complete _ _ => []
  | .return _ => []

/-- The calls that an event completes. -/
def Event.completes : Event κ ρ π → List (Call κ × ρ)
  | .enqueue _ => []
  | .complete call result => [(call, result)]
  | .return _ => []

/-- The functions of the stack that go on after an event. -/
def Event.remaining : Event κ ρ π → List (Frame κ ρ π) → List (Frame κ ρ π)
  | .enqueue _, stack => stack
  | .complete _ _, stack => stack
  | .return _, stack => stack.tail

/-- What a step adds to the trace, and which main callbacks are on the stack after it. -/
structure Adds (before : List (Output κ ρ π)) (after : State κ ρ π) (enqueued : List (Call κ))
    (completed : List (Call κ × ρ)) (stack : List (Frame κ ρ π)) (outputs : List (Output κ ρ π)) :
    Prop where
  trace : after.trace = before ++ outputs
  enqueued : enqueuedCalls outputs = enqueued
  completed : completions outputs = completed
  mains : mainFrames after.stack = mainCallbacks outputs ++ mainFrames stack

theorem adds_finish (thisCall owner : Call κ) (result : ρ) (postCallback : Option π) :
    ∃ outputs, Adds state.trace (state.finish callbacks thisCall owner result postCallback) [] []
      state.stack outputs := by
  cases postCallback with
  | some postCallback => exact ⟨[.postCallback thisCall postCallback], rfl, rfl, rfl, rfl⟩
  | none =>
      rw [State.finish]
      split_ifs
      · exact ⟨[.mainCallback owner result], rfl, rfl, rfl, rfl⟩
      · exact ⟨[], (List.append_nil _).symm, rfl, rfl, rfl⟩

theorem adds_advance (thisCall owner : Call κ) (result : ρ) (nextCall : Option (Call κ))
    (postCallback : Option π) :
    ∃ outputs, Adds state.trace (state.advance callbacks thisCall owner result nextCall postCallback) [] []
      state.stack outputs := by
  cases nextCall with
  | some next => exact ⟨[.started next], rfl, rfl, rfl, rfl⟩
  | none => exact adds_finish thisCall owner result postCallback

theorem adds_enqueue (data : κ) :
    ∃ outputs, Adds state.trace (state.enqueue data) [⟨state.serial, data⟩] [] state.stack outputs := by
  rw [State.enqueue]
  dsimp only
  split_ifs
  · exact ⟨[.enqueued ⟨state.serial, data⟩, .started ⟨state.serial, data⟩],
      List.append_assoc .., rfl, rfl, rfl⟩
  · exact ⟨[.enqueued ⟨state.serial, data⟩], rfl, rfl, rfl, rfl⟩

theorem adds_wrappedCallback (owner : Call κ) (result : ρ) :
    ∃ outputs, Adds state.trace (state.wrappedCallback callbacks owner result) [] [] state.stack
      outputs := by
  rw [State.wrappedCallback]
  split
  · exact ⟨[.threw], rfl, rfl, rfl, rfl⟩
  · next thisCall queue _ =>
      split_ifs
      · exact ⟨[.preCallback thisCall result], rfl, rfl, rfl, rfl⟩
      · exact @adds_advance _ _ _ callbacks { state with queue } thisCall owner result queue.head? none

/-- Outputs in front of those of the rest of a step. -/
theorem Adds.after {before middle : List (Output κ ρ π)} {after : State κ ρ π} {enqueued : List (Call κ)}
    {completed : List (Call κ × ρ)} {stack : List (Frame κ ρ π)} {outputs : List (Output κ ρ π)}
    {first : Output κ ρ π} (h : Adds middle after enqueued completed stack outputs)
    (htrace : middle = before ++ [first]) (hmain : first.mainCallback? = none) :
    Adds before after (enqueuedCalls [first] ++ enqueued) (completions [first] ++ completed) stack
      (first :: outputs) where
  trace := by
    rw [h.trace, htrace, List.append_assoc]
    rfl
  enqueued := by
    rw [← List.singleton_append, enqueuedCalls_append, h.enqueued]
  completed := by
    rw [← List.singleton_append, completions_append, h.completed]
  mains := by
    rw [h.mains, mainCallbacks, mainCallbacks, List.filterMap_cons, hmain]

/-- What any step adds. -/
theorem adds_of_step [DecidableEq κ] {event : Event κ ρ π} {after : State κ ρ π}
    (hstep : step callbacks state event = some after) :
    ∃ outputs, Adds state.trace after (event.enqueues state) event.completes
      (event.remaining state.stack) outputs := by
  cases event with
  | enqueue data =>
      rw [← Option.some.inj hstep]
      exact adds_enqueue data
  | complete call result =>
      rw [step] at hstep
      split_ifs at hstep
      rw [← Option.some.inj hstep]
      obtain ⟨outputs, hadds⟩ := @adds_wrappedCallback _ _ _ callbacks
        { state with
          running := state.running.erase call
          trace := state.trace ++ [.completed call result] } call result
      exact ⟨_, hadds.after rfl rfl⟩
  | «return» postCallback =>
      rw [step] at hstep
      split at hstep
      · cases hstep
      · next thisCall owner result post stack htop =>
          rw [← Option.some.inj hstep, Event.remaining, htop]
          obtain ⟨outputs, h⟩ := @adds_finish _ _ _ callbacks { state with stack } thisCall owner result post
          exact ⟨outputs, h.trace, h.enqueued, h.completed, h.mains⟩
      · next stack _ htop =>
          rw [← Option.some.inj hstep, Event.remaining, htop]
          exact ⟨[], (List.append_nil _).symm, rfl, rfl, rfl⟩
      · next thisCall owner result nextCall stack htop =>
          rw [← Option.some.inj hstep, Event.remaining, htop]
          obtain ⟨outputs, hadds⟩ := @adds_advance _ _ _ callbacks
            { state with
              stack
              trace := state.trace ++ [.preReturned thisCall postCallback] }
            thisCall owner result nextCall postCallback
          exact ⟨_, hadds.after rfl rfl⟩
      · cases hstep
      · next stack htop =>
          rw [← Option.some.inj hstep, Event.remaining, htop]
          exact ⟨[], (List.append_nil _).symm, rfl, rfl, rfl⟩
      · next stack htop =>
          rw [← Option.some.inj hstep, Event.remaining, htop]
          exact ⟨[], (List.append_nil _).symm, rfl, rfl, rfl⟩

/-! ## Main callbacks in every run -/

section
variable {call : Call κ} {result : ρ}

theorem mainCallbacks_story (call : Call κ) (stage : Stage ρ π) :
    mainCallbacks (story callbacks call stage) = [] ∨
      ∃ result, stage = .called result none ∧ callbacks.mainCallback call.data ∧
        mainCallbacks (story callbacks call stage) = [(call, result)] := by
  have hpre : ∀ result postCallback,
      mainCallbacks (preStory callbacks call result postCallback : List (Output κ ρ π)) = [] := by
    intro result postCallback
    rw [preStory]
    split_ifs <;> rfl
  cases stage with
  | advancing result postCallback =>
      rw [story, mainCallbacks_append, hpre]
      exact Or.inl rfl
  | called result postCallback =>
      rw [story, mainCallbacks_append, mainCallbacks_append, hpre]
      cases postCallback with
      | some _ => exact Or.inl rfl
      | none =>
          rw [lastCallback]
          split_ifs with hmain
          · exact Or.inr ⟨result, rfl, hmain, rfl⟩
          · exact Or.inl rfl
  | _ => exact Or.inl rfl

variable [DecidableEq κ]

theorem mainCallbacks_about (call : Call κ) (trace : List (Output κ ρ π)) :
    mainCallbacks (about Output.call? call trace) =
      (mainCallbacks trace).filter fun entry => entry.1 = call := by
  induction trace with
  | nil => rfl
  | cons output trace ih =>
      rw [about] at ih ⊢
      cases output with
      | mainCallback other result =>
          by_cases heq : other = call
          · rw [List.filter_cons_of_pos (by simp [Output.call?, heq]), mainCallbacks, List.filterMap_cons,
              mainCallbacks, List.filterMap_cons, ← mainCallbacks, ih]
            simp [Output.mainCallback?, heq, mainCallbacks]
          · rw [List.filter_cons_of_neg (by simp [Output.call?, heq]), ih, mainCallbacks,
              mainCallbacks, List.filterMap_cons]
            simp [Output.mainCallback?, heq]
      | _ =>
          rw [List.filter_cons]
          split_ifs
          · exact ih
          · exact ih

/-- No main callback is called twice. -/
theorem Kept.mainCallbacks_nodup (h : Kept callbacks state) :
    ((mainCallbacks state.trace).map Prod.fst).Nodup := by
  obtain ⟨stages, _, hsound⟩ := h.exists_sound
  rw [List.nodup_iff_count_le_one]
  intro call
  have hcount : ((mainCallbacks state.trace).map Prod.fst).count call =
      (mainCallbacks (about Output.call? call state.trace)).length := by
    rw [mainCallbacks_about, List.count_eq_length_filter, List.filter_map, List.length_map]
    congr 1
  rw [hcount, hsound.told call]
  cases stages call with
  | none => exact Nat.zero_le _
  | some stage =>
      rcases @mainCallbacks_story _ _ _ callbacks call stage with h | ⟨_, _, _, h⟩ <;>
        rw [Option.elim_some, h] <;> simp

/-- A main callback is called with the result its call completed with. -/
theorem Kept.of_mainCallback (h : Kept callbacks state)
    (hmem : (call, result) ∈ mainCallbacks state.trace) :
    .completed call result ∈ state.trace ∧ call ∈ enqueuedCalls state.trace := by
  obtain ⟨stages, _, hsound⟩ := h.exists_sound
  obtain ⟨stage, hstage, hstory⟩ := hsound.told.mem_story rfl (mem_mainCallbacks.mp hmem)
  have hmain := mem_mainCallbacks.mpr hstory
  have htold := hsound.told call
  rw [hstage, Option.elim_some] at htold
  rcases @mainCallbacks_story _ _ _ callbacks call stage with h | ⟨other, rfl, _, h⟩
  · rw [h] at hmain
    exact absurd hmain List.not_mem_nil
  · rw [h, List.mem_singleton] at hmain
    obtain rfl : result = other := congrArg Prod.snd hmain
    refine ⟨@mem_of_mem_about _ _ _ Output.call? call _ _ ?_,
      mem_enqueuedCalls.mpr (@mem_of_mem_about _ _ _ Output.call? call _ _ ?_)⟩ <;>
      rw [htold] <;> simp [story, beginning]

/-- When no code runs, the main callback of a completed call has been called, unless a
`postCallback` took its place. -/
theorem Kept.mainCallback_of_completed (h : Kept callbacks state) (hstack : state.stack = [])
    (hmain : callbacks.mainCallback call.data = true) (hmem : .completed call result ∈ state.trace) :
    (call, result) ∈ mainCallbacks state.trace ∨
      ∃ postCallback, .postCallback call postCallback ∈ state.trace := by
  obtain ⟨stages, _, hsound⟩ := h.exists_sound
  obtain ⟨postCallback, habout⟩ := hsound.settled hstack hmem
  cases postCallback with
  | none =>
      refine Or.inl (mem_mainCallbacks.mpr (@mem_of_mem_about _ _ _ Output.call? call _ _ ?_))
      rw [habout]
      simp [story, lastCallback, hmain]
  | some postCallback =>
      refine Or.inr ⟨postCallback, @mem_of_mem_about _ _ _ Output.call? call _ _ ?_⟩
      rw [habout]
      simp [story, lastCallback]

theorem Kept.serial_lt (h : Kept callbacks state) (hmem : call ∈ enqueuedCalls state.trace) :
    call.serial < state.serial := by
  obtain ⟨stages, _, hsound⟩ := h.exists_sound
  obtain ⟨stage, hstage, _⟩ := hsound.told.mem_story rfl (mem_enqueuedCalls.mp hmem)
  refine hsound.fresh call ?_
  rw [hstage]
  exact Option.some_ne_none _

end

end DatabaseJones.QueuedAsyncCall
