import DatabaseJones.QueuedAsyncCall.Queue

/-!
# One call at a time

Every call of a queue is in one place: it waits in the queue, it runs at the head of the
queue, the rest of its wrapped callback is on the stack, or it has been called back.  Each
function of the queue moves one call to its next place.
-/

namespace DatabaseJones.QueuedAsyncCall

open DatabaseJones.Library

variable {κ ρ π : Type} {callbacks : Callbacks κ}

/-! ## Places -/

/-- The calls that wait, if the head of the queue runs or not. -/
def waiting : Bool → List (Call κ) → List (Call κ)
  | true, queue => queue.tail
  | false, queue => queue

/-- The calls that run. -/
def runningHead : Bool → List (Call κ) → List (Call κ)
  | true, queue => queue.head?.toList
  | false, _ => []

/-- The call of which the rest of the wrapped callback is on the stack. -/
def Frame.returning? : Frame κ ρ π → Option (Call κ)
  | .run _ => none
  | .preCallback thisCall _ _ _ => some thisCall
  | .advance thisCall _ _ _ => some thisCall
  | .postCallback _ => none
  | .mainCallback _ _ => none

/-- The call that a `preCallback` will be followed by. -/
def Frame.nextCall : Frame κ ρ π → Option (Call κ)
  | .run _ => none
  | .preCallback _ _ _ nextCall => nextCall
  | .advance _ _ _ _ => none
  | .postCallback _ => none
  | .mainCallback _ _ => none

variable (callbacks) in
/-- A frame is about the call that was wrapped, in the stage that it is in. -/
def Frame.Fits (stages : Call κ → Option (Stage ρ π)) : Frame κ ρ π → Prop
  | .run _ => True
  | .preCallback thisCall owner result _ =>
      thisCall = owner ∧ callbacks.preCallback thisCall.data ∧
        stages thisCall = some (.preCallback result)
  | .advance thisCall owner result post =>
      thisCall = owner ∧ stages thisCall = some (.advancing result post)
  | .postCallback _ => True
  | .mainCallback _ _ => True

/-- The calls of which the wrapped callback has not returned. -/
def returning (stack : List (Frame κ ρ π)) : List (Call κ) := stack.filterMap Frame.returning?

/-- Whether a call is in its wrapped callback. -/
def Stage.IsReturning : Stage ρ π → Prop
  | .waiting => False
  | .running => False
  | .preCallback _ => True
  | .advancing _ _ => True
  | .called _ _ => False

/-- The calls with a stage of some kind are those of a list. -/
def At (stages : Call κ → Option (Stage ρ π)) (kind : Stage ρ π → Prop) (calls : List (Call κ)) :
    Prop :=
  ∀ call, (∃ stage, stages call = some stage ∧ kind stage) ↔ call ∈ calls

variable {stages : Call κ → Option (Stage ρ π)} {hand : List (Call κ)} {headRuns : Bool}
  {state : State κ ρ π} {call : Call κ} {stage : Stage ρ π}

theorem enqueuedCalls_append (first second : List (Output κ ρ π)) :
    enqueuedCalls (first ++ second) = enqueuedCalls first ++ enqueuedCalls second :=
  List.filterMap_append

theorem startedCalls_append (first second : List (Output κ ρ π)) :
    startedCalls (first ++ second) = startedCalls first ++ startedCalls second :=
  List.filterMap_append

theorem returning_cons (frame : Frame κ ρ π) (stack : List (Frame κ ρ π)) :
    returning (frame :: stack) = frame.returning?.toList ++ returning stack := by
  unfold returning
  cases h : frame.returning? <;> simp [h]

theorem at_nil {kind : Stage ρ π → Prop} : At (fun _ : Call κ => none) kind [] := by
  intro call
  constructor
  · rintro ⟨_, ⟨⟩, _⟩
  · exact fun h => absurd h List.not_mem_nil

theorem At.mem {kind : Stage ρ π → Prop} {calls : List (Call κ)} (h : At stages kind calls)
    (hstage : stages call = some stage) : kind stage ↔ call ∈ calls := by
  rw [← h call, hstage]
  constructor
  · exact fun hkind => ⟨stage, rfl, hkind⟩
  · rintro ⟨_, heq, hkind⟩
    exact Option.some.inj heq ▸ hkind

/-- A call without a stage, or with one of another kind, is not in the list. -/
theorem At.notMem {kind : Stage ρ π → Prop} {calls : List (Call κ)} (h : At stages kind calls)
    (hstage : ∀ stage, stages call = some stage → ¬ kind stage) : call ∉ calls := by
  intro hmem
  obtain ⟨stage, heq, hkind⟩ := (h call).mpr hmem
  exact hstage stage heq hkind

/-- The list of the calls of a kind changes by the one call that is moved. -/
structure Moves (kind : Stage ρ π → Prop) (stage : Stage ρ π) (call : Call κ)
    (before after : List (Call κ)) : Prop where
  moved : kind stage ↔ call ∈ after
  others : ∀ other, other ≠ call → (other ∈ after ↔ other ∈ before)

/-- A list that gains the call that is moved. -/
theorem Moves.gain {kind : Stage ρ π → Prop} {before after : List (Call κ)} (hkind : kind stage)
    (h : ∀ other, other ∈ after ↔ other = call ∨ other ∈ before) :
    Moves kind stage call before after where
  moved := iff_of_true hkind ((h call).mpr (Or.inl rfl))
  others other hne := by
    rw [h other]
    exact or_iff_right hne

/-- A list that loses the call that is moved, or never had it. -/
theorem Moves.lose {kind : Stage ρ π → Prop} {before after : List (Call κ)} (hkind : ¬ kind stage)
    (h : ∀ other, other ∈ after ↔ other ∈ before ∧ other ≠ call) :
    Moves kind stage call before after where
  moved := iff_of_false hkind fun hmem => ((h call).mp hmem).2 rfl
  others other hne := by
    rw [h other]
    exact and_iff_left hne

/-- A list that stays as it is, and has the call in it exactly if it did before. -/
theorem Moves.stay {kind : Stage ρ π → Prop} {calls : List (Call κ)}
    (h : kind stage ↔ call ∈ calls) : Moves kind stage call calls calls :=
  ⟨h, fun _ _ => Iff.rfl⟩

theorem mem_queue_iff {queue : List (Call κ)} :
    call ∈ queue ↔ call ∈ runningHead headRuns queue ∨ call ∈ waiting headRuns queue := by
  cases headRuns with
  | false => simp [runningHead, waiting]
  | true => cases queue <;> simp [runningHead, waiting]

theorem enqueue_eq (state : State κ ρ π) (data : κ) (hqueue : state.queue ≠ []) :
    state.enqueue data =
      { state with
        serial := state.serial + 1
        queue := state.queue ++ [⟨state.serial, data⟩]
        trace := state.trace ++ [.enqueued ⟨state.serial, data⟩] } := by
  rw [State.enqueue]
  refine if_neg ?_
  have := List.length_pos_iff.mpr hqueue
  rw [List.length_append, List.length_singleton, Nat.add_sub_cancel]
  exact this.ne'

theorem mem_enqueuedCalls {trace : List (Output κ ρ π)} :
    call ∈ enqueuedCalls trace ↔ .enqueued call ∈ trace := by
  rw [enqueuedCalls, List.mem_filterMap]
  constructor
  · rintro ⟨output, hmem, houtput⟩
    cases output with
    | enqueued other => exact Option.some.inj houtput ▸ hmem
    | _ => exact nomatch houtput
  · exact fun hmem => ⟨_, hmem, rfl⟩

/-- What is known of the result of a call is the result it completed with. -/
theorem completed_mem_story {result : ρ} (h : .completed call result ∈ story callbacks call stage) :
    stage.IsReturning ∨ ∃ postCallback, stage = .called result postCallback := by
  cases stage with
  | waiting => simp [story] at h
  | running => simp [story, beginning] at h
  | preCallback _ => exact Or.inl trivial
  | advancing _ _ => exact Or.inl trivial
  | called other postCallback =>
      refine Or.inr ⟨postCallback, ?_⟩
      have hpre : Output.completed call result ∉ preStory callbacks call other postCallback := by
        rw [preStory]
        split_ifs <;> simp
      have hlast : Output.completed call result ∉ lastCallback callbacks call other postCallback := by
        cases postCallback with
        | some _ => simp [lastCallback]
        | none =>
            rw [lastCallback]
            split_ifs <;> simp
      simp only [story, beginning, List.mem_append, hpre, hlast, or_false] at h
      obtain rfl : result = other := by simpa using h
      rfl

variable [DecidableEq κ]

variable (callbacks) in
/-- Every call is in the place that its stage says.  `hand` are the calls whose wrapped
callback is being executed just now. -/
structure Sound (stages : Call κ → Option (Stage ρ π)) (hand : List (Call κ)) (headRuns : Bool)
    (state : State κ ρ π) : Prop where
  told : Told Output.call? (story callbacks) stages state.trace
  neverThrows : .threw ∉ state.trace
  fresh : ∀ call, stages call ≠ none → call.serial < state.serial
  order : enqueuedCalls state.trace = startedCalls state.trace ++ waiting headRuns state.queue
  running : state.running = runningHead headRuns state.queue
  waits : At stages (· = .waiting) (waiting headRuns state.queue)
  runs : At stages (· = .running) (runningHead headRuns state.queue)
  returns : At stages Stage.IsReturning (hand ++ returning state.stack)
  fits : ∀ frame ∈ state.stack, frame.Fits callbacks stages
  distinct : state.queue.Nodup
  nodup : (hand ++ returning state.stack).Nodup

/-- One call is moved, and the places of the others stay the same. -/
theorem At.update {kind : Stage ρ π → Prop} {before after : List (Call κ)}
    (h : At stages kind before) (hcall : kind stage ↔ call ∈ after)
    (hother : ∀ other, other ≠ call → (other ∈ after ↔ other ∈ before)) :
    At (Function.update stages call (some stage)) kind after := by
  intro other
  by_cases heq : other = call
  · subst heq
    rw [Function.update_self, ← hcall]
    constructor
    · rintro ⟨_, hstage, hkind⟩
      exact Option.some.inj hstage ▸ hkind
    · exact fun hkind => ⟨stage, rfl, hkind⟩
  · rw [Function.update_of_ne heq, hother other heq]
    exact h other

/-- Moving one call leaves the frames of the others alone. -/
theorem Frame.Fits.update {frame : Frame κ ρ π} (h : frame.Fits callbacks stages)
    (hne : frame.returning? ≠ some call) (stage : Stage ρ π) :
    frame.Fits callbacks (Function.update stages call (some stage)) := by
  cases frame with
  | run _ => trivial
  | preCallback thisCall _ _ _ =>
      have hcall : thisCall ≠ call := fun heq => hne (congrArg some heq)
      exact ⟨h.1, h.2.1, by rw [Function.update_of_ne hcall, h.2.2]⟩
  | advance thisCall _ _ _ =>
      have hcall : thisCall ≠ call := fun heq => hne (congrArg some heq)
      exact ⟨h.1, by rw [Function.update_of_ne hcall, h.2]⟩
  | postCallback _ => trivial
  | mainCallback _ _ => trivial

theorem fits_update {stack : List (Frame κ ρ π)}
    (hfits : ∀ frame ∈ stack, frame.Fits callbacks stages) (hnot : call ∉ returning stack)
    (stage : Stage ρ π) :
    ∀ frame ∈ stack, frame.Fits callbacks (Function.update stages call (some stage)) := by
  intro frame hframe
  refine (hfits frame hframe).update (fun heq => hnot ?_) stage
  exact List.mem_filterMap.mpr ⟨frame, hframe, heq⟩

/-! ## Moving one call -/

/-- A step that moves one call to another stage, and tells what is new in its story. -/
theorem Sound.move (h : Sound callbacks stages hand headRuns state) {after : State κ ρ π}
    {hand' : List (Call κ)} {headRuns' : Bool} (outputs : List (Output κ ρ π))
    (htrace : after.trace = state.trace ++ outputs)
    (hsubject : ∀ output ∈ outputs, output.call? = some call)
    (hstory : story callbacks call stage = (stages call).elim [] (story callbacks call) ++ outputs)
    (hserial : state.serial ≤ after.serial) (hcall : call.serial < after.serial)
    (horder : waiting headRuns state.queue ++ enqueuedCalls outputs =
      startedCalls outputs ++ waiting headRuns' after.queue)
    (hrunning : after.running = runningHead headRuns' after.queue)
    (hwaits : Moves (· = .waiting) stage call (waiting headRuns state.queue)
      (waiting headRuns' after.queue))
    (hruns : Moves (· = .running) stage call (runningHead headRuns state.queue)
      (runningHead headRuns' after.queue))
    (hreturns : Moves Stage.IsReturning stage call (hand ++ returning state.stack)
      (hand' ++ returning after.stack))
    (hfits : ∀ frame ∈ after.stack, frame.Fits callbacks
      (Function.update stages call (some stage)))
    (hdistinct : after.queue.Nodup)
    (hnodup : (hand' ++ returning after.stack).Nodup) :
    Sound callbacks (Function.update stages call (some stage)) hand' headRuns' after where
  told := htrace ▸ h.told.update hsubject hstory
  neverThrows := by
    rw [htrace, List.mem_append, not_or]
    exact ⟨h.neverThrows, fun hmem => nomatch hsubject _ hmem⟩
  fresh := by
    intro other hother
    by_cases heq : other = call
    · exact heq ▸ hcall
    · rw [Function.update_of_ne heq] at hother
      exact (h.fresh other hother).trans_le hserial
  order := by
    rw [htrace, enqueuedCalls_append, startedCalls_append, h.order, List.append_assoc, horder,
      List.append_assoc]
  running := hrunning
  waits := h.waits.update hwaits.moved hwaits.others
  runs := h.runs.update hruns.moved hruns.others
  returns := h.returns.update hreturns.moved hreturns.others
  fits := hfits
  distinct := hdistinct
  nodup := hnodup

theorem Sound.stages_of_serial (h : Sound callbacks stages hand headRuns state)
    (hcall : call.serial = state.serial) : stages call = none := by
  by_contra hsome
  exact Nat.lt_irrefl _ (hcall ▸ h.fresh call hsome)

/-- A new call goes to the end of a queue in which there are others. -/
theorem Sound.enqueue_behind (h : Sound callbacks stages hand headRuns state) {data : κ}
    (hqueue : state.queue ≠ []) :
    Sound callbacks (Function.update stages ⟨state.serial, data⟩ (some .waiting)) hand headRuns
      { state with
        serial := state.serial + 1
        queue := state.queue ++ [⟨state.serial, data⟩]
        trace := state.trace ++ [.enqueued ⟨state.serial, data⟩] } := by
  have hnone : stages ⟨state.serial, data⟩ = none := h.stages_of_serial rfl
  have hnot : ∀ {kind : Stage ρ π → Prop} {calls}, At stages kind calls →
      (⟨state.serial, data⟩ : Call κ) ∉ calls :=
    fun hat => hat.notMem fun stage hstage => nomatch hnone.symm.trans hstage
  have hwaiting : waiting headRuns (state.queue ++ [⟨state.serial, data⟩]) =
      waiting headRuns state.queue ++ [⟨state.serial, data⟩] := by
    cases headRuns
    · rfl
    · exact List.tail_append_of_ne_nil hqueue
  have hhead : runningHead headRuns (state.queue ++ [⟨state.serial, data⟩]) =
      runningHead headRuns state.queue := by
    cases headRuns
    · rfl
    · rw [runningHead, runningHead, List.head?_append_of_ne_nil _ hqueue]
  refine h.move [.enqueued ⟨state.serial, data⟩] rfl ?_ ?_ (Nat.le_succ _) (Nat.lt_succ_self _) ?_ ?_
    ?_ ?_ ?_ ?_ ?_ h.nodup
  · rintro output (_ | ⟨_, ⟨⟩⟩)
    rfl
  · rw [hnone]
    rfl
  · rw [hwaiting]
    rfl
  · rw [hhead]
    exact h.running
  · refine Moves.gain rfl fun other => ?_
    rw [hwaiting, List.mem_append, List.mem_singleton, or_comm]
  · rw [hhead]
    exact .stay (iff_of_false (fun h => nomatch h) (hnot h.runs))
  · exact .stay (iff_of_false (fun h => h) (hnot h.returns))
  · exact fits_update h.fits (fun hmem => hnot h.returns (List.mem_append_right _ hmem)) _
  · refine List.Nodup.append h.distinct (List.nodup_singleton _) ?_
    rw [List.disjoint_singleton, mem_queue_iff, not_or]
    exact ⟨hnot h.runs, hnot h.waits⟩

/-- A new call in an empty queue runs at once. -/
theorem Sound.enqueue_first (h : Sound callbacks stages hand true state) {data : κ}
    (hqueue : state.queue = []) :
    Sound callbacks (Function.update stages ⟨state.serial, data⟩ (some .running)) hand true
      (State.run { state with
        serial := state.serial + 1
        queue := [⟨state.serial, data⟩]
        trace := state.trace ++ [.enqueued ⟨state.serial, data⟩] } ⟨state.serial, data⟩) := by
  have hnone : stages ⟨state.serial, data⟩ = none := h.stages_of_serial rfl
  have hnot : ∀ {kind : Stage ρ π → Prop} {calls}, At stages kind calls →
      (⟨state.serial, data⟩ : Call κ) ∉ calls :=
    fun hat => hat.notMem fun stage hstage => nomatch hnone.symm.trans hstage
  have hrunning : state.running = [] := by
    rw [h.running, hqueue]
    rfl
  refine h.move [.enqueued ⟨state.serial, data⟩, .started ⟨state.serial, data⟩] ?_ ?_ ?_ (Nat.le_succ _)
    (Nat.lt_succ_self _) ?_ ?_ ?_ ?_ ?_ ?_ (List.nodup_singleton _) h.nodup
  · exact List.append_assoc ..
  · rintro output (_ | ⟨_, _ | ⟨_, ⟨⟩⟩⟩) <;> rfl
  · rw [hnone]
    rfl
  · rw [hqueue]
    rfl
  · rw [State.run]
    dsimp only
    rw [hrunning]
    rfl
  · rw [hqueue]
    exact .stay (iff_of_false (fun h => nomatch h) List.not_mem_nil)
  · rw [hqueue]
    refine Moves.gain rfl fun other => ?_
    simp [State.run, runningHead]
  · exact .stay (iff_of_false (fun h => h) (hnot h.returns))
  · rw [State.run, List.forall_mem_cons]
    exact ⟨trivial, fits_update h.fits (fun hmem => hnot h.returns (List.mem_append_right _ hmem)) _⟩

/-- The call at the head of the queue, which does not run yet, is started. -/
theorem Sound.start_next (h : Sound callbacks stages hand false state) {next : Call κ}
    {queue : List (Call κ)} (hqueue : state.queue = next :: queue) :
    Sound callbacks (Function.update stages next (some .running)) hand true (state.run next) := by
  have hwaiting : stages next = some .waiting := by
    obtain ⟨stage, hstage, rfl⟩ := (h.waits next).mpr (hqueue ▸ List.mem_cons_self)
    exact hstage
  have hnotReturning : next ∉ hand ++ returning state.stack :=
    h.returns.notMem fun stage hstage => Option.some.inj (hwaiting.symm.trans hstage) ▸ id
  have hdistinct := h.distinct
  rw [hqueue, List.nodup_cons] at hdistinct
  refine h.move [.started next] rfl ?_ ?_ le_rfl (h.fresh next ?_) ?_ ?_ ?_ ?_ ?_ ?_ h.distinct h.nodup
  · rintro output (_ | ⟨_, ⟨⟩⟩)
    rfl
  · rw [hwaiting]
    rfl
  · rw [hwaiting]
    exact Option.some_ne_none _
  · rw [State.run, hqueue]
    exact List.append_nil _
  · rw [State.run, h.running, hqueue]
    rfl
  · rw [State.run, hqueue]
    refine Moves.lose (fun h => nomatch h) fun other => ?_
    rw [waiting, waiting, List.tail_cons, List.mem_cons]
    constructor
    · exact fun hmem => ⟨Or.inr hmem, fun heq => hdistinct.1 (heq ▸ hmem)⟩
    · exact fun hmem => hmem.1.resolve_left hmem.2
  · rw [State.run, hqueue]
    refine Moves.gain rfl fun other => ?_
    simp [runningHead]
  · exact .stay (iff_of_false (fun h => h) hnotReturning)
  · rw [State.run, List.forall_mem_cons]
    exact ⟨trivial, fits_update h.fits (fun hmem => hnotReturning (List.mem_append_right _ hmem)) _⟩

/-- The head of the queue completes, and leaves the queue. -/
theorem Sound.complete (h : Sound callbacks stages [] true state) {thisCall : Call κ}
    {queue : List (Call κ)} (hqueue : state.queue = thisCall :: queue) (result : ρ) :
    Sound callbacks (Function.update stages thisCall (some (if callbacks.preCallback thisCall.data
        then .preCallback result else .advancing result none)))
      (if callbacks.preCallback thisCall.data then [] else [thisCall]) false
      (if callbacks.preCallback thisCall.data then
        { state with
          queue
          running := []
          stack := .preCallback thisCall thisCall result queue.head? :: state.stack
          trace := state.trace ++ [.completed thisCall result, .preCallback thisCall result] }
      else
        { state with queue, running := [], trace := state.trace ++ [.completed thisCall result] }) := by
  have hrunning : stages thisCall = some .running := by
    obtain ⟨stage, hstage, rfl⟩ := (h.runs thisCall).mpr (by simp [runningHead, hqueue])
    exact hstage
  have hnotReturning : thisCall ∉ returning state.stack :=
    h.returns.notMem fun stage hstage => Option.some.inj (hrunning.symm.trans hstage) ▸ id
  have hdistinct := h.distinct
  rw [hqueue, List.nodup_cons] at hdistinct
  have hwaits : ∀ {stage : Stage ρ π}, stage ≠ .waiting → Moves (· = .waiting) stage thisCall
      (waiting true state.queue) (waiting false queue) := by
    intro stage hstage
    rw [hqueue]
    exact .stay (iff_of_false hstage hdistinct.1)
  have hruns : ∀ {stage : Stage ρ π}, stage ≠ .running → Moves (· = .running) stage thisCall
      (runningHead true state.queue) (runningHead false queue) := by
    intro stage hstage
    rw [hqueue]
    refine Moves.lose hstage fun other => ?_
    simp [runningHead]
  have hserial : thisCall.serial < state.serial := by
    refine h.fresh thisCall ?_
    rw [hrunning]
    exact Option.some_ne_none _
  split_ifs with hpre
  · refine h.move [.completed thisCall result, .preCallback thisCall result] rfl ?_ ?_ le_rfl hserial
      ?_ rfl (hwaits (fun h => nomatch h)) (hruns (fun h => nomatch h)) ?_ ?_ hdistinct.2 ?_
    · rintro output (_ | ⟨_, _ | ⟨_, ⟨⟩⟩⟩) <;> rfl
    · rw [hrunning]
      rfl
    · rw [hqueue]
      exact List.append_nil _
    · refine Moves.gain trivial fun other => ?_
      simp [returning_cons, Frame.returning?]
    · rw [List.forall_mem_cons]
      exact ⟨⟨rfl, hpre, Function.update_self ..⟩, fits_update h.fits hnotReturning _⟩
    · rw [returning_cons]
      exact List.nodup_cons.mpr ⟨hnotReturning, h.nodup⟩
  · refine h.move [.completed thisCall result] rfl ?_ ?_ le_rfl hserial
      ?_ rfl (hwaits (fun h => nomatch h)) (hruns (fun h => nomatch h)) ?_
      (fits_update h.fits hnotReturning _) hdistinct.2 (List.nodup_cons.mpr ⟨hnotReturning, h.nodup⟩)
    · rintro output (_ | ⟨_, ⟨⟩⟩)
      rfl
    · rw [hrunning, story, preStory, if_neg hpre, List.append_nil]
      rfl
    · rw [hqueue]
      exact List.append_nil _
    · refine Moves.gain trivial fun other => ?_
      simp

/-- A frame of which no wrapped callback waits is pushed or popped. -/
theorem Sound.frame (h : Sound callbacks stages hand headRuns state) {stack : List (Frame κ ρ π)}
    (hreturning : returning stack = returning state.stack)
    (hfits : ∀ frame ∈ stack, frame.Fits callbacks stages) :
    Sound callbacks stages hand headRuns { state with stack } where
  told := h.told
  neverThrows := h.neverThrows
  fresh := h.fresh
  order := h.order
  running := h.running
  waits := h.waits
  runs := h.runs
  returns := by
    rw [hreturning]
    exact h.returns
  fits := hfits
  distinct := h.distinct
  nodup := by
    rw [hreturning]
    exact h.nodup

/-- The wrapped callback in hand waits for the next call to return from `run()`. -/
theorem Sound.suspend (h : Sound callbacks stages [call] headRuns state) {result : ρ}
    {postCallback : Option π} (hstage : stages call = some (.advancing result postCallback)) :
    Sound callbacks stages [] headRuns
      { state with stack := .advance call call result postCallback :: state.stack } where
  told := h.told
  neverThrows := h.neverThrows
  fresh := h.fresh
  order := h.order
  running := h.running
  waits := h.waits
  runs := h.runs
  returns := h.returns
  fits := List.forall_mem_cons.mpr ⟨⟨rfl, hstage⟩, h.fits⟩
  distinct := h.distinct
  nodup := h.nodup

/-- The wrapped callback on top of the stack continues. -/
theorem Sound.resume {thisCall owner : Call κ} {result : ρ} {postCallback : Option π}
    {stack : List (Frame κ ρ π)} (h : Sound callbacks stages [] headRuns state)
    (hstack : state.stack = .advance thisCall owner result postCallback :: stack) :
    thisCall = owner ∧ stages owner = some (.advancing result postCallback) ∧
      Sound callbacks stages [owner] headRuns { state with stack } := by
  have hfits := h.fits
  rw [hstack, List.forall_mem_cons] at hfits
  obtain ⟨⟨rfl, hstage⟩, hrest⟩ := hfits
  refine ⟨rfl, hstage, ?_⟩
  have hreturns := h.returns
  have hnodup := h.nodup
  rw [hstack] at hreturns hnodup
  exact
    { told := h.told
      neverThrows := h.neverThrows
      fresh := h.fresh
      order := h.order
      running := h.running
      waits := h.waits
      runs := h.runs
      returns := hreturns
      fits := hrest
      distinct := h.distinct
      nodup := hnodup }

/-- A `preCallback` returns. -/
theorem Sound.preReturned {thisCall owner : Call κ} {result : ρ} {nextCall : Option (Call κ)}
    {stack : List (Frame κ ρ π)} (h : Sound callbacks stages [] headRuns state)
    (hstack : state.stack = .preCallback thisCall owner result nextCall :: stack)
    (postCallback : Option π) :
    thisCall = owner ∧
      Sound callbacks (Function.update stages owner (some (.advancing result postCallback))) [owner]
        headRuns
        { state with stack, trace := state.trace ++ [.preReturned owner postCallback] } := by
  have hfits := h.fits
  rw [hstack, List.forall_mem_cons] at hfits
  obtain ⟨⟨rfl, hpre, hstage⟩, hrest⟩ := hfits
  refine ⟨rfl, ?_⟩
  have hnodup := h.nodup
  rw [hstack] at hnodup
  have hnotReturning : thisCall ∉ returning stack := (List.nodup_cons.mp hnodup).1
  refine h.move [.preReturned thisCall postCallback] rfl ?_ ?_ le_rfl (h.fresh thisCall ?_)
    (List.append_nil _) h.running ?_ ?_ ?_ (fits_update hrest hnotReturning _) h.distinct hnodup
  · rintro output (_ | ⟨_, ⟨⟩⟩)
    rfl
  · rw [hstage, story, preStory, if_pos hpre]
    rfl
  · rw [hstage]
    exact Option.some_ne_none _
  · exact .stay (iff_of_false (fun h => nomatch h) ((h.waits.mem hstage).not.mp (fun h => nomatch h)))
  · exact .stay (iff_of_false (fun h => nomatch h) ((h.runs.mem hstage).not.mp (fun h => nomatch h)))
  · rw [hstack]
    exact .stay (iff_of_true trivial List.mem_cons_self)

/-- The wrapped callback in hand ends with the callback of its call. -/
theorem Sound.finish (h : Sound callbacks stages [call] headRuns state) {result : ρ}
    {postCallback : Option π} (hstage : stages call = some (.advancing result postCallback)) :
    Sound callbacks (Function.update stages call (some (.called result postCallback))) [] headRuns
      (state.finish callbacks call call result postCallback) := by
  have hnotReturning : call ∉ returning state.stack := (List.nodup_cons.mp h.nodup).1
  have hmove : ∀ (after : State κ ρ π), after.serial = state.serial → after.queue = state.queue →
      after.running = state.running → returning after.stack = returning state.stack →
      after.trace = state.trace ++ lastCallback callbacks call result postCallback →
      (∀ frame ∈ after.stack, frame ∈ state.stack ∨ frame.Fits callbacks
        (Function.update stages call (some (.called result postCallback)))) →
      Sound callbacks (Function.update stages call (some (.called result postCallback))) []
        headRuns after := by
    intro after hserial hqueue hrunning hreturning htrace hstack
    have hlast : enqueuedCalls (lastCallback callbacks call result postCallback) = [] ∧
        startedCalls (lastCallback callbacks call result postCallback) = [] ∧
        ∀ output ∈ lastCallback callbacks call result postCallback, output.call? = some call := by
      cases postCallback with
      | some postCallback =>
          refine ⟨rfl, rfl, ?_⟩
          rintro output (_ | ⟨_, ⟨⟩⟩)
          rfl
      | none =>
          rw [lastCallback]
          split_ifs
          · refine ⟨rfl, rfl, ?_⟩
            rintro output (_ | ⟨_, ⟨⟩⟩)
            rfl
          · exact ⟨rfl, rfl, fun output hmem => absurd hmem List.not_mem_nil⟩
    refine h.move _ htrace hlast.2.2 ?_ hserial.ge ?_ ?_ ?_ ?_ ?_ ?_ ?_ ?_ ?_
    · rw [hstage]
      rfl
    · rw [hserial]
      refine h.fresh call ?_
      rw [hstage]
      exact Option.some_ne_none _
    · rw [hlast.1, hlast.2.1, hqueue, List.append_nil, List.nil_append]
    · rw [hrunning, hqueue]
      exact h.running
    · rw [hqueue]
      exact .stay (iff_of_false (fun h => nomatch h)
        ((h.waits.mem hstage).not.mp (fun h => nomatch h)))
    · rw [hqueue]
      exact .stay (iff_of_false (fun h => nomatch h)
        ((h.runs.mem hstage).not.mp (fun h => nomatch h)))
    · rw [hreturning]
      refine Moves.lose (fun h => h) fun other => ?_
      rw [List.nil_append, List.singleton_append, List.mem_cons]
      constructor
      · exact fun hmem => ⟨Or.inr hmem, fun heq => hnotReturning (heq ▸ hmem)⟩
      · exact fun hmem => hmem.1.resolve_left hmem.2
    · intro frame hframe
      rcases hstack frame hframe with hmem | hfits
      · exact fits_update h.fits hnotReturning _ frame hmem
      · exact hfits
    · rw [hqueue]
      exact h.distinct
    · rw [hreturning]
      exact (List.nodup_cons.mp h.nodup).2
  cases postCallback with
  | some postCallback =>
      refine hmove _ rfl rfl rfl (returning_cons ..) rfl fun frame hmem => ?_
      rcases List.mem_cons.mp hmem with rfl | hmem
      · exact Or.inr trivial
      · exact Or.inl hmem
  | none =>
      rw [State.finish, lastCallback] at *
      split_ifs with hmain
      · rw [if_pos hmain] at hmove
        refine hmove _ rfl rfl rfl (returning_cons ..) rfl fun frame hmem => ?_
        rcases List.mem_cons.mp hmem with rfl | hmem
        · exact Or.inr trivial
        · exact Or.inl hmem
      · rw [if_neg hmain] at hmove
        exact hmove _ rfl rfl rfl rfl (List.append_nil _).symm fun frame hmem => Or.inl hmem

/-- In an empty queue it makes no difference whether its head runs. -/
theorem Sound.of_empty (h : Sound callbacks stages hand headRuns state) (hqueue : state.queue = []) :
    Sound callbacks stages hand true state := by
  have hwaiting : waiting headRuns state.queue = waiting true state.queue := by
    rw [hqueue]
    cases headRuns <;> rfl
  have hhead : runningHead headRuns state.queue = runningHead true state.queue := by
    rw [hqueue]
    cases headRuns <;> rfl
  exact
    { h with
      order := hwaiting ▸ h.order
      running := hhead ▸ h.running
      waits := hwaiting ▸ h.waits
      runs := hhead ▸ h.runs }

/-! ## Runs -/

/-- A `preCallback` is on top of the stack, after which the head of the queue will run. -/
def Paused (state : State κ ρ π) : Prop :=
  ∃ thisCall owner result next stack,
    state.stack = .preCallback thisCall owner result (some next) :: stack ∧
      state.queue.head? = some next ∧ ∀ frame ∈ stack, frame.nextCall = none

variable (callbacks) in
/-- What holds between two events: the head of the queue runs, or it will run when the
`preCallback` on top of the stack returns. -/
def Kept (state : State κ ρ π) : Prop :=
  ∃ stages, Sound callbacks stages [] true state ∧ (∀ frame ∈ state.stack, frame.nextCall = none) ∨
    Sound callbacks stages [] false state ∧ Paused state

theorem Kept.exists_sound (h : Kept callbacks state) :
    ∃ stages headRuns, Sound callbacks stages [] headRuns state := by
  obtain ⟨stages, h | h⟩ := h
  · exact ⟨stages, true, h.1⟩
  · exact ⟨stages, false, h.1⟩

theorem kept_init : Kept callbacks ({} : State κ ρ π) :=
  ⟨fun _ => none, Or.inl ⟨
    { told := fun _ => rfl
      neverThrows := List.not_mem_nil
      fresh := fun _ h => absurd rfl h
      order := rfl
      running := rfl
      waits := at_nil
      runs := at_nil
      returns := at_nil
      fits := fun _ h => absurd h List.not_mem_nil
      distinct := List.nodup_nil
      nodup := List.nodup_nil }, fun _ h => absurd h List.not_mem_nil⟩⟩

theorem kept_enqueue (h : Kept callbacks state) (data : κ) : Kept callbacks (state.enqueue data) := by
  obtain ⟨stages, ⟨hsound, hstack⟩ | ⟨hsound, hpaused⟩⟩ := h
  · by_cases hqueue : state.queue = []
    · rw [State.enqueue, hqueue]
      exact ⟨_, Or.inl ⟨hsound.enqueue_first hqueue, List.forall_mem_cons.mpr ⟨rfl, hstack⟩⟩⟩
    · rw [enqueue_eq state data hqueue]
      exact ⟨_, Or.inl ⟨hsound.enqueue_behind hqueue, hstack⟩⟩
  · obtain ⟨thisCall, owner, result, next, stack, htop, hhead, hrest⟩ := hpaused
    have hqueue : state.queue ≠ [] := by
      intro hempty
      rw [hempty] at hhead
      exact nomatch hhead
    rw [enqueue_eq state data hqueue]
    refine ⟨_, Or.inr ⟨hsound.enqueue_behind hqueue, ?_⟩⟩
    refine ⟨thisCall, owner, result, next, stack, htop, ?_, hrest⟩
    rw [List.head?_append_of_ne_nil _ hqueue]
    exact hhead

theorem kept_finish (h : Sound callbacks stages [call] true state)
    (hframes : ∀ frame ∈ state.stack, frame.nextCall = none) {result : ρ} {postCallback : Option π}
    (hstage : stages call = some (.advancing result postCallback)) :
    Kept callbacks (state.finish callbacks call call result postCallback) := by
  refine ⟨_, Or.inl ⟨h.finish hstage, ?_⟩⟩
  cases postCallback with
  | some postCallback => exact List.forall_mem_cons.mpr ⟨rfl, hframes⟩
  | none =>
      rw [State.finish]
      split_ifs
      · exact List.forall_mem_cons.mpr ⟨rfl, hframes⟩
      · exact hframes

/-- Advancing the queue starts its head. -/
theorem kept_advance (h : Sound callbacks stages [call] false state)
    (hframes : ∀ frame ∈ state.stack, frame.nextCall = none) {result : ρ} {postCallback : Option π}
    (hstage : stages call = some (.advancing result postCallback)) :
    Kept callbacks (state.advance callbacks call call result state.queue.head? postCallback) := by
  cases hqueue : state.queue with
  | nil => exact kept_finish (h.of_empty hqueue) hframes hstage
  | cons next queue =>
      refine ⟨_, Or.inl ⟨(h.suspend hstage).start_next hqueue, ?_⟩⟩
      exact List.forall_mem_cons.mpr ⟨rfl, List.forall_mem_cons.mpr ⟨rfl, hframes⟩⟩

theorem kept_complete (h : Kept callbacks state) {result : ρ} (hcall : call ∈ state.running) :
    Kept callbacks (State.wrappedCallback callbacks
      { state with
        running := state.running.erase call
        trace := state.trace ++ [.completed call result] } call result) := by
  obtain ⟨stages, ⟨hsound, hstack⟩ | ⟨hsound, _⟩⟩ := h
  · rw [hsound.running] at hcall
    cases hqueue : state.queue with
    | nil =>
        rw [hqueue] at hcall
        exact absurd hcall List.not_mem_nil
    | cons thisCall queue =>
        rw [hqueue] at hcall
        obtain rfl : call = thisCall := List.mem_singleton.mp hcall
        have hrunning : state.running.erase call = [] := by
          rw [hsound.running, hqueue]
          exact List.erase_cons_head ..
        have hcomplete := hsound.complete hqueue result
        rw [hrunning, State.wrappedCallback]
        dsimp only
        split_ifs at hcomplete ⊢ with hpre
        · rw [List.append_assoc]
          cases queue with
          | nil =>
              exact ⟨_, Or.inl ⟨hcomplete.of_empty rfl, List.forall_mem_cons.mpr ⟨rfl, hstack⟩⟩⟩
          | cons next queue =>
              exact ⟨_, Or.inr ⟨hcomplete, _, _, _, _, _, rfl, rfl, hstack⟩⟩
        · exact kept_advance hcomplete hstack (Function.update_self ..)
  · rw [hsound.running] at hcall
    exact absurd hcall List.not_mem_nil

theorem kept_return (h : Kept callbacks state) {postCallback : Option π} {after : State κ ρ π}
    (hstep : step callbacks state (.return postCallback) = some after) : Kept callbacks after := by
  obtain ⟨stages, ⟨hsound, hstack⟩ | ⟨hsound, hpaused⟩⟩ := h
  · rw [step] at hstep
    split at hstep
    · exact nomatch hstep
    · next call thisCall owner result post stack htop =>
        rw [← Option.some.inj hstep]
        rw [htop, List.forall_mem_cons, List.forall_mem_cons] at hstack
        have hpopped : Sound callbacks stages [] true
            { state with stack := .advance thisCall owner result post :: stack } := by
          refine hsound.frame ?_ fun frame hframe => hsound.fits frame ?_
          · rw [htop]
            rfl
          · rw [htop]
            exact List.mem_cons_of_mem _ hframe
        obtain ⟨rfl, hstage, hresumed⟩ := hpopped.resume rfl
        exact kept_finish hresumed hstack.2.2 hstage
    · next call stack _ htop =>
        rw [← Option.some.inj hstep]
        rw [htop, List.forall_mem_cons] at hstack
        refine ⟨_, Or.inl ⟨hsound.frame ?_ fun frame hframe => hsound.fits frame ?_, hstack.2⟩⟩
        · rw [htop]
          rfl
        · rw [htop]
          exact List.mem_cons_of_mem _ hframe
    · next thisCall owner result nextCall stack htop =>
        rw [← Option.some.inj hstep]
        rw [htop, List.forall_mem_cons] at hstack
        obtain rfl : nextCall = none := hstack.1
        obtain ⟨rfl, hreturned⟩ := hsound.preReturned htop postCallback
        exact kept_finish hreturned hstack.2 (Function.update_self ..)
    · exact nomatch hstep
    · next call stack htop =>
        rw [← Option.some.inj hstep]
        rw [htop, List.forall_mem_cons] at hstack
        refine ⟨_, Or.inl ⟨hsound.frame ?_ fun frame hframe => hsound.fits frame ?_, hstack.2⟩⟩
        · rw [htop]
          rfl
        · rw [htop]
          exact List.mem_cons_of_mem _ hframe
    · next owner result stack htop =>
        rw [← Option.some.inj hstep]
        rw [htop, List.forall_mem_cons] at hstack
        refine ⟨_, Or.inl ⟨hsound.frame ?_ fun frame hframe => hsound.fits frame ?_, hstack.2⟩⟩
        · rw [htop]
          rfl
        · rw [htop]
          exact List.mem_cons_of_mem _ hframe
  · obtain ⟨thisCall, owner, result, next, stack, htop, hhead, hrest⟩ := hpaused
    obtain ⟨rfl, hreturned⟩ := hsound.preReturned htop postCallback
    rw [step, htop] at hstep
    rw [← Option.some.inj hstep, ← hhead]
    exact kept_advance hreturned hrest (Function.update_self ..)

theorem kept_step {event : Event κ ρ π} {after : State κ ρ π} (h : Kept callbacks state)
    (hstep : step callbacks state event = some after) : Kept callbacks after := by
  cases event with
  | enqueue data =>
      rw [← Option.some.inj hstep]
      exact kept_enqueue h data
  | complete call result =>
      rw [step] at hstep
      split_ifs at hstep with hcall
      rw [← Option.some.inj hstep]
      exact kept_complete h hcall
  | «return» postCallback => exact kept_return h hstep

theorem kept_run {events : List (Event κ ρ π)} {after : State κ ρ π}
    (hrun : run (step callbacks) {} events = some after) : Kept callbacks after :=
  invariant_of_run (Kept callbacks) (fun _ _ _ h hstep => kept_step h hstep) kept_init hrun

/-! ## What a queue guarantees -/

/-- Without a function on the stack, every call waits, runs, or has been called back. -/
theorem Sound.stage_of_idle (h : Sound callbacks stages [] headRuns state) (hstack : state.stack = [])
    (hstage : stages call = some stage) : ¬ stage.IsReturning := by
  rw [h.returns.mem hstage, hstack]
  exact List.not_mem_nil

theorem Sound.settled (h : Sound callbacks stages [] headRuns state) (hstack : state.stack = [])
    {result : ρ} (hmem : .completed call result ∈ state.trace) :
    ∃ postCallback,
      about Output.call? call state.trace = story callbacks call (.called result postCallback) := by
  obtain ⟨stage, hstage, hstory⟩ := h.told.mem_story rfl hmem
  obtain ⟨postCallback, rfl⟩ := (completed_mem_story hstory).resolve_left
    (h.stage_of_idle hstack hstage)
  refine ⟨postCallback, ?_⟩
  rw [h.told call, hstage]
  rfl

/-- With nothing on the stack and no call running, no call is left. -/
theorem Sound.empty (h : Sound callbacks stages [] true state) (hstack : state.stack = [])
    (hrunning : state.running = []) :
    state.queue = [] ∧ ∀ call ∈ enqueuedCalls state.trace,
      ∃ result, .completed call result ∈ state.trace := by
  have hhead := h.running
  rw [hrunning] at hhead
  have hqueue : state.queue = [] := by
    cases hqueue : state.queue with
    | nil => rfl
    | cons call queue =>
        rw [hqueue] at hhead
        exact nomatch hhead
  refine ⟨hqueue, fun call hcall => ?_⟩
  obtain ⟨stage, hstage, _⟩ := h.told.mem_story rfl (mem_enqueuedCalls.mp hcall)
  have hwaits := h.waits.mem hstage
  have hruns := h.runs.mem hstage
  have hreturns := h.stage_of_idle hstack hstage
  have htold := h.told call
  rw [hqueue] at hwaits hruns
  rw [hstage] at htold
  cases stage with
  | waiting => exact absurd (hwaits.mp rfl) List.not_mem_nil
  | running => exact absurd (hruns.mp rfl) List.not_mem_nil
  | preCallback _ => exact absurd trivial hreturns
  | advancing _ _ => exact absurd trivial hreturns
  | called result postCallback =>
      refine ⟨result, @mem_of_mem_about _ _ _ Output.call? call _ _ ?_⟩
      rw [htold]
      simp [story]

/-- With nothing on the stack and no call running, every call has completed. -/
theorem Kept.empty (h : Kept callbacks state) (hstack : state.stack = [])
    (hrunning : state.running = []) :
    state.queue = [] ∧ ∀ call ∈ enqueuedCalls state.trace,
      ∃ result, .completed call result ∈ state.trace := by
  obtain ⟨stages, hkept | ⟨_, _, _, _, _, _, htop, _⟩⟩ := h
  · exact hkept.1.empty hstack hrunning
  · rw [hstack] at htop
    exact nomatch htop

end DatabaseJones.QueuedAsyncCall
