import DatabaseJones.Promise.Promise

/-!
# Reactions of a promise

The calls of `then()` are numbered.  Before the promise is settled, their callbacks are in
its lists; after that the functions that wait for a turn are those of a range of numbers,
and everything below the range has had its turn.
-/

namespace DatabaseJones.Promise

open DatabaseJones.Library

variable {behaviour : Behaviour}

/-! ## Reading the trace -/

theorem settlements_append (first second : List Output) :
    settlements (first ++ second) = settlements first ++ settlements second :=
  List.filterMap_append

theorem calledIndices_append (first second : List Output) :
    calledIndices (first ++ second) = calledIndices first ++ calledIndices second :=
  List.filterMap_append

theorem registeredIndices_append (first second : List Output) :
    registeredIndices (first ++ second) = registeredIndices first ++ registeredIndices second :=
  List.filterMap_append

theorem mem_settlements {trace : List Output} {settlement : Settlement} :
    settlement ∈ settlements trace ↔ .settled settlement ∈ trace := by
  rw [settlements, List.mem_filterMap]
  constructor
  · rintro ⟨output, hmem, houtput⟩
    cases output with
    | settled other => exact Option.some.inj houtput ▸ hmem
    | _ => exact nomatch houtput
  · exact fun hmem => ⟨_, hmem, rfl⟩

/-! ## Invariants -/

/-- The function that waits for a turn after a settlement, for a call of `then()` before it
or after it. -/
def immediateFor (settlement : Settlement) (isLate : Bool) (index : ℕ)
    (arguments : Argument × Argument) : Immediate :=
  if isLate then
    if settlement.err.truthy then ⟨index, .rejectedCallback arguments.2, settlement.err, true⟩
    else ⟨index, .fulfilledCallback arguments.1, settlement.result, false⟩
  else
    match settlement with
    | .fulfilled value => (fulfilledReaction index arguments.1).immediate value
    | .rejected reason => (rejectedReaction index arguments.2).immediate reason

/-- A promise that has not been settled. -/
structure Pending (arguments : ℕ → Argument × Argument) (state : State) : Prop where
  resolved : state.resolved = false
  result : state.result = .undefined
  err : state.err = .undefined
  settlements : settlements state.trace = []
  immediates : state.immediates = []
  fulfilledCallbacks : state.fulfilledCallbacks =
    (List.range state.thens).map fun index => fulfilledReaction index (arguments index).1
  rejectedCallbacks : state.rejectedCallbacks =
    (List.range state.thens).map fun index => rejectedReaction index (arguments index).2
  story : ∀ index, about Output.index? index state.trace =
    if index < state.thens then [.registered index (arguments index).1 (arguments index).2] else []
  newPromises : ∀ index, state.newPromises index = none
  numbered : registeredIndices state.trace = List.range state.thens

/-- The settlement comes after the first `early` calls of `then()`, and before the others. -/
def SettledAfter (settlement : Settlement) (early : ℕ) (trace : List Output) : Prop :=
  ∃ before after, trace = before ++ .settled settlement :: after ∧
    registeredIndices before = List.range early

variable (behaviour) in
/-- A promise that was settled after `early` calls of `then()`, and of which `turns`
functions have had their turn. -/
structure Settled (arguments : ℕ → Argument × Argument) (settlement : Settlement) (early turns : ℕ)
    (state : State) : Prop where
  resolved : state.resolved = true
  result : state.result = settlement.result
  err : state.err = settlement.err
  settlements : settlements state.trace = [settlement]
  early_le : early ≤ state.thens
  turns_le : turns ≤ state.thens
  immediates : state.immediates = (List.range' turns (state.thens - turns)).map fun index =>
    immediateFor settlement (early ≤ index) index (arguments index)
  story : ∀ index, about Output.index? index state.trace =
    if index < state.thens then
      .registered index (arguments index).1 (arguments index).2 ::
        if index < turns then (immediateFor settlement (early ≤ index) index (arguments index)).calls
        else []
    else []
  ordered : (calledIndices state.trace).Pairwise (· < ·)
  below : ∀ index ∈ calledIndices state.trace, index < turns
  later : ∀ index side value, .called index side value ∈ state.trace →
    List.Sublist [.registered index (arguments index).1 (arguments index).2, .turn,
      .called index side value] state.trace ∧
    List.Sublist [.settled settlement, .turn, .called index side value] state.trace
  newPromises : ∀ index, state.newPromises index =
    if index < turns then
      some (thenPromiseFulfilledOrRejected behaviour
        (immediateFor settlement (early ≤ index) index (arguments index)))
    else none
  numbered : registeredIndices state.trace = List.range state.thens
  settledAfter : SettledAfter settlement early state.trace

variable {arguments : ℕ → Argument × Argument} {settlement : Settlement} {early turns : ℕ}
  {state : State}

theorem SettledAfter.append {trace : List Output} (h : SettledAfter settlement early trace)
    (outputs : List Output) : SettledAfter settlement early (trace ++ outputs) := by
  obtain ⟨before, after, rfl, hbefore⟩ := h
  exact ⟨before, after ++ outputs, by rw [List.append_assoc, List.cons_append], hbefore⟩

theorem calls_index {immediate : Immediate} {output : Output} (h : output ∈ immediate.calls) :
    ∃ side value, output = .called immediate.index side value := by
  rw [Immediate.calls] at h
  split at h
  · exact ⟨_, _, List.mem_singleton.mp h⟩
  · exact ⟨_, _, List.mem_singleton.mp h⟩
  · exact absurd h List.not_mem_nil

theorem immediateFor_index (settlement : Settlement) (isLate : Bool) (index : ℕ)
    (arguments : Argument × Argument) :
    (immediateFor settlement isLate index arguments).index = index := by
  unfold immediateFor
  split_ifs
  · rfl
  · rfl
  · cases settlement <;> rfl

/-- The numbers below the next one keep their arguments. -/
theorem update_arguments {index : ℕ} (pair : Argument × Argument) (h : index < state.thens) :
    Function.update arguments state.thens pair index = arguments index :=
  Function.update_of_ne h.ne pair arguments

/-! ## Steps before the settlement -/

theorem Pending.then (h : Pending arguments state) (fulfilled rejected : Argument) :
    Pending (Function.update arguments state.thens (fulfilled, rejected))
      (state.then fulfilled rejected) := by
  rw [State.then, if_neg (by simp [h.resolved])]
  refine
    { resolved := h.resolved
      result := h.result
      err := h.err
      settlements := ?_
      immediates := h.immediates
      fulfilledCallbacks := ?_
      rejectedCallbacks := ?_
      story := ?_
      newPromises := h.newPromises
      numbered := ?_ }
  · exact (settlements_append _ _).trans ((List.append_nil _).trans h.settlements)
  · dsimp only
    rw [h.fulfilledCallbacks, List.range_succ, List.map_append, List.map_singleton,
      Function.update_self]
    congr 1
    refine List.map_congr_left fun index hindex => ?_
    rw [update_arguments _ (List.mem_range.mp hindex)]
  · dsimp only
    rw [h.rejectedCallbacks, List.range_succ, List.map_append, List.map_singleton,
      Function.update_self]
    congr 1
    refine List.map_congr_left fun index hindex => ?_
    rw [update_arguments _ (List.mem_range.mp hindex)]
  · intro index
    dsimp only
    by_cases hindex : index = state.thens
    · rw [hindex, about_concat_self _ (show Output.index? _ = _ from rfl), h.story,
        if_neg (Nat.lt_irrefl _), if_pos (Nat.lt_succ_self _), Function.update_self]
      rfl
    · rw [about_concat_of_ne _ (show Output.index? _ = _ from rfl) hindex, h.story,
        Function.update_of_ne hindex]
      have hiff : index < state.thens + 1 ↔ index < state.thens := by omega
      rw [if_congr hiff rfl rfl]
  · dsimp only
    rw [registeredIndices_append, h.numbered, List.range_succ]
    rfl

/-- The functions that wait for a turn when a promise is settled. -/
theorem map_immediate {reaction : ℕ → Argument × Argument → Reaction} {value : Value} {thens : ℕ}
    (h : ∀ index pair, (reaction index pair).immediate value = immediateFor settlement false index pair) :
    ((List.range thens).map fun index => reaction index (arguments index)).map
        (Reaction.immediate · value) =
      (List.range' 0 (thens - 0)).map fun index =>
        immediateFor settlement (thens ≤ index) index (arguments index) := by
  rw [List.map_map, Nat.sub_zero, ← List.range_eq_range']
  refine List.map_congr_left fun index hindex => ?_
  rw [Function.comp_apply, h, decide_eq_false (Nat.not_le_of_lt (List.mem_range.mp hindex))]

/-- No handler has been called. -/
theorem Pending.not_called (h : Pending arguments state) {index : ℕ} {side : Side} {value : Value} :
    .called index side value ∉ state.trace := by
  intro hmem
  have habout := mem_about_iff.mpr
    ⟨hmem, (show Output.index? (.called index side value) = some index from rfl)⟩
  rw [h.story] at habout
  split_ifs at habout
  · exact nomatch List.mem_singleton.mp habout
  · exact absurd habout List.not_mem_nil

theorem Pending.calledIndices_eq_nil (h : Pending arguments state) :
    calledIndices state.trace = [] := by
  rw [List.eq_nil_iff_forall_not_mem]
  intro index hmem
  obtain ⟨output, houtput, hindex⟩ := List.mem_filterMap.mp hmem
  cases output with
  | called other side value => exact h.not_called houtput
  | _ => exact nomatch hindex

/-- Settling a promise gives the callbacks of its side a turn. -/
theorem Pending.settle (h : Pending arguments state) {after : State}
    (hresolved : after.resolved = true) (hresult : after.result = settlement.result)
    (herr : after.err = settlement.err) (hthens : after.thens = state.thens)
    (himmediates : after.immediates = (List.range' 0 (state.thens - 0)).map fun index =>
      immediateFor settlement (state.thens ≤ index) index (arguments index))
    (hpromises : after.newPromises = state.newPromises)
    (htrace : after.trace = state.trace ++ [.settled settlement]) :
    Settled behaviour arguments settlement state.thens 0 after := by
  have hcalled : calledIndices after.trace = [] := by
    rw [htrace, calledIndices_append, h.calledIndices_eq_nil]
    rfl
  refine
    { resolved := hresolved
      result := hresult
      err := herr
      settlements := ?_
      early_le := hthens.ge
      turns_le := Nat.zero_le _
      immediates := ?_
      story := ?_
      ordered := ?_
      below := ?_
      later := ?_
      newPromises := ?_
      numbered := ?_
      settledAfter := ⟨state.trace, [], htrace, h.numbered⟩ }
  · rw [htrace, settlements_append, h.settlements]
    rfl
  · rw [hthens]
    exact himmediates
  · intro index
    rw [htrace, about_concat_none _ (show Output.index? _ = _ from rfl), h.story, hthens, if_neg (Nat.not_lt_zero index)]
  · rw [hcalled]
    exact List.Pairwise.nil
  · rw [hcalled]
    exact fun _ h => absurd h List.not_mem_nil
  · intro index side value hmem
    have hindex : index ∈ calledIndices after.trace := List.mem_filterMap.mpr ⟨_, hmem, rfl⟩
    rw [hcalled] at hindex
    exact absurd hindex List.not_mem_nil
  · intro index
    rw [hpromises, h.newPromises, if_neg (Nat.not_lt_zero index)]
  · rw [htrace, registeredIndices_append, h.numbered, hthens]
    exact List.append_nil _

theorem Pending.fulfill (h : Pending arguments state) (value : Value) :
    Settled behaviour arguments (.fulfilled value) state.thens 0 (state.fulfill value) := by
  have hafter : state.fulfill value =
      { state with
        resolved := true
        result := value
        fulfilledCallbacks := []
        immediates := state.immediates ++ state.fulfilledCallbacks.map (Reaction.immediate · value)
        trace := state.trace ++ [.settled (.fulfilled value)] } := by
    rw [State.fulfill, if_neg (by simp [h.resolved])]
  rw [hafter]
  refine h.settle rfl rfl h.err rfl ?_ rfl rfl
  dsimp only
  rw [h.immediates, List.nil_append, h.fulfilledCallbacks]
  exact @map_immediate arguments (.fulfilled value) (fun index pair => fulfilledReaction index pair.1)
    value state.thens fun _ _ => rfl

theorem Pending.reject (h : Pending arguments state) (reason : Value) :
    Settled behaviour arguments (.rejected reason) state.thens 0 (state.reject reason) := by
  have hafter : state.reject reason =
      { state with
        resolved := true
        err := reason
        rejectedCallbacks := []
        immediates := state.immediates ++ state.rejectedCallbacks.map (Reaction.immediate · reason)
        trace := state.trace ++ [.settled (.rejected reason)] } := by
    rw [State.reject, if_neg (by simp [h.resolved])]
  rw [hafter]
  refine h.settle rfl h.result rfl rfl ?_ rfl rfl
  dsimp only
  rw [h.immediates, List.nil_append, h.rejectedCallbacks]
  exact @map_immediate arguments (.rejected reason) (fun index pair => rejectedReaction index pair.2)
    reason state.thens fun _ _ => rfl

/-! ## Steps after the settlement -/

theorem Settled.then (h : Settled behaviour arguments settlement early turns state)
    (fulfilled rejected : Argument) :
    Settled behaviour (Function.update arguments state.thens (fulfilled, rejected)) settlement early
      turns (state.then fulfilled rejected) := by
  have hdelayed : state.delayed fulfilled rejected =
      immediateFor settlement (early ≤ state.thens) state.thens (fulfilled, rejected) := by
    unfold State.delayed immediateFor
    rw [h.err, h.result, decide_eq_true h.early_le, if_pos rfl]
  rw [State.then, if_pos h.resolved, hdelayed]
  refine
    { resolved := h.resolved
      result := h.result
      err := h.err
      settlements := ?_
      early_le := h.early_le.trans (Nat.le_succ _)
      turns_le := h.turns_le.trans (Nat.le_succ _)
      immediates := ?_
      story := ?_
      ordered := ?_
      below := ?_
      later := ?_
      newPromises := ?_
      numbered := ?_
      settledAfter := h.settledAfter.append _ }
  · exact (settlements_append _ _).trans ((List.append_nil _).trans h.settlements)
  · have hcount : state.thens + 1 - turns = state.thens - turns + 1 := by
      have := h.turns_le
      omega
    have hlast : turns + (state.thens - turns) = state.thens := by
      have := h.turns_le
      omega
    dsimp only
    rw [h.immediates, hcount, List.range'_1_concat, List.map_append, List.map_singleton, hlast,
      Function.update_self]
    congr 1
    refine List.map_congr_left fun index hindex => ?_
    have := List.mem_range'_1.mp hindex
    rw [update_arguments _ (by omega)]
  · intro index
    dsimp only
    by_cases hindex : index = state.thens
    · rw [hindex, about_concat_self _ (show Output.index? _ = _ from rfl), h.story,
        if_neg (Nat.lt_irrefl _), if_pos (Nat.lt_succ_self _), Function.update_self,
        if_neg (Nat.not_lt_of_le h.turns_le)]
      rfl
    · rw [about_concat_of_ne _ (show Output.index? _ = _ from rfl) hindex, h.story,
        Function.update_of_ne hindex]
      have hiff : index < state.thens + 1 ↔ index < state.thens := by omega
      rw [if_congr hiff rfl rfl]
  · dsimp only
    rw [calledIndices_append]
    exact (List.append_nil (calledIndices state.trace)).symm ▸ h.ordered
  · dsimp only
    rw [calledIndices_append]
    exact (List.append_nil (calledIndices state.trace)).symm ▸ h.below
  · intro index side value hmem
    rw [List.mem_append, List.mem_singleton] at hmem
    have hmem := hmem.resolve_right fun h => nomatch h
    obtain ⟨hregistered, hsettled⟩ := h.later index side value hmem
    have hindex := h.below index (List.mem_filterMap.mpr ⟨_, hmem, rfl⟩)
    rw [update_arguments _ (hindex.trans_le h.turns_le)]
    exact ⟨hregistered.trans (List.sublist_append_left _ _),
      hsettled.trans (List.sublist_append_left _ _)⟩
  · intro index
    dsimp only
    rw [h.newPromises]
    split_ifs with hindex
    · rw [update_arguments _ (hindex.trans_le h.turns_le)]
    · rfl
  · dsimp only
    rw [registeredIndices_append, h.numbered, List.range_succ]
    rfl

/-- Settling a promise again throws and changes nothing. -/
theorem Settled.threw (h : Settled behaviour arguments settlement early turns state) :
    Settled behaviour arguments settlement early turns
      { state with trace := state.trace ++ [.threw] } := by
  have hcalled : calledIndices (state.trace ++ [.threw]) = calledIndices state.trace :=
    (calledIndices_append _ _).trans (List.append_nil _)
  refine
    { h with
      settlements := ?_
      story := ?_
      ordered := hcalled.symm ▸ h.ordered
      below := hcalled.symm ▸ h.below
      later := ?_
      numbered := (registeredIndices_append _ _).trans ((List.append_nil _).trans h.numbered)
      settledAfter := h.settledAfter.append _ }
  · exact (settlements_append _ _).trans ((List.append_nil _).trans h.settlements)
  · intro index
    dsimp only
    rw [about_concat_none _ (show Output.index? _ = _ from rfl)]
    exact h.story index
  · intro index side value hmem
    rw [List.mem_append, List.mem_singleton] at hmem
    obtain ⟨hregistered, hsettled⟩ :=
      h.later index side value (hmem.resolve_right fun h => nomatch h)
    exact ⟨hregistered.trans (List.sublist_append_left _ _),
      hsettled.trans (List.sublist_append_left _ _)⟩

/-- What stands before two further outputs comes before both of them. -/
theorem sublist_of_mem {first second third : Output} {trace : List Output} (h : first ∈ trace) :
    List.Sublist [first, second, third] (trace ++ [second, third]) :=
  (List.singleton_sublist.mpr h).append (List.Sublist.refl [second, third])

/-- The first of the functions that wait has its turn. -/
theorem Settled.turn (h : Settled behaviour arguments settlement early turns state) {after : State}
    (hstep : step behaviour state .turn = some after) :
    Settled behaviour arguments settlement early (turns + 1) after := by
  have hlt : turns < state.thens := by
    by_contra hge
    have himmediates := h.immediates
    rw [Nat.sub_eq_zero_of_le (Nat.le_of_not_lt hge)] at himmediates
    rw [step, himmediates] at hstep
    cases hstep
  have hcount : state.thens - turns = state.thens - (turns + 1) + 1 := by omega
  have himmediates := h.immediates
  rw [hcount, List.range'_succ, List.map_cons] at himmediates
  rw [step, himmediates] at hstep
  rw [← Option.some.inj hstep]
  set immediate := immediateFor settlement (early ≤ turns) turns (arguments turns) with himmediate
  have hindex : immediate.index = turns := immediateFor_index _ _ _ _
  have hcalls : ∀ output ∈ immediate.calls, ∃ side value, output = .called turns side value := by
    intro output houtput
    obtain ⟨side, value, rfl⟩ := calls_index houtput
    rw [hindex]
    exact ⟨side, value, rfl⟩
  have hcalled : calledIndices (.turn :: immediate.calls) = [] ∨
      calledIndices (.turn :: immediate.calls) = [turns] := by
    rw [Immediate.calls]
    split
    · exact Or.inr (by rw [hindex]; rfl)
    · exact Or.inr (by rw [hindex]; rfl)
    · exact Or.inl rfl
  have hregistered : .registered turns (arguments turns).1 (arguments turns).2 ∈ state.trace := by
    refine @mem_of_mem_about _ _ _ Output.index? turns _ _ ?_
    rw [h.story, if_pos hlt]
    exact List.mem_cons_self
  have hsettled : .settled settlement ∈ state.trace := by
    rw [← mem_settlements, h.settlements]
    exact List.mem_cons_self
  refine
    { resolved := h.resolved
      result := h.result
      err := h.err
      settlements := ?_
      early_le := h.early_le
      turns_le := hlt
      immediates := rfl
      story := ?_
      ordered := ?_
      below := ?_
      later := ?_
      newPromises := ?_
      numbered := ?_
      settledAfter := h.settledAfter.append _ }
  · have hnone : Promise.settlements (.turn :: immediate.calls) = [] := by
      rw [List.eq_nil_iff_forall_not_mem]
      intro other hmem
      rcases List.mem_cons.mp (mem_settlements.mp hmem) with heq | hmem
      · cases heq
      · obtain ⟨_, _, heq⟩ := hcalls _ hmem
        cases heq
    dsimp only
    rw [settlements_append, hnone, List.append_nil, h.settlements]
  · intro index
    have hturn : about Output.index? index (.turn :: immediate.calls) =
        about Output.index? index immediate.calls := rfl
    dsimp only
    rw [about_append, hturn, h.story]
    by_cases heq : index = turns
    · have hself : about Output.index? index immediate.calls = immediate.calls := by
        rw [about, List.filter_eq_self]
        intro output houtput
        obtain ⟨side, value, rfl⟩ := hcalls output houtput
        simp [Output.index?, heq]
      rw [hself, heq, if_pos hlt, if_pos hlt, if_neg (Nat.lt_irrefl _), if_pos (Nat.lt_succ_self _)]
      rfl
    · have hother : about Output.index? index immediate.calls = [] := by
        rw [about, List.filter_eq_nil_iff]
        intro output houtput
        obtain ⟨side, value, rfl⟩ := hcalls output houtput
        simpa [Output.index?] using fun h => heq h.symm
      have hiff : index < turns + 1 ↔ index < turns := by omega
      rw [hother, List.append_nil, if_congr hiff rfl rfl]
  · dsimp only
    rw [calledIndices_append, List.pairwise_append]
    refine ⟨h.ordered, ?_, ?_⟩
    · rcases hcalled with hcalled | hcalled <;> rw [hcalled]
      · exact List.Pairwise.nil
      · exact List.pairwise_singleton _ _
    · intro index hmem other hother
      rcases hcalled with hcalled | hcalled <;> rw [hcalled] at hother
      · exact absurd hother List.not_mem_nil
      · exact List.mem_singleton.mp hother ▸ h.below index hmem
  · intro index hmem
    dsimp only at hmem
    rw [calledIndices_append, List.mem_append] at hmem
    rcases hmem with hmem | hmem
    · exact (h.below index hmem).trans (Nat.lt_succ_self _)
    · rcases hcalled with hcalled | hcalled <;> rw [hcalled] at hmem
      · exact absurd hmem List.not_mem_nil
      · exact List.mem_singleton.mp hmem ▸ Nat.lt_succ_self _
  · intro index side value hmem
    dsimp only at hmem ⊢
    rcases List.mem_append.mp hmem with hmem | hmem
    · obtain ⟨hfirst, hsecond⟩ := h.later index side value hmem
      exact ⟨hfirst.trans (List.sublist_append_left _ _),
        hsecond.trans (List.sublist_append_left _ _)⟩
    · have hmem := (List.mem_cons.mp hmem).resolve_left fun h => by cases h
      obtain ⟨_, _, heq⟩ := hcalls _ hmem
      injection heq with hindex
      have hcall : immediate.calls = [.called index side value] := by
        rw [Immediate.calls] at hmem ⊢
        split at hmem
        · rw [List.mem_singleton.mp hmem]
        · rw [List.mem_singleton.mp hmem]
        · exact absurd hmem List.not_mem_nil
      rw [hcall, hindex]
      exact ⟨sublist_of_mem hregistered, sublist_of_mem hsettled⟩
  · intro index
    dsimp only
    by_cases heq : index = turns
    · rw [hindex, heq, Function.update_self, if_pos (Nat.lt_succ_self _)]
    · have hiff : index < turns + 1 ↔ index < turns := by omega
      rw [hindex, Function.update_of_ne heq, h.newPromises, if_congr hiff rfl rfl]
  · have hnone : registeredIndices (.turn :: immediate.calls) = [] := by
      rw [List.eq_nil_iff_forall_not_mem]
      intro other hmem
      obtain ⟨output, houtput, heq⟩ := List.mem_filterMap.mp hmem
      rcases List.mem_cons.mp houtput with rfl | houtput
      · cases heq
      · obtain ⟨_, _, rfl⟩ := hcalls _ houtput
        cases heq
    dsimp only
    rw [registeredIndices_append, hnone, List.append_nil, h.numbered]

/-! ## Runs -/

variable (behaviour) in
/-- What holds in every state. -/
def Invariant (state : State) : Prop :=
  ∃ arguments, Pending arguments state ∨
    ∃ settlement early turns, Settled behaviour arguments settlement early turns state

theorem pending_init : Pending (fun _ => (.falsy, .falsy)) {} where
  resolved := rfl
  result := rfl
  err := rfl
  settlements := rfl
  immediates := rfl
  fulfilledCallbacks := rfl
  rejectedCallbacks := rfl
  story _ := rfl
  newPromises _ := rfl
  numbered := rfl

theorem Pending.turn (h : Pending arguments state) : step behaviour state .turn = none := by
  rw [step, h.immediates]

theorem Settled.settle_again (h : Settled behaviour arguments settlement early turns state)
    {event : Event} {after : State} (hstep : step behaviour state event = some after)
    (hevent : (∃ value, event = .fulfill value) ∨ ∃ reason, event = .reject reason) :
    Settled behaviour arguments settlement early turns after := by
  rcases hevent with ⟨value, rfl⟩ | ⟨reason, rfl⟩
  · rw [← Option.some.inj hstep, State.fulfill, if_pos h.resolved]
    exact h.threw
  · rw [← Option.some.inj hstep, State.reject, if_pos h.resolved]
    exact h.threw

theorem invariant_step {event : Event} {after : State} (h : Invariant behaviour state)
    (hstep : step behaviour state event = some after) : Invariant behaviour after := by
  obtain ⟨arguments, hpending | ⟨settlement, early, turns, hsettled⟩⟩ := h
  · cases event with
    | «then» fulfilled rejected =>
        rw [← Option.some.inj hstep]
        exact ⟨_, Or.inl (hpending.then fulfilled rejected)⟩
    | fulfill value =>
        rw [← Option.some.inj hstep]
        exact ⟨_, Or.inr ⟨_, _, _, hpending.fulfill value⟩⟩
    | reject reason =>
        rw [← Option.some.inj hstep]
        exact ⟨_, Or.inr ⟨_, _, _, hpending.reject reason⟩⟩
    | turn => exact nomatch hpending.turn.symm.trans hstep
  · cases event with
    | «then» fulfilled rejected =>
        rw [← Option.some.inj hstep]
        exact ⟨_, Or.inr ⟨_, _, _, hsettled.then fulfilled rejected⟩⟩
    | fulfill value =>
        exact ⟨_, Or.inr ⟨_, _, _, hsettled.settle_again hstep (Or.inl ⟨value, rfl⟩)⟩⟩
    | reject reason =>
        exact ⟨_, Or.inr ⟨_, _, _, hsettled.settle_again hstep (Or.inr ⟨reason, rfl⟩)⟩⟩
    | turn => exact ⟨_, Or.inr ⟨_, _, _, hsettled.turn hstep⟩⟩

theorem invariant_of_run_step {events : List Event} {final : State}
    (hrun : run (step behaviour) {} events = some final) : Invariant behaviour final :=
  invariant_of_run (Invariant behaviour) (fun _ _ _ h hstep => invariant_step h hstep)
    ⟨_, Or.inl pending_init⟩ hrun

/-! ## Calls of `then()` in the trace -/

theorem Settled.mem_settled (h : Settled behaviour arguments settlement early turns state)
    {other : Settlement} : .settled other ∈ state.trace ↔ other = settlement := by
  rw [← mem_settlements, h.settlements, List.mem_singleton]

theorem Pending.not_settled (h : Pending arguments state) (other : Settlement) :
    .settled other ∉ state.trace := by
  rw [← mem_settlements, h.settlements]
  exact List.not_mem_nil

theorem Settled.registered (h : Settled behaviour arguments settlement early turns state)
    {index : ℕ} {fulfilled rejected : Argument}
    (hmem : .registered index fulfilled rejected ∈ state.trace) :
    index < state.thens ∧ arguments index = (fulfilled, rejected) := by
  have habout := mem_about_iff.mpr
    ⟨hmem, (show Output.index? (.registered index fulfilled rejected) = some index from rfl)⟩
  rw [h.story] at habout
  split_ifs at habout with hindex hturn
  · rcases List.mem_cons.mp habout with heq | hcall
    · injection heq with _ hfulfilled hrejected
      rw [hfulfilled, hrejected]
      exact ⟨hindex, rfl⟩
    · obtain ⟨_, _, heq⟩ := calls_index hcall
      exact nomatch heq
  · injection List.mem_singleton.mp habout with _ hfulfilled hrejected
    rw [hfulfilled, hrejected]
    exact ⟨hindex, rfl⟩
  · exact absurd habout List.not_mem_nil

end DatabaseJones.Promise
