import DatabaseJones.Promise.Reactions

/-!
# Promises settle once and react to every `then()`

The functions that wait after a settlement are the handlers for it, except for a call of
`then()` on a promise that was rejected for a falsy reason.  Without such calls a promise
`Reacts`.
-/

namespace DatabaseJones.Promise

open DatabaseJones.Library

variable {behaviour : Behaviour} {arguments : ℕ → Argument × Argument} {settlement : Settlement}
  {early turns : ℕ} {state : State}

/-- A call of `then()` that a promise with this settlement does not take for another one. -/
def Heeded (settlement : Settlement) (arguments : Argument × Argument) : Prop :=
  ∀ reason, settlement = .rejected reason →
    reason.truthy = true ∨ arguments.1.isFunction = false ∧ arguments.2.isFunction = false

variable (behaviour) in
/-- What holds in every state of a run whose steps are all allowed. -/
def HeededInvariant (state : State) : Prop :=
  ∃ arguments, Pending arguments state ∨
    ∃ settlement early turns, Settled behaviour arguments settlement early turns state ∧
      ∀ index, early ≤ index → index < state.thens → Heeded settlement (arguments index)

/-! ## Steps -/

/-- Settling again changes nothing that a call of `then()` depends on. -/
theorem heededInvariant_again (h : Settled behaviour arguments settlement early turns state)
    (hheeded : ∀ index, early ≤ index → index < state.thens → Heeded settlement (arguments index))
    {event : Event} {after : State} (hstep : step behaviour state event = some after)
    (hevent : (∃ value, event = .fulfill value) ∨ ∃ reason, event = .reject reason) :
    HeededInvariant behaviour after := by
  have hthens : after.thens = state.thens := by
    rcases hevent with ⟨value, rfl⟩ | ⟨reason, rfl⟩
    · rw [← Option.some.inj hstep, State.fulfill, if_pos h.resolved]
    · rw [← Option.some.inj hstep, State.reject, if_pos h.resolved]
  refine ⟨arguments, Or.inr ⟨settlement, early, turns, h.settle_again hstep hevent, ?_⟩⟩
  rw [hthens]
  exact hheeded

theorem heededInvariant_step {event : Event} {after : State} (h : HeededInvariant behaviour state)
    (hallowed : Allowed state event) (hstep : step behaviour state event = some after) :
    HeededInvariant behaviour after := by
  obtain ⟨arguments, hpending | ⟨settlement, early, turns, hsettled, hheeded⟩⟩ := h
  · cases event with
    | «then» fulfilled rejected =>
        rw [← Option.some.inj hstep]
        exact ⟨_, Or.inl (hpending.then fulfilled rejected)⟩
    | fulfill value =>
        rw [← Option.some.inj hstep]
        refine ⟨_, Or.inr ⟨_, _, _, hpending.fulfill value, fun index _ _ reason heq => ?_⟩⟩
        cases heq
    | reject reason =>
        rw [← Option.some.inj hstep]
        refine ⟨_, Or.inr ⟨_, _, _, hpending.reject reason, fun index hge hlt => ?_⟩⟩
        have hthens : (state.reject reason).thens = state.thens := by
          rw [State.reject, if_neg (by simp [hpending.resolved])]
        omega
    | turn =>
        have hnone := hpending.turn.symm.trans hstep
        cases hnone
  · cases event with
    | «then» fulfilled rejected =>
        rw [← Option.some.inj hstep]
        refine ⟨_, Or.inr ⟨_, _, _, hsettled.then fulfilled rejected, fun index hge hlt => ?_⟩⟩
        have hthens : (state.then fulfilled rejected).thens = state.thens + 1 := by
          rw [State.then, if_pos hsettled.resolved]
        by_cases hindex : index = state.thens
        · rw [hindex, Function.update_self]
          intro reason heq
          exact hallowed reason (hsettled.mem_settled.mpr heq.symm)
        · rw [Function.update_of_ne hindex]
          exact hheeded index hge (by omega)
    | fulfill value => exact heededInvariant_again hsettled hheeded hstep (Or.inl ⟨value, rfl⟩)
    | reject reason => exact heededInvariant_again hsettled hheeded hstep (Or.inr ⟨reason, rfl⟩)
    | turn =>
        refine ⟨_, Or.inr ⟨_, _, _, hsettled.turn hstep, fun index hge hlt => ?_⟩⟩
        have hthens : after.thens = state.thens := by
          rw [step] at hstep
          split at hstep
          · cases hstep
          · rw [← Option.some.inj hstep]
        exact hheeded index hge (hthens ▸ hlt)

/-! ## The handler that is called -/

theorem calls_fulfilledCallback (index : ℕ) (callback : Argument) (result : Value)
    (isRejected : Bool) :
    Immediate.calls ⟨index, .fulfilledCallback callback, result, isRejected⟩ =
      if callback.isFunction then [.called index .fulfilled result] else [] := by
  cases callback <;> rfl

theorem calls_rejectedCallback (index : ℕ) (callback : Argument) (result : Value)
    (isRejected : Bool) :
    Immediate.calls ⟨index, .rejectedCallback callback, result, isRejected⟩ =
      if callback.isFunction then [.called index .rejected result] else [] := by
  cases callback <;> rfl

/-- The handler for the settlement is called, and no other one. -/
theorem calls_immediateFor {isLate : Bool} {index : ℕ} {pair : Argument × Argument}
    (h : isLate = true → Heeded settlement pair) :
    (immediateFor settlement isLate index pair).calls =
      if (settlement.handler pair.1 pair.2).isFunction then
        [.called index settlement.side settlement.value]
      else [] := by
  obtain ⟨fulfilled, rejected⟩ := pair
  cases isLate with
  | false =>
      cases settlement with
      | fulfilled value => cases fulfilled <;> rfl
      | rejected reason => cases rejected <;> rfl
  | true =>
      cases settlement with
      | fulfilled value => exact calls_fulfilledCallback _ _ _ _
      | rejected reason =>
          have himmediate : immediateFor (.rejected reason) true index (fulfilled, rejected) =
              if reason.truthy then ⟨index, .rejectedCallback rejected, reason, true⟩
              else ⟨index, .fulfilledCallback fulfilled, .undefined, false⟩ := rfl
          rw [himmediate]
          by_cases htruthy : reason.truthy = true
          · rw [if_pos htruthy]
            exact calls_rejectedCallback _ _ _ _
          · obtain ⟨hfulfilled, hrejected⟩ := (h rfl reason rfl).resolve_left htruthy
            rw [if_neg htruthy, calls_fulfilledCallback]
            exact (if_neg (by simp [hfulfilled])).trans
              (if_neg (by simpa [Settlement.handler] using hrejected)).symm

/-! ## The promise reacts -/

theorem Pending.reacts (h : Pending arguments state) : Reacts state where
  settledOnce := by simp [h.settlements]
  keeps settlement hmem := absurd hmem (h.not_settled settlement)
  reacts index fulfilled rejected hmem := by
    left
    have hmem := mem_about_iff.mpr
      ⟨hmem, (show Output.index? (.registered index fulfilled rejected) = some index from rfl)⟩
    rw [h.story] at hmem ⊢
    split_ifs at hmem ⊢
    · rw [List.mem_singleton.mp hmem]
    · exact absurd hmem List.not_mem_nil
  complete _ settlement hmem := absurd hmem (h.not_settled settlement)
  later index side value hmem := absurd hmem h.not_called
  numbered := h.numbered
  inOrder := by
    rw [h.calledIndices_eq_nil]
    exact List.Pairwise.nil

/-- What the trace tells of a call of `then()` on a settled promise. -/
theorem Settled.about_registered (h : Settled behaviour arguments settlement early turns state)
    (hheeded : ∀ index, early ≤ index → index < state.thens → Heeded settlement (arguments index))
    {index : ℕ} {fulfilled rejected : Argument}
    (hmem : .registered index fulfilled rejected ∈ state.trace) :
    index < state.thens ∧ arguments index = (fulfilled, rejected) ∧
      about Output.index? index state.trace = .registered index fulfilled rejected ::
        if index < turns ∧ (settlement.handler fulfilled rejected).isFunction = true then
          [.called index settlement.side settlement.value]
        else [] := by
  obtain ⟨hindex, hpair⟩ := h.registered hmem
  have hcalls := @calls_immediateFor settlement (early ≤ index) index (arguments index)
    fun hlate => hheeded index (of_decide_eq_true hlate) hindex
  rw [h.story, if_pos hindex, hcalls, hpair, ite_and]
  exact ⟨hindex, rfl, rfl⟩

theorem Settled.reacts (h : Settled behaviour arguments settlement early turns state)
    (hheeded : ∀ index, early ≤ index → index < state.thens → Heeded settlement (arguments index)) :
    Reacts state where
  settledOnce := by simp [h.settlements]
  keeps other hmem := by
    rw [h.mem_settled.mp hmem]
    exact ⟨h.resolved, h.result, h.err⟩
  reacts index fulfilled rejected hmem := by
    obtain ⟨-, -, habout⟩ := h.about_registered hheeded hmem
    rw [habout]
    split_ifs with hcalled
    · exact Or.inr ⟨settlement, h.mem_settled.mpr rfl, hcalled.2, rfl⟩
    · exact Or.inl rfl
  complete himmediates other hother index fulfilled rejected hmem hfunction := by
    rw [h.mem_settled.mp hother] at hfunction ⊢
    obtain ⟨hindex, -, habout⟩ := h.about_registered hheeded hmem
    have hturns : state.thens ≤ turns := by
      have hlength := congrArg List.length h.immediates
      rw [himmediates, List.length_map, List.length_range', List.length_nil] at hlength
      omega
    rw [if_pos ⟨hindex.trans_le hturns, hfunction⟩] at habout
    refine @mem_of_mem_about _ _ _ Output.index? index _ _ ?_
    rw [habout]
    exact List.mem_cons_of_mem _ List.mem_cons_self
  later index side value hmem := by
    obtain ⟨hregistered, hsettled⟩ := h.later index side value hmem
    exact ⟨⟨_, _, hregistered⟩, settlement, hsettled⟩
  numbered := h.numbered
  inOrder := h.ordered

theorem HeededInvariant.reacts (h : HeededInvariant behaviour state) : Reacts state := by
  obtain ⟨arguments, hpending | ⟨settlement, early, turns, hsettled, hheeded⟩⟩ := h
  · exact hpending.reacts
  · exact hsettled.reacts hheeded

/-- In every run in which no handler is registered with a promise that was rejected for a
falsy reason, the promise settles at most once and the handlers for its settlement are
called, each once, later, and in order. -/
theorem reacts_of_guarded {events : List Event} {final : State}
    (hguarded : Guarded (step behaviour) Allowed {} events)
    (hrun : run (step behaviour) {} events = some final) : Reacts final := by
  have hinvariant : HeededInvariant behaviour final :=
    invariant_of_guarded (HeededInvariant behaviour)
      (fun _ _ _ h hallowed hstep => heededInvariant_step h hallowed hstep)
      ⟨_, Or.inl pending_init⟩ hguarded hrun
  exact hinvariant.reacts

/-- A run with calls of `then()` before and after a rejection. -/
theorem reacts_of_guarded_two : ∃ final,
    run (step ⟨fun _ value => .returns value, fun _ => .null, fun _ => none⟩) {}
      [.then (.function 0) (.function 1), .reject (.primitive true 0), .then .falsy (.function 2),
        .turn, .turn] = some final ∧ Reacts final := by
  refine ⟨_, rfl, ?_⟩
  refine @reacts_of_guarded ⟨fun _ value => .returns value, fun _ => .null, fun _ => none⟩
    [.then (.function 0) (.function 1), .reject (.primitive true 0), .then .falsy (.function 2),
      .turn, .turn] _ ?_ rfl
  simp [Guarded, Allowed, step, State.then, State.reject, Value.truthy]

/-- A handler for fulfilment is called by a promise that was rejected for `undefined`. -/
theorem fulfilled_called_after_reject : ¬ ∀ behaviour events final,
    run (step behaviour) {} events = some final → Reacts final := by
  intro h
  have hreacts := (h ⟨fun _ value => .returns value, fun _ => .null, fun _ => none⟩
    [.reject .undefined, .then (.function 0) (.function 1), .turn] _ rfl).reacts 0 (.function 0)
    (.function 1) (by decide)
  rcases hreacts with hnone | ⟨settlement, hsettled, -, hcalled⟩
  · exact absurd hnone (by decide)
  · obtain rfl : settlement = .rejected .undefined :=
      List.mem_singleton.mp (mem_settlements.mpr hsettled)
    exact absurd hcalled (by decide)

end DatabaseJones.Promise
