import DatabaseJones.Promise.Reactions

/-!
# Registration before and after the settlement

The promise that `then()` returns should not depend on whether `then()` was called before
the settlement or after it.  It does not exactly if the arguments of `then()` and the value
are `Regular`.
-/

namespace DatabaseJones.Promise

open DatabaseJones.Library

variable {behaviour : Behaviour} {arguments : ℕ → Argument × Argument} {settlement : Settlement}
  {early turns : ℕ} {state : State} {fulfilled rejected : Argument}

/-! ## Indifference -/

/-- The side of a settlement that a callback is for. -/
def Callback.side : Callback → Side
  | .fulfilledCallback _ => .fulfilled
  | .rejectedCallback _ => .rejected
  | .emptyFulfilledCallback => .fulfilled
  | .emptyRejectedCallback => .rejected

/-- Whether `then()` was called before the settlement, in one run, or after it, in another:
the promise it returns reaches the same final state, and the settlement is treated as what
it is. -/
structure Indifferent (settlement : Settlement) (fulfilled rejected : Argument) : Prop where
  same : ∀ behaviour events events' state state' index index',
    run (step behaviour) {} events = some state → run (step behaviour) {} events' = some state' →
    List.Sublist [.registered index fulfilled rejected, .settled settlement] state.trace →
    List.Sublist [.settled settlement, .registered index' fulfilled rejected] state'.trace →
    state.immediates = [] → state'.immediates = [] →
    ∃ resolution resolution', state.newPromises index = some resolution ∧
      state'.newPromises index' = some resolution' ∧
      resolution.final behaviour = resolution'.final behaviour
  treated : ∀ behaviour events state index, run (step behaviour) {} events = some state →
    .settled settlement ∈ state.trace → .registered index fulfilled rejected ∈ state.trace →
    ∀ immediate ∈ state.immediates, immediate.index = index →
      immediate.callback.side = settlement.side

/-- A value that the Promise Resolution Procedure takes as it is. -/
def Value.isPlain : Value → Bool
  | .undefined => true
  | .primitive _ _ => true
  | .object _ => true
  | _ => false

/-- The argument of `then()` for the settlement is a function, or it is falsy and the value
is plain; and a reason is truthy. -/
def Regular (settlement : Settlement) (fulfilled rejected : Argument) : Prop :=
  match settlement with
  | .fulfilled value => fulfilled.isFunction = true ∨ fulfilled = .falsy ∧ value.isPlain = true
  | .rejected reason =>
      reason.truthy = true ∧ (rejected.isFunction = true ∨ rejected = .falsy)

/-! ## What becomes of the returned promise -/

/-- The resolution of the promise returned by a call of `then()` before or after the
settlement. -/
def resolutionFor (behaviour : Behaviour) (settlement : Settlement) (isLate : Bool)
    (fulfilled rejected : Argument) : Resolution :=
  thenPromiseFulfilledOrRejected behaviour (immediateFor settlement isLate 0 (fulfilled, rejected))

/-- The number of the call of `then()` does not matter. -/
theorem thenPromise_immediateFor (behaviour : Behaviour) (settlement : Settlement) (isLate : Bool)
    (index : ℕ) (fulfilled rejected : Argument) :
    thenPromiseFulfilledOrRejected behaviour
        (immediateFor settlement isLate index (fulfilled, rejected)) =
      resolutionFor behaviour settlement isLate fulfilled rejected := by
  unfold resolutionFor immediateFor
  split_ifs
  · rfl
  · rfl
  · cases settlement with
    | fulfilled value => cases fulfilled <;> rfl
    | rejected reason => cases rejected <;> rfl

theorem resolutionFor_fulfilled_late (value : Value) :
    resolutionFor behaviour (.fulfilled value) true fulfilled rejected =
      callArgument behaviour fulfilled value false := rfl

theorem resolutionFor_rejected_late {reason : Value} (h : reason.truthy = true) :
    resolutionFor behaviour (.rejected reason) true fulfilled rejected =
      callArgument behaviour rejected reason true := by
  have himmediate : immediateFor (.rejected reason) true 0 (fulfilled, rejected) =
      if reason.truthy then ⟨0, .rejectedCallback rejected, reason, true⟩
      else ⟨0, .fulfilledCallback fulfilled, .undefined, false⟩ := rfl
  rw [resolutionFor, himmediate, if_pos h]
  rfl

theorem resolutionFor_fulfilled_early (value : Value) :
    resolutionFor behaviour (.fulfilled value) false fulfilled rejected =
      if fulfilled.isFunction then callArgument behaviour fulfilled value false
      else resolve behaviour value := by
  cases fulfilled <;> rfl

theorem resolutionFor_rejected_early (reason : Value) :
    resolutionFor behaviour (.rejected reason) false fulfilled rejected =
      if rejected.isFunction then callArgument behaviour rejected reason false
      else .rejected reason := by
  cases rejected <;> rfl

theorem resolve_of_isPlain {value : Value} (h : value.isPlain = true) :
    resolve behaviour value = .fulfilled value := by
  cases value with
  | undefined => rfl
  | primitive _ _ => rfl
  | object _ => rfl
  | _ => exact nomatch h

/-- For regular arguments it does not matter when `then()` was called. -/
theorem Regular.resolutionFor_eq (h : Regular settlement fulfilled rejected)
    (behaviour : Behaviour) :
    resolutionFor behaviour settlement false fulfilled rejected =
      resolutionFor behaviour settlement true fulfilled rejected := by
  cases settlement with
  | fulfilled value =>
      rw [resolutionFor_fulfilled_early, resolutionFor_fulfilled_late]
      rcases h with hfunction | ⟨rfl, hplain⟩
      · rw [if_pos hfunction]
      · exact resolve_of_isPlain hplain
  | rejected reason =>
      obtain ⟨htruthy, hfunction | rfl⟩ := h
      · rw [resolutionFor_rejected_early, resolutionFor_rejected_late htruthy, if_pos hfunction]
        cases rejected with
        | function _ => rfl
        | _ => exact nomatch hfunction
      · rw [resolutionFor_rejected_early, resolutionFor_rejected_late htruthy]
        rfl

/-- Functions of the user of which each returns the same value. -/
def Behaviour.returning (value : Value) : Behaviour :=
  ⟨fun _ _ => .returns value, fun _ => .undefined, fun _ => none⟩

/-- A truthy argument that is no function fails, or does what its method `call` does. -/
theorem exists_final_ne_truthy (call : Option ℕ) (value result : Value) (isRejected : Bool) :
    ∃ behaviour, (resolve behaviour value).final behaviour ≠
      (callArgument behaviour (.truthy call) result isRejected).final behaviour := by
  cases call with
  | none => exact ⟨.returning .undefined, by cases value <;> exact nofun⟩
  | some name =>
      by_cases hvalue : value = .null
      · refine ⟨.returning .undefined, ?_⟩
        rw [hvalue]
        exact nofun
      · refine ⟨.returning .null, ?_⟩
        cases value with
        | null => exact absurd rfl hvalue
        | _ => exact nofun

/-- For other arguments there are functions of the user with which it matters. -/
theorem exists_final_ne (hrejected : ∀ reason, settlement = .rejected reason → reason.truthy = true)
    (h : ¬ Regular settlement fulfilled rejected) : ∃ behaviour,
    (resolutionFor behaviour settlement false fulfilled rejected).final behaviour ≠
      (resolutionFor behaviour settlement true fulfilled rejected).final behaviour := by
  cases settlement with
  | fulfilled value =>
      simp only [resolutionFor_fulfilled_early, resolutionFor_fulfilled_late]
      cases fulfilled with
      | function _ => exact absurd (Or.inl rfl) h
      | falsy =>
          refine ⟨.returning .undefined, ?_⟩
          cases value with
          | null => exact nofun
          | self => exact nofun
          | throwing _ => exact nofun
          | thenable _ => exact nofun
          | _ => exact absurd (Or.inr ⟨rfl, rfl⟩) h
      | truthy call => exact exists_final_ne_truthy call value value false
  | rejected reason =>
      have htruthy := hrejected reason rfl
      simp only [resolutionFor_rejected_early, resolutionFor_rejected_late htruthy]
      cases rejected with
      | function _ => exact absurd ⟨htruthy, Or.inl rfl⟩ h
      | falsy => exact absurd ⟨htruthy, Or.inr rfl⟩ h
      | truthy call =>
          refine ⟨.returning .null, ?_⟩
          cases call <;> exact nofun

/-! ## The returned promise in a run -/

theorem settled_of_run {events : List Event} (hrun : run (step behaviour) {} events = some state)
    (hmem : .settled settlement ∈ state.trace) :
    ∃ arguments early turns, Settled behaviour arguments settlement early turns state := by
  obtain ⟨arguments, hpending | ⟨other, early, turns, hsettled⟩⟩ := invariant_of_run_step hrun
  · exact absurd hmem (hpending.not_settled settlement)
  · rw [hsettled.mem_settled.mp hmem]
    exact ⟨arguments, early, turns, hsettled⟩

/-- In a trace with one occurrence of an element, what precedes it is before the occurrence. -/
theorem mem_of_sublist_append {α : Type} {before after : List α} {first middle : α}
    (hafter : middle ∉ after)
    (h : List.Sublist [first, middle] (before ++ middle :: after)) : first ∈ before := by
  obtain ⟨left, right, heq, hleft, hright⟩ := List.sublist_append_iff.mp h
  rcases left with _ | ⟨head, tail⟩
  · obtain rfl : right = [first, middle] := heq.symm
    rcases List.sublist_cons_iff.mp hright with hright | ⟨rest, hrest, hright⟩
    · exact absurd (hright.subset (by simp)) hafter
    · obtain rfl : rest = [middle] := (List.cons.inj hrest).2.symm
      exact absurd (hright.subset (by simp)) hafter
  · obtain rfl := (List.cons.inj heq).1
    exact hleft.subset List.mem_cons_self

/-- What follows a single occurrence of an element is after the occurrence. -/
theorem mem_of_append_sublist {α : Type} {before after : List α} {middle last : α}
    (hbefore : middle ∉ before) (h : List.Sublist [middle, last] (before ++ middle :: after)) :
    last ∈ after := by
  obtain ⟨left, right, heq, hleft, hright⟩ := List.sublist_append_iff.mp h
  rcases left with _ | ⟨head, tail⟩
  · obtain rfl : right = [middle, last] := heq.symm
    rcases List.sublist_cons_iff.mp hright with hright | ⟨rest, hrest, hright⟩
    · exact hright.subset (by simp)
    · obtain rfl : rest = [last] := (List.cons.inj hrest).2.symm
      exact hright.subset (by simp)
  · obtain rfl := (List.cons.inj heq).1
    exact absurd (hleft.subset List.mem_cons_self) hbefore

theorem settlements_cons_settled (settlement : Settlement) (trace : List Output) :
    settlements (.settled settlement :: trace) = settlement :: settlements trace := rfl

theorem registeredIndices_cons_settled (settlement : Settlement) (trace : List Output) :
    registeredIndices (.settled settlement :: trace) = registeredIndices trace := rfl

/-- The trace is cut at its only settlement, and the calls of `then()` with it. -/
theorem Settled.exists_split (h : Settled behaviour arguments settlement early turns state) :
    ∃ before after, state.trace = before ++ .settled settlement :: after ∧
      .settled settlement ∉ before ∧ .settled settlement ∉ after ∧
      registeredIndices before = List.range early ∧
      registeredIndices after = List.range' early (state.thens - early) := by
  obtain ⟨before, after, htrace, hbefore⟩ := h.settledAfter
  have hlength := congrArg List.length h.settlements
  rw [htrace, settlements_append, settlements_cons_settled, List.length_append, List.length_cons,
    List.length_singleton] at hlength
  have hempty : Promise.settlements before = [] ∧ Promise.settlements after = [] :=
    ⟨List.eq_nil_of_length_eq_zero (by omega), List.eq_nil_of_length_eq_zero (by omega)⟩
  have hnumbered := h.numbered
  rw [htrace, registeredIndices_append, hbefore, registeredIndices_cons_settled,
    List.range_eq_range', List.range_eq_range'] at hnumbered
  refine ⟨before, after, htrace, ?_, ?_, hbefore, ?_⟩
  · rw [← mem_settlements, hempty.1]
    exact List.not_mem_nil
  · rw [← mem_settlements, hempty.2]
    exact List.not_mem_nil
  · have hsplit : List.range' 0 state.thens =
        List.range' 0 early ++ List.range' early (state.thens - early) := by
      have hthens : state.thens = early + (state.thens - early) := by
        have := h.early_le
        omega
      conv_lhs => rw [hthens, ← List.range'_append]
      rw [Nat.one_mul, Nat.zero_add]
    exact List.append_cancel_left (hnumbered.trans hsplit)

theorem mem_registeredIndices {trace : List Output} {index : ℕ}
    (h : .registered index fulfilled rejected ∈ trace) : index ∈ registeredIndices trace :=
  List.mem_filterMap.mpr ⟨_, h, rfl⟩

theorem Settled.lt_early (h : Settled behaviour arguments settlement early turns state) {index : ℕ}
    (hsublist : List.Sublist [.registered index fulfilled rejected, .settled settlement]
      state.trace) : index < early := by
  obtain ⟨before, after, htrace, -, hafter, hbefore, -⟩ := h.exists_split
  rw [htrace] at hsublist
  have hmem := mem_registeredIndices (mem_of_sublist_append hafter hsublist)
  rw [hbefore] at hmem
  exact List.mem_range.mp hmem

theorem Settled.early_le_of_sublist (h : Settled behaviour arguments settlement early turns state)
    {index : ℕ} (hsublist : List.Sublist [.settled settlement, .registered index fulfilled rejected]
      state.trace) : early ≤ index := by
  obtain ⟨before, after, htrace, hbefore, -, -, hafter⟩ := h.exists_split
  rw [htrace] at hsublist
  have hmem := mem_registeredIndices (mem_of_append_sublist hbefore hsublist)
  rw [hafter] at hmem
  exact (List.mem_range'_1.mp hmem).1

/-- Once nothing waits any more, the returned promise has got its resolution. -/
theorem Settled.newPromises_eq (h : Settled behaviour arguments settlement early turns state)
    {index : ℕ} (hmem : .registered index fulfilled rejected ∈ state.trace)
    (himmediates : state.immediates = []) : state.newPromises index =
      some (resolutionFor behaviour settlement (early ≤ index) fulfilled rejected) := by
  obtain ⟨hindex, hpair⟩ := h.registered hmem
  have hturns : state.thens ≤ turns := by
    have hlength := congrArg List.length h.immediates
    rw [himmediates, List.length_map, List.length_range', List.length_nil] at hlength
    omega
  rw [h.newPromises, if_pos (hindex.trans_le hturns), hpair, thenPromise_immediateFor]

theorem newPromises_of_early {events : List Event} {index : ℕ}
    (hrun : run (step behaviour) {} events = some state)
    (hsublist : List.Sublist [.registered index fulfilled rejected, .settled settlement]
      state.trace) (himmediates : state.immediates = []) : state.newPromises index =
      some (resolutionFor behaviour settlement false fulfilled rejected) := by
  have hregistered : .registered index fulfilled rejected ∈ state.trace := hsublist.subset (by simp)
  have hsettled : .settled settlement ∈ state.trace := hsublist.subset (by simp)
  obtain ⟨arguments, early, turns, h⟩ := settled_of_run hrun hsettled
  rw [h.newPromises_eq hregistered himmediates, decide_eq_false (Nat.not_le_of_lt (h.lt_early hsublist))]

theorem newPromises_of_late {events : List Event} {index : ℕ}
    (hrun : run (step behaviour) {} events = some state)
    (hsublist : List.Sublist [.settled settlement, .registered index fulfilled rejected]
      state.trace) (himmediates : state.immediates = []) : state.newPromises index =
      some (resolutionFor behaviour settlement true fulfilled rejected) := by
  have hregistered : .registered index fulfilled rejected ∈ state.trace := hsublist.subset (by simp)
  have hsettled : .settled settlement ∈ state.trace := hsublist.subset (by simp)
  obtain ⟨arguments, early, turns, h⟩ := settled_of_run hrun hsettled
  rw [h.newPromises_eq hregistered himmediates, decide_eq_true (h.early_le_of_sublist hsublist)]

/-! ## Exactly the regular arguments -/

/-- The function that waits is for the side of the settlement, unless the reason is falsy. -/
theorem side_immediateFor (hrejected : ∀ reason, settlement = .rejected reason → reason.truthy = true)
    (isLate : Bool) (index : ℕ) (pair : Argument × Argument) :
    (immediateFor settlement isLate index pair).callback.side = settlement.side := by
  obtain ⟨fulfilled, rejected⟩ := pair
  cases isLate with
  | false =>
      cases settlement with
      | fulfilled _ => cases fulfilled <;> rfl
      | rejected _ => cases rejected <;> rfl
  | true =>
      cases settlement with
      | fulfilled _ => rfl
      | rejected reason =>
          have himmediate : immediateFor (.rejected reason) true index (fulfilled, rejected) =
              if reason.truthy then ⟨index, .rejectedCallback rejected, reason, true⟩
              else ⟨index, .fulfilledCallback fulfilled, .undefined, false⟩ := rfl
          rw [himmediate, if_pos (hrejected reason rfl)]
          rfl

theorem Regular.indifferent (h : Regular settlement fulfilled rejected) :
    Indifferent settlement fulfilled rejected := by
  refine ⟨?_, ?_⟩
  · intro behaviour events events' state state' index index' hrun hrun' hearly hlate hdone hdone'
    refine ⟨_, _, newPromises_of_early hrun hearly hdone, newPromises_of_late hrun' hlate hdone', ?_⟩
    rw [h.resolutionFor_eq]
  · intro behaviour events state index hrun hsettled hregistered immediate himmediate hindex
    obtain ⟨arguments, early, turns, hstate⟩ := settled_of_run hrun hsettled
    rw [hstate.immediates] at himmediate
    obtain ⟨other, -, rfl⟩ := List.mem_map.mp himmediate
    refine side_immediateFor ?_ _ _ _
    rintro reason rfl
    exact h.1

/-- The call that settles a promise. -/
def Settlement.event : Settlement → Event
  | .fulfilled value => .fulfill value
  | .rejected reason => .reject reason

theorem Indifferent.truthy {reason : Value} (h : Indifferent (.rejected reason) fulfilled rejected) :
    reason.truthy = true := by
  by_contra hfalsy
  have htrace : ((({} : State).reject reason).then fulfilled rejected).trace =
      [.settled (.rejected reason), .registered 0 fulfilled rejected] := rfl
  have himmediates : ((({} : State).reject reason).then fulfilled rejected).immediates =
      [⟨0, .fulfilledCallback fulfilled, .undefined, false⟩] := by
    have hdelayed : (({} : State).reject reason).delayed fulfilled rejected =
        if reason.truthy then ⟨0, .rejectedCallback rejected, reason, true⟩
        else ⟨0, .fulfilledCallback fulfilled, .undefined, false⟩ := rfl
    rw [if_neg hfalsy] at hdelayed
    rw [← hdelayed]
    rfl
  have hside := h.treated (.returning .undefined) [.reject reason, .then fulfilled rejected]
    ((({} : State).reject reason).then fulfilled rejected) 0 rfl (by simp [htrace]) (by simp [htrace])
    ⟨0, .fulfilledCallback fulfilled, .undefined, false⟩ (by simp [himmediates]) rfl
  exact nomatch hside

/-- A run in which `then()` is called, the promise is settled, and the callback has its turn. -/
theorem exists_run_early (behaviour : Behaviour) (settlement : Settlement)
    (fulfilled rejected : Argument) : ∃ state,
    run (step behaviour) {} [.then fulfilled rejected, settlement.event, .turn] = some state ∧
      List.Sublist [.registered 0 fulfilled rejected, .settled settlement] state.trace ∧
      state.immediates = [] := by
  cases settlement with
  | fulfilled value => exact ⟨_, rfl, List.sublist_append_left [_, _] _, rfl⟩
  | rejected reason => exact ⟨_, rfl, List.sublist_append_left [_, _] _, rfl⟩

/-- A run in which the promise is settled, `then()` is called, and the callback has its turn. -/
theorem exists_run_late (behaviour : Behaviour) (settlement : Settlement)
    (fulfilled rejected : Argument) : ∃ state,
    run (step behaviour) {} [settlement.event, .then fulfilled rejected, .turn] = some state ∧
      List.Sublist [.settled settlement, .registered 0 fulfilled rejected] state.trace ∧
      state.immediates = [] := by
  cases settlement with
  | fulfilled value => exact ⟨_, rfl, List.sublist_append_left [_, _] _, rfl⟩
  | rejected reason => exact ⟨_, rfl, List.sublist_append_left [_, _] _, rfl⟩

theorem Indifferent.regular (h : Indifferent settlement fulfilled rejected) :
    Regular settlement fulfilled rejected := by
  have htruthy : ∀ reason, settlement = .rejected reason → reason.truthy = true := by
    rintro reason rfl
    exact h.truthy
  by_contra hregular
  obtain ⟨behaviour, hne⟩ := exists_final_ne htruthy hregular
  obtain ⟨state, hrun, hearly, hdone⟩ := exists_run_early behaviour settlement fulfilled rejected
  obtain ⟨state', hrun', hlate, hdone'⟩ := exists_run_late behaviour settlement fulfilled rejected
  obtain ⟨resolution, resolution', hnew, hnew', hfinal⟩ :=
    h.same behaviour _ _ state state' 0 0 hrun hrun' hearly hlate hdone hdone'
  rw [newPromises_of_early hrun hearly hdone] at hnew
  rw [newPromises_of_late hrun' hlate hdone'] at hnew'
  rw [← Option.some.inj hnew, ← Option.some.inj hnew'] at hfinal
  exact hne hfinal

/-- The promise that `then()` returns does not depend on when it was called exactly for
regular arguments. -/
theorem indifferent_iff (settlement : Settlement) (fulfilled rejected : Argument) :
    Indifferent settlement fulfilled rejected ↔ Regular settlement fulfilled rejected :=
  ⟨Indifferent.regular, Regular.indifferent⟩

/-- A promise that was rejected for `undefined` is treated as fulfilled. -/
theorem not_indifferent_undefined :
    ¬ ∀ settlement fulfilled rejected, Indifferent settlement fulfilled rejected := by
  intro h
  exact absurd (h (.rejected .undefined) (.function 0) (.function 1)).truthy (by decide)

end DatabaseJones.Promise
