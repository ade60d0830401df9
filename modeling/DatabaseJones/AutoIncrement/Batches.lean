import DatabaseJones.AutoIncrement.Assignment

/-!
# Batches get distinct values

As long as every native call returns a value, the operations of a table have received the
values that NDB has given for it, so they are distinct, and no error has to be counted.
-/

namespace DatabaseJones.AutoIncrement

open DatabaseJones.Library
open DatabaseJones.QueuedAsyncCall (Call)

variable {τ : Type} [DecidableEq τ] {state : State τ} {table : τ} {call : Call Request}
  {value : UInt64} {operations : ℕ → List (Operation τ)} {answers : ℕ → List (Answer τ)}

/-! ## Values -/

/-- Every answer is a value, and the values are those that NDB has given. -/
structure Issued (state : State τ) : Prop where
  received : ∀ table, insertIds table state.trace = (state.issued table).map UInt64.toNat
  nodup : ∀ table, (state.issued table).Nodup
  succeeded : ∀ handler index table, .answered handler index table none ∉ state.trace

/-- An output that is no answer. -/
def Output.isAnswer : Output τ → Bool
  | .answered _ _ _ _ => true
  | _ => false

theorem insertIds_append (table : τ) (first second : List (Output τ)) :
    insertIds table (first ++ second) = insertIds table first ++ insertIds table second :=
  List.filterMap_append

theorem insertIds_eq_nil {outputs : List (Output τ)} (h : ∀ output ∈ outputs, output.isAnswer = false)
    (table : τ) : insertIds table outputs = [] := by
  rw [insertIds, List.filterMap_eq_nil_iff]
  intro output hmem
  have hanswer := h output hmem
  cases output with
  | answered _ _ _ _ => exact nomatch hanswer
  | _ => rfl

theorem issued_init : Issued ({} : State τ) where
  received _ := rfl
  nodup _ := List.nodup_nil
  succeeded _ _ _ := List.not_mem_nil

/-- Outputs that are no answers. -/
theorem Issued.append (h : Issued state) {after : State τ} {outputs : List (Output τ)}
    (hissued : after.issued = state.issued) (htrace : after.trace = state.trace ++ outputs)
    (houtputs : ∀ output ∈ outputs, output.isAnswer = false) : Issued after where
  received table := by
    rw [htrace, insertIds_append, insertIds_eq_nil houtputs, List.append_nil, hissued]
    exact h.received table
  nodup table := by
    rw [hissued]
    exact h.nodup table
  succeeded handler index table hmem := by
    rw [htrace, List.mem_append] at hmem
    rcases hmem with hmem | hmem
    · exact h.succeeded handler index table hmem
    · exact nomatch houtputs _ hmem

theorem Issued.prefetch (h : Issued state) (table : τ) : Issued (state.prefetch table) :=
  h.append rfl rfl (fun _ hmem => List.mem_singleton.mp hmem ▸ rfl)

theorem Issued.getValue (h : Issued state) (hsized : Sized state) (handler : ℕ) (op : ℕ × τ) :
    Issued (state.getValue handler op) := by
  obtain ⟨index, table⟩ := op
  obtain ⟨queue, call, -, -, -, hafter⟩ := getValue_spec (hsized.atRest table) handler index
  rw [hafter]
  refine h.append rfl rfl ?_
  split_ifs <;> simp [Output.isAnswer]

theorem Issued.prefetchAll (h : Issued state) (opList : List (ℕ × τ)) :
    Issued (opList.foldl (fun state op => state.prefetch op.2) state) := by
  induction opList generalizing state with
  | nil => exact h
  | cons op rest ih => exact ih (h.prefetch op.2)

theorem Issued.getAll (h : Issued state) (hsized : Sized state) (opList : List (ℕ × τ))
    (handler : ℕ) : Issued (opList.foldl (fun state op => state.getValue handler op) state) := by
  induction opList generalizing state with
  | nil => exact h
  | cons op rest ih => exact ih (h.getValue hsized handler op) (hsized.getValue handler op)

theorem Issued.execute (h : Issued state) (hsized : Sized state) (ops : List (Operation τ)) :
    Issued (state.execute ops) := by
  have hnew : Issued (state.newHandler ops) :=
    (h.prefetchAll (autoincOpList ops)).append rfl rfl
      (fun _ hmem => List.mem_singleton.mp hmem ▸ rfl)
  rw [State.execute]
  split_ifs
  · exact hnew.getAll (hsized.newHandler ops) _ _
  · exact hnew.append rfl rfl (fun _ hmem => List.mem_singleton.mp hmem ▸ rfl)

theorem Issued.complete (h : Issued state) (hsized : Sized state) {after : State τ}
    (hallowed : Allowed state (.complete table call value))
    (hstep : step state (.complete table call value) = some after) : Issued after := by
  obtain ⟨hvalue, hexact⟩ := hallowed
  obtain ⟨rest, returned, -, -, -, hfresh, hafter⟩ :=
    step_complete_spec (hsized.atRest table) hstep
  have hpos : toJS value > 0 := by
    rw [hexact]
    exact Nat.pos_of_ne_zero fun hzero => hvalue (UInt64.toNat_inj.mp hzero)
  have hsent : ∀ output ∈ rest.head?.toList.map fun next => Output.sent table next.data,
      output.isAnswer = false := by
    intro output hmem
    obtain ⟨next, -, rfl⟩ := List.mem_map.mp hmem
    rfl
  have hfinal : ∀ output ∈ (if (state.handlers call.data.handler).valuesNeeded - 1 = 0 then
      [.final call.data.handler (state.handlers call.data.handler).errors] else [] :
      List (Output τ)), output.isAnswer = false := by
    split_ifs <;> simp [Output.isAnswer]
  have htrace : after.trace = (state.trace ++ rest.head?.toList.map fun next =>
      Output.sent table next.data) ++ ([.answered call.data.handler call.data.index table
        (some value.toNat)] ++ if (state.handlers call.data.handler).valuesNeeded - 1 = 0 then
      [Output.final call.data.handler (state.handlers call.data.handler).errors] else []) := by
    rw [hafter, ← hexact]
    simp only [State.operationCallback, if_pos hpos]
    rfl
  have hissued : after.issued = Function.update state.issued table (state.issued table ++ [value]) := by
    rw [hafter]
    rfl
  refine ⟨?_, ?_, ?_⟩
  · intro other
    rw [htrace, insertIds_append, insertIds_append, insertIds_append, insertIds_eq_nil hsent,
      insertIds_eq_nil hfinal, List.append_nil, List.append_nil, h.received, hissued]
    by_cases heq : other = table
    · rw [heq, Function.update_self, List.map_append]
      simp [insertIds, Output.insertId?]
    · rw [Function.update_of_ne heq]
      simp [insertIds, Output.insertId?, Ne.symm heq]
  · intro other
    rw [hissued]
    by_cases heq : other = table
    · rw [heq, Function.update_self, ← List.concat_eq_append]
      exact (h.nodup table).concat (hfresh hvalue)
    · rw [Function.update_of_ne heq]
      exact h.nodup other
  · intro handler index other hmem
    rw [htrace, List.mem_append, List.mem_append, List.mem_append] at hmem
    rcases hmem with (hmem | hmem) | hmem | hmem
    · exact h.succeeded handler index other hmem
    · exact nomatch hsent _ hmem
    · simp at hmem
    · exact nomatch hfinal _ hmem

/-! ## Runs -/

/-- What holds in every state of a run in which every native call returns a value. -/
def Invariant (state : State τ) : Prop :=
  Sized state ∧ Issued state ∧
    ∃ operations answers, Balanced operations answers (fun _ => []) state

theorem invariant_init : Invariant ({} : State τ) :=
  ⟨sized_init, issued_init, _, _, balanced_init⟩

theorem invariant_step {event : Event τ} {after : State τ} (h : Invariant state)
    (hallowed : Allowed state event) (hstep : step state event = some after) : Invariant after := by
  obtain ⟨hsized, hissued, operations, answers, hbalanced⟩ := h
  cases event with
  | execute ops =>
      rw [← Option.some.inj hstep]
      obtain ⟨hsized', hbalanced'⟩ := hbalanced.execute hsized ops
      exact ⟨hsized', hissued.execute hsized ops, _, _, hbalanced'⟩
  | complete table call value =>
      exact ⟨hsized.complete hstep, hissued.complete hsized hallowed hstep, _, _,
        hbalanced.complete hsized hstep⟩

/-- A handler whose requests have all been answered has got all its answers. -/
theorem Balanced.length_eq (h : Balanced operations answers (fun _ => []) state)
    (hsized : Sized state) (hidle : ∀ table, (state.caches table).execQueue.running = [])
    (handler : ℕ) :
    (answers handler).length = (state.handlers handler).autoincOpList.length := by
  have hperm : ((answers handler).map Answer.op).Perm (state.handlers handler).autoincOpList := by
    rw [List.perm_iff_count]
    rintro ⟨index, table⟩
    have hempty : (state.caches table).execQueue.queue = [] := by
      have hrunning := (hsized.atRest table).running
      rw [hidle table] at hrunning
      cases hqueue : (state.caches table).execQueue.queue with
      | nil => rfl
      | cons first rest =>
          rw [hqueue] at hrunning
          exact nomatch hrunning
    rw [h.balance, requested, hempty]
    simp
  rw [← hperm.length_eq, List.length_map]

theorem Invariant.assigns (h : Invariant state) : Assigns state := by
  obtain ⟨hsized, hissued, operations, answers, hbalanced⟩ := h
  refine ⟨?_, ?_, hsized.sizes, hsized.sent⟩
  · intro handler ops hmem hnonempty
    have habout := mem_about_iff.mpr
      ⟨hmem, (show Output.handler? (.batch handler ops) = some handler from rfl)⟩
    have htold := hbalanced.told handler
    rw [htold] at habout
    have hlt : handler < state.count := by
      by_contra hge
      rw [if_neg hge] at habout
      exact absurd habout List.not_mem_nil
    rw [if_pos hlt] at htold habout
    have hops : ops = operations handler := by
      rw [List.mem_append, List.mem_cons, closing] at habout
      rcases habout with (heq | hanswer) | hclosing
      · injection heq
      · obtain ⟨answer, -, heq⟩ := List.mem_map.mp hanswer
        cases heq
      · split_ifs at hclosing <;> simp at hclosing
    have hopList := hbalanced.opList handler
    rw [if_pos hlt, ← hops] at hopList
    refine ⟨answers handler, ?_, ?_, fun hidle => ?_⟩
    · have hcount : ((answers handler).countP fun answer => answer.insertId.isNone) = 0 := by
        rw [List.countP_eq_zero]
        intro answer hanswer hnone
        refine hissued.succeeded handler answer.index answer.table ?_
        have hinsertId : answer.insertId = none := Option.isNone_iff_eq_none.mp hnone
        refine @mem_of_mem_about _ _ _ Output.handler? handler _ _ ?_
        rw [htold, ← hinsertId]
        exact List.mem_append_left _ (List.mem_cons_of_mem _ (List.mem_map_of_mem hanswer))
      rw [htold, story, hcount, ← hops, closing, if_neg hnonempty]
    · rw [← hopList]
      exact hbalanced.subperm handler
    · rw [← hopList]
      exact hbalanced.length_eq hsized hidle handler
  · intro table
    rw [hissued.received]
    exact (hissued.nodup table).map fun _ _ heq => UInt64.toNat_inj.mp heq

/-- In every run in which every native call returns a value, every operation gets one value
and no other operation of its table the same, and the final callback is called when all have
got theirs. -/
theorem assigns_of_guarded {events : List (Event τ)} {final : State τ}
    (hguarded : Guarded step Allowed {} events) (hrun : run step {} events = some final) :
    Assigns final :=
  Invariant.assigns (invariant_of_guarded Invariant
    (fun _ _ _ h hallowed hstep => invariant_step h hallowed hstep) invariant_init hguarded hrun)

/-- A batch with two operations of one table and one of another. -/
theorem assigns_of_guarded_two : ∃ final,
    run step ({} : State Bool)
      [.execute [⟨true, some 0, true⟩, ⟨false, some 1, true⟩, ⟨true, some 0, true⟩],
        .complete true ⟨1, ⟨0, 0, 3⟩⟩ 7, .complete false ⟨1, ⟨0, 1, 2⟩⟩ 7,
        .complete true ⟨2, ⟨0, 2, 2⟩⟩ 8] = some final ∧ Assigns final :=
  ⟨_, rfl, @assigns_of_guarded Bool _
    [.execute [⟨true, some 0, true⟩, ⟨false, some 1, true⟩, ⟨true, some 0, true⟩],
      .complete true ⟨1, ⟨0, 0, 3⟩⟩ 7, .complete false ⟨1, ⟨0, 1, 2⟩⟩ 7,
      .complete true ⟨2, ⟨0, 2, 2⟩⟩ 8] _ (by decide) rfl⟩

/-- A native call fails, and the final callback is called with no errors. -/
theorem no_errors_counted : ¬ ∀ events (final : State Unit),
    run step {} events = some final → Assigns final := by
  intro h
  obtain ⟨final, hrun, htrace⟩ : ∃ final : State Unit,
      run step {} [.execute [⟨(), some 0, true⟩], .complete () ⟨1, ⟨0, 0, 2⟩⟩ 0] = some final ∧
      final.trace = [.prefetched (), .batch 0 [⟨(), some 0, true⟩], .getValue () ⟨0, 0, 2⟩,
        .sent () ⟨0, 0, 2⟩, .answered 0 0 () none, .final 0 0] := ⟨_, rfl, rfl⟩
  obtain ⟨answers, habout, -, -⟩ :=
    (h _ final hrun).stories 0 [⟨(), some 0, true⟩] (by simp [htrace]) (by decide)
  rw [htrace] at habout
  have hrest := (List.cons.inj habout).2
  cases answers with
  | nil => cases hrest
  | cons answer rest =>
      obtain ⟨hanswer, hrest⟩ := List.cons.inj hrest
      cases rest with
      | nil =>
          have hnone : none = answer.insertId := by injection hanswer
          simp [← hnone, autoincOpList, Output.handler?] at hrest
      | cons other rest =>
          have hother := (List.cons.inj hrest).1
          cases hother

end DatabaseJones.AutoIncrement
