import DatabaseJones.DictionaryCall.Groups
import DatabaseJones.QueuedAsyncCall.Effects

/-!
# Every callback is called once

The group of a key is the call that has been requested and whose group callback has not
returned.  Every callback has one place in one list, and has been called if the loop over
that list has passed its place.
-/

namespace DatabaseJones.DictionaryCall

open DatabaseJones.Library
open DatabaseJones.QueuedAsyncCall (Call Callbacks Kept enqueuedCalls mainCallbacks mainFrames)

variable {κ ρ : Type}

theorem distributedCalls_append (first second : List (Output κ ρ)) :
    distributedCalls (first ++ second) = distributedCalls first ++ distributedCalls second :=
  List.filterMap_append

variable [DecidableEq κ]

/-! ## Invariants -/

/-- The calls that have been requested, and the groups that wait for them. -/
structure Grouped (state : State κ ρ) : Prop where
  kept : Kept queueCallbacks state.queue
  frames : ∀ entry ∈ mainFrames state.queue.stack, entry ∈ mainCallbacks state.queue.trace
  begun : List.Perm
    ((mainFrames state.queue.stack).map Prod.fst ++ distributedCalls state.trace)
    ((mainCallbacks state.queue.trace).map Prod.fst)
  completed : ∀ call result, .completed call result ∈ state.trace ↔
    .completed call result ∈ state.queue.trace
  group : ∀ key call, state.callbacks key = some call ↔
    call.data = key ∧ call ∈ enqueuedCalls state.queue.trace ∧ call ∉ distributedCalls state.trace
  nonempty : ∀ call ∈ enqueuedCalls state.queue.trace, state.lists call ≠ []
  unborn : ∀ call, call ∉ enqueuedCalls state.queue.trace → state.lists call = []
  bounded : ∀ call, state.index call ≤ (state.lists call).length
  unbegun : ∀ call, call ∉ (mainCallbacks state.queue.trace).map Prod.fst → state.index call = 0
  finished : ∀ call ∈ distributedCalls state.trace, state.index call = (state.lists call).length

/-- The callbacks in the lists, and what has been observed of them. -/
structure Listed (state : State κ ρ) : Prop where
  located : ∀ user < state.users, ∃ call, ∃ i : ℕ, (state.lists call)[i]? = some user
  below : ∀ call (i user : ℕ), (state.lists call)[i]? = some user → user < state.users
  once : ∀ call (i : ℕ) call' (i' user : ℕ), (state.lists call)[i]? = some user →
    (state.lists call')[i']? = some user → call = call' ∧ i = i'
  unknown : ∀ user, state.users ≤ user → about Output.user? user state.trace = []
  waits : ∀ call (i user : ℕ), (state.lists call)[i]? = some user → state.index call ≤ i →
    about Output.user? user state.trace = [.added call.data user]
  called : ∀ call (i user : ℕ), (state.lists call)[i]? = some user → i < state.index call →
    ∃ result, (call, result) ∈ mainCallbacks state.queue.trace ∧
      about Output.user? user state.trace = [.added call.data user, .called user call result]
  early : ∀ call (i user : ℕ), (state.lists call)[i]? = some user →
    ¬ List.Sublist [.distributed call, .added call.data user] state.trace

variable {state : State κ ρ}

theorem Grouped.mem_begun (h : Grouped state) {call : Call κ}
    (hmem : call ∈ distributedCalls state.trace) :
    ∃ result, (call, result) ∈ mainCallbacks state.queue.trace := by
  obtain ⟨⟨_, result⟩, hentry, rfl⟩ :=
    List.mem_map.mp (h.begun.mem_iff.mp (List.mem_append_right _ hmem))
  exact ⟨result, hentry⟩

/-- A call whose group callback is on the stack has a group. -/
theorem Grouped.frame_not_distributed (h : Grouped state) {call : Call κ} {result : ρ}
    (hframe : (call, result) ∈ mainFrames state.queue.stack) :
    call ∉ distributedCalls state.trace := by
  intro hmem
  have hnodup := h.begun.nodup_iff.mpr h.kept.mainCallbacks_nodup
  exact List.disjoint_of_nodup_append hnodup (List.mem_map_of_mem hframe) hmem

theorem Grouped.not_distributed_of_outstanding (h : Grouped state) {call : Call κ}
    (houtstanding : state.Outstanding call) : call ∉ distributedCalls state.trace := by
  intro hmem
  obtain ⟨result, hbegun⟩ := h.mem_begun hmem
  exact houtstanding.2 result ((h.completed call result).mpr (h.kept.of_mainCallback hbegun).1)

/-! ## Steps of the queue -/

/-- Two outputs in a row are still in a row when something else is added. -/
theorem pair_sublist_append {α : Type} {first second : α} {trace outputs : List α}
    (h : List.Sublist [first, second] (trace ++ outputs)) (hsecond : second ∉ outputs) :
    List.Sublist [first, second] trace := by
  obtain ⟨left, right, heq, hleft, hright⟩ := List.sublist_append_iff.mp h
  cases right with
  | nil =>
      rw [List.append_nil] at heq
      exact heq ▸ hleft
  | cons output right =>
      exfalso
      refine hsecond (hright.subset ?_)
      have hlast : [first, second].getLast? = (left ++ output :: right).getLast? := by rw [heq]
      rw [List.getLast?_append_cons] at hlast
      exact List.mem_of_getLast? (hlast.symm.trans rfl)

/-- A step of the queue that neither enqueues a call nor returns from a main callback. -/
theorem Grouped.ofStep (h : Grouped state) {event : QueuedAsyncCall.Event κ ρ Empty}
    {queue : QueuedAsyncCall.State κ ρ Empty}
    (hstep : QueuedAsyncCall.step queueCallbacks state.queue event = some queue)
    (henqueues : event.enqueues state.queue = [])
    (hremaining : mainFrames (event.remaining state.queue.stack) = mainFrames state.queue.stack)
    {outputs : List (Output κ ρ)} (hdistributed : distributedCalls outputs = [])
    (hcompletes : ∀ call result, .completed call result ∈ outputs ↔ (call, result) ∈ event.completes) :
    Grouped { state with queue, trace := state.trace ++ outputs } := by
  obtain ⟨added, hadds⟩ := QueuedAsyncCall.adds_of_step hstep
  have htrace := hadds.trace
  have henqueued : enqueuedCalls queue.trace = enqueuedCalls state.queue.trace := by
    rw [htrace, QueuedAsyncCall.enqueuedCalls_append, hadds.enqueued, henqueues, List.append_nil]
  have hmain : mainCallbacks queue.trace = mainCallbacks state.queue.trace ++ mainCallbacks added := by
    rw [htrace, QueuedAsyncCall.mainCallbacks_append]
  have hframes : mainFrames queue.stack = mainCallbacks added ++ mainFrames state.queue.stack := by
    rw [hadds.mains, hremaining]
  have hsame : distributedCalls (state.trace ++ outputs) = distributedCalls state.trace := by
    rw [distributedCalls_append, hdistributed, List.append_nil]
  refine
    { kept := QueuedAsyncCall.kept_step h.kept hstep
      frames := ?_
      begun := ?_
      completed := ?_
      group := ?_
      nonempty := ?_
      unborn := ?_
      bounded := h.bounded
      unbegun := ?_
      finished := ?_ }
  · intro entry hentry
    dsimp only at hentry ⊢
    rw [hframes, List.mem_append] at hentry
    rw [hmain, List.mem_append]
    exact hentry.symm.imp_left (h.frames entry)
  · dsimp only
    rw [hframes, hmain, hsame, List.map_append, List.map_append, List.append_assoc]
    exact List.perm_append_comm.trans (h.begun.append_right _)
  · intro call result
    dsimp only
    rw [htrace, List.mem_append, List.mem_append, h.completed, hcompletes,
      ← @QueuedAsyncCall.mem_completions _ _ _ added, hadds.completed]
  · intro key call
    dsimp only
    rw [henqueued, hsame]
    exact h.group key call
  · dsimp only
    rw [henqueued]
    exact h.nonempty
  · dsimp only
    rw [henqueued]
    exact h.unborn
  · intro call hcall
    dsimp only at hcall
    rw [hmain, List.map_append, List.mem_append, not_or] at hcall
    exact h.unbegun call hcall.1
  · dsimp only
    rw [hsame]
    exact h.finished

omit [DecidableEq κ] in
/-- Whatever is observed of the calls changes nothing for the callbacks. -/
theorem Listed.ofStep (h : Listed state) {queue : QueuedAsyncCall.State κ ρ Empty}
    {callbacks : κ → Option (Call κ)} {outputs : List (Output κ ρ)}
    (hmain : ∀ entry ∈ mainCallbacks state.queue.trace, entry ∈ mainCallbacks queue.trace)
    (houtputs : ∀ output ∈ outputs, output.user? = none) :
    Listed { state with queue, callbacks, trace := state.trace ++ outputs } := by
  have habout : ∀ user, about Output.user? user (state.trace ++ outputs) =
      about Output.user? user state.trace := by
    intro user
    have hnone : about Output.user? user outputs = [] := by
      rw [about, List.filter_eq_nil_iff]
      intro output houtput
      simp [houtputs output houtput]
    rw [about_append, hnone, List.append_nil]
  refine
    { located := h.located
      below := h.below
      once := h.once
      unknown := ?_
      waits := ?_
      called := ?_
      early := ?_ }
  · intro user huser
    exact (habout user).trans (h.unknown user huser)
  · intro call i user hplace hi
    exact (habout user).trans (h.waits call i user hplace hi)
  · intro call i user hplace hi
    obtain ⟨result, hbegun, hstory⟩ := h.called call i user hplace hi
    exact ⟨result, hmain _ hbegun, (habout user).trans hstory⟩
  · intro call i user hplace hsublist
    refine h.early call i user hplace (pair_sublist_append hsublist fun hmem => ?_)
    have hnone := houtputs _ hmem
    cases hnone

/-! ## Adding a callback -/

/-- The place of a callback after one more has come to the end of a list. -/
theorem place_of_push {lists : Call κ → List ℕ} {call call' : Call κ} {user user' i : ℕ}
    (h : (Function.update lists call (lists call ++ [user]) call')[i]? = some user') :
    (lists call')[i]? = some user' ∨ call' = call ∧ i = (lists call).length ∧ user' = user := by
  by_cases hcall : call' = call
  · subst hcall
    rw [Function.update_self, List.getElem?_append] at h
    split_ifs at h with hi
    · exact Or.inl h
    · obtain ⟨hlt, heq⟩ := List.getElem?_eq_some_iff.mp h
      rw [List.length_singleton] at hlt
      have hzero : i - (lists call').length = 0 := by omega
      simp only [hzero, List.getElem_cons_zero] at heq
      exact Or.inr ⟨rfl, by omega, heq.symm⟩
  · rw [Function.update_of_ne hcall] at h
    exact Or.inl h

theorem place_push {lists : Call κ → List ℕ} {call call' : Call κ} {user user' i : ℕ}
    (h : (lists call')[i]? = some user') :
    (Function.update lists call (lists call ++ [user]) call')[i]? = some user' := by
  by_cases hcall : call' = call
  · subst hcall
    rw [Function.update_self, List.getElem?_append_left (List.getElem?_eq_some_iff.mp h).1]
    exact h
  · rw [Function.update_of_ne hcall]
    exact h

/-- A new callback comes to the end of a list that has not been distributed. -/
theorem Listed.push (h : Listed state) {queue : QueuedAsyncCall.State κ ρ Empty}
    {callbacks : κ → Option (Call κ)} {call : Call κ}
    (hmain : ∀ entry ∈ mainCallbacks state.queue.trace, entry ∈ mainCallbacks queue.trace)
    (hcall : call ∉ distributedCalls state.trace)
    (hindex : state.index call ≤ (state.lists call).length) :
    Listed { state with
      queue
      callbacks
      lists := Function.update state.lists call (state.lists call ++ [state.users])
      users := state.users + 1
      trace := state.trace ++ [.added call.data state.users] } := by
  have hnew : ∀ {call' : Call κ} {i : ℕ}, (state.lists call')[i]? ≠ some state.users :=
    fun hplace => absurd (h.below _ _ _ hplace) (Nat.lt_irrefl _)
  have hold : ∀ {call' : Call κ} {i user : ℕ}, (state.lists call')[i]? = some user →
      about Output.user? user (state.trace ++ [.added call.data state.users]) =
        about Output.user? user state.trace := by
    intro call' i user hplace
    exact about_concat_of_ne _ (show Output.user? _ = _ from rfl) (h.below _ _ _ hplace).ne
  refine
    { located := ?_
      below := ?_
      once := ?_
      unknown := ?_
      waits := ?_
      called := ?_
      early := ?_ }
  · intro user huser
    rcases Nat.lt_succ_iff_lt_or_eq.mp huser with hlt | rfl
    · obtain ⟨call', i, hplace⟩ := h.located user hlt
      exact ⟨call', i, place_push hplace⟩
    · refine ⟨call, (state.lists call).length, ?_⟩
      dsimp only
      rw [Function.update_self, List.getElem?_concat_length]
  · intro call' i user hplace
    rcases place_of_push hplace with hplace | ⟨_, _, rfl⟩
    · exact (h.below _ _ _ hplace).trans (Nat.lt_succ_self _)
    · exact Nat.lt_succ_self _
  · intro first i second j user hfirst hsecond
    rcases place_of_push hfirst with hfirst | ⟨rfl, rfl, rfl⟩
    · rcases place_of_push hsecond with hsecond | ⟨_, _, rfl⟩
      · exact h.once _ _ _ _ _ hfirst hsecond
      · exact absurd hfirst hnew
    · rcases place_of_push hsecond with hsecond | ⟨rfl, rfl, _⟩
      · exact absurd hsecond hnew
      · exact ⟨rfl, rfl⟩
  · intro user huser
    dsimp only at huser ⊢
    rw [about_concat_of_ne _ (show Output.user? _ = _ from rfl) (Nat.ne_of_gt huser)]
    exact h.unknown user (Nat.le_of_succ_le huser)
  · intro call' i user hplace hi
    rcases place_of_push hplace with hplace | ⟨rfl, _, rfl⟩
    · exact (hold hplace).trans (h.waits _ _ _ hplace hi)
    · dsimp only
      rw [about_concat_self _ (show Output.user? _ = _ from rfl), h.unknown _ le_rfl]
      rfl
  · intro call' i user hplace hi
    rcases place_of_push hplace with hplace | ⟨rfl, rfl, rfl⟩
    · obtain ⟨result, hbegun, hstory⟩ := h.called _ _ _ hplace hi
      exact ⟨result, hmain _ hbegun, (hold hplace).trans hstory⟩
    · exact absurd hi (Nat.not_lt_of_le hindex)
  · intro call' i user hplace hsublist
    rcases place_of_push hplace with hplace | ⟨rfl, _, rfl⟩
    · refine h.early _ _ _ hplace (pair_sublist_append hsublist ?_)
      rw [List.mem_singleton]
      intro heq
      injection heq with _ huser
      exact hnew (huser ▸ hplace)
    · -- a list whose call is distributed gets no more callbacks
      have hmem : Output.distributed call' ∈ state.trace ++ [.added call'.data state.users] :=
        hsublist.subset List.mem_cons_self
      rw [List.mem_append, List.mem_singleton] at hmem
      refine hcall (List.mem_filterMap.mpr ⟨_, hmem.resolve_right (fun h => nomatch h), rfl⟩)

/-- A callback joins the group of its key. -/
theorem Grouped.join (h : Grouped state) {key : κ} {call : Call κ}
    (hgroup : state.callbacks key = some call) :
    Grouped { state with
      lists := Function.update state.lists call (state.lists call ++ [state.users])
      users := state.users + 1
      trace := state.trace ++ [.added key state.users] } := by
  obtain ⟨hdata, henqueued, hdistributed⟩ := (h.group key call).mp hgroup
  have hsame : distributedCalls (state.trace ++ [.added key state.users]) =
      distributedCalls state.trace := by
    rw [distributedCalls_append]
    exact List.append_nil _
  refine
    { kept := h.kept
      frames := h.frames
      begun := ?_
      completed := ?_
      group := ?_
      nonempty := ?_
      unborn := ?_
      bounded := ?_
      unbegun := h.unbegun
      finished := ?_ }
  · dsimp only
    rw [hsame]
    exact h.begun
  · intro other result
    dsimp only
    rw [List.mem_append, List.mem_singleton, ← h.completed]
    exact or_iff_left (fun h => nomatch h)
  · dsimp only
    rw [hsame]
    exact h.group
  · intro other hother
    by_cases heq : other = call
    · subst heq
      dsimp only
      rw [Function.update_self]
      exact List.concat_ne_nil _ _
    · dsimp only
      rw [Function.update_of_ne heq]
      exact h.nonempty other hother
  · intro other hother
    have hne : other ≠ call := fun heq => hother (heq ▸ henqueued)
    dsimp only
    rw [Function.update_of_ne hne]
    exact h.unborn other hother
  · intro other
    by_cases heq : other = call
    · subst heq
      dsimp only
      rw [Function.update_self, List.length_append]
      exact (h.bounded other).trans (Nat.le_add_right _ _)
    · dsimp only
      rw [Function.update_of_ne heq]
      exact h.bounded other
  · intro other hother
    dsimp only at hother ⊢
    rw [hsame] at hother
    have hne : other ≠ call := fun heq => hdistributed (heq ▸ hother)
    rw [Function.update_of_ne hne]
    exact h.finished other hother

/-- Without a group for its key, a callback gets a call of its own. -/
theorem Grouped.create (h : Grouped state) {key : κ} (hgroup : state.callbacks key = none) :
    Grouped { state with
      queue := state.queue.enqueue key
      callbacks := Function.update state.callbacks key (some ⟨state.queue.serial, key⟩)
      lists := Function.update state.lists ⟨state.queue.serial, key⟩ [state.users]
      users := state.users + 1
      trace := state.trace ++ [.added key state.users] } := by
  obtain ⟨outputs, hadds⟩ := @QueuedAsyncCall.adds_enqueue _ _ _ state.queue key
  have htrace := hadds.trace
  have henqueued : enqueuedCalls (state.queue.enqueue key).trace =
      enqueuedCalls state.queue.trace ++ [⟨state.queue.serial, key⟩] := by
    rw [htrace, QueuedAsyncCall.enqueuedCalls_append, hadds.enqueued]
  have hmain : mainCallbacks (state.queue.enqueue key).trace =
      mainCallbacks state.queue.trace ++ mainCallbacks outputs := by
    rw [htrace, QueuedAsyncCall.mainCallbacks_append]
  have hfresh : (⟨state.queue.serial, key⟩ : Call κ) ∉ enqueuedCalls state.queue.trace :=
    fun hmem => Nat.lt_irrefl _ (h.kept.serial_lt hmem)
  have hdistributed : ∀ call ∈ distributedCalls state.trace, call ≠ ⟨state.queue.serial, key⟩ := by
    rintro _ hmem rfl
    obtain ⟨result, hbegun⟩ := h.mem_begun hmem
    exact hfresh (h.kept.of_mainCallback hbegun).2
  have hindex : state.index ⟨state.queue.serial, key⟩ = 0 := by
    refine h.unbegun _ fun hmem => ?_
    obtain ⟨⟨_, result⟩, hentry, heq⟩ := List.mem_map.mp hmem
    exact hfresh (heq ▸ (h.kept.of_mainCallback hentry).2)
  have hsame : distributedCalls (state.trace ++ [.added key state.users]) =
      distributedCalls state.trace := by
    rw [distributedCalls_append]
    exact List.append_nil _
  refine
    { kept := QueuedAsyncCall.kept_enqueue h.kept key
      frames := ?_
      begun := ?_
      completed := ?_
      group := ?_
      nonempty := ?_
      unborn := ?_
      bounded := ?_
      unbegun := ?_
      finished := ?_ }
  · intro entry hentry
    dsimp only at hentry ⊢
    rw [hadds.mains, List.mem_append] at hentry
    rw [hmain, List.mem_append]
    exact hentry.symm.imp_left (h.frames entry)
  · dsimp only
    rw [hadds.mains, hmain, hsame, List.map_append, List.map_append, List.append_assoc]
    exact List.perm_append_comm.trans (h.begun.append_right _)
  · intro other result
    dsimp only
    rw [htrace, List.mem_append, List.mem_append, List.mem_singleton, ← h.completed,
      ← @QueuedAsyncCall.mem_completions _ _ _ outputs, hadds.completed]
    simp
  · intro key' call
    dsimp only
    rw [henqueued, hsame, List.mem_append, List.mem_singleton]
    by_cases hkey : key' = key
    · subst hkey
      rw [Function.update_self, Option.some.injEq]
      constructor
      · rintro rfl
        exact ⟨rfl, Or.inr rfl, fun hmem => hdistributed _ hmem rfl⟩
      · rintro ⟨hdata, hmem | rfl, hnot⟩
        · exact nomatch hgroup.symm.trans ((h.group _ _).mpr ⟨hdata, hmem, hnot⟩)
        · rfl
    · rw [Function.update_of_ne hkey, h.group]
      constructor
      · exact fun ⟨hdata, hmem, hnot⟩ => ⟨hdata, Or.inl hmem, hnot⟩
      · rintro ⟨hdata, hmem | rfl, hnot⟩
        · exact ⟨hdata, hmem, hnot⟩
        · exact absurd hdata.symm hkey
  · intro call hcall
    dsimp only at hcall ⊢
    by_cases heq : call = ⟨state.queue.serial, key⟩
    · rw [heq, Function.update_self]
      exact List.cons_ne_nil _ _
    · rw [Function.update_of_ne heq]
      rw [henqueued, List.mem_append, List.mem_singleton] at hcall
      exact h.nonempty call (hcall.resolve_right heq)
  · intro call hcall
    dsimp only at hcall ⊢
    rw [henqueued, List.mem_append, List.mem_singleton, not_or] at hcall
    rw [Function.update_of_ne hcall.2]
    exact h.unborn call hcall.1
  · intro call
    dsimp only
    by_cases heq : call = ⟨state.queue.serial, key⟩
    · rw [heq, hindex]
      exact Nat.zero_le _
    · rw [Function.update_of_ne heq]
      exact h.bounded call
  · intro call hcall
    dsimp only at hcall
    rw [hmain, List.map_append, List.mem_append, not_or] at hcall
    exact h.unbegun call hcall.1
  · intro call hcall
    dsimp only at hcall ⊢
    rw [hsame] at hcall
    rw [Function.update_of_ne (hdistributed call hcall)]
    exact h.finished call hcall

/-! ## Distributing a result -/

/-- The next callback of the loop is called. -/
theorem Grouped.call (h : Grouped state) {call : Call κ} {result : ρ} {user : ℕ}
    (hframe : (call, result) ∈ mainFrames state.queue.stack)
    (hplace : (state.lists call)[state.index call]? = some user) :
    Grouped { state with
      index := Function.update state.index call (state.index call + 1)
      trace := state.trace ++ [.called user call result] } := by
  have hsame : distributedCalls (state.trace ++ [.called user call result]) =
      distributedCalls state.trace := by
    rw [distributedCalls_append]
    exact List.append_nil _
  refine
    { kept := h.kept
      frames := h.frames
      begun := ?_
      completed := ?_
      group := ?_
      nonempty := h.nonempty
      unborn := h.unborn
      bounded := ?_
      unbegun := ?_
      finished := ?_ }
  · dsimp only
    rw [hsame]
    exact h.begun
  · intro other result'
    dsimp only
    rw [List.mem_append, List.mem_singleton, ← h.completed]
    exact or_iff_left (fun h => nomatch h)
  · dsimp only
    rw [hsame]
    exact h.group
  · intro other
    dsimp only
    by_cases heq : other = call
    · rw [heq, Function.update_self]
      exact (List.getElem?_eq_some_iff.mp hplace).1
    · rw [Function.update_of_ne heq]
      exact h.bounded other
  · intro other hother
    have hne : other ≠ call := by
      rintro rfl
      exact hother (List.mem_map.mpr ⟨_, h.frames _ hframe, rfl⟩)
    dsimp only
    rw [Function.update_of_ne hne]
    exact h.unbegun other hother
  · intro other hother
    dsimp only at hother ⊢
    rw [hsame] at hother
    have hne : other ≠ call := fun heq => h.frame_not_distributed hframe (heq ▸ hother)
    rw [Function.update_of_ne hne]
    exact h.finished other hother

theorem Listed.call (h : Listed state) {call : Call κ} {result : ρ} {user : ℕ}
    (hbegun : (call, result) ∈ mainCallbacks state.queue.trace)
    (hplace : (state.lists call)[state.index call]? = some user) :
    Listed { state with
      index := Function.update state.index call (state.index call + 1)
      trace := state.trace ++ [.called user call result] } := by
  have hother : ∀ {call' : Call κ} {i user' : ℕ}, (state.lists call')[i]? = some user' →
      ¬ (call' = call ∧ i = state.index call) → user' ≠ user := by
    rintro call' i user' hplace' hne rfl
    exact hne (h.once _ _ _ _ _ hplace' hplace)
  refine
    { located := h.located
      below := h.below
      once := h.once
      unknown := ?_
      waits := ?_
      called := ?_
      early := ?_ }
  · intro user' huser
    dsimp only at huser ⊢
    rw [about_concat_of_ne _ (show Output.user? _ = _ from rfl) ((h.below _ _ _ hplace).trans_le huser).ne']
    exact h.unknown user' huser
  · intro call' i user' hplace' hi
    dsimp only at hi ⊢
    by_cases heq : call' = call
    · subst heq
      rw [Function.update_self] at hi
      rw [about_concat_of_ne _ (show Output.user? _ = _ from rfl) (hother hplace' fun h => by omega)]
      exact h.waits _ _ _ hplace' (Nat.le_of_succ_le hi)
    · rw [Function.update_of_ne heq] at hi
      rw [about_concat_of_ne _ (show Output.user? _ = _ from rfl) (hother hplace' fun h => heq h.1)]
      exact h.waits _ _ _ hplace' hi
  · intro call' i user' hplace' hi
    dsimp only at hi ⊢
    by_cases heq : call' = call ∧ i = state.index call
    · obtain ⟨rfl, rfl⟩ := heq
      obtain rfl : user = user' := Option.some.inj (hplace.symm.trans hplace')
      refine ⟨result, hbegun, ?_⟩
      rw [about_concat_self _ (show Output.user? _ = _ from rfl), h.waits _ _ _ hplace le_rfl]
      rfl
    · have hlt : i < state.index call' := by
        by_cases hcall : call' = call
        · subst hcall
          rw [Function.update_self] at hi
          exact lt_of_le_of_ne (Nat.le_of_lt_succ hi) fun h => heq ⟨rfl, h⟩
        · rwa [Function.update_of_ne hcall] at hi
      rw [about_concat_of_ne _ (show Output.user? _ = _ from rfl) (hother hplace' heq)]
      exact h.called _ _ _ hplace' hlt
  · intro call' i user' hplace' hsublist
    refine h.early _ _ _ hplace' (pair_sublist_append hsublist ?_)
    rw [List.mem_singleton]
    exact fun h => nomatch h

/-- The loop has come to the end of the list, and the group is cleared. -/
theorem Grouped.clear (h : Grouped state) {call : Call κ} {result : ρ}
    {stack : List (QueuedAsyncCall.Frame κ ρ Empty)}
    (hstack : state.queue.stack = .mainCallback call result :: stack)
    (hplace : (state.lists call)[state.index call]? = none) :
    Grouped { state with
      queue := { state.queue with stack }
      callbacks := Function.update state.callbacks call.data none
      trace := state.trace ++ [.distributed call] } := by
  have hframe : (call, result) ∈ mainFrames state.queue.stack := by
    rw [hstack]
    exact List.mem_cons_self
  have hframes : mainFrames state.queue.stack = (call, result) :: mainFrames stack := by
    rw [hstack]
    rfl
  have hdistributed := h.frame_not_distributed hframe
  have hgroup : state.callbacks call.data = some call :=
    (h.group _ _).mpr ⟨rfl, (h.kept.of_mainCallback (h.frames _ hframe)).2, hdistributed⟩
  have hmore : distributedCalls (state.trace ++ [.distributed call]) =
      distributedCalls state.trace ++ [call] := distributedCalls_append _ _
  have hstep : QueuedAsyncCall.step queueCallbacks state.queue (.return none) =
      some { state.queue with stack } := by
    rw [QueuedAsyncCall.step, hstack]
  refine
    { kept := QueuedAsyncCall.kept_step h.kept hstep
      frames := ?_
      begun := ?_
      completed := ?_
      group := ?_
      nonempty := h.nonempty
      unborn := h.unborn
      bounded := h.bounded
      unbegun := h.unbegun
      finished := ?_ }
  · intro entry hentry
    exact h.frames entry (hframes ▸ List.mem_cons_of_mem _ hentry)
  · have hbegun := h.begun
    rw [hframes, List.map_cons, List.cons_append] at hbegun
    dsimp only
    rw [hmore, ← List.append_assoc]
    exact (List.perm_append_singleton _ _).trans hbegun
  · intro other result'
    dsimp only
    rw [List.mem_append, List.mem_singleton, ← h.completed]
    exact or_iff_left fun h => by cases h
  · intro key other
    dsimp only
    rw [hmore, List.mem_append, List.mem_singleton, not_or]
    by_cases hkey : key = call.data
    · subst hkey
      rw [Function.update_self]
      refine iff_of_false (fun h => by cases h) ?_
      rintro ⟨hdata, hmem, hnot, hne⟩
      have hother := (h.group _ _).mpr ⟨hdata, hmem, hnot⟩
      exact hne (Option.some.inj (hother.symm.trans hgroup))
    · rw [Function.update_of_ne hkey, h.group]
      constructor
      · rintro ⟨hdata, hmem, hnot⟩
        exact ⟨hdata, hmem, hnot, fun heq => hkey (heq ▸ hdata).symm⟩
      · rintro ⟨hdata, hmem, hnot, -⟩
        exact ⟨hdata, hmem, hnot⟩
  · intro other hother
    dsimp only at hother ⊢
    rw [hmore, List.mem_append, List.mem_singleton] at hother
    rcases hother with hother | rfl
    · exact h.finished other hother
    · exact le_antisymm (h.bounded other) (List.getElem?_eq_none_iff.mp hplace)

/-! ## Runs -/

def Invariant (state : State κ ρ) : Prop := Grouped state ∧ Listed state

theorem invariant_init : Invariant ({} : State κ ρ) where
  left :=
    { kept := QueuedAsyncCall.kept_init
      frames := fun _ h => absurd h List.not_mem_nil
      begun := List.Perm.nil
      completed := fun _ _ => iff_of_false List.not_mem_nil List.not_mem_nil
      group := fun _ _ => iff_of_false (fun h => nomatch h) fun h => absurd h.2.1 List.not_mem_nil
      nonempty := fun _ h => absurd h List.not_mem_nil
      unborn := fun _ _ => rfl
      bounded := fun _ => le_rfl
      unbegun := fun _ _ => rfl
      finished := fun _ h => absurd h List.not_mem_nil }
  right :=
    { located := fun _ h => absurd h (Nat.not_lt_zero _)
      below := fun _ _ _ h => nomatch h
      once := fun _ _ _ _ _ h => nomatch h
      unknown := fun _ _ => rfl
      waits := fun _ _ _ h => nomatch h
      called := fun _ _ _ h => nomatch h
      early := fun _ _ _ h => nomatch h }

theorem invariant_add (h : Invariant state) (key : κ) : Invariant (state.add key) := by
  obtain ⟨hgrouped, hlisted⟩ := h
  rw [State.add]
  cases hgroup : state.callbacks key with
  | some call =>
      obtain ⟨rfl, henqueued, hdistributed⟩ := (hgrouped.group key call).mp hgroup
      dsimp only
      rw [if_pos (List.length_pos_iff.mpr (hgrouped.nonempty call henqueued)).ne']
      exact ⟨hgrouped.join hgroup,
        hlisted.push (fun _ h => h) hdistributed (hgrouped.bounded call)⟩
  | none =>
      have hfresh : (⟨state.queue.serial, key⟩ : Call κ) ∉ enqueuedCalls state.queue.trace :=
        fun hmem => Nat.lt_irrefl _ (hgrouped.kept.serial_lt hmem)
      have hlist := hgrouped.unborn _ hfresh
      refine ⟨hgrouped.create hgroup, ?_⟩
      obtain ⟨outputs, hadds⟩ := @QueuedAsyncCall.adds_enqueue _ _ _ state.queue key
      have hpush := @Listed.push _ _ _ _ hlisted (state.queue.enqueue key)
        (Function.update state.callbacks key (some ⟨state.queue.serial, key⟩))
        ⟨state.queue.serial, key⟩
        (fun entry hentry => by
          rw [hadds.trace, QueuedAsyncCall.mainCallbacks_append]
          exact List.mem_append_left _ hentry)
        (fun hmem => by
          obtain ⟨result, hbegun⟩ := hgrouped.mem_begun hmem
          exact hfresh (hgrouped.kept.of_mainCallback hbegun).2)
        (hgrouped.bounded _)
      rw [hlist] at hpush
      exact hpush

/-- A step of the queue that neither enqueues a call nor returns from a main callback keeps
the invariant. -/
theorem invariant_ofStep (h : Invariant state) {event : QueuedAsyncCall.Event κ ρ Empty}
    {queue : QueuedAsyncCall.State κ ρ Empty}
    (hstep : QueuedAsyncCall.step queueCallbacks state.queue event = some queue)
    (henqueues : event.enqueues state.queue = [])
    (hremaining : mainFrames (event.remaining state.queue.stack) = mainFrames state.queue.stack)
    {outputs : List (Output κ ρ)} (hdistributed : distributedCalls outputs = [])
    (hcompletes : ∀ call result, .completed call result ∈ outputs ↔ (call, result) ∈ event.completes)
    (houtputs : ∀ output ∈ outputs, output.user? = none) :
    Invariant { state with queue, trace := state.trace ++ outputs } := by
  refine ⟨h.1.ofStep hstep henqueues hremaining hdistributed hcompletes, ?_⟩
  refine h.2.ofStep (fun entry hentry => ?_) houtputs
  obtain ⟨added, hadds⟩ := QueuedAsyncCall.adds_of_step hstep
  rw [hadds.trace, QueuedAsyncCall.mainCallbacks_append]
  exact List.mem_append_left _ hentry

theorem invariant_distribute (h : Invariant state) {call : Call κ} {result : ρ}
    {stack : List (QueuedAsyncCall.Frame κ ρ Empty)} {after : State κ ρ}
    (hstack : state.queue.stack = .mainCallback call result :: stack)
    (hstep : state.distribute call result = some after) : Invariant after := by
  have hframe : (call, result) ∈ mainFrames state.queue.stack := by
    rw [hstack]
    exact List.mem_cons_self
  rw [State.distribute] at hstep
  cases hplace : (state.lists call)[state.index call]? with
  | some user =>
      rw [hplace] at hstep
      rw [← Option.some.inj hstep]
      exact ⟨h.1.call hframe hplace, h.2.call (h.1.frames _ hframe) hplace⟩
  | none =>
      rw [hplace, QueuedAsyncCall.step, hstack] at hstep
      rw [← Option.some.inj hstep]
      refine ⟨h.1.clear hstack hplace, h.2.ofStep (fun _ h => h) ?_⟩
      rintro output (_ | ⟨_, ⟨⟩⟩)
      rfl

theorem invariant_step {event : Event κ ρ} {after : State κ ρ} (h : Invariant state)
    (hstep : step state event = some after) : Invariant after := by
  cases event with
  | add key =>
      rw [← Option.some.inj hstep]
      exact invariant_add h key
  | complete call result =>
      obtain ⟨queue, hqueue, rfl⟩ := Option.map_eq_some_iff.mp hstep
      refine invariant_ofStep h hqueue rfl rfl rfl (fun other otherResult => ?_) ?_
      · simp [QueuedAsyncCall.Event.completes]
      · rintro output (_ | ⟨_, ⟨⟩⟩)
        rfl
  | proceed =>
      rw [step] at hstep
      split at hstep
      · next call result stack hstack => exact invariant_distribute h hstack hstep
      · next hstack =>
          obtain ⟨queue, hqueue, rfl⟩ := Option.map_eq_some_iff.mp hstep
          have hremaining : mainFrames state.queue.stack.tail = mainFrames state.queue.stack := by
            cases htop : state.queue.stack with
            | nil => rfl
            | cons frame stack =>
                cases frame with
                | mainCallback owner result => exact absurd htop (hstack _ _ _)
                | _ => rfl
          have hnext := @invariant_ofStep _ _ _ _ h _ _ hqueue rfl hremaining []
            rfl (fun _ _ => iff_of_false List.not_mem_nil List.not_mem_nil) (fun _ h => absurd h List.not_mem_nil)
          rw [List.append_nil] at hnext
          exact hnext

/-! ## What the invariants say -/

theorem shares_of_invariants (h : Grouped state) (hlisted : Listed state) : Shares state where
  oneCall := by
    intro call other hcall hother hdata
    have hfirst := (h.group call.data call).mpr
      ⟨rfl, hcall.1, h.not_distributed_of_outstanding hcall⟩
    have hsecond := (h.group call.data other).mpr
      ⟨hdata.symm, hother.1, h.not_distributed_of_outstanding hother⟩
    exact Option.some.inj (hfirst.symm.trans hsecond)
  answers := by
    intro key user hadded
    have habout : .added key user ∈ about Output.user? user state.trace :=
      mem_about_iff.mpr ⟨hadded, rfl⟩
    have hlt : user < state.users := by
      by_contra hle
      rw [hlisted.unknown user (Nat.le_of_not_lt hle)] at habout
      exact absurd habout List.not_mem_nil
    obtain ⟨call, i, hplace⟩ := hlisted.located user hlt
    by_cases hi : i < state.index call
    · obtain ⟨result, hbegun, hstory⟩ := hlisted.called call i user hplace hi
      rw [hstory] at habout
      obtain rfl : key = call.data := by simpa using habout
      refine Or.inr ⟨call, result, hstory, rfl, ?_, hlisted.early call i user hplace⟩
      exact (h.completed call result).mpr (h.kept.of_mainCallback hbegun).1
    · have hstory := hlisted.waits call i user hplace (Nat.le_of_not_lt hi)
      rw [hstory] at habout
      obtain rfl : key = call.data := by simpa using habout
      exact Or.inl hstory
  served := by
    intro hstack key user hadded hstory
    have hlt : user < state.users := by
      by_contra hle
      rw [hlisted.unknown user (Nat.le_of_not_lt hle)] at hstory
      exact nomatch hstory
    obtain ⟨call, i, hplace⟩ := hlisted.located user hlt
    have hi : state.index call ≤ i := by
      by_contra hlt
      obtain ⟨result, _, hcalled⟩ := hlisted.called call i user hplace (Nat.lt_of_not_le hlt)
      rw [hstory] at hcalled
      exact nomatch hcalled
    have hwaits := hlisted.waits call i user hplace hi
    rw [hstory] at hwaits
    have hkey : key = call.data := by simpa using hwaits
    have hlength := (List.getElem?_eq_some_iff.mp hplace).1
    refine ⟨call, ⟨?_, fun result hcompleted => ?_⟩, hkey.symm⟩
    · by_contra hunborn
      rw [h.unborn call hunborn] at hlength
      exact absurd hlength (Nat.not_lt_zero _)
    · -- the loop of a call that has completed would have come to the end of its list
      have hmain := h.kept.mainCallback_of_completed hstack rfl ((h.completed call result).mp hcompleted)
      have hbegun : (call, result) ∈ mainCallbacks state.queue.trace :=
        hmain.resolve_right fun ⟨postCallback, _⟩ => postCallback.elim
      have hdistributed : call ∈ distributedCalls state.trace := by
        have hmem := h.begun.mem_iff.mpr (List.mem_map_of_mem hbegun)
        rw [hstack] at hmem
        exact hmem
      rw [← h.finished call hdistributed] at hlength
      omega
  empty := by
    intro hstack hrunning call houtstanding
    obtain ⟨result, hcompleted⟩ := (h.kept.empty hstack hrunning).2 call houtstanding.1
    exact houtstanding.2 result ((h.completed call result).mpr hcompleted)

/-- In every run, the groups share their calls. -/
theorem shares_of_run {events : List (Event κ ρ)} {final : State κ ρ}
    (hrun : run step {} events = some final) : Shares final := by
  have h := invariant_of_run Invariant (fun _ _ _ h hstep => invariant_step h hstep)
    invariant_init hrun
  exact shares_of_invariants h.1 h.2

theorem shares_of_run_two :
    Shares ((run step ({} : State ℕ ℕ)
      [.add 5, .add 5, .proceed, .complete ⟨1, 5⟩ 7, .proceed, .proceed, .proceed]).getD {}) :=
  @shares_of_run _ _ _
    [.add 5, .add 5, .proceed, .complete ⟨1, 5⟩ 7, .proceed, .proceed, .proceed] _ rfl

/-- A callback that is added from inside another callback of its group is called with the
result of a call that had completed before. -/
theorem called_with_earlier_result :
    (run step ({} : State ℕ ℕ)
      [.add 5, .proceed, .complete ⟨1, 5⟩ 7, .proceed, .add 5, .proceed]).map State.trace =
      some [.added 5 0, .completed ⟨1, 5⟩ 7, .called 0 ⟨1, 5⟩ 7, .added 5 1, .called 1 ⟨1, 5⟩ 7] := rfl

end DatabaseJones.DictionaryCall
