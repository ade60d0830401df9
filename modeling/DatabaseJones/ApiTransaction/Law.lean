import DatabaseJones.ApiTransaction.Machine

/-!
# The law of the transaction

At most the transaction that began last is unfinished, and at most one commit or rollback is
in progress, for it.  This is kept by every step as long as the user does not commit, roll
back or mark the transaction while it is being ended; and an operation that fails leaves it
active only if it does not mark it.
-/

namespace DatabaseJones.ApiTransaction

open DatabaseJones.Library

variable {s next : State}

/-! ## What is kept -/

structure Kept (s : State) : Prop where
  began : ∀ n, .began n ∈ s.trace ↔ 1 ≤ n ∧ n ≤ s.begun
  ended : ∀ n, (∃ ending isError, .ended n ending isError ∈ s.trace) ↔
    (1 ≤ n ∧ n ≤ s.begun) ∧ (n = s.begun → s.state = .idle)
  begun_pos : s.state ≠ .idle → 1 ≤ s.begun
  pending : s.pending = [] ∨ s.state ≠ .idle ∧ ∃ ending, s.pending = [(s.begun, ending)]
  notEnding : s.state ≠ .idle → s.pending = [] → NotEnding s.trace s.begun
  sent_le : ∀ n ending, .sent n ending ∈ s.trace → n ≤ s.begun
  marked_le : ∀ n, .marked n ∈ s.trace → n ≤ s.begun
  notMarked : s.state = .active → .marked s.begun ∉ s.trace
  permitted : Throughout Permitted s.trace

theorem kept_start : Kept {} where
  began n := by simp; omega
  ended n := by simp; omega
  begun_pos h := absurd rfl h
  pending := Or.inl rfl
  notEnding h := absurd rfl h
  sent_le _ _ h := absurd h List.not_mem_nil
  marked_le _ h := absurd h List.not_mem_nil
  notMarked h := nomatch h
  permitted := throughout_nil

/-- Only the transaction that began last can be unfinished. -/
theorem Kept.unfinished_iff (h : Kept s) (n : ℕ) :
    Unfinished s.trace n ↔ n = s.begun ∧ s.state ≠ .idle := by
  have hended := h.ended n
  constructor
  · rintro ⟨hbegan, hnone⟩
    have hbound := (h.began n).mp hbegan
    have hnot : ¬ ((1 ≤ n ∧ n ≤ s.begun) ∧ (n = s.begun → s.state = .idle)) := by
      intro hbound'
      obtain ⟨ending, isError, hmem⟩ := hended.mpr hbound'
      exact hnone ending isError hmem
    by_cases hn : n = s.begun
    · exact ⟨hn, fun hidle => hnot ⟨hbound, fun _ => hidle⟩⟩
    · exact absurd ⟨hbound, fun heq => absurd heq hn⟩ hnot
  · rintro ⟨rfl, hstate⟩
    refine ⟨(h.began _).mpr ⟨h.begun_pos hstate, le_refl _⟩, fun ending isError hmem => ?_⟩
    exact hstate ((hended.mp ⟨ending, isError, hmem⟩).2 rfl)

/-- The state is idle exactly when no transaction is unfinished. -/
theorem Kept.lawful (h : Kept s) : Lawful s where
  permitted := h.permitted
  idle_iff := by
    constructor
    · intro hidle n hunfinished
      exact ((h.unfinished_iff n).mp hunfinished).2 hidle
    · intro hnone
      by_contra hstate
      exact hnone s.begun ((h.unfinished_iff _).mpr ⟨rfl, hstate⟩)

/-! ## Calls -/

/-- A call that is refused. -/
theorem Kept.refuse (h : Kept s) (call : Call) : Kept (s.refuse call) where
  began n := by simpa [State.refuse] using h.began n
  ended n := by simpa [State.refuse] using h.ended n
  begun_pos := h.begun_pos
  pending := h.pending
  notEnding hstate hpending ending := by
    simpa [State.refuse] using h.notEnding hstate hpending ending
  sent_le n ending hmem := h.sent_le n ending (by simpa [State.refuse] using hmem)
  marked_le n hmem := h.marked_le n (by simpa [State.refuse] using hmem)
  notMarked hstate := by simpa [State.refuse] using h.notMarked hstate
  permitted := h.permitted.concat (Or.inr ⟨rfl, fun _ => rfl⟩)

theorem Kept.begin (h : Kept s) : Kept s.begin := by
  unfold State.begin
  cases hstate : s.state with
  | active => exact h.refuse .begin
  | rollbackOnly => exact h.refuse .begin
  | idle =>
      have hended : ∀ n, (∃ ending isError, .ended n ending isError ∈ s.trace) ↔
          1 ≤ n ∧ n ≤ s.begun := fun n =>
        (h.ended n).trans (and_iff_left fun _ => hstate)
      refine
        { began := fun n => ?_
          ended := fun n => ?_
          begun_pos := fun _ => Nat.le_add_left _ _
          pending := ?_
          notEnding := fun _ _ ending hmem => ?_
          sent_le := fun n ending hmem => ?_
          marked_le := fun n hmem => ?_
          notMarked := fun _ hmem => ?_
          permitted := ?_ }
      · have hbegan := h.began n
        simp only [List.mem_append, List.mem_singleton, hbegan, reduceCtorEq, or_false,
          Output.began.injEq]
        omega
      · have hended := hended n
        simp only [List.mem_append, List.mem_singleton, reduceCtorEq, or_false, hended]
        constructor
        · exact fun hn => ⟨⟨hn.1, by omega⟩, fun heq => by omega⟩
        · rintro ⟨hn, hidle⟩
          have hne : n ≠ s.begun + 1 := fun heq => nomatch hidle heq
          omega
      · rcases h.pending with hpending | ⟨hactive, -⟩
        · exact Or.inl hpending
        · exact absurd hstate hactive
      · have hmem : .sent (s.begun + 1) ending ∈ s.trace := by simpa using hmem
        have := h.sent_le _ _ hmem
        omega
      · have hmem : .sent n ending ∈ s.trace := by simpa using hmem
        exact (h.sent_le n ending hmem).trans (Nat.le_succ _)
      · have hmem : .marked n ∈ s.trace := by simpa using hmem
        exact (h.marked_le n hmem).trans (Nat.le_succ _)
      · have hmem : .marked (s.begun + 1) ∈ s.trace := by simpa using hmem
        have := h.marked_le _ hmem
        omega
      · have hcalled : Permitted s.trace (.called .begin .idle .active none) := by
          refine Or.inl fun n hunfinished => ?_
          exact ((h.unfinished_iff n).mp hunfinished).2 hstate
        exact (h.permitted.concat hcalled).concat trivial

/-- A commit or rollback of a transaction that is not being ended. -/
theorem Kept.send (h : Kept s) {call : Call} {ending : Ending} (hstate : s.state ≠ .idle)
    (hpending : s.pending = []) (hlegal : Legal s.trace call)
    (hcommit : ending = .commit → ¬ MustRollBack s.trace s.begun) : Kept (s.send call ending) where
  began n := by simpa [State.send] using h.began n
  ended n := by simpa [State.send] using h.ended n
  begun_pos := h.begun_pos
  pending := Or.inr ⟨hstate, ending, by rw [State.send, hpending, List.nil_append]⟩
  notEnding _ hempty := by simp [State.send] at hempty
  sent_le n other hmem := by
    have hmem : .sent n other ∈ s.trace ∨ n = s.begun ∧ other = ending := by
      simpa [State.send] using hmem
    rcases hmem with hmem | ⟨rfl, -⟩
    · exact h.sent_le n other hmem
    · exact le_refl _
  marked_le n hmem := h.marked_le n (by simpa [State.send] using hmem)
  notMarked hactive := by simpa [State.send] using h.notMarked hactive
  permitted := by
    have hcalled : Permitted s.trace (.called call s.state s.state none) := Or.inl hlegal
    refine (h.permitted.concat hcalled).concat ⟨?_, ?_, fun heq => ?_⟩
    · have hbegan := (h.began s.begun).mpr ⟨h.begun_pos hstate, le_refl _⟩
      exact List.mem_append_left _ hbegan
    · intro other hmem
      exact h.notEnding hstate hpending other (by simpa using hmem)
    · have hnot := hcommit heq
      simpa [MustRollBack] using hnot

theorem Kept.commit (h : Kept s) (hallowed : Allowed s (.call .commit)) : Kept s.commit := by
  unfold State.commit
  cases hstate : s.state with
  | idle => exact h.refuse .commit
  | rollbackOnly => exact h.refuse .commit
  | active =>
      have hactive : s.state ≠ .idle := by simp [hstate]
      obtain ⟨hpending, hfailed⟩ := hallowed hstate
      have hmust : ¬ MustRollBack s.trace s.begun := not_or.mpr ⟨h.notMarked hstate, hfailed⟩
      have hunfinished := (h.unfinished_iff s.begun).mpr ⟨rfl, hactive⟩
      exact h.send hactive hpending
        ⟨s.begun, hunfinished, h.notEnding hactive hpending, hmust⟩ fun _ => hmust

theorem Kept.rollback (h : Kept s) (hallowed : Allowed s (.call .rollback)) : Kept s.rollback := by
  have hsend : s.state ≠ .idle → Kept (s.send .rollback .rollback) := by
    intro hactive
    have hpending : s.pending = [] := hallowed hactive
    have hunfinished := (h.unfinished_iff s.begun).mpr ⟨rfl, hactive⟩
    exact h.send hactive hpending ⟨s.begun, hunfinished, h.notEnding hactive hpending⟩
      fun heq => nomatch heq
  unfold State.rollback
  cases hstate : s.state with
  | idle => exact h.refuse .rollback
  | active => exact hsend (by simp [hstate])
  | rollbackOnly => exact hsend (by simp [hstate])

theorem mark_eq_idle (state : TxState) : State.mark state = .idle ↔ state = .idle := by
  cases state <;> decide

theorem mark_ne_active (state : TxState) : State.mark state ≠ .active := by
  cases state <;> decide

theorem Kept.setRollbackOnly (h : Kept s) (hallowed : Allowed s (.call .setRollbackOnly)) :
    Kept s.setRollbackOnly := by
  -- The output, if there is one, is about the transaction that began last.
  have hmarked : ∀ output, output ∈ (s.current.map Output.marked).toList → output = .marked s.begun := by
    intro output hmem
    unfold State.current at hmem
    split_ifs at hmem with hactive
    · simpa using hmem
    · simp at hmem
  have hmem : ∀ output, output ∈ s.setRollbackOnly.trace → output ∈ s.trace ∨
      output = .called .setRollbackOnly s.state (State.mark s.state) none ∨
      output = .marked s.begun := by
    intro output hmem
    rcases List.mem_append.mp hmem with hmem | hmem
    · rcases List.mem_append.mp hmem with hmem | hmem
      · exact Or.inl hmem
      · exact Or.inr (Or.inl (List.mem_singleton.mp hmem))
    · exact Or.inr (Or.inr (hmarked output hmem))
  have hkept : ∀ output, output ∈ s.trace → output ∈ s.setRollbackOnly.trace := fun output hmem =>
    List.mem_append_left _ (List.mem_append_left _ hmem)
  have hidle : s.setRollbackOnly.state = .idle ↔ s.state = .idle := mark_eq_idle s.state
  refine
    { began := fun n => ?_
      ended := fun n => ?_
      begun_pos := fun hstate => h.begun_pos fun heq => hstate (hidle.mpr heq)
      pending := ?_
      notEnding := fun hstate hpending ending hsent => ?_
      sent_le := fun n ending hsent => ?_
      marked_le := fun n hmark => ?_
      notMarked := fun hactive => absurd hactive (mark_ne_active s.state)
      permitted := ?_ }
  · refine Iff.trans ⟨fun hbegan => ?_, hkept _⟩ (h.began n)
    rcases hmem _ hbegan with hbegan | hbegan | hbegan
    · exact hbegan
    · cases hbegan
    · cases hbegan
  · rw [hidle]
    refine Iff.trans ?_ (h.ended n)
    refine exists_congr fun ending => exists_congr fun isError => ⟨fun hended => ?_, hkept _⟩
    rcases hmem _ hended with hended | hended | hended
    · exact hended
    · cases hended
    · cases hended
  · refine h.pending.imp_right fun ⟨hstate, hpending⟩ => ⟨fun heq => hstate (hidle.mp heq), hpending⟩
  · refine h.notEnding (fun heq => hstate (hidle.mpr heq)) hpending ending ?_
    rcases hmem _ hsent with hsent | hsent | hsent
    · exact hsent
    · cases hsent
    · cases hsent
  · rcases hmem _ hsent with hsent | hsent | hsent
    · exact h.sent_le n ending hsent
    · cases hsent
    · cases hsent
  · rcases hmem _ hmark with hmark | hmark | hmark
    · exact h.marked_le n hmark
    · cases hmark
    · cases hmark
      exact le_refl _
  · have hcalled : Permitted s.trace (.called .setRollbackOnly s.state (State.mark s.state) none) := by
      cases hstate : s.state with
      | idle => exact Or.inr ⟨rfl, fun hne => absurd rfl hne⟩
      | rollbackOnly => exact Or.inr ⟨rfl, fun hne => absurd rfl hne⟩
      | active =>
          have hactive : s.state ≠ .idle := by simp [hstate]
          exact Or.inl ⟨s.begun, (h.unfinished_iff s.begun).mpr ⟨rfl, hactive⟩,
            h.notEnding hactive (hallowed hstate)⟩
    have htrace : s.setRollbackOnly.trace =
        s.trace ++ [.called .setRollbackOnly s.state (State.mark s.state) none] ++
          (s.current.map Output.marked).toList := rfl
    rw [htrace]
    cases s.current with
    | none =>
        rw [Option.map_none, Option.toList_none, List.append_nil]
        exact h.permitted.concat hcalled
    | some n => exact (h.permitted.concat hcalled).concat trivial

/-! ## Answers -/

/-- What concerns operations only: the state stays or is marked, and something about an operation
is added to the trace. -/
theorem Kept.operations (h : Kept s) {state : TxState}
    (hstate : state = s.state ∨ state = State.mark s.state) (operations : List Operation)
    {outputs : List Output}
    (houtputs : outputs = [] ∨ ∃ txn, outputs = [.failed txn] ∨ outputs = [.completed txn]) :
    Kept { s with state, operations, trace := s.trace ++ outputs } := by
  have hidle : state = .idle ↔ s.state = .idle := by
    rcases hstate with rfl | rfl
    · exact Iff.rfl
    · exact mark_eq_idle s.state
  have hactive : state = .active → s.state = .active := by
    rcases hstate with rfl | rfl
    · exact id
    · exact fun heq => absurd heq (mark_ne_active s.state)
  have hmem : ∀ output, (∀ txn, output ≠ .failed txn ∧ output ≠ .completed txn) →
      (output ∈ s.trace ++ outputs ↔ output ∈ s.trace) := by
    intro output hne
    refine List.mem_append.trans (or_iff_left ?_)
    rcases houtputs with rfl | ⟨txn, rfl | rfl⟩
    · exact List.not_mem_nil
    · exact fun hmem => (hne txn).1 (List.mem_singleton.mp hmem)
    · exact fun hmem => (hne txn).2 (List.mem_singleton.mp hmem)
  refine
    { began := fun n => (hmem _ (by simp)).trans (h.began n)
      ended := fun n => ?_
      begun_pos := fun hne => h.begun_pos fun heq => hne (hidle.mpr heq)
      pending := h.pending.imp_right fun ⟨hne, hpending⟩ => ⟨fun heq => hne (hidle.mp heq), hpending⟩
      notEnding := fun hne hpending ending hsent =>
        h.notEnding (fun heq => hne (hidle.mpr heq)) hpending ending ((hmem _ (by simp)).mp hsent)
      sent_le := fun n ending hsent => h.sent_le n ending ((hmem _ (by simp)).mp hsent)
      marked_le := fun n hmark => h.marked_le n ((hmem _ (by simp)).mp hmark)
      notMarked := fun heq hmark => h.notMarked (hactive heq) ((hmem _ (by simp)).mp hmark)
      permitted := ?_ }
  · have hended : (∃ ending isError, .ended n ending isError ∈ s.trace ++ outputs) ↔
        ∃ ending isError, .ended n ending isError ∈ s.trace :=
      exists_congr fun ending => exists_congr fun isError => hmem _ (by simp)
    exact hended.trans ((h.ended n).trans (by rw [hidle]))
  · rcases houtputs with rfl | ⟨txn, rfl | rfl⟩
    · rw [List.append_nil]
      exact h.permitted
    · exact h.permitted.concat trivial
    · exact h.permitted.concat trivial

/-- The commit or rollback that is in progress has completed. -/
theorem Kept.finish (h : Kept s) {i n : ℕ} {ending : Ending} (isError : Bool)
    (hpending : s.pending[i]? = some (n, ending)) : Kept (s.finish i n ending isError) := by
  obtain ⟨hactive, other, hsingle⟩ : s.state ≠ .idle ∧ ∃ other, s.pending = [(s.begun, other)] := by
    rcases h.pending with hempty | hsingle
    · rw [hempty] at hpending
      simp at hpending
    · exact hsingle
  obtain ⟨rfl, hn⟩ : i = 0 ∧ (s.begun, other) = (n, ending) := by
    rw [hsingle] at hpending
    cases i with
    | zero => exact ⟨rfl, Option.some.inj hpending⟩
    | succ i => simp at hpending
  obtain ⟨rfl, rfl⟩ := Prod.mk.inj hn
  refine
    { began := fun m => ?_
      ended := fun m => ?_
      begun_pos := fun hne => absurd rfl hne
      pending := Or.inl ?_
      notEnding := fun hne => absurd rfl hne
      sent_le := fun m sent hmem => h.sent_le m sent (by simpa [State.finish] using hmem)
      marked_le := fun m hmem => h.marked_le m (by simpa [State.finish] using hmem)
      notMarked := fun heq => nomatch heq
      permitted := h.permitted.concat trivial }
  · simpa [State.finish] using h.began m
  · have hended := h.ended m
    have hmem : (∃ sent error, Output.ended m sent error ∈ (s.finish 0 s.begun other isError).trace) ↔
        (∃ sent error, .ended m sent error ∈ s.trace) ∨ m = s.begun := by
      simp only [State.finish, List.mem_append, List.mem_singleton, Output.ended.injEq, exists_or]
      refine or_congr_right ⟨?_, fun heq => ⟨_, _, heq, rfl, rfl⟩⟩
      rintro ⟨_, _, heq, -⟩
      exact heq
    have hpos := h.begun_pos hactive
    rw [hmem, hended]
    refine Iff.trans ?_ (and_iff_left fun _ => rfl).symm
    change _ ↔ 1 ≤ m ∧ m ≤ s.begun
    constructor
    · rintro (⟨hbound, -⟩ | rfl)
      · exact hbound
      · exact ⟨hpos, le_refl _⟩
    · intro hbound
      by_cases hm : m = s.begun
      · exact Or.inr hm
      · exact Or.inl ⟨hbound, fun heq => absurd heq hm⟩
  · rw [State.finish, hsingle]
    rfl

/-! ## Runs -/

theorem Kept.step {event : Event} (h : Kept s) (hallowed : Allowed s event)
    (hnext : step s event = some next) : Kept next := by
  cases event with
  | call call =>
      cases hnext
      cases call with
      | begin => exact h.begin
      | commit => exact h.commit hallowed
      | rollback => exact h.rollback hallowed
      | setRollbackOnly => exact h.setRollbackOnly hallowed
  | operate kind =>
      cases hnext
      have hkept := h.operations (Or.inl rfl) (s.operations ++ [{ kind, txn := s.current }])
        (Or.inl rfl)
      rwa [List.append_nil] at hkept
  | build i =>
      obtain ⟨op, -, hop⟩ := Option.bind_eq_some_iff.mp hnext
      split_ifs at hop
      cases hop
      have hkept := h.operations (Or.inl rfl) (s.build i op).operations (Or.inl rfl)
      rwa [List.append_nil] at hkept
  | reject i =>
      obtain ⟨op, -, hop⟩ := Option.bind_eq_some_iff.mp hnext
      split_ifs at hop
      cases hop
      exact h.operations (Or.inl rfl) _ (Or.inr ⟨op.txn, Or.inl rfl⟩)
  | onResult i sqlstate =>
      obtain ⟨op, -, hop⟩ := Option.bind_eq_some_iff.mp hnext
      split_ifs at hop
      cases hop
      refine h.operations ?_ _ (Or.inr ⟨op.txn, ?_⟩)
      · split_ifs
        · exact Or.inr rfl
        · exact Or.inl rfl
      · split_ifs
        · exact Or.inl rfl
        · exact Or.inr rfl
  | finish i isError =>
      obtain ⟨⟨n, ending⟩, hpending, heq⟩ := Option.map_eq_some_iff.mp hnext
      cases heq
      exact h.finish isError hpending

/-- In every run in which no transaction is ended or marked while it is being ended, nor committed
after a failure that did not mark it, the transaction is lawful in every state. -/
theorem lawful_of_guarded {events : List Event} (hguarded : Guarded step Allowed {} events)
    (hrun : run step {} events = some s) : Lawful s :=
  (invariant_of_guarded Kept (fun _ _ _ h hallowed hnext => h.step hallowed hnext) kept_start
    hguarded hrun).lawful

/-- Two transactions.  In the first one an operation fails, and commit is refused. -/
def twoTransactions : List Event :=
  [.call .begin, .operate .persist, .build 0, .onResult 0 (some "23000"), .call .commit,
    .call .rollback, .call .begin, .finish 0 false, .call .begin, .operate .query, .build 0,
    .onResult 0 none, .call .commit, .call .begin, .finish 0 true]

theorem lawful_of_guarded_two : ∃ s, run step {} twoTransactions = some s ∧ Lawful s :=
  have hguarded : Guarded step Allowed {} twoTransactions := by decide
  ⟨_, rfl, lawful_of_guarded hguarded rfl⟩

/-- A second commit is sent while the first one is in progress. -/
theorem commits_twice : ∃ s,
    run step {} [.call .begin, .call .commit, .call .commit] = some s ∧ ¬ Lawful s := by
  refine ⟨_, rfl, fun hlawful => ?_⟩
  have hsent := hlawful.permitted
    [.called .begin .idle .active none, .began 1, .called .commit .active .active none,
      .sent 1 .commit, .called .commit .active .active none] (.sent 1 .commit) (List.prefix_refl _)
  exact hsent.2.1 .commit (by decide)

end DatabaseJones.ApiTransaction
