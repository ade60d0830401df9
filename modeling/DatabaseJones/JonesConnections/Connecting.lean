import DatabaseJones.JonesConnections.Factories

/-!
# Connecting

The first request for a key makes a connection and the others wait at it.  When the service
provider answers, the connection has a pool and a factory or has failed, and the requests that
waited are told.
-/

namespace DatabaseJones.JonesConnections

open DatabaseJones.Library

variable {s : State} {c r i key : ℕ} {hand calls : List ℕ}

/-! ## A new request -/

/-- A request that has a connection is in the hand. -/
theorem Kept.request (h : Kept s [] []) (request : Request) :
    Kept { s.emit (.requested s.requested) with
      requested := s.requested + 1
      requests := Function.update s.requests s.requested request } [s.requested] [] := by
  have hmem : ∀ output, output ≠ .requested s.requested →
      (output ∈ s.trace ++ [.requested s.requested] ↔ output ∈ s.trace) := by
    intro output hne
    simp [hne]
  have hcount : ∀ output : Output, output ≠ .requested s.requested →
      (s.trace ++ [Output.requested s.requested]).count output = s.trace.count output := by
    intro output hne
    rw [List.count_append, List.count_singleton, if_neg (by simpa using hne.symm), Nat.add_zero]
  have hnot : .requested s.requested ∉ s.trace := fun hrequested =>
    absurd ((h.requested _).mp hrequested) (lt_irrefl _)
  have hledger := h.ledger s.requested
  rw [List.count_eq_zero_of_not_mem hnot] at hledger
  have hne : ∀ other, 0 < s.places [] other → other ≠ s.requested := by
    rintro other hpos rfl
    omega
  have hold : ∀ other, 0 < s.places [] other ∨ 0 < callbacks other s.trace →
      Function.update s.requests s.requested request other = s.requests other := by
    rintro other hpos
    refine Function.update_of_ne ?_ ..
    rintro rfl
    omega
  refine
    { h with
      requested := fun other => ?_
      requestedOnce := fun other => ?_
      opening := fun other => (hmem _ (by simp)).trans (h.opening other)
      failed := fun other => (hmem _ (by simp)).trans (h.failed other)
      closed := fun other => (hmem _ (by simp)).trans (h.closed other)
      closedOnce := fun other => (hcount _ (by simp)).trans_le (h.closedOnce other)
      factoryCreated := fun other => (hmem _ (by simp)).trans (h.factoryCreated other)
      factoryDeleted := fun other => (hmem _ (by simp)).trans (h.factoryDeleted other)
      results := fun other result hresult => ?_
      received := fun other f hreceived => h.received other f ((hmem _ (by simp)).mp hreceived)
      ledger := fun other => ?_
      requestConnection := fun entry hentry other hother => ?_
      notifying := fun entry hentry => ?_
      active := fun other hactive => ?_
      closeCalled := fun other => (hmem _ (by simp)).trans (h.closeCalled other)
      permitted := h.permitted.concat trivial }
  · have hrequested := h.requested other
    simp only [State.emit, List.mem_append, List.mem_singleton, Output.requested.injEq, hrequested]
    omega
  · have honce := h.requestedOnce other
    change (s.trace ++ [Output.requested s.requested]).count _ ≤ 1
    rw [List.count_append, List.count_singleton]
    split_ifs with heq
    · have heq : s.requested = other := by simpa using heq
      rw [← heq, List.count_eq_zero_of_not_mem hnot]
    · exact honce
  · have hresult := (hmem _ (by simp)).mp hresult
    change _ → (s.connections (Function.update s.requests s.requested request other).connection).dbConnectionPool =
      true
    rw [hold other (Or.inr (callbacks_pos hresult))]
    exact h.results other result hresult
  · have hledger := h.ledger other
    change (s.trace ++ [Output.requested s.requested]).count _ =
      callbacks other (s.trace ++ [Output.requested s.requested]) + s.places [s.requested] other
    rw [callbacks_append, callbacks_singleton (by simp), List.count_append, hledger]
    unfold State.places
    simp only [List.count_cons, List.count_nil, beq_iff_eq, Output.requested.injEq]
    omega
  · change (Function.update s.requests s.requested request other).connection = entry.1
    rw [hold other (Or.inl ?_)]
    · exact h.requestConnection entry hentry other hother
    · have hpending : other ∈ pending s.waitingForConnection s.connects :=
        List.mem_flatMap.mpr ⟨entry, hentry, hother⟩
      have := List.count_pos_iff.mpr hpending
      unfold State.places
      omega
  · change (Function.update s.requests s.requested request entry.1).connection < _ ∧
      (s.connections (Function.update s.requests s.requested request entry.1).connection).isConnecting =
        false ∧ if entry.2 = true then
          (s.connections (Function.update s.requests s.requested request entry.1).connection).dbConnectionPool =
            false
        else (s.connections (Function.update s.requests s.requested request entry.1).connection).dbConnectionPool =
            true ∧ ¬ s.Closed (Function.update s.requests s.requested request entry.1).connection
    rw [hold entry.1 (Or.inl ?_)]
    · exact h.notifying entry hentry
    · have : 0 < tally Prod.fst entry.1 s.notifying := tally_pos hentry
      unfold State.places
      omega
  · change _ ∧ _ = (Function.update s.requests s.requested request other).connection ∧
      ¬ s.Closed (Function.update s.requests s.requested request other).connection
    rw [hold other (Or.inl (State.places_pos_of_active [] hactive))]
    exact h.active other hactive

/-- The first request for a key. -/
theorem Kept.newConnection (h : Kept s (r :: hand) calls)
    (hconnection : (s.requests r).connection = s.created) (hnone : s.jonesConnections key = none) :
    Kept { s.emit (.poolOpening s.created) with
      connections := Function.update s.connections s.created { connectionKey := key }
      created := s.created + 1
      jonesConnections := Function.update s.jonesConnections key (some s.created)
      connects := s.connects ++ [(s.created, r)] } hand calls := by
  obtain ⟨hdefault, hwaiting⟩ := h.fresh s.created (le_refl _)
  have hmem : ∀ output, output ≠ .poolOpening s.created →
      (output ∈ s.trace ++ [.poolOpening s.created] ↔ output ∈ s.trace) := by
    intro output hne
    simp [hne]
  have hcount : ∀ output : Output, output ≠ .poolOpening s.created →
      (s.trace ++ [Output.poolOpening s.created]).count output = s.trace.count output := by
    intro output hne
    rw [List.count_append, List.count_singleton, if_neg (by simpa using hne.symm), Nat.add_zero]
  obtain ⟨connections, hconnections⟩ : ∃ connections, connections =
      Function.update s.connections s.created ({ connectionKey := key } : Connection) := ⟨_, rfl⟩
  have hself : connections s.created = { connectionKey := key } := by
    rw [hconnections, Function.update_self]
  have hother : ∀ d, d ≠ s.created → connections d = s.connections d := by
    intro d hd
    rw [hconnections, Function.update_of_ne hd]
  -- Apart from its key, the new connection is what it was before.
  have hsame : ∀ d, (connections d).factories = (s.connections d).factories ∧
      (connections d).count = (s.connections d).count ∧
      (connections d).isConnecting = (s.connections d).isConnecting ∧
      (connections d).dbConnectionPool = (s.connections d).dbConnectionPool := by
    intro d
    by_cases hd : d = s.created
    · rw [hd, hself, hdefault]
      exact ⟨rfl, rfl, rfl, rfl⟩
    · rw [hother d hd]
      exact ⟨rfl, rfl, rfl, rfl⟩
  have hclosed : ∀ d, State.Closed { s with connections := connections } d ↔ s.Closed d := by
    intro d
    unfold State.Closed
    rw [(hsame d).1, (hsame d).2.2.2]
  have hhas : ∀ g, State.Has { s with connections := connections } g ↔ s.Has g := by
    intro g
    unfold State.Has
    rw [(hsame _).1]
  have hnotClosed : ¬ s.Closed s.created := by
    rintro ⟨hpool, -⟩
    rw [hdefault] at hpool
    cases hpool
  rw [← hconnections]
  refine
    { h with
      counted := fun d => ?_
      databases := fun d => (hsame d).1.symm ▸ h.databases d
      fresh := fun d hd => ?_
      connects := fun d => ?_
      connects_nodup := ?_
      connecting := fun d hd => (hsame d).2.2.2.trans (h.connecting d ((hsame d).2.2.1.symm.trans hd))
      hasPool := fun d => (hsame d).2.2.2.symm ▸ h.hasPool d
      registry := fun other d => ?_
      registered := fun d entry hentry => h.registered d entry ((hsame d).1 ▸ hentry)
      requested := fun other => (hmem _ (by simp)).trans (h.requested other)
      requestedOnce := fun other => (hcount _ (by simp)).trans_le (h.requestedOnce other)
      opening := fun d => ?_
      failed := fun d => ?_
      closed := fun d => ((hmem _ (by simp)).trans (h.closed d)).trans (hclosed d).symm
      closedOnce := fun d => (hcount _ (by simp)).trans_le (h.closedOnce d)
      factoryCreated := fun g => (hmem _ (by simp)).trans (h.factoryCreated g)
      factoryDeleted := fun g => ?_
      results := fun other result hresult hne => ?_
      received := fun other f hreceived => h.received other f ((hmem _ (by simp)).mp hreceived)
      ledger := fun other => ?_
      requestConnection := fun entry hentry other hother' => ?_
      notifying := fun entry hentry => ?_
      active := fun other hactive => ?_
      closeCalled := fun g => (hmem _ (by simp)).trans (h.closeCalled g)
      deletes := fun n hn => (hhas _).trans (h.deletes n hn)
      deleted := fun g hg hnot => h.deleted g hg fun hold => hnot ((hhas g).mpr hold)
      permitted := h.permitted.concat trivial }
  · dsimp only
    rw [(hsame d).1, (hsame d).2.1]
    exact h.counted d
  · change s.created + 1 ≤ d at hd
    change connections d = {} ∧ s.waitingForConnection d = []
    rw [hother d (by omega)]
    exact h.fresh d (by omega)
  · have hconnects := h.connects d
    simp only [List.map_append, List.map_singleton, List.mem_append, List.mem_singleton, hconnects,
      (hsame d).2.2.1]
    constructor
    · rintro (⟨hd, hconnecting⟩ | rfl)
      · exact ⟨by omega, hconnecting⟩
      · exact ⟨by omega, by rw [hdefault]⟩
    · rintro ⟨hd, hconnecting⟩
      rcases Nat.lt_succ_iff_lt_or_eq.mp hd with hd | rfl
      · exact Or.inl ⟨hd, hconnecting⟩
      · exact Or.inr rfl
  · change ((s.connects ++ [(s.created, r)]).map Prod.fst).Nodup
    rw [List.map_append, List.nodup_append]
    refine ⟨h.connects_nodup, List.nodup_singleton _, ?_⟩
    rintro other hmem' _ hsingle rfl
    rw [List.mem_singleton.mp hsingle] at hmem'
    exact absurd ((h.connects _).mp hmem').1 (lt_irrefl _)
  · change Function.update s.jonesConnections key (some s.created) other = some d ↔
      d < s.created + 1 ∧ (connections d).connectionKey = other ∧
        ¬ State.Closed { s with connections := connections } d
    rw [hclosed]
    by_cases hd : d = s.created
    · subst hd
      rw [hself]
      by_cases hother' : other = key
      · rw [hother', Function.update_self]
        simp [hnotClosed]
      · rw [Function.update_of_ne hother', h.registry]
        simp [Ne.symm hother']
    · rw [hother d hd]
      by_cases hother' : other = key
      · -- No connection with the key is open.
        rw [hother', Function.update_self]
        refine iff_of_false (fun heq => hd (Option.some.inj heq).symm) ?_
        rintro ⟨hlt, hkey, hopen⟩
        have hsome := (h.registry key d).mpr ⟨by omega, hkey, hopen⟩
        rw [hnone] at hsome
        cases hsome
      · rw [Function.update_of_ne hother', h.registry]
        have hlt : d < s.created + 1 ↔ d < s.created := by omega
        rw [hlt]
  · have hopening := h.opening d
    simp only [State.emit, List.mem_append, List.mem_singleton, hopening, Output.poolOpening.injEq]
    omega
  · change .poolFailed d ∈ s.trace ++ [Output.poolOpening s.created] ↔ d < s.created + 1 ∧ _ ∧ _
    dsimp only
    rw [hmem _ (by simp), h.failed, (hsame d).2.2.1, (hsame d).2.2.2]
    refine ⟨fun hd => ⟨by omega, hd.2⟩, fun hd => ⟨?_, hd.2⟩⟩
    have hne : d ≠ s.created := by
      rintro rfl
      rw [hdefault] at hd
      exact absurd hd.2.1 (by simp)
    omega
  · exact ((hmem _ (by simp)).trans (h.factoryDeleted g)).trans
      (and_congr_right fun _ => not_congr (hhas g).symm)
  · dsimp only
    rw [(hsame _).2.2.2]
    exact h.results other result ((hmem _ (by simp)).mp hresult) hne
  · have hledger := h.ledger other
    change (s.trace ++ [Output.poolOpening s.created]).count _ =
      callbacks other (s.trace ++ [Output.poolOpening s.created]) + _
    rw [hcount _ (by simp), callbacks_append, callbacks_singleton (by simp)]
    unfold State.places at hledger ⊢
    simp only [pending, List.flatMap_append, List.flatMap_singleton, hwaiting, List.count_append,
      List.count_cons, List.count_nil, State.emit] at hledger ⊢
    omega
  · rcases List.mem_append.mp hentry with hentry | hentry
    · exact h.requestConnection entry hentry other hother'
    · rw [List.mem_singleton.mp hentry] at hother' ⊢
      change other ∈ r :: s.waitingForConnection s.created at hother'
      rw [hwaiting, List.mem_singleton] at hother'
      rw [hother']
      exact hconnection
  · obtain ⟨hlt, hanswered, hpool⟩ := h.notifying entry hentry
    dsimp only
    rw [(hsame _).2.2.1, (hsame _).2.2.2]
    change _ < s.created + 1 ∧ _ ∧ if entry.2 = true then _ else _ ∧
      ¬ State.Closed { s with connections := connections } _
    rw [hclosed]
    exact ⟨Nat.lt_succ_of_lt hlt, hanswered, hpool⟩
  · obtain ⟨hf, hfc, hopen⟩ := h.active other hactive
    exact ⟨hf, hfc, fun hold => hopen ((hclosed _).mp hold)⟩

/-- A request waits for a connection that has not been answered. -/
theorem Kept.wait (h : Kept s (r :: hand) calls) (hconnection : (s.requests r).connection = c)
    (hconnecting : c ∈ s.connects.map Prod.fst) :
    Kept { s with waitingForConnection :=
      Function.update s.waitingForConnection c (s.waitingForConnection c ++ [r]) } hand calls := by
  have hcount : ∀ (connects : List (ℕ × ℕ)) other, (connects.map Prod.fst).Nodup →
      (pending (Function.update s.waitingForConnection c (s.waitingForConnection c ++ [r]))
        connects).count other = (pending s.waitingForConnection connects).count other +
          if c ∈ connects.map Prod.fst then [r].count other else 0 := by
    intro connects other hnodup
    induction connects with
    | nil => rfl
    | cons entry connects ih =>
        rw [List.map_cons, List.nodup_cons] at hnodup
        have hrest := ih hnodup.2
        simp only [pending, List.flatMap_cons, List.count_append, List.count_cons, List.map_cons,
          List.mem_cons] at hrest ⊢
        by_cases heq : c = entry.1
        · rw [if_neg (heq ▸ hnodup.1)] at hrest
          rw [← heq, Function.update_self, if_pos (Or.inl rfl), List.count_append]
          simp only [List.count_cons, List.count_nil] at hrest ⊢
          omega
        · rw [Function.update_of_ne (Ne.symm heq)]
          simp only [heq, false_or]
          omega
  refine
    { h with
      fresh := fun d hd => ?_
      ledger := fun other => ?_
      requestConnection := fun entry hentry other hother => ?_ }
  · obtain ⟨hdefault, hwaiting⟩ := h.fresh d hd
    have hne : d ≠ c := by
      rintro rfl
      exact absurd ((h.connects _).mp hconnecting).1 (Nat.not_lt_of_le hd)
    exact ⟨hdefault, (Function.update_of_ne hne ..).trans hwaiting⟩
  · have hledger := h.ledger other
    unfold State.places at hledger ⊢
    dsimp only
    rw [hcount s.connects other h.connects_nodup, if_pos hconnecting]
    simp only [List.count_cons, List.count_nil] at hledger ⊢
    omega
  · change other ∈ entry.2 :: Function.update s.waitingForConnection c _ entry.1 at hother
    by_cases heq : entry.1 = c
    · rw [heq, Function.update_self, ← List.cons_append, List.mem_append, List.mem_singleton] at hother
      rcases hother with hother | rfl
      · rw [← heq] at hother
        exact h.requestConnection entry hentry other hother
      · exact hconnection.trans heq.symm
    · rw [Function.update_of_ne heq] at hother
      exact h.requestConnection entry hentry other hother

theorem Kept.getSessionFactory (h : Kept s [] []) (key database : ℕ) (tableMappings : Bool) :
    Kept (s.getSessionFactory key database tableMappings) [] [] := by
  unfold State.getSessionFactory
  dsimp only
  cases hkey : s.jonesConnections key with
  | none =>
      have hrequest := h.request
        { connection := s.created, database := database, tableMappings := tableMappings }
      refine hrequest.newConnection ?_ hkey
      change (Function.update s.requests s.requested _ s.requested).connection = _
      rw [Function.update_self]
      rfl
  | some c =>
      obtain ⟨hc, -, hopen⟩ := (h.registry key c).mp hkey
      have hrequest := h.request
        { connection := c, database := database, tableMappings := tableMappings }
      have hconnection : (Function.update s.requests s.requested
          { connection := c, database := database, tableMappings := tableMappings }
          s.requested).connection = c := by
        rw [Function.update_self]
      dsimp only
      split_ifs with hconnecting hunusable
      · exact hrequest.wait hconnection ((h.connects c).mpr ⟨hc, hconnecting⟩)
      · exact hrequest.callback (fun hne => absurd rfl hne) fun f hf => nomatch hf
      · -- The connection has been answered, and has a pool unless it has failed.
        have hpool : (s.connections c).dbConnectionPool = true := by
          by_contra hpool
          rw [Bool.not_eq_true] at hpool
          have hnone : (s.factory? c database).isNone = true := by
            rw [Option.isNone_iff_eq_none, factory?_eq_none]
            intro hmem
            obtain ⟨entry, hentry, -⟩ := List.mem_map.mp hmem
            obtain ⟨hf, hfc, -⟩ := h.registered c entry hentry
            have hsome := (h.hasPool c).mpr ⟨_, hf, hfc⟩
            rw [hpool] at hsome
            cases hsome
          exact hunusable (by rw [hnone, hpool]; rfl)
        refine hrequest.useFactory ?_ ?_
        · rw [hconnection]
          exact hpool
        · rw [hconnection]
          exact hopen

/-! ## The answer -/

/-- The requests that waited at a connection are told one after the other. -/
theorem Kept.notifyAll {waiting : List ℕ} (h : Kept s (waiting ++ hand) calls) (error : Bool)
    (hwaiting : ∀ r ∈ waiting, (s.requests r).connection < s.created ∧
      (s.connections (s.requests r).connection).isConnecting = false ∧
      if error = true then (s.connections (s.requests r).connection).dbConnectionPool = false
      else (s.connections (s.requests r).connection).dbConnectionPool = true ∧
        ¬ s.Closed (s.requests r).connection) :
    Kept { s with notifying := s.notifying ++ waiting.map fun r => (r, error) } hand calls := by
  refine { h with ledger := fun other => ?_, notifying := fun entry hentry => ?_ }
  · have hledger := h.ledger other
    have htally : tally Prod.fst other (waiting.map fun r => (r, error)) = waiting.count other := by
      rw [tally, List.countP_map, List.count]
      exact List.countP_congr fun r _ => by simp
    unfold State.places at hledger ⊢
    simp only [List.count_append, tally_append, htally] at hledger ⊢
    omega
  · rcases List.mem_append.mp hentry with hentry | hentry
    · exact h.notifying entry hentry
    · obtain ⟨r, hr, rfl⟩ := List.mem_map.mp hentry
      exact hwaiting r hr

/-- Taking out the entry of one connection. -/
theorem count_pending_eraseIdx (waitingForConnection : ℕ → List ℕ) {connects : List (ℕ × ℕ)}
    (hi : connects[i]? = some (c, r)) (other : ℕ) :
    (pending waitingForConnection (connects.eraseIdx i)).count other +
      (waitingForConnection c ++ [r]).count other =
        (pending waitingForConnection connects).count other := by
  obtain ⟨hlt, heq⟩ := List.getElem?_eq_some_iff.mp hi
  have hperm := (List.getElem_cons_eraseIdx_perm hlt).flatMap_right
    fun entry : ℕ × ℕ => entry.2 :: waitingForConnection entry.1
  rw [pending, pending, ← hperm.count_eq, heq, List.flatMap_cons]
  simp only [List.count_append, List.count_cons, List.count_nil]
  omega

/-- The service provider could not connect. -/
theorem Kept.fail (h : Kept s [] []) (hi : s.connects[i]? = some (c, r)) :
    Kept { s with
      connects := s.connects.eraseIdx i
      connections := Function.update s.connections c { s.connections c with isConnecting := false }
      trace := s.trace ++ [.poolFailed c] } (s.waitingForConnection c ++ [r]) [] := by
  obtain ⟨hc, hconnecting⟩ :=
    (h.connects c).mp (List.mem_map_of_mem (List.mem_of_getElem? hi))
  have hmem : ∀ output, output ≠ .poolFailed c →
      (output ∈ s.trace ++ [.poolFailed c] ↔ output ∈ s.trace) := by
    intro output hne
    simp [hne]
  have hcount : ∀ output : Output, output ≠ .poolFailed c →
      (s.trace ++ [Output.poolFailed c]).count output = s.trace.count output := by
    intro output hne
    rw [List.count_append, List.count_singleton, if_neg (by simpa using hne.symm), Nat.add_zero]
  obtain ⟨connections, hconnections⟩ : ∃ connections, connections =
      Function.update s.connections c { s.connections c with isConnecting := false } := ⟨_, rfl⟩
  have hself : connections c = { s.connections c with isConnecting := false } := by
    rw [hconnections, Function.update_self]
  have hother : ∀ d, d ≠ c → connections d = s.connections d := by
    intro d hd
    rw [hconnections, Function.update_of_ne hd]
  have hsame : ∀ d, (connections d).factories = (s.connections d).factories ∧
      (connections d).count = (s.connections d).count ∧
      (connections d).connectionKey = (s.connections d).connectionKey ∧
      (connections d).dbConnectionPool = (s.connections d).dbConnectionPool := by
    intro d
    by_cases hd : d = c
    · rw [hd, hself]
      exact ⟨rfl, rfl, rfl, rfl⟩
    · rw [hother d hd]
      exact ⟨rfl, rfl, rfl, rfl⟩
  have hanswered : ∀ d, (connections d).isConnecting = true ↔
      (s.connections d).isConnecting = true ∧ d ≠ c := by
    intro d
    by_cases hd : d = c
    · rw [hd, hself]
      simp
    · rw [hother d hd]
      simp [hd]
  have hclosed : ∀ d, State.Closed { s with connections := connections } d ↔ s.Closed d := by
    intro d
    unfold State.Closed
    rw [(hsame d).1, (hsame d).2.2.2]
  have hhas : ∀ g, State.Has { s with connections := connections } g ↔ s.Has g := by
    intro g
    unfold State.Has
    rw [(hsame _).1]
  rw [← hconnections]
  refine
    { h with
      counted := fun d => ?_
      databases := fun d => (hsame d).1.symm ▸ h.databases d
      fresh := fun d hd => ?_
      connects := fun d => ?_
      connects_nodup := nodup_map_eraseIdx h.connects_nodup i
      connecting := fun d hd =>
        (hsame d).2.2.2.trans (h.connecting d ((hanswered d).mp hd).1)
      hasPool := fun d => (hsame d).2.2.2.symm ▸ h.hasPool d
      registry := fun key d => ?_
      registered := fun d entry hentry => h.registered d entry ((hsame d).1 ▸ hentry)
      requested := fun other => (hmem _ (by simp)).trans (h.requested other)
      requestedOnce := fun other => (hcount _ (by simp)).trans_le (h.requestedOnce other)
      opening := fun d => (hmem _ (by simp)).trans (h.opening d)
      failed := fun d => ?_
      closed := fun d => ((hmem _ (by simp)).trans (h.closed d)).trans (hclosed d).symm
      closedOnce := fun d => (hcount _ (by simp)).trans_le (h.closedOnce d)
      factoryCreated := fun g => (hmem _ (by simp)).trans (h.factoryCreated g)
      factoryDeleted := fun g => ?_
      results := fun other result hresult hne => ?_
      received := fun other f hreceived => h.received other f ((hmem _ (by simp)).mp hreceived)
      ledger := fun other => ?_
      requestConnection := fun entry hentry =>
        h.requestConnection entry (List.mem_of_mem_eraseIdx hentry)
      notifying := fun entry hentry => ?_
      active := fun other hactive => ?_
      closeCalled := fun g => (hmem _ (by simp)).trans (h.closeCalled g)
      deletes := fun n hn => (hhas _).trans (h.deletes n hn)
      deleted := fun g hg hnot => h.deleted g hg fun hold => hnot ((hhas g).mpr hold)
      permitted := h.permitted.concat trivial }
  · dsimp only
    rw [(hsame d).1, (hsame d).2.1]
    exact h.counted d
  · have hne : d ≠ c := by
      change s.created ≤ d at hd
      omega
    change connections d = {} ∧ _
    rw [hother d hne]
    exact h.fresh d hd
  · dsimp only
    rw [mem_map_eraseIdx hi h.connects_nodup, h.connects, hanswered]
    exact and_assoc
  · dsimp only
    rw [h.registry, (hsame d).2.2.1]
    exact and_congr_right fun _ => and_congr_right fun _ => not_congr (hclosed d).symm
  · change .poolFailed d ∈ s.trace ++ [Output.poolFailed c] ↔ d < s.created ∧ _ ∧ _
    dsimp only
    by_cases hd : d = c
    · rw [hd, hself]
      have hnoPool := h.connecting c hconnecting
      simp [hc, hnoPool]
    · rw [hother d hd, hmem _ (by simpa using hd)]
      exact h.failed d
  · exact ((hmem _ (by simp)).trans (h.factoryDeleted g)).trans
      (and_congr_right fun _ => not_congr (hhas g).symm)
  · dsimp only
    rw [(hsame _).2.2.2]
    exact h.results other result ((hmem _ (by simp)).mp hresult) hne
  · have hledger := h.ledger other
    have hpending := count_pending_eraseIdx s.waitingForConnection hi other
    change (s.trace ++ [Output.poolFailed c]).count _ =
      callbacks other (s.trace ++ [Output.poolFailed c]) + _
    rw [hcount _ (by simp), callbacks_append, callbacks_singleton (by simp)]
    unfold State.places at hledger ⊢
    dsimp only
    rw [List.count_nil] at hledger
    omega
  · obtain ⟨hlt, hconnected, hpool⟩ := h.notifying entry hentry
    have hne : (s.requests entry.1).connection ≠ c := by
      intro heq
      rw [heq, hconnecting] at hconnected
      cases hconnected
    change _ ∧ _ ∧ if entry.2 = true then _ else _ ∧
      ¬ State.Closed { s with connections := connections } _
    dsimp only
    rw [hother _ hne, hclosed]
    exact ⟨hlt, hconnected, hpool⟩
  · obtain ⟨hf, hfc, hopen⟩ := h.active other hactive
    exact ⟨hf, hfc, fun hold => hopen ((hclosed _).mp hold)⟩

theorem Kept.dbConnectionPoolCreated (h : Kept s [] []) (hi : s.connects[i]? = some (c, r))
    (success : Bool) : Kept (s.dbConnectionPoolCreated i c r success) [] [] := by
  have hentry := List.mem_of_getElem? hi
  obtain ⟨hc, hconnecting⟩ := (h.connects c).mp (List.mem_map_of_mem hentry)
  have hrequests : ∀ other ∈ r :: s.waitingForConnection c, (s.requests other).connection = c :=
    h.requestConnection (c, r) hentry
  have hnoPool := h.connecting c hconnecting
  have hnil : (s.connections c).factories = [] := by
    refine List.eq_nil_iff_forall_not_mem.mpr fun entry hentry => ?_
    obtain ⟨hf, hfc, -⟩ := h.registered c entry hentry
    rw [(h.hasPool c).mpr ⟨_, hf, hfc⟩] at hnoPool
    cases hnoPool
  unfold State.dbConnectionPoolCreated
  dsimp only
  cases success with
  | false =>
      have hfailed : Kept _ [r] [] := (h.fail hi).notifyAll true fun other hother => ?_
      · rw [if_neg Bool.false_ne_true]
        exact hfailed.callback (fun hne => absurd rfl hne) fun f hf => nomatch hf
      · have hconnection := hrequests other (List.mem_cons_of_mem _ hother)
        dsimp only
        rw [hconnection, Function.update_self]
        exact ⟨hc, rfl, hnoPool⟩
  | true =>
      -- The connection has no factory yet, so one is created for the first request.
      have hnone : s.factory? c (s.requests r).database = none := by
        rw [factory?_eq_none, hnil]
        exact List.not_mem_nil
      have hopen : ¬ s.Closed c := by
        rintro ⟨hpool, -⟩
        rw [hnoPool] at hpool
        cases hpool
      have hcreated := h.createFactory hc hnone hopen (Or.inl hconnecting)
        (s.waitingForConnection c ++ [r]) (fun d => mem_map_eraseIdx hi h.connects_nodup)
        (nodup_map_eraseIdx h.connects_nodup i) (fun _ => List.mem_of_mem_eraseIdx)
        fun other => by
          rw [count_pending_eraseIdx s.waitingForConnection hi other, List.count_nil, Nat.add_zero]
      have htold : Kept _ [r] [] := hcreated.notifyAll false fun other hother => ?_
      · have hconnection : (s.requests r).connection = c := hrequests r List.mem_cons_self
        obtain ⟨answered, hanswered⟩ : ∃ answered, answered = State.modifyConnection { s with
            connects := s.connects.eraseIdx i
            notifying := s.notifying ++ (s.waitingForConnection c).map fun r => (r, false) } c
            fun connection =>
              { connection with isConnecting := false, dbConnectionPool := true } := ⟨_, rfl⟩
        have hempty : answered.factory? (answered.requests r).connection
            (answered.requests r).database = none := by
          rw [hanswered]
          change State.factory? _ (s.requests r).connection (s.requests r).database = none
          rw [hconnection, factory?_eq_none]
          simp [State.modifyConnection, hnil]
        rw [if_pos rfl]
        change Kept (State.useFactory (State.modifyConnection { s with
            connects := s.connects.eraseIdx i
            notifying := s.notifying ++ (s.waitingForConnection c).map fun r => (r, false) } c
            fun connection =>
              { connection with isConnecting := false, dbConnectionPool := true }) r) [] []
        rw [← hanswered, useFactory_of_none hempty, hanswered]
        refine Kept.resolve ?_ (Nat.lt_succ_self _) ?_ ?_
        · change Kept (State.createFactory _ (s.requests r).connection (s.requests r).database) _ _
          rw [hconnection]
          simpa [State.createFactory, State.modifyConnection, State.emit] using htold
        · change (Function.update s.factories s.factoriesCreated _ s.factoriesCreated).connection =
            (s.requests r).connection
          rw [Function.update_self]
          rfl
        · rintro ⟨-, hempty⟩
          simp [State.createFactory, State.modifyConnection, State.emit] at hempty
      · have hconnection := hrequests other (List.mem_cons_of_mem _ hother)
        dsimp only
        rw [hconnection, Function.update_self]
        refine ⟨hc, rfl, rfl, fun hclosed => ?_⟩
        have hclosed := hclosed.2
        dsimp only at hclosed
        rw [Function.update_self] at hclosed
        exact absurd hclosed (by simp)

theorem Kept.notify (h : Kept s [] []) {error : Bool} (hi : s.notifying[i]? = some (r, error)) :
    Kept (s.notify i r error) [] [] := by
  obtain ⟨-, -, hpool⟩ := h.notifying _ (List.mem_of_getElem? hi)
  have htold : Kept { s with notifying := s.notifying.eraseIdx i } [r] [] := by
    refine { h with ledger := fun other => ?_, notifying := fun entry hentry => ?_ }
    · have hledger := h.ledger other
      have htally := tally_eraseIdx hi Prod.fst other
      unfold State.places at hledger ⊢
      simp only [List.count_cons, List.count_nil, beq_iff_eq] at hledger htally ⊢
      omega
    · exact h.notifying entry (List.mem_of_mem_eraseIdx hentry)
  unfold State.notify
  dsimp only
  cases error with
  | true =>
      rw [if_pos rfl]
      exact htold.callback (fun hne => absurd rfl hne) fun f hf => by cases hf
  | false =>
      rw [if_neg Bool.false_ne_true]
      exact htold.useFactory hpool.1 hpool.2

end DatabaseJones.JonesConnections
