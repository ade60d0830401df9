import DatabaseJones.JonesConnections.Registry

/-!
# Requests for factories

A request is in the hand of the function that runs, and leaves it for a list, a slot or its
callback.  It is given a factory of its own connection, which has not been closed.
-/

namespace DatabaseJones.JonesConnections

open DatabaseJones.Library

variable {s : State} {c r f i : ℕ} {hand calls : List ℕ}

/-! ## The hand -/

theorem Kept.not_active_of_hand (h : Kept s (r :: hand) calls) : ¬ s.Active r := by
  intro hactive
  have hle := h.places_le r
  have hpos := State.places_pos_of_active [] hactive
  have hhand : s.places (r :: hand) r = s.places [] r + (hand.count r + 1) := by
    unfold State.places
    rw [List.count_cons_self, List.count_nil]
    omega
  omega

theorem Kept.requested_of_places (h : Kept s hand calls) (hplaces : 0 < s.places hand r) :
    r < s.requested := by
  refine (h.requested r).mp (List.count_pos_iff.mp ?_)
  have hledger := h.ledger r
  omega

/-- The callback of a request is called. -/
theorem Kept.callback (h : Kept s (r :: hand) calls) {result : Result}
    (hresult : result ≠ .poolError →
      (s.connections (s.requests r).connection).dbConnectionPool = true)
    (hfactory : ∀ f, result = .factory f →
      f < s.factoriesCreated ∧ ¬ s.Closed (s.factories f).connection) :
    Kept (s.emit (.callback r result)) hand calls := by
  have hmem : ∀ output, output ≠ .callback r result →
      (output ∈ s.trace ++ [.callback r result] ↔ output ∈ s.trace) := by
    intro output hne
    simp [hne]
  have hcount : ∀ output, output ≠ .callback r result →
      (s.trace ++ [Output.callback r result]).count output = s.trace.count output := by
    intro output hne
    rw [List.count_append, List.count_singleton, if_neg (by simpa using hne.symm), Nat.add_zero]
  refine
    { h with
      requested := fun other => (hmem _ (by simp)).trans (h.requested other)
      requestedOnce := fun other => (hcount _ (by simp)).trans_le (h.requestedOnce other)
      opening := fun other => (hmem _ (by simp)).trans (h.opening other)
      failed := fun other => (hmem _ (by simp)).trans (h.failed other)
      closed := fun other => (hmem _ (by simp)).trans (h.closed other)
      closedOnce := fun other => (hcount _ (by simp)).trans_le (h.closedOnce other)
      factoryCreated := fun other => (hmem _ (by simp)).trans (h.factoryCreated other)
      factoryDeleted := fun other => (hmem _ (by simp)).trans (h.factoryDeleted other)
      results := fun other answer hanswer hne => ?_
      received := fun other factory hreceived => ?_
      ledger := fun other => ?_
      closeCalled := fun other => (hmem _ (by simp)).trans (h.closeCalled other)
      permitted := h.permitted.concat ?_ }
  · rcases List.mem_append.mp hanswer with hanswer | hanswer
    · exact h.results other answer hanswer hne
    · cases List.mem_singleton.mp hanswer
      exact hresult hne
  · rcases List.mem_append.mp hreceived with hreceived | hreceived
    · exact h.received other factory hreceived
    · cases List.mem_singleton.mp hreceived
      exact (hfactory factory rfl).1
  · have hledger := h.ledger other
    change (s.trace ++ [_]).count _ = callbacks other (s.trace ++ [_]) + s.places hand other
    rw [hcount (.requested other) (by simp), callbacks_append, callbacks_callback]
    unfold State.places at hledger ⊢
    rw [List.count_cons] at hledger
    simp only [beq_iff_eq] at hledger
    omega
  · cases result with
    | factory factory => exact fun hclosed => (hfactory factory rfl).2 ((h.closed _).mp hclosed)
    | _ => trivial

/-! ## Resolving mappings -/

/-- A request with table mappings takes a slot of its factory. -/
theorem Kept.reserve (h : Kept s (r :: hand) calls) (hf : f < s.factoriesCreated)
    (hconnection : (s.factories f).connection = (s.requests r).connection)
    (hopen : ¬ s.Closed (s.requests r).connection) :
    Kept { s.put f (firstFree .null (s.sessions f)) (.placeholder r) with
      factory := Function.update s.factory r f
      sessionSlot := Function.update s.sessionSlot r (firstFree .null (s.sessions f))
      getDBSessions := s.getDBSessions ++ [r] } hand calls := by
  have hnot := h.not_active_of_hand
  have hle : firstFree .null (s.sessions f) ≤ (s.sessions f).length := firstFree_le
  have hget := getElem?_put hle (Slot.placeholder r)
  have hactive : ∀ other, State.Active { s with getDBSessions := s.getDBSessions ++ [r] } other ↔
      s.Active other ∨ other = r := by
    intro other
    simp only [State.Active, List.mem_append, List.mem_singleton]
    tauto
  have hne : ∀ other, s.Active other → other ≠ r := by
    rintro other hother rfl
    exact hnot hother
  refine
    { h with
      ledger := fun other => ?_
      active := fun other hother => ?_
      sessionSlot_lt := fun other hother => ?_
      slots := fun g j other hj => ?_ }
  · have hledger := h.ledger other
    unfold State.places at hledger ⊢
    dsimp only [State.put]
    simp only [List.count_append, List.count_cons, List.count_nil] at hledger ⊢
    omega
  · change Function.update s.factory r f other < _ ∧
      (s.factories (Function.update s.factory r f other)).connection = _ ∧ _
    rcases (hactive other).mp hother with hother | rfl
    · rw [Function.update_of_ne (hne other hother)]
      exact h.active other hother
    · rw [Function.update_self]
      exact ⟨hf, hconnection, hopen⟩
  · change Function.update s.sessionSlot r _ other <
      (Function.update s.sessions f _ (Function.update s.factory r f other)).length
    rcases (hactive other).mp hother with hother | rfl
    · rw [Function.update_of_ne (hne other hother), Function.update_of_ne (hne other hother)]
      have hlt := h.sessionSlot_lt other hother
      by_cases hg : s.factory other = f
      · rw [hg, Function.update_self]
        rw [hg] at hlt
        exact hlt.trans_le (length_put_le _)
      · rwa [Function.update_of_ne hg]
    · rw [Function.update_self, Function.update_self, Function.update_self]
      exact lt_length_put hle _
  · -- What stood in a slot still does, and the first free slot has the new placeholder.
    change g = Function.update s.factory r f other ∧ j = Function.update s.sessionSlot r _ other ∧ _
    change (Function.update s.sessions f _ g)[j]? = _ ∨ (Function.update s.sessions f _ g)[j]? = _
      at hj
    have hold : (s.sessions g)[j]? = some (.placeholder other) ∨
        (s.sessions g)[j]? = some (.mapping other) →
        g = Function.update s.factory r f other ∧
          j = Function.update s.sessionSlot r (firstFree .null (s.sessions f)) other ∧
          State.Active { s with getDBSessions := s.getDBSessions ++ [r] } other := by
      intro hj
      obtain ⟨hg, hslot, hother⟩ := h.slots g j other hj
      rw [Function.update_of_ne (hne other hother), Function.update_of_ne (hne other hother)]
      exact ⟨hg, hslot, (hactive other).mpr (Or.inl hother)⟩
    by_cases hg : g = f
    · subst hg
      rw [Function.update_self, hget] at hj
      split_ifs at hj with hfirst
      · have heq : r = other := by simpa using hj
        rw [← heq, Function.update_self, Function.update_self]
        exact ⟨rfl, hfirst, (hactive r).mpr (Or.inr rfl)⟩
      · exact hold hj
    · rw [Function.update_of_ne hg] at hj
      exact hold hj

theorem Kept.resolve (h : Kept s (r :: hand) calls) (hf : f < s.factoriesCreated)
    (hconnection : (s.factories f).connection = (s.requests r).connection)
    (hopen : ¬ s.Closed (s.requests r).connection) :
    Kept (s.resolveTableMappingsAndCallback r f) hand calls := by
  unfold State.resolveTableMappingsAndCallback
  split_ifs
  · exact h.reserve hf hconnection hopen
  · have hcallback : Kept (s.emit (.callback r (.factory f))) hand calls := h.callback
      (fun _ => (h.hasPool _).mpr ⟨f, hf, hconnection⟩) fun g hg => by
        cases hg
        exact ⟨hf, hconnection ▸ hopen⟩
    have hne : ∀ other, s.Active other → other ≠ r := by
      rintro other hother rfl
      exact h.not_active_of_hand hother
    refine
      { hcallback with
        active := fun other hother => ?_
        sessionSlot_lt := fun other hother => ?_
        slots := fun g j other hj => ?_ }
    · change Function.update s.factory r f other < _ ∧
        (s.factories (Function.update s.factory r f other)).connection = _ ∧ _
      rw [Function.update_of_ne (hne other hother)]
      exact h.active other hother
    · change _ < (s.sessions (Function.update s.factory r f other)).length
      rw [Function.update_of_ne (hne other hother)]
      exact h.sessionSlot_lt other hother
    · obtain ⟨hg, hslot, hother⟩ := h.slots g j other hj
      refine ⟨?_, hslot, hother⟩
      change g = Function.update s.factory r f other
      rwa [Function.update_of_ne (hne other hother)]

end DatabaseJones.JonesConnections

/-!
## Creating factories

A connection gets its pool together with its first factory, and a request the factory of its
connection for its database, which is created if there is none.
-/

namespace DatabaseJones.JonesConnections

open DatabaseJones.Library

variable {s : State} {c r f database : ℕ} {hand calls : List ℕ}

theorem factory?_eq_none : s.factory? c database = none ↔
    database ∉ (s.connections c).factories.map Prod.fst := by
  unfold State.factory?
  rw [Option.map_eq_none_iff, List.find?_eq_none]
  constructor
  · rintro hnone hmem
    obtain ⟨entry, hentry, rfl⟩ := List.mem_map.mp hmem
    exact hnone entry hentry (decide_eq_true rfl)
  · rintro hnot entry hentry hdatabase
    rw [decide_eq_true_eq] at hdatabase
    exact hnot (hdatabase ▸ List.mem_map_of_mem hentry)

theorem mem_of_factory? (h : s.factory? c database = some f) :
    (database, f) ∈ (s.connections c).factories := by
  unfold State.factory? at h
  obtain ⟨entry, hentry, rfl⟩ := Option.map_eq_some_iff.mp h
  have hdatabase : entry.1 = database := by simpa using List.find?_some hentry
  rw [← hdatabase]
  exact List.mem_of_find?_eq_some hentry

/-- A connection that has factories exists. -/
theorem Kept.lt_of_pool (h : Kept s hand calls)
    (hpool : (s.connections c).dbConnectionPool = true) : c < s.created := by
  by_contra hge
  rw [(h.fresh c (Nat.le_of_not_lt hge)).1] at hpool
  cases hpool

/-- A connection gets a factory for a database, and its pool if it had none; then `connects` loses
its entry. -/
theorem Kept.createFactory (h : Kept s hand calls) (hc : c < s.created)
    (hnone : s.factory? c database = none) (hopen : ¬ s.Closed c)
    (hanswered : (s.connections c).isConnecting = true ∨
      (s.connections c).dbConnectionPool = true) (rest : List ℕ) {connects : List (ℕ × ℕ)}
    (hconnects : ∀ d, d ∈ connects.map Prod.fst ↔ d ∈ s.connects.map Prod.fst ∧ d ≠ c)
    (hnodup : (connects.map Prod.fst).Nodup) (hsub : ∀ entry ∈ connects, entry ∈ s.connects)
    (hledger : ∀ r, (pending s.waitingForConnection connects).count r + rest.count r =
      (pending s.waitingForConnection s.connects).count r + hand.count r) :
    Kept { s with
      connects := connects
      connections := Function.update s.connections c
        { s.connections c with
          isConnecting := false
          dbConnectionPool := true
          factories := (s.connections c).factories ++ [(database, s.factoriesCreated)]
          count := (s.connections c).count + 1 }
      factories := Function.update s.factories s.factoriesCreated
        { connection := c, database := database }
      factoriesCreated := s.factoriesCreated + 1
      trace := s.trace ++ [.factoryCreated s.factoriesCreated] } rest calls := by
  obtain ⟨connection, hconnection⟩ : ∃ connection : Connection, connection =
      { s.connections c with
        isConnecting := false
        dbConnectionPool := true
        factories := (s.connections c).factories ++ [(database, s.factoriesCreated)]
        count := (s.connections c).count + 1 } := ⟨_, rfl⟩
  rw [← hconnection]
  obtain ⟨next, hnext⟩ : ∃ next, next = { s with
      connects := connects
      connections := Function.update s.connections c connection
      factories := Function.update s.factories s.factoriesCreated
        { connection := c, database := database }
      factoriesCreated := s.factoriesCreated + 1
      trace := s.trace ++ [Output.factoryCreated s.factoriesCreated] } := ⟨_, rfl⟩
  -- What the connections and factories look like now.
  have hself : next.connections c = connection := by
    rw [hnext]
    exact Function.update_self ..
  have hother : ∀ d, d ≠ c → next.connections d = s.connections d := by
    intro d hd
    rw [hnext]
    exact Function.update_of_ne hd ..
  have hnew : next.factories s.factoriesCreated = { connection := c, database := database } := by
    rw [hnext]
    exact Function.update_self ..
  have hold : ∀ g < s.factoriesCreated, next.factories g = s.factories g := by
    intro g hg
    rw [hnext]
    exact Function.update_of_ne (Nat.ne_of_lt hg) ..
  have hpool : ∀ d, (next.connections d).dbConnectionPool = true ↔
      (s.connections d).dbConnectionPool = true ∨ d = c := by
    intro d
    by_cases hd : d = c
    · rw [hd, hself, hconnection]
      simp
    · rw [hother d hd]
      simp [hd]
  have hclosed : ∀ d, next.Closed d ↔ s.Closed d := by
    intro d
    by_cases hd : d = c
    · rw [hd]
      refine iff_of_false (fun hclosed => ?_) hopen
      have hnil := hclosed.2
      rw [hself, hconnection] at hnil
      exact absurd hnil (by simp)
    · unfold State.Closed
      rw [hother d hd]
  have hentries : ∀ d entry, entry ∈ (next.connections d).factories ↔
      entry ∈ (s.connections d).factories ∨ d = c ∧ entry = (database, s.factoriesCreated) := by
    intro d entry
    by_cases hd : d = c
    · rw [hd, hself, hconnection]
      simp
    · rw [hother d hd]
      simp [hd]
  have hhas : ∀ g < s.factoriesCreated, next.Has g ↔ s.Has g := by
    intro g hg
    unfold State.Has
    rw [hold g hg, hentries]
    refine or_iff_left fun heq => ?_
    have := (Prod.mk.inj heq.2).2
    omega
  have hhasNew : next.Has s.factoriesCreated := by
    unfold State.Has
    rw [hnew, hentries]
    exact Or.inr ⟨rfl, rfl⟩
  have hmem : ∀ output : Output, output ≠ .factoryCreated s.factoriesCreated →
      (output ∈ s.trace ++ [Output.factoryCreated s.factoriesCreated] ↔ output ∈ s.trace) := by
    intro output hne
    simp [hne]
  have hcount : ∀ output : Output, output ≠ .factoryCreated s.factoriesCreated →
      (s.trace ++ [Output.factoryCreated s.factoriesCreated]).count output =
        s.trace.count output := by
    intro output hne
    rw [List.count_append, List.count_singleton, if_neg (by simpa using hne.symm), Nat.add_zero]
  have htrace : next.trace = s.trace ++ [.factoryCreated s.factoriesCreated] := by rw [hnext]
  have hlt : next.factoriesCreated = s.factoriesCreated + 1 := by rw [hnext]
  rw [← hnext]
  refine
    { counted := fun d => ?_
      databases := fun d => ?_
      fresh := fun d hd => ?_
      connects := fun d => ?_
      connects_nodup := by rw [hnext]; exact hnodup
      connecting := fun d hd => ?_
      hasPool := fun d => ?_
      registry := fun key d => ?_
      registered := fun d entry hentry => ?_
      requested := fun other => ?_
      requestedOnce := fun other => ?_
      opening := fun other => ?_
      failed := fun d => ?_
      closed := fun d => ?_
      closedOnce := fun d => ?_
      factoryCreated := fun g => ?_
      factoryDeleted := fun g => ?_
      results := fun other result hresult hne => ?_
      received := fun other g hreceived => ?_
      ledger := fun other => ?_
      requestConnection := fun entry hentry => ?_
      notifying := fun entry hentry => ?_
      active := fun other hactive => ?_
      sessionSlot_lt := fun other hactive => ?_
      slots := fun g j other hj => ?_
      closeCalled := fun g => ?_
      closingOnce := by rw [hnext]; exact h.closingOnce
      closing_lt := fun n hn => ?_
      sessionCloses := by rw [hnext]; exact h.sessionCloses
      countedSessions := by rw [hnext]; exact h.countedSessions
      deletes := fun n hn => ?_
      deleted := fun g hg hnot => ?_
      permitted := ?_ }
  · by_cases hd : d = c
    · rw [hd, hself, hconnection]
      simp [h.counted c]
    · rw [hother d hd]
      exact h.counted d
  · by_cases hd : d = c
    · rw [hd, hself, hconnection, List.map_append, List.nodup_append]
      refine ⟨h.databases c, List.nodup_singleton _, ?_⟩
      rintro other hmem' _ hsingle rfl
      rw [List.mem_singleton.mp hsingle] at hmem'
      exact factory?_eq_none.mp hnone hmem'
    · rw [hother d hd]
      exact h.databases d
  · have hge : s.created ≤ d := by rwa [hnext] at hd
    obtain ⟨hdefault, hwaiting⟩ := h.fresh d hge
    have hne : d ≠ c := by omega
    rw [hother d hne, hnext]
    exact ⟨hdefault, hwaiting⟩
  · have hd : d ∈ next.connects.map Prod.fst ↔ d ∈ s.connects.map Prod.fst ∧ d ≠ c := by
      rw [hnext]
      exact hconnects d
    have hcreated : next.created = s.created := by rw [hnext]
    rw [hd, h.connects, hcreated]
    by_cases heq : d = c
    · rw [heq, hself, hconnection]
      simp
    · rw [hother d heq]
      simp [heq]
  · by_cases heq : d = c
    · rw [heq, hself, hconnection] at hd
      cases hd
    · rw [hother d heq] at hd ⊢
      exact h.connecting d hd
  · rw [hpool, h.hasPool, hlt]
    constructor
    · rintro (⟨g, hg, hgc⟩ | rfl)
      · exact ⟨g, by omega, by rw [hold g hg]; exact hgc⟩
      · exact ⟨s.factoriesCreated, by omega, by rw [hnew]⟩
    · rintro ⟨g, hg, hgc⟩
      rcases Nat.lt_succ_iff_lt_or_eq.mp hg with hg | rfl
      · rw [hold g hg] at hgc
        exact Or.inl ⟨g, hg, hgc⟩
      · rw [hnew] at hgc
        exact Or.inr hgc.symm
  · have hregistry : next.jonesConnections = s.jonesConnections := by rw [hnext]
    have hcreated : next.created = s.created := by rw [hnext]
    have hkey : (next.connections d).connectionKey = (s.connections d).connectionKey := by
      by_cases hd : d = c
      · rw [hd, hself, hconnection]
      · rw [hother d hd]
    rw [hregistry, h.registry, hcreated, hkey, hclosed]
  · rcases (hentries d entry).mp hentry with hentry | ⟨rfl, rfl⟩
    · obtain ⟨hg, hgc, hdatabase⟩ := h.registered d entry hentry
      rw [hold _ hg, hlt]
      exact ⟨by omega, hgc, hdatabase⟩
    · rw [hnew, hlt]
      exact ⟨by omega, rfl, rfl⟩
  · rw [htrace, hmem _ (by simp), h.requested, hnext]
  · rw [htrace, hcount _ (by simp)]
    exact h.requestedOnce other
  · rw [htrace, hmem _ (by simp), h.opening, hnext]
  · have hcreated : next.created = s.created := by rw [hnext]
    rw [htrace, hmem _ (by simp), h.failed, hcreated]
    by_cases hd : d = c
    · rw [hd, hself, hconnection]
      simp only [Bool.true_eq_false, and_false, iff_false]
      rintro ⟨-, hconnecting, hnoPool⟩
      rcases hanswered with hanswered | hanswered
      · rw [hconnecting] at hanswered
        cases hanswered
      · rw [hnoPool] at hanswered
        cases hanswered
    · rw [hother d hd]
  · rw [htrace, hmem _ (by simp), h.closed, hclosed]
  · rw [htrace, hcount _ (by simp)]
    exact h.closedOnce d
  · rw [htrace, hlt, List.mem_append, h.factoryCreated, List.mem_singleton,
      Output.factoryCreated.injEq]
    omega
  · rw [htrace, hmem _ (by simp), h.factoryDeleted, hlt]
    constructor
    · rintro ⟨hg, hnot⟩
      exact ⟨by omega, fun hhas' => hnot ((hhas g hg).mp hhas')⟩
    · rintro ⟨hg, hnot⟩
      rcases Nat.lt_succ_iff_lt_or_eq.mp hg with hg | rfl
      · exact ⟨hg, fun hhas' => hnot ((hhas g hg).mpr hhas')⟩
      · exact absurd hhasNew hnot
  · rw [htrace, hmem _ (by simp)] at hresult
    have hpool' := h.results other result hresult hne
    have hrequests : next.requests = s.requests := by rw [hnext]
    rw [hrequests, hpool]
    exact Or.inl hpool'
  · rw [htrace, hmem _ (by simp)] at hreceived
    have := h.received other g hreceived
    omega
  · have hold := h.ledger other
    have hnewLedger := hledger other
    rw [htrace, hcount _ (by simp), callbacks_append, callbacks_singleton (by simp)]
    unfold State.places at hold ⊢
    rw [hnext]
    dsimp only
    omega
  · rw [hnext] at hentry ⊢
    exact h.requestConnection entry (hsub entry hentry)
  · have hrequests : next.requests = s.requests := by rw [hnext]
    have hcreated : next.created = s.created := by rw [hnext]
    have hentry : entry ∈ s.notifying := by rwa [hnext] at hentry
    obtain ⟨hd, hanswered', hpool'⟩ := h.notifying entry hentry
    rw [hrequests, hcreated, hclosed]
    by_cases heq : (s.requests entry.1).connection = c
    · rw [heq] at hanswered' hpool' ⊢
      rw [hself, hconnection]
      rcases hanswered with hconnecting | hanswered
      · rw [hanswered'] at hconnecting
        cases hconnecting
      · rw [hanswered] at hpool'
        exact ⟨hc, rfl, hpool'⟩
    · rw [hother _ heq]
      exact ⟨hd, hanswered', hpool'⟩
  · have hactive' : s.Active other := by rwa [hnext] at hactive
    obtain ⟨hg, hgc, hnot⟩ := h.active other hactive'
    have hfactory : next.factory = s.factory := by rw [hnext]
    have hrequests : next.requests = s.requests := by rw [hnext]
    rw [hfactory, hrequests, hclosed, hold _ hg, hlt]
    exact ⟨by omega, hgc, hnot⟩
  · rw [hnext] at hactive ⊢
    exact h.sessionSlot_lt other hactive
  · rw [hnext] at hj ⊢
    exact h.slots g j other hj
  · rw [htrace, hmem _ (by simp), h.closeCalled, hnext]
  · rw [hlt]
    rw [hnext] at hn ⊢
    exact Nat.lt_succ_of_lt (h.closing_lt n hn)
  · have hn : n < s.closeCalls := by rwa [hnext] at hn
    have hdeletes := h.deletes n hn
    have hclosing : next.closing = s.closing := by rw [hnext]
    rw [hclosing, hhas _ (h.closing_lt n hn), hdeletes, hnext]
  · rw [hlt] at hg
    rcases Nat.lt_succ_iff_lt_or_eq.mp hg with hg | rfl
    · have hdeleted := h.deleted g hg fun hhas' => hnot ((hhas g hg).mpr hhas')
      rwa [hnext]
    · exact absurd hhasNew hnot
  · rw [htrace]
    refine (h.permitted.imp fun before output houtput hpermitted => ?_).concat trivial
    cases output with
    | callback other result =>
        cases result with
        | factory g =>
            change Output.poolClosed (next.factories g).connection ∉ before
            rw [hold g (h.received other g houtput)]
            exact hpermitted
        | _ => trivial
    | _ => trivial

theorem useFactory_of_none
    (hnone : s.factory? (s.requests r).connection (s.requests r).database = none) :
    s.useFactory r =
      (s.createFactory (s.requests r).connection (s.requests r).database).resolveTableMappingsAndCallback
        r s.factoriesCreated := by
  unfold State.useFactory
  dsimp only
  rw [hnone]

theorem Kept.useFactory (h : Kept s (r :: hand) calls)
    (hpool : (s.connections (s.requests r).connection).dbConnectionPool = true)
    (hopen : ¬ s.Closed (s.requests r).connection) : Kept (s.useFactory r) hand calls := by
  obtain ⟨c, hc⟩ : ∃ c, c = (s.requests r).connection := ⟨_, rfl⟩
  rw [← hc] at hpool hopen
  cases hfactory : s.factory? c (s.requests r).database with
  | some f =>
      unfold State.useFactory
      dsimp only
      rw [← hc, hfactory]
      obtain ⟨hf, hfc, -⟩ := h.registered c _ (mem_of_factory? hfactory)
      exact h.resolve hf (hfc.trans hc) (hc ▸ hopen)
  | none =>
      have hanswered : (s.connections c).isConnecting = false := by
        by_contra hconnecting
        rw [h.connecting c (Bool.not_eq_false _ ▸ hconnecting)] at hpool
        cases hpool
      have hnot : c ∉ s.connects.map Prod.fst := fun hmem => by
        rw [((h.connects c).mp hmem).2] at hanswered
        cases hanswered
      have hcreated := h.createFactory (h.lt_of_pool hpool) hfactory hopen (Or.inr hpool) (r :: hand)
        (fun d => ⟨fun hd => ⟨hd, fun heq => hnot (heq ▸ hd)⟩, fun hd => hd.1⟩)
        h.connects_nodup (fun _ hentry => hentry) fun _ => rfl
      rw [← hanswered, ← hpool] at hcreated
      rw [useFactory_of_none (hc ▸ hfactory), ← hc]
      refine Kept.resolve hcreated (Nat.lt_succ_self _) ?_ ?_
      · change (Function.update s.factories s.factoriesCreated _ s.factoriesCreated).connection = _
        rw [Function.update_self]
        exact hc
      · rintro ⟨-, hnil⟩
        change (Function.update s.connections c _ (s.requests r).connection).factories = [] at hnil
        rw [← hc, Function.update_self] at hnil
        exact absurd hnil (by simp)

end DatabaseJones.JonesConnections
