import DatabaseJones.Library.Ledger
import DatabaseJones.NdbConnection.Sharing

/-!
# Opening shared connections

The table has the only connection that is not being closed.  Its count is the number of its
users, it alone can be opening or lingering, and it lingers only without users.  Every pool
whose callback has not been called stands in one of the lists, or in the hand of the function
that runs.  This is kept while pools connect and the cluster answers.
-/

namespace DatabaseJones.NdbConnection

open DatabaseJones.Library

variable {s next : State} {c pool : ℕ} {trace : List Output}

/-! ## Reading the trace -/

theorem users_concat (c : ℕ) (trace : List Output) (output : Output) :
    users c (trace ++ [output]) =
      match output with
      | .obtained pool other => if other = c then users c trace ++ [pool] else users c trace
      | .released pool other => if other = c then (users c trace).erase pool else users c trace
      | _ => users c trace := by
  rw [users, List.foldl_append]
  rfl

@[simp] theorem users_connectCallback (c pool other : ℕ) (error : Option ConnectError) :
    users c (trace ++ [.connectCallback pool other error]) = users c trace := users_concat c trace _

@[simp] theorem users_closeCalled (c pool : ℕ) :
    users c (trace ++ [.closeCalled pool]) = users c trace := users_concat c trace _

@[simp] theorem users_closing (c other : ℕ) :
    users c (trace ++ [.closing other]) = users c trace := users_concat c trace _

@[simp] theorem users_closeCallback (c pool : ℕ) :
    users c (trace ++ [.closeCallback pool]) = users c trace := users_concat c trace _

/-- The callbacks that `runCallbacks` calls. -/
def callbacks (c : ℕ) (error : Option ConnectError) (pools : List ℕ) : List Output :=
  pools.map fun pool => .connectCallback pool c error

@[simp] theorem users_callbacks (c other : ℕ) (error : Option ConnectError) (pools : List ℕ)
    (trace : List Output) : users c (trace ++ callbacks other error pools) = users c trace := by
  induction pools generalizing trace with
  | nil => rw [callbacks, List.map_nil, List.append_nil]
  | cons pool pools ih =>
      have hcons : trace ++ callbacks other error (pool :: pools) =
          trace ++ [.connectCallback pool other error] ++ callbacks other error pools := by
        simp [callbacks]
      rw [hcons, ih, users_connectCallback]

theorem mem_callbacks {output : Output} {error : Option ConnectError} {pools : List ℕ} :
    output ∈ callbacks c error pools ↔ ∃ pool ∈ pools, output = .connectCallback pool c error := by
  simp [callbacks, eq_comm]

@[simp] theorem connectCalls_append (pool : ℕ) (first second : List Output) :
    connectCalls pool (first ++ second) = connectCalls pool first + connectCalls pool second :=
  List.countP_append

@[simp] theorem connectCallbacks_append (pool : ℕ) (first second : List Output) :
    connectCallbacks pool (first ++ second) =
      connectCallbacks pool first + connectCallbacks pool second :=
  List.countP_append

@[simp] theorem connectCalls_callbacks (pool c : ℕ) (error : Option ConnectError)
    (pools : List ℕ) : connectCalls pool (callbacks c error pools) = 0 := by
  simp [connectCalls, callbacks, List.countP_eq_zero]

@[simp] theorem connectCallbacks_callbacks (pool c : ℕ) (error : Option ConnectError)
    (pools : List ℕ) : connectCallbacks pool (callbacks c error pools) = pools.count pool := by
  rw [connectCallbacks, callbacks, List.countP_map, List.count]
  exact List.countP_congr fun other _ => by simp

/-! ## What is kept -/

/-- The connections that have not been answered. -/
def State.opening (s : State) : List ℕ := s.connects ++ s.readies

/-- The pools that wait for them. -/
def State.waiting (s : State) : List ℕ :=
  s.opening.flatMap fun c => (s.connections c).pendingConnections

/-- A connection is closed without users, and received before it is closed. -/
def Permitted (before : List Output) : Output → Prop
  | .closing c => users c before = []
  | .connectCallback _ c none => .closing c ∉ before
  | .threw => False
  | _ => True

/-- `connecting` and `closing` are the pools whose callbacks the running function holds. -/
structure Kept (s : State) (connecting closing : List ℕ) : Prop where
  base_lt : ∀ c, s.base = some c → c < s.created
  remembered : ∀ c < s.created, .closing c ∉ s.trace → s.base = some c
  notClosing : ∀ c, s.base = some c → .closing c ∉ s.trace
  closing_lt : ∀ c, .closing c ∈ s.trace → c < s.created
  disconnecting : ∀ c, (s.connections c).isDisconnecting = true → .closing c ∈ s.trace
  counted : ∀ c < s.created, (s.connections c).referenceCount = (users c s.trace).length
  fresh : ∀ c, s.created ≤ c → s.connections c = {} ∧ users c s.trace = []
  unused : ∀ c, .closing c ∈ s.trace → users c s.trace = []
  uses : ∀ pool c, s.ndbConnection pool = some c → (∀ d, .released pool d ∉ s.trace) →
    pool ∈ users c s.trace
  released : ∀ pool c, .released pool c ∈ s.trace → .closeCalled pool ∈ s.trace
  closes : ∀ entry ∈ s.closes, .closeCalled entry.1 ∈ s.trace ∧ s.ndbConnection entry.1 ≠ none ∧
    ∀ c, .released entry.1 c ∉ s.trace
  closes_nodup : (s.closes.map Prod.fst).Nodup
  disconnects : ∀ entry ∈ s.disconnects, .closing entry.1 ∈ s.trace
  lingers : s.lingers = [] ∨ ∃ c pool, s.lingers = [(c, pool)] ∧ s.base = some c ∧
    (s.connections c).referenceCount = 0
  opening : s.opening = [] ∨ ∃ c, s.opening = [c] ∧ s.base = some c ∧
    (s.connections c).isConnected = false ∧ (s.connections c).pendingConnections ≠ []
  connectLedger : ∀ pool, connectCalls pool s.trace =
    connectCallbacks pool s.trace + s.waiting.count pool + connecting.count pool
  closeLedger : ∀ pool, s.trace.count (.closeCalled pool) = s.trace.count (.closeCallback pool) +
    (tally Prod.fst pool s.closes + tally Prod.snd pool s.lingers +
      tally Prod.snd pool s.disconnects + tally Prod.snd pool s.deletes) + closing.count pool
  permitted : Throughout Permitted s.trace

theorem kept_start : Kept {} [] [] where
  base_lt _ h := nomatch h
  remembered _ h := absurd h (Nat.not_lt_zero _)
  notClosing _ h := nomatch h
  closing_lt _ h := absurd h List.not_mem_nil
  disconnecting _ h := nomatch h
  counted _ h := absurd h (Nat.not_lt_zero _)
  fresh _ _ := ⟨rfl, rfl⟩
  unused _ h := absurd h List.not_mem_nil
  uses _ _ h := nomatch h
  released _ _ h := absurd h List.not_mem_nil
  closes _ h := absurd h List.not_mem_nil
  closes_nodup := List.nodup_nil
  disconnects _ h := absurd h List.not_mem_nil
  lingers := Or.inl rfl
  opening := Or.inl rfl
  connectLedger _ := rfl
  closeLedger _ := rfl
  permitted := throughout_nil

/-- A pool that has not released its connection uses that of the table. -/
theorem Kept.base_of_uses {connecting closing : List ℕ} (h : Kept s connecting closing)
    (hpool : s.ndbConnection pool = some c) (hreleased : ∀ d, .released pool d ∉ s.trace) :
    s.base = some c ∧ pool ∈ users c s.trace := by
  have huses := h.uses pool c hpool hreleased
  have hlt : c < s.created := by
    by_contra hge
    rw [(h.fresh c (Nat.le_of_not_lt hge)).2] at huses
    exact List.not_mem_nil huses
  refine ⟨h.remembered c hlt fun hclosing => ?_, huses⟩
  rw [h.unused c hclosing] at huses
  exact List.not_mem_nil huses

theorem Kept.count_nonneg {connecting closing : List ℕ} (h : Kept s connecting closing) (c : ℕ) :
    0 ≤ (s.connections c).referenceCount := by
  by_cases hlt : c < s.created
  · rw [h.counted c hlt]
    exact Int.natCast_nonneg _
  · rw [(h.fresh c (Nat.le_of_not_lt hlt)).1]
    decide

theorem Kept.shares (h : Kept s [] []) : Shares s where
  counted c hbase := h.counted c (h.base_lt c hbase)
  nonneg := h.count_nonneg
  connectCallback_le pool := by
    have hcalls := h.connectLedger pool
    omega
  closeCallback_le pool := by
    have hcalls := h.closeLedger pool
    omega
  connectCallback_eq := by
    rintro ⟨hconnects, hreadies, -⟩ pool
    have hcalls := h.connectLedger pool
    rw [State.waiting, State.opening, hconnects, hreadies] at hcalls
    exact hcalls.symm
  closeCallback_eq := by
    rintro ⟨-, -, hcloses, hlingers, hdisconnects, hdeletes⟩ pool
    have hcalls := h.closeLedger pool
    rw [hcloses, hlingers, hdisconnects, hdeletes] at hcalls
    exact hcalls.symm
  unused before c := h.permitted before (.closing c)
  received before pool c := h.permitted before (.connectCallback pool c none)
  remembered := h.remembered
  neverThrows hthrew := by
    obtain ⟨before, after, heq⟩ := List.append_of_mem hthrew
    refine h.permitted before .threw ⟨after, ?_⟩
    rw [heq, List.append_assoc, List.singleton_append]

/-! ## Answering -/

variable {connecting closing connecting' closing' : List ℕ}

@[simp] theorem modify_self (s : State) (c : ℕ) (f : Connection → Connection) :
    (s.modify c f).connections c = f (s.connections c) := Function.update_self ..

theorem modify_of_ne (s : State) {c d : ℕ} (f : Connection → Connection) (hne : d ≠ c) :
    (s.modify c f).connections d = s.connections d := Function.update_of_ne hne ..

/-- An output that calls a callback. -/
def Output.IsCallback : Output → Prop
  | .connectCallback _ _ _ => True
  | .closeCallback _ => True
  | _ => False

theorem users_isCallback (c : ℕ) {outputs : List Output} (h : ∀ output ∈ outputs, output.IsCallback) :
    users c (trace ++ outputs) = users c trace := by
  induction outputs generalizing trace with
  | nil => rw [List.append_nil]
  | cons output outputs ih =>
      obtain ⟨houtput, houtputs⟩ := List.forall_mem_cons.mp h
      rw [← List.singleton_append, ← List.append_assoc, ih houtputs, users_concat]
      cases output with
      | connectCallback _ _ _ => rfl
      | closeCallback _ => rfl
      | _ => exact houtput.elim

/-- The running function calls callbacks that it holds. -/
theorem Kept.answer (h : Kept s connecting closing) {outputs : List Output}
    (houtputs : ∀ output ∈ outputs, output.IsCallback)
    (hpermitted : Throughout Permitted (s.trace ++ outputs))
    (hconnecting : ∀ pool, connecting.count pool =
      connectCallbacks pool outputs + connecting'.count pool)
    (hclosing : ∀ pool, closing.count pool =
      outputs.count (.closeCallback pool) + closing'.count pool) :
    Kept { s with trace := s.trace ++ outputs } connecting' closing' := by
  have hmem : ∀ output : Output, ¬ output.IsCallback →
      (output ∈ s.trace ++ outputs ↔ output ∈ s.trace) := fun output houtput =>
    List.mem_append.trans (or_iff_left fun hmem => houtput (houtputs output hmem))
  have hcalls : ∀ pool, connectCalls pool outputs = 0 := by
    refine fun pool => List.countP_eq_zero.mpr fun output houtput => ?_
    cases output with
    | obtained _ _ => exact (houtputs _ houtput).elim
    | _ => simp
  have hcalled : ∀ pool, outputs.count (.closeCalled pool) = 0 := fun pool =>
    List.count_eq_zero.mpr fun hmem => houtputs _ hmem
  have hclosingMem : ∀ c, .closing c ∈ s.trace ++ outputs ↔ .closing c ∈ s.trace :=
    fun c => hmem _ id
  have hreleasedMem : ∀ pool c, .released pool c ∈ s.trace ++ outputs ↔ .released pool c ∈ s.trace :=
    fun pool c => hmem _ id
  have hcalledMem : ∀ pool, .closeCalled pool ∈ s.trace ++ outputs ↔ .closeCalled pool ∈ s.trace :=
    fun pool => hmem _ id
  have husers : ∀ c, users c (s.trace ++ outputs) = users c s.trace :=
    fun c => users_isCallback c houtputs
  exact
    { base_lt := h.base_lt
      remembered := fun c hlt hnot => h.remembered c hlt fun hc => hnot ((hclosingMem c).mpr hc)
      notClosing := fun c hbase hc => h.notClosing c hbase ((hclosingMem c).mp hc)
      closing_lt := fun c hc => h.closing_lt c ((hclosingMem c).mp hc)
      disconnecting := fun c hc => (hclosingMem c).mpr (h.disconnecting c hc)
      counted := fun c hlt => (husers c).symm ▸ h.counted c hlt
      fresh := fun c hge => (husers c).symm ▸ h.fresh c hge
      unused := fun c hc => (husers c).symm ▸ h.unused c ((hclosingMem c).mp hc)
      uses := fun pool c hpool hnot => (husers c).symm ▸ h.uses pool c hpool fun d hd =>
        hnot d ((hreleasedMem pool d).mpr hd)
      released := fun pool c hc =>
        (hcalledMem pool).mpr (h.released pool c ((hreleasedMem pool c).mp hc))
      closes := fun entry hentry =>
        have ⟨hcall, hpool, hnot⟩ := h.closes entry hentry
        ⟨(hcalledMem _).mpr hcall, hpool, fun c hc => hnot c ((hreleasedMem _ c).mp hc)⟩
      closes_nodup := h.closes_nodup
      disconnects := fun entry hentry => (hclosingMem _).mpr (h.disconnects entry hentry)
      lingers := h.lingers
      opening := h.opening
      connectLedger := fun pool => by
        have hcount := h.connectLedger pool
        have hhand := hconnecting pool
        have hnone := hcalls pool
        simp only [connectCalls_append, connectCallbacks_append]
        change _ = _ + s.waiting.count pool + _
        omega
      closeLedger := fun pool => by
        have hcount := h.closeLedger pool
        have hhand := hclosing pool
        have hnone := hcalled pool
        simp only [List.count_append]
        omega
      permitted := hpermitted }

/-- The close callback of one pool is called. -/
theorem Kept.answer_close (h : Kept s [] [pool]) : Kept (s.emit (.closeCallback pool)) [] [] := by
  refine h.answer (List.forall_mem_singleton.mpr trivial) (h.permitted.concat trivial)
    (fun _ => rfl) fun other => ?_
  by_cases hother : other = pool
  · subst hother
    simp
  · simp [Ne.symm hother]

/-! ## Connecting -/

/-- A pool obtains the connection of the table. -/
theorem Kept.obtain (h : Kept s [] []) (hbase : s.base = some c) (hpool : s.ndbConnection pool = none)
    (hcount : (s.connections c).referenceCount ≠ 0) {connections : ℕ → Connection}
    (hself : connections c =
      { s.connections c with referenceCount := (s.connections c).referenceCount + 1 })
    (hother : ∀ d, d ≠ c → connections d = s.connections d) :
    Kept { s with
      connections
      ndbConnection := Function.update s.ndbConnection pool (some c)
      trace := s.trace ++ [.obtained pool c] } [pool] [] := by
  have hlt := h.base_lt c hbase
  have husers : ∀ d, users d (s.trace ++ [.obtained pool c]) =
      if c = d then users d s.trace ++ [pool] else users d s.trace := fun d => users_concat d _ _
  have hmem : ∀ output, output ≠ .obtained pool c →
      (output ∈ s.trace ++ [.obtained pool c] ↔ output ∈ s.trace) := by
    intro output hne
    simp [hne]
  have hsame : ∀ d, (connections d).isConnected = (s.connections d).isConnected ∧
      (connections d).isDisconnecting = (s.connections d).isDisconnecting ∧
      (connections d).pendingConnections = (s.connections d).pendingConnections := by
    intro d
    by_cases hd : d = c
    · rw [hd, hself]
      exact ⟨rfl, rfl, rfl⟩
    · rw [hother d hd]
      exact ⟨rfl, rfl, rfl⟩
  refine
    { base_lt := h.base_lt
      remembered := fun d hd hnot => h.remembered d hd fun hc => hnot ((hmem _ (by simp)).mpr hc)
      notClosing := fun d hd hc => h.notClosing d hd ((hmem _ (by simp)).mp hc)
      closing_lt := fun d hc => h.closing_lt d ((hmem _ (by simp)).mp hc)
      disconnecting := fun d hc => (hmem _ (by simp)).mpr (h.disconnecting d ((hsame d).2.1 ▸ hc))
      counted := fun d hd => ?_
      fresh := fun d hge => ?_
      unused := fun d hc => ?_
      uses := fun other d hpool hnot => ?_
      released := fun other d hc => (hmem _ (by simp)).mpr (h.released other d ((hmem _ (by simp)).mp hc))
      closes := fun entry hentry => ?_
      closes_nodup := h.closes_nodup
      disconnects := fun entry hentry => (hmem _ (by simp)).mpr (h.disconnects entry hentry)
      lingers := Or.inl ?_
      opening := ?_
      connectLedger := fun other => ?_
      closeLedger := fun other => ?_
      permitted := h.permitted.concat trivial }
  · have hcounted := h.counted d hd
    dsimp only
    rw [husers]
    by_cases heq : d = c
    · rw [heq, if_pos rfl, hself, List.length_append, List.length_singleton, ← heq, hcounted]
      rfl
    · rw [if_neg (Ne.symm heq), hother d heq]
      exact hcounted
  · have hne : d ≠ c := by
      rintro rfl
      exact absurd hlt (Nat.not_lt_of_le hge)
    obtain ⟨hdefault, hnone⟩ := h.fresh d hge
    refine ⟨(hother d hne).trans hdefault, ?_⟩
    rw [husers, if_neg (Ne.symm hne), hnone]
  · have hc : .closing d ∈ s.trace := (hmem _ (by simp)).mp hc
    have hne : c ≠ d := by
      rintro rfl
      exact h.notClosing c hbase hc
    rw [husers, if_neg hne]
    exact h.unused d hc
  · dsimp only at hpool ⊢
    rw [husers]
    by_cases heq : other = pool
    · rw [heq, Function.update_self] at hpool
      rw [if_pos (Option.some.inj hpool), heq]
      exact List.mem_append_right _ (List.mem_singleton_self _)
    · rw [Function.update_of_ne heq] at hpool
      have huses := h.uses other d hpool fun e he => hnot e ((hmem _ (by simp)).mpr he)
      split_ifs
      · exact List.mem_append_left _ huses
      · exact huses
  · obtain ⟨hcall, hsome, hnot⟩ := h.closes entry hentry
    refine ⟨(hmem _ (by simp)).mpr hcall, ?_, fun d hd => hnot d ((hmem _ (by simp)).mp hd)⟩
    have hne : entry.1 ≠ pool := fun heq => hsome (heq ▸ hpool)
    dsimp only
    rwa [Function.update_of_ne hne]
  · rcases h.lingers with hnone | ⟨d, other, -, hd, hzero⟩
    · exact hnone
    · obtain rfl := Option.some.inj (hbase.symm.trans hd)
      exact absurd hzero hcount
  · refine h.opening.imp_right fun ⟨d, hopening, hd, hconnected, hpending⟩ => ⟨d, hopening, hd, ?_, ?_⟩
    · exact (hsame d).1.trans hconnected
    · exact fun heq => hpending ((hsame d).2.2.symm.trans heq)
  · have hcalls := h.connectLedger other
    have hwaiting : (s.opening.flatMap fun d => (connections d).pendingConnections) = s.waiting :=
      congrArg s.opening.flatMap (funext fun d => (hsame d).2.2)
    rw [State.waiting]
    change _ = _ + (s.opening.flatMap fun d => (connections d).pendingConnections).count other + _
    rw [hwaiting, connectCalls_append, connectCallbacks_append, hcalls]
    simp [connectCalls, connectCallbacks, List.count_singleton]
  · have hcalls := h.closeLedger other
    rw [List.count_append, List.count_append, hcalls]
    simp

/-- A pool creates a connection, and finds nobody waiting. -/
theorem Kept.create (h : Kept s [] []) (hbase : s.base = none) (hpool : s.ndbConnection pool = none) :
    Kept { s with
      base := some s.created
      created := s.created + 1
      ndbConnection := Function.update s.ndbConnection pool (some s.created)
      trace := s.trace ++ [.obtained pool s.created] } [pool] [] := by
  have husers : ∀ d, users d (s.trace ++ [.obtained pool s.created]) =
      if s.created = d then users d s.trace ++ [pool] else users d s.trace :=
    fun d => users_concat d _ _
  have hmem : ∀ output, output ≠ .obtained pool s.created →
      (output ∈ s.trace ++ [.obtained pool s.created] ↔ output ∈ s.trace) := by
    intro output hne
    simp [hne]
  obtain ⟨hdefault, hnone⟩ := h.fresh s.created le_rfl
  refine
    { base_lt := fun d hd => ?_
      remembered := fun d hd hnot => ?_
      notClosing := fun d hd hc => ?_
      closing_lt := fun d hc => (h.closing_lt d ((hmem _ (by simp)).mp hc)).trans (Nat.lt_succ_self _)
      disconnecting := fun d hc => (hmem _ (by simp)).mpr (h.disconnecting d hc)
      counted := fun d hd => ?_
      fresh := fun d hge => ?_
      unused := fun d hc => ?_
      uses := fun other d hpool hnot => ?_
      released := fun other d hc => (hmem _ (by simp)).mpr (h.released other d ((hmem _ (by simp)).mp hc))
      closes := fun entry hentry => ?_
      closes_nodup := h.closes_nodup
      disconnects := fun entry hentry => (hmem _ (by simp)).mpr (h.disconnects entry hentry)
      lingers := Or.inl ?_
      opening := Or.inl ?_
      connectLedger := fun other => ?_
      closeLedger := fun other => ?_
      permitted := h.permitted.concat trivial }
  · obtain rfl := Option.some.inj hd
    exact Nat.lt_succ_self _
  · rcases Nat.lt_succ_iff_lt_or_eq.mp hd with hlt | rfl
    · have hbase' := h.remembered d hlt fun hc => hnot ((hmem _ (by simp)).mpr hc)
      exact nomatch hbase.symm.trans hbase'
    · rfl
  · obtain rfl := Option.some.inj hd
    exact Nat.lt_irrefl _ (h.closing_lt _ ((hmem _ (by simp)).mp hc))
  · dsimp only
    rw [husers]
    rcases Nat.lt_succ_iff_lt_or_eq.mp hd with hlt | rfl
    · rw [if_neg (Nat.ne_of_gt hlt)]
      exact h.counted d hlt
    · rw [if_pos rfl, hdefault, hnone]
      rfl
  · have hge : s.created + 1 ≤ d := hge
    obtain ⟨hdefault', hnone'⟩ := h.fresh d (Nat.le_of_succ_le hge)
    refine ⟨hdefault', ?_⟩
    rw [husers, if_neg (by omega), hnone']
  · have hc : .closing d ∈ s.trace := (hmem _ (by simp)).mp hc
    have hne : s.created ≠ d := Nat.ne_of_gt (h.closing_lt d hc)
    rw [husers, if_neg hne]
    exact h.unused d hc
  · dsimp only at hpool ⊢
    rw [husers]
    by_cases heq : other = pool
    · rw [heq, Function.update_self] at hpool
      rw [if_pos (Option.some.inj hpool), heq]
      exact List.mem_append_right _ (List.mem_singleton_self _)
    · rw [Function.update_of_ne heq] at hpool
      have huses := h.uses other d hpool fun e he => hnot e ((hmem _ (by simp)).mpr he)
      split_ifs
      · exact List.mem_append_left _ huses
      · exact huses
  · obtain ⟨hcall, hsome, hnot⟩ := h.closes entry hentry
    refine ⟨(hmem _ (by simp)).mpr hcall, ?_, fun d hd => hnot d ((hmem _ (by simp)).mp hd)⟩
    have hne : entry.1 ≠ pool := fun heq => hsome (heq ▸ hpool)
    dsimp only
    rwa [Function.update_of_ne hne]
  · rcases h.lingers with hnone | ⟨d, other, -, hd, -⟩
    · exact hnone
    · exact nomatch hbase.symm.trans hd
  · rcases h.opening with hnone | ⟨d, -, hd, -⟩
    · exact hnone
    · exact nomatch hbase.symm.trans hd
  · have hcalls := h.connectLedger other
    change _ = _ + s.waiting.count other + _
    rw [connectCalls_append, connectCallbacks_append, hcalls]
    simp [connectCalls, connectCallbacks, List.count_singleton]
  · have hcalls := h.closeLedger other
    rw [List.count_append, List.count_append, hcalls]
    simp

/-- A pool waits for the connection, which is the one that is opening from now on. -/
theorem Kept.push (h : Kept s [pool] []) (hbase : s.base = some c)
    (hconnected : ¬ (s.connections c).isConnected = true) {connects : List ℕ}
    (hopening : connects ++ s.readies = [c])
    (hwaiting : s.waiting = if c ∈ s.opening then (s.connections c).pendingConnections else [])
    (hnew : c ∉ s.opening → (s.connections c).pendingConnections = [])
    {connections : ℕ → Connection}
    (hself : connections c = { s.connections c with
      pendingConnections := (s.connections c).pendingConnections ++ [pool] })
    (hother : ∀ d, d ≠ c → connections d = s.connections d) :
    Kept { s with connections, connects } [] [] := by
  have hsame : ∀ d, (connections d).referenceCount = (s.connections d).referenceCount ∧
      (connections d).isDisconnecting = (s.connections d).isDisconnecting := by
    intro d
    by_cases hd : d = c
    · rw [hd, hself]
      exact ⟨rfl, rfl⟩
    · rw [hother d hd]
      exact ⟨rfl, rfl⟩
  refine
    { h with
      disconnecting := fun d hd => h.disconnecting d ((hsame d).2 ▸ hd)
      counted := fun d hd => (hsame d).1.trans (h.counted d hd)
      fresh := fun d hge => ?_
      lingers := ?_
      opening := Or.inr ⟨c, hopening, hbase, ?_, ?_⟩
      connectLedger := fun other => ?_ }
  · have hne : d ≠ c := by
      rintro rfl
      exact absurd (h.base_lt d hbase) (Nat.not_lt_of_le hge)
    obtain ⟨hdefault, hnone⟩ := h.fresh d hge
    exact ⟨(hother d hne).trans hdefault, hnone⟩
  · exact h.lingers.imp_right fun ⟨d, other, hd, hbase', hzero⟩ =>
      ⟨d, other, hd, hbase', (hsame d).1.trans hzero⟩
  · dsimp only
    rw [hself]
    exact Bool.not_eq_true _ ▸ hconnected
  · dsimp only
    rw [hself]
    exact List.append_ne_nil_of_right_ne_nil _ (List.cons_ne_nil _ _)
  · have hcalls := h.connectLedger other
    have hpending : s.waiting = (s.connections c).pendingConnections := by
      rw [hwaiting]
      split_ifs with hc
      · rfl
      · exact (hnew hc).symm
    change _ = connectCallbacks other s.trace + ((connects ++ s.readies).flatMap fun d =>
      (connections d).pendingConnections).count other + 0
    rw [hopening, List.flatMap_singleton, hself, List.count_append, hcalls, hpending]
    omega

/-- A pool that has obtained a connection is answered at once, or waits for the answer. -/
theorem Kept.connectTo (h : Kept s [pool] []) (hbase : s.base = some c)
    (hready : (s.connections c).isConnected = true ∨ c ∈ s.opening ∨
      s.opening = [] ∧ (s.connections c).pendingConnections = []) :
    Kept (s.connectTo pool c) [] [] := by
  unfold State.connectTo
  dsimp only
  split_ifs with hconnected hlength
  · -- The connection is open.
    refine h.answer (List.forall_mem_singleton.mpr trivial)
      (h.permitted.concat (h.notClosing c hbase)) (fun other => ?_) fun _ => rfl
    simp [connectCallbacks, List.count_singleton]
  · -- The pool is the first one.
    rw [modify_self, List.length_append, List.length_singleton] at hlength
    have hpending : (s.connections c).pendingConnections = [] :=
      List.length_eq_zero_iff.mp (by omega)
    have hopening : s.opening = [] := by
      rcases hready with hconnected' | hmem | ⟨hopening, -⟩
      · exact absurd hconnected' hconnected
      · rcases h.opening with hnone | ⟨d, hd, -, -, hne⟩
        · exact hnone
        · rw [hd, List.mem_singleton] at hmem
          exact absurd hpending (hmem ▸ hne)
      · exact hopening
    obtain ⟨hconnects, hreadies⟩ := List.append_eq_nil_iff.mp hopening
    have hfirst : s.connects ++ [c] ++ s.readies = [c] := by rw [hconnects, hreadies]; rfl
    exact h.push hbase hconnected hfirst (by rw [State.waiting, hopening]; rfl) (fun _ => hpending)
      (Function.update_self ..) fun d hd => Function.update_of_ne hd ..
  · -- Others wait already.
    rw [modify_self, List.length_append, List.length_singleton] at hlength
    have hmem : c ∈ s.opening := by
      rcases hready with hconnected' | hmem | ⟨-, hpending⟩
      · exact absurd hconnected' hconnected
      · exact hmem
      · rw [hpending] at hlength
        exact absurd rfl hlength
    have hopening : s.opening = [c] := by
      rcases h.opening with hnone | ⟨d, hd, -⟩
      · rw [hnone] at hmem
        exact absurd hmem List.not_mem_nil
      · rw [hd, List.mem_singleton] at hmem
        rw [hd, hmem]
    exact h.push hbase hconnected hopening
      (by rw [State.waiting, if_pos hmem, hopening, List.flatMap_singleton])
      (fun hnot => absurd hmem hnot) (Function.update_self ..)
      fun d hd => Function.update_of_ne hd ..

theorem Kept.connect (h : Kept s [] []) (hallowed : Allowed s (.connect pool)) :
    Kept (s.connect pool) [] [] := by
  obtain ⟨hpool, hshared⟩ := hallowed
  unfold State.connect
  cases hbase : s.base with
  | some c =>
      obtain ⟨hcount, hready⟩ := hshared c hbase
      have hobtain := h.obtain hbase hpool hcount (Function.update_self ..)
        fun d hd => Function.update_of_ne hd ..
      refine hobtain.connectTo hbase ?_
      rcases hready with hconnected | hopening
      · refine Or.inl ?_
        dsimp only
        rw [Function.update_self]
        exact hconnected
      · exact Or.inr (Or.inl hopening)
  | none =>
      have hcreate := h.create hbase hpool
      have hopening : s.opening = [] := by
        rcases h.opening with hnone | ⟨d, -, hd, -⟩
        · exact hnone
        · exact nomatch hbase.symm.trans hd
      have hdefault := (h.fresh s.created le_rfl).1
      have hnew : s.modify s.created (fun _ => {}) = s := by
        unfold State.modify
        rw [← hdefault, Function.update_eq_self]
      dsimp only
      rw [hnew]
      refine hcreate.connectTo rfl (Or.inr (Or.inr ⟨hopening, ?_⟩))
      dsimp only
      rw [hdefault]

/-! ## The answer -/

/-- The connection has been answered, and the running function holds the callbacks. -/
theorem Kept.answered (h : Kept s [] []) {connects readies : List ℕ}
    (hopening : s.opening = [c]) (hnone : connects ++ readies = []) :
    s.base = some c ∧
      Kept { s with connects, readies } (s.connections c).pendingConnections [] := by
  obtain ⟨d, hd, hbase, -⟩ : ∃ d, s.opening = [d] ∧ s.base = some d ∧
      (s.connections d).isConnected = false ∧ (s.connections d).pendingConnections ≠ [] := by
    rcases h.opening with hempty | hsome
    · rw [hopening] at hempty
      exact absurd hempty (List.cons_ne_nil _ _)
    · exact hsome
  obtain rfl : c = d := List.singleton_inj.mp (hopening.symm.trans hd)
  refine ⟨hbase, { h with opening := Or.inl hnone, connectLedger := fun other => ?_ }⟩
  have hcalls := h.connectLedger other
  have hwaiting : s.waiting = (s.connections c).pendingConnections := by
    rw [State.waiting, hopening, List.flatMap_singleton]
  change _ = _ + ((connects ++ readies).flatMap fun d =>
    (s.connections d).pendingConnections).count other + _
  rw [hnone, hcalls, hwaiting]
  simp

/-- The callbacks are called with an error, or with a connection that is not being closed. -/
theorem Kept.runCallbacks (h : Kept s (s.connections c).pendingConnections [])
    {error : Option ConnectError} (hbase : error = none → s.base = some c) :
    Kept (s.runCallbacks c error) [] [] := by
  refine h.answer (fun output houtput => ?_) (h.permitted.append fun output houtput first hfirst => ?_)
    (fun other => ?_) fun other => ?_
  · obtain ⟨other, -, rfl⟩ := mem_callbacks.mp houtput
    trivial
  · obtain ⟨other, -, rfl⟩ := mem_callbacks.mp houtput
    cases error with
    | some error => trivial
    | none =>
        intro hclosing
        rcases List.mem_append.mp hclosing with hclosing | hclosing
        · exact h.notClosing c (hbase rfl) hclosing
        · obtain ⟨_, -, heq⟩ := mem_callbacks.mp (hfirst _ hclosing)
          cases heq
  · exact (connectCallbacks_callbacks other c error _).symm.trans (Nat.add_zero _).symm
  · symm
    refine List.count_eq_zero.mpr fun hmem => ?_
    obtain ⟨_, -, heq⟩ := mem_callbacks.mp hmem
    cases heq

/-- The only connection that is opening is at the head of one of the lists. -/
theorem Kept.opening_eq (h : Kept s [] []) (hmem : c ∈ s.opening) : s.opening = [c] := by
  rcases h.opening with hnone | ⟨d, hd, -⟩
  · rw [hnone] at hmem
    exact absurd hmem List.not_mem_nil
  · rw [hd, List.mem_singleton] at hmem
    rw [hd, hmem]

theorem eraseIdx_singleton {α : Type} {entries : List α} {first entry : α} {i : ℕ}
    (hentries : entries = [first]) (h : entries[i]? = some entry) :
    entry = first ∧ entries.eraseIdx i = [] := by
  subst hentries
  cases i with
  | zero => exact ⟨(Option.some.inj h).symm, rfl⟩
  | succ i => simp at h

theorem Kept.onConnected (h : Kept s [] []) {i : ℕ} (hc : s.connects[i]? = some c) (success : Bool) :
    Kept (s.onConnected i c success) [] [] := by
  have hmem := List.mem_of_getElem? hc
  have hopening := h.opening_eq (List.mem_append_left _ hmem)
  obtain ⟨hconnects, hreadies⟩ : s.connects = [c] ∧ s.readies = [] := by
    rcases List.append_eq_singleton_iff.mp hopening with ⟨hnil, -⟩ | hsplit
    · rw [hnil] at hmem
      exact absurd hmem List.not_mem_nil
    · exact hsplit
  have herase := (eraseIdx_singleton hconnects hc).2
  cases success with
  | false =>
      have hheld : Kept { s with connects := s.connects.eraseIdx i }
          (s.connections c).pendingConnections [] :=
        (h.answered hopening (by rw [herase, hreadies]; rfl)).2
      exact hheld.runCallbacks fun heq => nomatch heq
  | true =>
      -- The connection is opening as before.
      have hsame : s.connects.eraseIdx i ++ (s.readies ++ [c]) = s.opening := by
        rw [herase, hreadies, hopening]
        rfl
      refine { h with
        opening := (hsame ▸ h.opening :)
        connectLedger := fun other => ?_ }
      change _ = _ + ((s.connects.eraseIdx i ++ (s.readies ++ [c])).flatMap fun d =>
        (s.connections d).pendingConnections).count other + _
      rw [hsame]
      exact h.connectLedger other

/-- The connection of the table is open. -/
theorem Kept.opened (h : Kept s connecting []) (hbase : s.base = some c) (hopening : s.opening = []) :
    Kept (s.modify c fun connection => { connection with isConnected := true }) connecting [] := by
  have hsame : ∀ d, (Function.update s.connections c
        { s.connections c with isConnected := true } d).referenceCount =
        (s.connections d).referenceCount ∧
      (Function.update s.connections c
        { s.connections c with isConnected := true } d).isDisconnecting =
        (s.connections d).isDisconnecting := by
    intro d
    by_cases hd : d = c
    · rw [hd, Function.update_self]
      exact ⟨rfl, rfl⟩
    · rw [Function.update_of_ne hd]
      exact ⟨rfl, rfl⟩
  refine
    { h with
      disconnecting := fun d hd => h.disconnecting d ((hsame d).2 ▸ hd)
      counted := fun d hd => (hsame d).1.trans (h.counted d hd)
      fresh := fun d hge => ?_
      lingers := h.lingers.imp_right fun ⟨d, other, hd, hbase', hzero⟩ =>
        ⟨d, other, hd, hbase', (hsame d).1.trans hzero⟩
      opening := Or.inl hopening
      connectLedger := fun other => ?_ }
  · have hne : d ≠ c := by
      rintro rfl
      exact absurd (h.base_lt d hbase) (Nat.not_lt_of_le hge)
    obtain ⟨hdefault, hnone⟩ := h.fresh d hge
    exact ⟨(Function.update_of_ne hne ..).trans hdefault, hnone⟩
  · have hcalls := h.connectLedger other
    rw [State.waiting, hopening] at hcalls
    change _ = _ + (s.opening.flatMap fun d => _).count other + _
    rw [hopening]
    exact hcalls

theorem Kept.onReady (h : Kept s [] []) {i : ℕ} (hc : s.readies[i]? = some c) (success : Bool) :
    Kept (s.onReady i c success) [] [] := by
  have hmem := List.mem_of_getElem? hc
  have hopening := h.opening_eq (List.mem_append_right _ hmem)
  obtain ⟨hconnects, hreadies⟩ : s.connects = [] ∧ s.readies = [c] := by
    rcases List.append_eq_singleton_iff.mp hopening with hsplit | ⟨-, hnil⟩
    · exact hsplit
    · rw [hnil] at hmem
      exact absurd hmem List.not_mem_nil
  have hnone : s.connects ++ s.readies.eraseIdx i = [] := by
    rw [hconnects, (eraseIdx_singleton hreadies hc).2]
    rfl
  obtain ⟨hbase, -⟩ := h.answered hopening (List.append_nil [])
  have hheld : Kept { s with readies := s.readies.eraseIdx i }
      (s.connections c).pendingConnections [] := (h.answered hopening hnone).2
  cases success with
  | false => exact hheld.runCallbacks fun heq => nomatch heq
  | true =>
      have hpending : (Function.update s.connections c
          { s.connections c with isConnected := true } c).pendingConnections =
          (s.connections c).pendingConnections := by rw [Function.update_self]
      have hopened := hheld.opened hbase hnone
      rw [← hpending] at hopened
      exact Kept.runCallbacks hopened fun _ => hbase

end DatabaseJones.NdbConnection
