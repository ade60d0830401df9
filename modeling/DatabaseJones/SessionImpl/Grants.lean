import DatabaseJones.Library.BitCount
import DatabaseJones.Library.Run

/-!
# Accounting for cached transactions

`CachedTransactionsAccountant` and the places of `TransactionImpl` that call it.  The native
calls of a session are queued, so that starting a transaction, in the main thread or in a
worker thread, is one step, and so is closing it.
-/

namespace DatabaseJones.SessionImpl

open DatabaseJones.Library

/-- The data nodes of a cluster, whose ids are at most 48, and the number of transactions that
a session may have, which NDB limits. -/
structure Cluster where
  nodeIds : List ℕ
  nodup : nodeIds.Nodup
  nonempty : nodeIds ≠ []
  bounded : ∀ nodeId ∈ nodeIds, nodeId ≤ 48
  maxTransactions : ℕ
  bounded_transactions : maxTransactions < 2 ^ 16

/-! ## The accountant -/

/-- A `CachedTransactionsAccountant`.  No bit of `tc_bitmap` beyond 48 is ever set, so that
casting it to a signed number keeps it. -/
structure Accountant where
  tcBitmap : ℕ := 0
  concurrency : UInt16 := 0
  cacheConcurrency : UInt16 := 0

def Accountant.tallySetNodeId (accountant : Accountant) (nodeId : ℕ) : Accountant :=
  { accountant with tcBitmap := accountant.tcBitmap ^^^ 2 ^ nodeId }

def Accountant.tallySetMaskedNodeIds (accountant : Accountant) (mask : ℤ) : Accountant :=
  { accountant with tcBitmap := accountant.tcBitmap ^^^ mask.toNat }

def Accountant.tallyClear (accountant : Accountant) : Accountant :=
  { accountant with tcBitmap := 0 }

def Accountant.tallyCountSetNodeIds (accountant : Accountant) : ℕ :=
  countBits 64 accountant.tcBitmap

variable (cluster : Cluster)

/-- `registerIntentToOpen()`, which returns a token.  The process ends if an assertion
fails. -/
def Accountant.registerIntentToOpen (accountant : Accountant) : Option (ℤ × Accountant) :=
  let registered := { accountant with concurrency := accountant.concurrency + 1 }
  if registered.concurrency > UInt16.ofNat cluster.maxTransactions then none
  else if registered.concurrency < registered.cacheConcurrency then some (-1, registered)
  else if registered.tallyCountSetNodeIds = cluster.nodeIds.length then
    some (-1, { registered with cacheConcurrency := registered.cacheConcurrency + 1 }.tallyClear)
  else some (registered.tcBitmap, registered.tallyClear)

def Accountant.registerTxClosed (accountant : Accountant) (token : ℤ) (nodeId : ℕ) : Accountant :=
  let closed := { accountant with concurrency := accountant.concurrency - 1 }
  if token ≥ 0 then (closed.tallySetMaskedNodeIds token).tallySetNodeId nodeId else closed

/-! ## Transactions -/

/-- A `TransactionImpl`, used again for another transaction after it was closed.
`ndbTransaction` is the node that coordinates the open transaction. -/
structure TransactionImpl where
  token : ℤ := 0
  ndbTransaction : Option ℕ := none
  tcNodeId : ℕ := 0

/-- What can be observed of a session: whether a transaction was started at once by the main
thread, and whether NDB had a record for it. -/
inductive Output
  | started (tx node : ℕ) (isImmediate hasRecord : Bool)
  | closed (tx node : ℕ)
deriving DecidableEq

/-- The accountant, the transactions, NDB's free connection records for each node, and the
transactions that have been registered as open and not been closed. -/
structure State where
  accountant : Accountant := {}
  transactions : ℕ → TransactionImpl := fun _ => {}
  cached : ℕ → ℕ := fun _ => 0
  registered : List ℕ := []
  trace : List Output := []

/-- A transaction is started by `tryImmediateStartTransaction`, or by `execute` after it; it
is started by a scan, a query or `execute` alone; or it is closed.  NDB, with a hint or
without one, takes some node. -/
inductive Event
  | start (tx node : ℕ)
  | startUnregistered (tx node : ℕ)
  | close (tx : ℕ)

/-- `startTransaction(op)`.  NDB takes a free record of the node, or makes a new one. -/
def State.startTransaction (state : State) (tx node : ℕ) (isImmediate : Bool) : State :=
  { state with
    transactions := Function.update state.transactions tx
      { state.transactions tx with ndbTransaction := some node, tcNodeId := node }
    cached := Function.update state.cached node (state.cached node - 1)
    trace := state.trace ++ [.started tx node isImmediate (state.cached node > 0)] }

/-- `tryImmediateStartTransaction(op)`, and `startTransaction(op)` in a worker thread if it
returns false. -/
def State.tryImmediateStartTransaction (state : State) (tx node : ℕ) : Option State :=
  (state.accountant.registerIntentToOpen cluster).map fun (token, accountant) =>
    { state with
      accountant
      transactions := Function.update state.transactions tx { state.transactions tx with token }
      registered := tx :: state.registered }.startTransaction tx node (token == -1)

/-- `closeTransaction()` and `registerClose()`.  NDB keeps the record of the transaction. -/
def State.close (state : State) (tx node : ℕ) : State :=
  let impl := state.transactions tx
  { state with
    accountant := state.accountant.registerTxClosed impl.token impl.tcNodeId
    transactions := Function.update state.transactions tx { impl with ndbTransaction := none }
    cached := Function.update state.cached node (state.cached node + 1)
    registered := state.registered.erase tx
    trace := state.trace ++ [.closed tx node] }

def step (state : State) : Event → Option State
  | .start tx node =>
      if tx < cluster.maxTransactions ∧ (state.transactions tx).ndbTransaction = none ∧
          node ∈ cluster.nodeIds then
        state.tryImmediateStartTransaction cluster tx node
      else none
  | .startUnregistered tx node =>
      if tx < cluster.maxTransactions ∧ (state.transactions tx).ndbTransaction = none ∧
          node ∈ cluster.nodeIds then
        some (state.startTransaction tx node false)
      else none
  | .close tx =>
      match (state.transactions tx).ndbTransaction with
      | none => none
      | some node => some (state.close tx node)

/-! ## What the accountant is for -/

/-- The accountant counts the transactions that are registered as open, and only those
transactions are started at once for which NDB has a record. -/
structure Accounts (state : State) : Prop where
  counts : state.accountant.concurrency.toNat = state.registered.length
  grants : ∀ tx node, .started tx node true false ∉ state.trace

/-- Every transaction is registered. -/
def Registered (_ : State) : Event → Prop
  | .start _ _ => True
  | .startUnregistered _ _ => False
  | .close _ => True

/-- Every transaction is registered, and started when no other one is open. -/
def Allowed (state : State) : Event → Prop
  | .start _ _ => state.registered = []
  | .startUnregistered _ _ => False
  | .close _ => True

instance (state : State) (event : Event) : Decidable (Allowed state event) := by
  cases event <;> unfold Allowed <;> infer_instance

end DatabaseJones.SessionImpl

/-!
## Immediate starts find a record

A node whose tally is set, and every node once `cacheConcurrency` is positive, has a record,
free or in use.  So a transaction that is started when no other one is open and is started
at once finds a free record.
-/

namespace DatabaseJones.SessionImpl

open DatabaseJones.Library

variable {cluster : Cluster} {state : State} {tx node : ℕ}

/-! ## Counting open transactions -/

/-- The registered transactions are the open ones, and the accountant counts them. -/
structure Counted (cluster : Cluster) (state : State) : Prop where
  counts : state.accountant.concurrency.toNat = state.registered.length
  nodup : state.registered.Nodup
  isOpen : ∀ tx, tx ∈ state.registered ↔ ∃ node, (state.transactions tx).ndbTransaction = some node
  lt : ∀ tx ∈ state.registered, tx < cluster.maxTransactions

theorem counted_init : Counted cluster {} where
  counts := rfl
  nodup := List.nodup_nil
  isOpen _ := ⟨fun h => absurd h List.not_mem_nil, fun ⟨_, h⟩ => nomatch h⟩
  lt _ h := absurd h List.not_mem_nil

/-- There is room for another registered transaction. -/
theorem Counted.room (h : Counted cluster state) (htx : tx < cluster.maxTransactions)
    (hclosed : tx ∉ state.registered) : state.registered.length < cluster.maxTransactions := by
  have hnodup : (tx :: state.registered).Nodup := List.nodup_cons.mpr ⟨hclosed, h.nodup⟩
  have hsubset : tx :: state.registered ⊆ List.range cluster.maxTransactions := by
    intro other hother
    rw [List.mem_range]
    rcases List.mem_cons.mp hother with rfl | hother
    · exact htx
    · exact h.lt other hother
  have hlength := (List.subperm_of_subset hnodup hsubset).length_le
  rwa [List.length_cons, List.length_range] at hlength

/-- What `registerIntentToOpen` returns. -/
theorem registerIntentToOpen_spec {accountant after : Accountant} {token : ℤ}
    (h : accountant.registerIntentToOpen cluster = some (token, after)) :
    after.concurrency = accountant.concurrency + 1 ∧
      (token = -1 ∧ accountant.concurrency + 1 < accountant.cacheConcurrency ∧
          after.tcBitmap = accountant.tcBitmap ∧
          after.cacheConcurrency = accountant.cacheConcurrency ∨
        token = -1 ∧ accountant.tallyCountSetNodeIds = cluster.nodeIds.length ∧
          after.tcBitmap = 0 ∧ after.cacheConcurrency = accountant.cacheConcurrency + 1 ∨
        token = accountant.tcBitmap ∧ after.tcBitmap = 0 ∧
          after.cacheConcurrency = accountant.cacheConcurrency) := by
  unfold Accountant.registerIntentToOpen at h
  dsimp only at h
  split_ifs at h with hassert hless hcount
  · obtain ⟨rfl, rfl⟩ := Prod.mk.inj (Option.some.inj h)
    exact ⟨rfl, Or.inl ⟨rfl, hless, rfl, rfl⟩⟩
  · obtain ⟨rfl, rfl⟩ := Prod.mk.inj (Option.some.inj h)
    exact ⟨rfl, Or.inr (Or.inl ⟨rfl, hcount, rfl, rfl⟩)⟩
  · obtain ⟨rfl, rfl⟩ := Prod.mk.inj (Option.some.inj h)
    exact ⟨rfl, Or.inr (Or.inr ⟨rfl, rfl, rfl⟩)⟩

/-- What a registered start leaves. -/
theorem tryImmediateStartTransaction_spec {after : State}
    (h : state.tryImmediateStartTransaction cluster tx node = some after) :
    ∃ token, state.accountant.registerIntentToOpen cluster = some (token, after.accountant) ∧
      after.transactions = Function.update state.transactions tx ⟨token, some node, node⟩ ∧
      after.cached = Function.update state.cached node (state.cached node - 1) ∧
      after.registered = tx :: state.registered ∧
      after.trace = state.trace ++ [.started tx node (token == -1) (state.cached node > 0)] := by
  obtain ⟨⟨token, accountant⟩, hregister, rfl⟩ := Option.map_eq_some_iff.mp h
  refine ⟨token, hregister, ?_, rfl, rfl, rfl⟩
  dsimp only [State.startTransaction]
  rw [Function.update_idem, Function.update_self]

theorem Counted.start (h : Counted cluster state) {after : State}
    (htx : tx < cluster.maxTransactions) (hclosed : (state.transactions tx).ndbTransaction = none)
    (hafter : state.tryImmediateStartTransaction cluster tx node = some after) :
    Counted cluster after := by
  obtain ⟨token, hregister, htransactions, -, hregistered, -⟩ :=
    tryImmediateStartTransaction_spec hafter
  have hnot : tx ∉ state.registered := by
    rw [h.isOpen, hclosed]
    exact fun ⟨_, h⟩ => nomatch h
  have hroom := h.room htx hnot
  have hbound := cluster.bounded_transactions
  refine ⟨?_, ?_, ?_, ?_⟩
  · have hcounts := h.counts
    have hone : (1 : UInt16).toNat = 1 := rfl
    rw [(registerIntentToOpen_spec hregister).1, hregistered, List.length_cons, UInt16.toNat_add,
      hcounts, hone]
    exact Nat.mod_eq_of_lt (by omega)
  · rw [hregistered]
    exact List.nodup_cons.mpr ⟨hnot, h.nodup⟩
  · intro other
    rw [hregistered, htransactions]
    by_cases heq : other = tx
    · rw [heq, Function.update_self]
      exact ⟨fun _ => ⟨node, rfl⟩, fun _ => List.mem_cons_self⟩
    · rw [Function.update_of_ne heq, List.mem_cons, ← h.isOpen]
      exact or_iff_right heq
  · intro other hother
    rw [hregistered] at hother
    rcases List.mem_cons.mp hother with rfl | hother
    · exact htx
    · exact h.lt other hother

theorem Counted.close (h : Counted cluster state)
    (hopen : (state.transactions tx).ndbTransaction = some node) :
    Counted cluster (state.close tx node) := by
  have hmem : tx ∈ state.registered := (h.isOpen tx).mpr ⟨node, hopen⟩
  have hpos := List.length_pos_of_mem hmem
  refine ⟨?_, h.nodup.erase tx, ?_, fun other hother => h.lt other (List.mem_of_mem_erase hother)⟩
  · have hconcurrency : (state.close tx node).accountant.concurrency =
        state.accountant.concurrency - 1 := by
      simp only [State.close, Accountant.registerTxClosed]
      split_ifs <;> rfl
    have hcounts := h.counts
    have hone : (1 : UInt16) ≤ state.accountant.concurrency := by
      rw [UInt16.le_iff_toNat_le, hcounts]
      exact hpos
    rw [hconcurrency, UInt16.toNat_sub_of_le _ _ hone, hcounts]
    exact (List.length_erase_of_mem hmem).symm
  · intro other
    change other ∈ state.registered.erase tx ↔ ∃ opened,
      (Function.update state.transactions tx _ other).ndbTransaction = some opened
    by_cases heq : other = tx
    · rw [heq, Function.update_self]
      exact ⟨fun hother => absurd hother h.nodup.not_mem_erase, fun ⟨_, h⟩ => nomatch h⟩
    · rw [Function.update_of_ne heq, ← h.isOpen]
      exact List.mem_erase_of_ne heq

theorem counted_step {event : Event} {after : State} (h : Counted cluster state)
    (hregistered : Registered state event) (hstep : step cluster state event = some after) :
    Counted cluster after := by
  cases event with
  | start tx node =>
      rw [step] at hstep
      split_ifs at hstep with hstart
      exact h.start hstart.1 hstart.2.1 hstep
  | startUnregistered tx node => exact hregistered.elim
  | close tx =>
      rw [step] at hstep
      split at hstep
      · exact nomatch hstep
      · rename_i node hopen
        rw [← Option.some.inj hstep]
        exact h.close hopen

/-- As long as every transaction is registered, the accountant counts those that are open. -/
theorem counted_of_guarded {events : List Event} {final : State}
    (hguarded : Guarded (step cluster) Registered {} events)
    (hrun : run (step cluster) {} events = some final) : Counted cluster final :=
  invariant_of_guarded (Counted cluster) (fun _ _ _ h hregistered hstep =>
    counted_step h hregistered hstep) counted_init hguarded hrun

/-! ## Records for the tallies -/

/-- NDB has a record for a node, free or in use. -/
def Held (state : State) (nodeId : ℕ) : Prop :=
  0 < state.cached nodeId ∨ ∃ tx, (state.transactions tx).ndbTransaction = some nodeId

/-- A set of node ids, as a bitmap, for each of which NDB has a record. -/
def HeldBits (cluster : Cluster) (state : State) (bitmap : ℕ) : Prop :=
  ∀ nodeId, bitmap.testBit nodeId → nodeId ∈ cluster.nodeIds ∧ Held state nodeId

/-- What the accountant has tallied is backed by records of NDB. -/
structure Backed (cluster : Cluster) (state : State) : Prop where
  tallies : HeldBits cluster state state.accountant.tcBitmap
  tokens : ∀ tx, HeldBits cluster state (state.transactions tx).token.toNat
  nodes : ∀ tx node, (state.transactions tx).ndbTransaction = some node →
    node ∈ cluster.nodeIds ∧ (state.transactions tx).tcNodeId = node
  all : 0 < state.accountant.cacheConcurrency → ∀ nodeId ∈ cluster.nodeIds, Held state nodeId

theorem heldBits_zero (cluster : Cluster) (state : State) : HeldBits cluster state 0 := by
  intro nodeId h
  rw [Nat.zero_testBit] at h
  exact nomatch h

theorem backed_init (cluster : Cluster) : Backed cluster {} where
  tallies := heldBits_zero _ _
  tokens _ := heldBits_zero _ _
  nodes _ _ h := nomatch h
  all h := absurd h (by decide)

theorem HeldBits.mono {after : State} {bitmap : ℕ}
    (hheld : ∀ nodeId, Held state nodeId → Held after nodeId) (h : HeldBits cluster state bitmap) :
    HeldBits cluster after bitmap :=
  fun nodeId hbit => ⟨(h nodeId hbit).1, hheld nodeId (h nodeId hbit).2⟩

/-- The set of tallies is counted right. -/
theorem Backed.tallyCount (h : Backed cluster state) :
    state.accountant.tallyCountSetNodeIds = state.accountant.tcBitmap.bitIndices.length := by
  refine countBits_eq ((@length_bitIndices_le _ (List.range 49) fun nodeId hbit => ?_).trans ?_)
  · exact List.mem_range.mpr
      (Nat.lt_succ_of_le (cluster.bounded nodeId (h.tallies nodeId hbit).1))
  · rw [List.length_range]
    omega

/-- Once all nodes are tallied, each of them has a record. -/
theorem Backed.held_of_count (h : Backed cluster state)
    (hcount : state.accountant.tallyCountSetNodeIds = cluster.nodeIds.length) {nodeId : ℕ}
    (hnode : nodeId ∈ cluster.nodeIds) : Held state nodeId := by
  rw [h.tallyCount] at hcount
  exact (h.tallies nodeId
    (testBit_of_length (fun i hbit => (h.tallies i hbit).1) hcount.ge hnode)).2

/-- A transaction that is started at once has a record for whatever node it gets. -/
theorem Backed.held_of_immediate (h : Backed cluster state) {after : Accountant}
    (hregister : state.accountant.registerIntentToOpen cluster = some (-1, after)) {nodeId : ℕ}
    (hnode : nodeId ∈ cluster.nodeIds) : Held state nodeId := by
  rcases (registerIntentToOpen_spec hregister).2 with ⟨-, hless, -⟩ | ⟨-, hcount, -⟩ | ⟨htoken, -⟩
  · refine h.all ?_ nodeId hnode
    rw [UInt16.lt_iff_toNat_lt] at hless ⊢
    exact Nat.zero_lt_of_lt hless
  · exact h.held_of_count hcount hnode
  · exact absurd htoken (by omega)

/-- Starting a transaction on a node takes no node its records. -/
theorem held_start {after : State} {impl : TransactionImpl}
    (hclosed : (state.transactions tx).ndbTransaction = none)
    (htransactions : after.transactions = Function.update state.transactions tx impl)
    (hnode : impl.ndbTransaction = some node)
    (hcached : after.cached = Function.update state.cached node (state.cached node - 1))
    (nodeId : ℕ) (h : Held state nodeId) : Held after nodeId := by
  by_cases heq : nodeId = node
  · exact Or.inr ⟨tx, by rw [htransactions, Function.update_self, hnode, heq]⟩
  · rcases h with hfree | ⟨other, hother⟩
    · exact Or.inl (by rwa [hcached, Function.update_of_ne heq])
    · have hne : other ≠ tx := by
        rintro rfl
        exact nomatch hclosed.symm.trans hother
      exact Or.inr ⟨other, by rwa [htransactions, Function.update_of_ne hne]⟩

theorem held_close (hopen : (state.transactions tx).ndbTransaction = some node) (nodeId : ℕ)
    (h : Held state nodeId) : Held (state.close tx node) nodeId := by
  by_cases heq : nodeId = node
  · refine Or.inl ?_
    simp only [State.close]
    rw [heq, Function.update_self]
    exact Nat.succ_pos _
  · rcases h with hfree | ⟨other, hother⟩
    · refine Or.inl ?_
      simp only [State.close]
      rwa [Function.update_of_ne heq]
    · have hne : other ≠ tx := by
        rintro rfl
        exact heq (Option.some.inj (hother.symm.trans hopen))
      refine Or.inr ⟨other, ?_⟩
      simp only [State.close]
      rwa [Function.update_of_ne hne]

theorem Backed.start (h : Backed cluster state) {after : State}
    (hclosed : (state.transactions tx).ndbTransaction = none) (hnode : node ∈ cluster.nodeIds)
    (hafter : state.tryImmediateStartTransaction cluster tx node = some after) :
    Backed cluster after := by
  obtain ⟨token, hregister, htransactions, hcached, -, -⟩ := tryImmediateStartTransaction_spec hafter
  have hheld := held_start hclosed htransactions rfl hcached
  have hspec := (registerIntentToOpen_spec hregister).2
  refine ⟨?_, ?_, ?_, ?_⟩
  · rcases hspec with ⟨-, -, hbitmap, -⟩ | ⟨-, -, hbitmap, -⟩ | ⟨-, hbitmap, -⟩
    · rw [hbitmap]
      exact h.tallies.mono hheld
    · rw [hbitmap]
      exact heldBits_zero _ _
    · rw [hbitmap]
      exact heldBits_zero _ _
  · intro other
    rw [htransactions]
    by_cases heq : other = tx
    · rw [heq, Function.update_self]
      rcases hspec with ⟨rfl, -⟩ | ⟨rfl, -⟩ | ⟨rfl, -⟩
      · exact heldBits_zero _ _
      · exact heldBits_zero _ _
      · exact h.tallies.mono hheld
    · rw [Function.update_of_ne heq]
      exact (h.tokens other).mono hheld
  · intro other opened hopen
    rw [htransactions] at hopen ⊢
    by_cases heq : other = tx
    · rw [heq, Function.update_self] at hopen ⊢
      rw [← Option.some.inj hopen]
      exact ⟨hnode, rfl⟩
    · rw [Function.update_of_ne heq] at hopen ⊢
      exact h.nodes other opened hopen
  · intro hpos nodeId hmem
    refine hheld nodeId ?_
    rcases hspec with ⟨-, -, -, hcache⟩ | ⟨-, hcount, -⟩ | ⟨-, -, hcache⟩
    · exact h.all (hcache ▸ hpos) nodeId hmem
    · exact h.held_of_count hcount hmem
    · exact h.all (hcache ▸ hpos) nodeId hmem

/-- Closing a transaction tallies its node, and those of its token. -/
theorem testBit_registerTxClosed {accountant : Accountant} {token : ℤ} {nodeId i : ℕ}
    (h : (accountant.registerTxClosed token nodeId).tcBitmap.testBit i = true) :
    accountant.tcBitmap.testBit i = true ∨ token.toNat.testBit i = true ∨ i = nodeId := by
  simp only [Accountant.registerTxClosed, Accountant.tallySetNodeId,
    Accountant.tallySetMaskedNodeIds] at h
  split_ifs at h
  · rw [Nat.testBit_xor, Nat.testBit_xor, Nat.testBit_two_pow] at h
    by_cases hnode : i = nodeId
    · exact Or.inr (Or.inr hnode)
    · rw [decide_eq_false (Ne.symm hnode), Bool.xor_false] at h
      cases hbit : accountant.tcBitmap.testBit i with
      | true => exact Or.inl rfl
      | false =>
          rw [hbit, Bool.false_xor] at h
          exact Or.inr (Or.inl h)
  · exact Or.inl h

theorem cacheConcurrency_registerTxClosed (accountant : Accountant) (token : ℤ) (nodeId : ℕ) :
    (accountant.registerTxClosed token nodeId).cacheConcurrency = accountant.cacheConcurrency := by
  simp only [Accountant.registerTxClosed]
  split_ifs <;> rfl

theorem Backed.close (h : Backed cluster state)
    (hopen : (state.transactions tx).ndbTransaction = some node) :
    Backed cluster (state.close tx node) := by
  have hheld := held_close hopen
  obtain ⟨hnode, htcNodeId⟩ := h.nodes tx node hopen
  have htransactions : (state.close tx node).transactions = Function.update state.transactions tx
      { state.transactions tx with ndbTransaction := none } := rfl
  refine ⟨?_, ?_, ?_, ?_⟩
  · intro nodeId hbit
    rcases testBit_registerTxClosed hbit with hbit | hbit | rfl
    · exact h.tallies.mono hheld nodeId hbit
    · exact (h.tokens tx).mono hheld nodeId hbit
    · rw [htcNodeId]
      exact ⟨hnode, hheld node (Or.inr ⟨tx, hopen⟩)⟩
  · intro other
    rw [htransactions]
    by_cases heq : other = tx
    · rw [heq, Function.update_self]
      exact (h.tokens tx).mono hheld
    · rw [Function.update_of_ne heq]
      exact (h.tokens other).mono hheld
  · intro other opened hother
    rw [htransactions] at hother ⊢
    by_cases heq : other = tx
    · rw [heq, Function.update_self] at hother
      exact nomatch hother
    · rw [Function.update_of_ne heq] at hother ⊢
      exact h.nodes other opened hother
  · intro hpos nodeId hmem
    have hcache := cacheConcurrency_registerTxClosed state.accountant
      (state.transactions tx).token (state.transactions tx).tcNodeId
    exact hheld nodeId (h.all (hcache ▸ hpos) nodeId hmem)

/-! ## Runs -/

/-- What holds in every run in which every transaction is registered, and started when no
other one is open. -/
structure Invariant (cluster : Cluster) (state : State) : Prop where
  counted : Counted cluster state
  backed : Backed cluster state
  grants : ∀ tx node, .started tx node true false ∉ state.trace

theorem Invariant.start (h : Invariant cluster state) {after : State}
    (hidle : state.registered = []) (htx : tx < cluster.maxTransactions)
    (hclosed : (state.transactions tx).ndbTransaction = none) (hnode : node ∈ cluster.nodeIds)
    (hafter : state.tryImmediateStartTransaction cluster tx node = some after) :
    Invariant cluster after := by
  refine ⟨h.counted.start htx hclosed hafter, h.backed.start hclosed hnode hafter, ?_⟩
  obtain ⟨token, hregister, -, -, -, htrace⟩ := tryImmediateStartTransaction_spec hafter
  intro other otherNode hmem
  rw [htrace, List.mem_append, List.mem_singleton] at hmem
  rcases hmem with hmem | hmem
  · exact h.grants other otherNode hmem
  · injection hmem with _ _ himmediate hrecord
    obtain rfl : token = -1 := by simpa using himmediate.symm
    rcases h.backed.held_of_immediate hregister hnode with hfree | ⟨holder, hholder⟩
    · simp [hfree] at hrecord
    · have hopen := (h.counted.isOpen holder).mpr ⟨node, hholder⟩
      rw [hidle] at hopen
      exact absurd hopen List.not_mem_nil

theorem invariant_step {event : Event} {after : State} (h : Invariant cluster state)
    (hallowed : Allowed state event) (hstep : step cluster state event = some after) :
    Invariant cluster after := by
  cases event with
  | start tx node =>
      rw [step] at hstep
      split_ifs at hstep with hstart
      exact h.start hallowed hstart.1 hstart.2.1 hstart.2.2 hstep
  | startUnregistered tx node => exact hallowed.elim
  | close tx =>
      rw [step] at hstep
      split at hstep
      · exact nomatch hstep
      · rename_i node hopen
        rw [← Option.some.inj hstep]
        refine ⟨h.counted.close hopen, h.backed.close hopen, fun other otherNode hmem => ?_⟩
        rcases List.mem_append.mp hmem with hmem | hmem
        · exact h.grants other otherNode hmem
        · exact nomatch List.mem_singleton.mp hmem

/-- In every run in which every transaction is registered, and started when no other one is
open, the accountant counts the open transactions, and a transaction is started at once only
if NDB has a record for it. -/
theorem accounts_of_guarded {events : List Event} {final : State}
    (hguarded : Guarded (step cluster) Allowed {} events)
    (hrun : run (step cluster) {} events = some final) : Accounts final := by
  have h : Invariant cluster final := invariant_of_guarded (Invariant cluster)
    (fun _ _ _ h hallowed hstep => invariant_step h hallowed hstep)
    ⟨counted_init, backed_init cluster, fun _ _ => List.not_mem_nil⟩ hguarded hrun
  exact ⟨h.counted.counts, h.grants⟩

/-- A cluster with two data nodes. -/
def twoNodes : Cluster := ⟨[1, 2], by decide, by decide, by decide, 4, by decide⟩

/-- Transactions on both nodes, after which one is started at once. -/
theorem accounts_of_guarded_three : ∃ final,
    run (step twoNodes) {} [.start 0 1, .close 0, .start 0 2, .close 0, .start 0 1] = some final ∧
      .started 0 1 true true ∈ final.trace ∧ Accounts final := by
  refine ⟨_, rfl, by decide, ?_⟩
  exact @accounts_of_guarded twoNodes
    [.start 0 1, .close 0, .start 0 2, .close 0, .start 0 1] _ (by decide) rfl

/-- A transaction is started at once while another one uses the only record of its node. -/
theorem granted_without_record : ¬ ∀ cluster events final,
    run (step cluster) {} events = some final → Accounts final := by
  intro h
  have haccounts := h twoNodes
    [.start 0 1, .close 0, .start 0 2, .start 1 1, .close 0, .start 0 1] _ rfl
  exact haccounts.grants 0 1 (by decide)

-- A scan starts its transaction without registering it, and closing it counts below zero.
example : (run (step twoNodes) {} [.startUnregistered 0 1, .close 0]).map
    (·.accountant.concurrency) = some 65535 := rfl

end DatabaseJones.SessionImpl
