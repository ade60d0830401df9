import DatabaseJones.NdbConnection.Opening

/-!
# Closing shared connections

A pool that closes is uncounted.  The last one leaves the connection lingering, and as nobody
connects to it then, it is closed when the timer goes off; its callback is called when the
native object has been deleted.
-/

namespace DatabaseJones.NdbConnection

open DatabaseJones.Library

variable {s next : State} {c pool : ℕ}

/-! ## Closing -/

/-- A pool calls `close`, once. -/
theorem Kept.closeCalled (h : Kept s [] []) : Kept (s.emit (.closeCalled pool)) [] [pool] := by
  have hmem : ∀ output, output ≠ .closeCalled pool →
      (output ∈ s.trace ++ [.closeCalled pool] ↔ output ∈ s.trace) := by
    intro output hne
    simp [hne]
  have husers : ∀ d, users d (s.trace ++ [.closeCalled pool]) = users d s.trace :=
    fun d => users_closeCalled d pool
  refine
    { base_lt := h.base_lt
      remembered := fun d hd hnot => h.remembered d hd fun hc => hnot ((hmem _ (by simp)).mpr hc)
      notClosing := fun d hd hc => h.notClosing d hd ((hmem _ (by simp)).mp hc)
      closing_lt := fun d hc => h.closing_lt d ((hmem _ (by simp)).mp hc)
      disconnecting := fun d hc => (hmem _ (by simp)).mpr (h.disconnecting d hc)
      counted := fun d hd => (husers d).symm ▸ h.counted d hd
      fresh := fun d hge => (husers d).symm ▸ h.fresh d hge
      unused := fun d hc => (husers d).symm ▸ h.unused d ((hmem _ (by simp)).mp hc)
      uses := fun other d hother hnot => (husers d).symm ▸ h.uses other d hother fun e he =>
        hnot e ((hmem _ (by simp)).mpr he)
      released := fun other d hc =>
        List.mem_append_left _ (h.released other d ((hmem _ (by simp)).mp hc))
      closes := fun entry hentry => ?_
      closes_nodup := h.closes_nodup
      disconnects := fun entry hentry => (hmem _ (by simp)).mpr (h.disconnects entry hentry)
      lingers := h.lingers
      opening := h.opening
      connectLedger := fun other => ?_
      closeLedger := fun other => ?_
      permitted := h.permitted.concat trivial }
  · obtain ⟨hcall, hsome, hnot⟩ := h.closes entry hentry
    exact ⟨List.mem_append_left _ hcall, hsome, fun d hd => hnot d ((hmem _ (by simp)).mp hd)⟩
  · have hcalls := h.connectLedger other
    change _ = _ + s.waiting.count other + _
    change NdbConnection.connectCalls other (s.trace ++ [.closeCalled pool]) =
      NdbConnection.connectCallbacks other (s.trace ++ [.closeCalled pool]) + _ + _
    rw [connectCalls_append, connectCallbacks_append, hcalls]
    simp [connectCalls, connectCallbacks]
  · have hcalls := h.closeLedger other
    change (s.trace ++ [Output.closeCalled pool]).count _ =
      (s.trace ++ [Output.closeCalled pool]).count _ + (tally Prod.fst other s.closes +
        tally Prod.snd other s.lingers + tally Prod.snd other s.disconnects +
        tally Prod.snd other s.deletes) + _
    rw [List.count_append, List.count_append, hcalls]
    simp [List.count_singleton]

/-- A pool is no longer counted. -/
theorem Kept.uncount (h : Kept s [] [pool]) (hbase : s.base = some c) (huser : pool ∈ users c s.trace)
    (hcalled : .closeCalled pool ∈ s.trace) (hcloses : ∀ entry ∈ s.closes, entry.1 ≠ pool)
    {connections : ℕ → Connection}
    (hself : connections c =
      { s.connections c with referenceCount := (s.connections c).referenceCount - 1 })
    (hother : ∀ d, d ≠ c → connections d = s.connections d) :
    Kept { s with connections, trace := s.trace ++ [.released pool c] } [] [pool] ∧
      s.lingers = [] ∧ 0 < (s.connections c).referenceCount := by
  have hlt := h.base_lt c hbase
  have hpos : 0 < (s.connections c).referenceCount := by
    rw [h.counted c hlt]
    exact Int.natCast_pos.mpr (List.length_pos_of_mem huser)
  have hlingers : s.lingers = [] := by
    rcases h.lingers with hnone | ⟨d, other, -, hd, hzero⟩
    · exact hnone
    · obtain rfl := Option.some.inj (hbase.symm.trans hd)
      omega
  have husers : ∀ d, users d (s.trace ++ [.released pool c]) =
      if c = d then (users d s.trace).erase pool else users d s.trace := fun d => users_concat d _ _
  have hmem : ∀ output, output ≠ .released pool c →
      (output ∈ s.trace ++ [.released pool c] ↔ output ∈ s.trace) := by
    intro output hne
    simp [hne]
  have hsame : ∀ d, (connections d).isConnected = (s.connections d).isConnected ∧
      (connections d).isDisconnecting = (s.connections d).isDisconnecting ∧
      (connections d).pendingConnections = (s.connections d).pendingConnections := by
    intro d
    by_cases hd : d = c
    · rw [hd, hself]
      exact ⟨rfl, rfl, rfl⟩
    · rw [hother d hd]
      exact ⟨rfl, rfl, rfl⟩
  refine ⟨?_, hlingers, hpos⟩
  refine
    { base_lt := h.base_lt
      remembered := fun d hd hnot => h.remembered d hd fun hc => hnot ((hmem _ (by simp)).mpr hc)
      notClosing := fun d hd hc => h.notClosing d hd ((hmem _ (by simp)).mp hc)
      closing_lt := fun d hc => h.closing_lt d ((hmem _ (by simp)).mp hc)
      disconnecting := fun d hc => (hmem _ (by simp)).mpr (h.disconnecting d ((hsame d).2.1 ▸ hc))
      counted := fun d hd => ?_
      fresh := fun d hge => ?_
      unused := fun d hc => ?_
      uses := fun other d hpool hnot => ?_
      released := fun other d hc => ?_
      closes := fun entry hentry => ?_
      closes_nodup := h.closes_nodup
      disconnects := fun entry hentry => (hmem _ (by simp)).mpr (h.disconnects entry hentry)
      lingers := Or.inl hlingers
      opening := ?_
      connectLedger := fun other => ?_
      closeLedger := fun other => ?_
      permitted := h.permitted.concat trivial }
  · have hcounted := h.counted d hd
    dsimp only
    rw [husers]
    by_cases heq : d = c
    · have hlength : 0 < (users c s.trace).length := List.length_pos_of_mem huser
      rw [heq, if_pos rfl, hself, List.length_erase_of_mem huser, ← heq, hcounted]
      dsimp only
      rw [← heq] at hlength
      omega
    · rw [if_neg (Ne.symm heq), hother d heq]
      exact hcounted
  · have hne : d ≠ c := by
      rintro rfl
      exact absurd hlt (Nat.not_lt_of_le hge)
    obtain ⟨hdefault, hnone⟩ := h.fresh d hge
    refine ⟨(hother d hne).trans hdefault, ?_⟩
    rw [husers, if_neg (Ne.symm hne), hnone]
  · have hc : .closing d ∈ s.trace := (hmem _ (by simp)).mp hc
    have hne : c ≠ d := by
      rintro rfl
      exact h.notClosing c hbase hc
    rw [husers, if_neg hne]
    exact h.unused d hc
  · have hne : other ≠ pool := by
      rintro rfl
      exact hnot c (List.mem_append_right _ (List.mem_singleton_self _))
    have huses := h.uses other d hpool fun e he => hnot e (List.mem_append_left _ he)
    dsimp only
    rw [husers]
    split_ifs
    · exact (List.mem_erase_of_ne hne).mpr huses
    · exact huses
  · refine (hmem _ (by simp)).mpr ?_
    rcases List.mem_append.mp hc with hc | hc
    · exact h.released other d hc
    · cases List.mem_singleton.mp hc
      exact hcalled
  · obtain ⟨hcall, hsome, hnot⟩ := h.closes entry hentry
    refine ⟨(hmem _ (by simp)).mpr hcall, hsome, fun d hd => ?_⟩
    rcases List.mem_append.mp hd with hd | hd
    · exact hnot d hd
    · exact hcloses entry hentry (Output.released.inj (List.mem_singleton.mp hd)).1
  · refine h.opening.imp_right fun ⟨d, hopening, hd, hconnected, hpending⟩ => ⟨d, hopening, hd, ?_, ?_⟩
    · exact (hsame d).1.trans hconnected
    · exact fun heq => hpending ((hsame d).2.2.symm.trans heq)
  · have hcalls := h.connectLedger other
    have hwaiting : (s.opening.flatMap fun d => (connections d).pendingConnections) = s.waiting :=
      congrArg s.opening.flatMap (funext fun d => (hsame d).2.2)
    change _ = _ + (s.opening.flatMap fun d => (connections d).pendingConnections).count other + _
    rw [hwaiting, connectCalls_append, connectCallbacks_append, hcalls]
    simp [connectCalls, connectCallbacks]
  · have hcalls := h.closeLedger other
    rw [List.count_append, List.count_append, hcalls]
    simp

/-- The pool that is the last one lingers, and any other is called back. -/
theorem Kept.release (h : Kept s [] [pool]) (hpool : s.ndbConnection pool ≠ none)
    (hcalled : .closeCalled pool ∈ s.trace) (hreleased : ∀ d, .released pool d ∉ s.trace)
    (hcloses : ∀ entry ∈ s.closes, entry.1 ≠ pool) : Kept (s.release pool) [] [] := by
  obtain ⟨c, hc⟩ := Option.ne_none_iff_exists'.mp hpool
  obtain ⟨hbase, huser⟩ := h.base_of_uses hc hreleased
  obtain ⟨hkept, hlingers, hpos⟩ := h.uncount hbase huser hcalled hcloses
    (Function.update_self ..) fun d hd => Function.update_of_ne hd ..
  unfold State.release
  rw [hbase]
  dsimp only
  rw [if_neg (by omega)]
  split_ifs with hzero
  · refine { hkept with lingers := Or.inr ⟨c, pool, ?_, hbase, ?_⟩, closeLedger := fun other => ?_ }
    · change s.lingers ++ _ = _
      rw [hlingers]
      rfl
    · change (Function.update s.connections c _ c).referenceCount = 0
      rw [Function.update_self]
      exact hzero
    · have hcalls := hkept.closeLedger other
      simp only [State.emit, State.modify, tally_append, tally_singleton, List.count_singleton,
        List.count_nil, beq_iff_eq] at hcalls ⊢
      omega
  · exact hkept.answer_close

theorem Kept.close (h : Kept s [] []) {nclose : ℕ} (hallowed : Allowed s (.close pool nclose)) :
    Kept (s.close pool nclose) [] [] := by
  obtain ⟨hpool, hnotCalled⟩ := hallowed
  have hcalled : Kept (s.emit (.closeCalled pool)) [] [pool] := h.closeCalled
  have hmem : .closeCalled pool ∈ s.trace ++ [.closeCalled pool] :=
    List.mem_append_right _ (List.mem_singleton_self _)
  have hreleased : ∀ d, .released pool d ∉ s.trace ++ [.closeCalled pool] := by
    intro d hd
    rcases List.mem_append.mp hd with hd | hd
    · exact hnotCalled (h.released pool d hd)
    · cases List.mem_singleton.mp hd
  have hcloses : ∀ entry ∈ s.closes, entry.1 ≠ pool := by
    rintro entry hentry rfl
    exact hnotCalled (h.closes entry hentry).1
  unfold State.close
  dsimp only
  split_ifs
  · exact hcalled.release hpool hmem hreleased hcloses
  · refine { hcalled with closes := ?_, closes_nodup := ?_, closeLedger := fun other => ?_ }
    · intro entry hentry
      rcases List.mem_append.mp hentry with hentry | hentry
      · exact hcalled.closes entry hentry
      · cases List.mem_singleton.mp hentry
        exact ⟨hmem, hpool, hreleased⟩
    · change ((s.closes ++ [(pool, nclose)]).map Prod.fst).Nodup
      rw [List.map_append]
      refine List.Nodup.append h.closes_nodup (List.nodup_singleton _) ?_
      rw [List.map_singleton, List.disjoint_singleton]
      intro hmem
      obtain ⟨entry, hentry, heq⟩ := List.mem_map.mp hmem
      exact hcloses entry hentry heq
    · have hcalls := hcalled.closeLedger other
      simp only [State.emit, tally_append, tally_singleton, List.count_singleton, List.count_nil,
        beq_iff_eq] at hcalls ⊢
      omega

/-- One of the sessions and tables of a pool has been closed. -/
theorem Kept.onNdbClose (h : Kept s [] []) {i nclose : ℕ} (hi : s.closes[i]? = some (pool, nclose)) :
    Kept (s.onNdbClose i pool nclose) [] [] := by
  obtain ⟨hcalled, hpool, hreleased⟩ := h.closes _ (List.mem_of_getElem? hi)
  obtain ⟨hlt, hget⟩ := List.getElem?_eq_some_iff.mp hi
  have hkeys : (s.closes.map Prod.fst)[i]? = some pool := by rw [List.getElem?_map, hi]; rfl
  unfold State.onNdbClose
  split_ifs
  · have herase : ∀ entry ∈ s.closes.eraseIdx i, entry.1 ≠ pool := by
      -- The keys are distinct, and that of the entry is gone.
      intro entry hentry heq
      have hperm := (List.getElem_cons_eraseIdx_perm hlt).map Prod.fst
      have hnodup := hperm.nodup_iff.mpr h.closes_nodup
      rw [List.map_cons, List.nodup_cons, hget] at hnodup
      exact hnodup.1 (List.mem_map.mpr ⟨entry, hentry, heq⟩)
    have hheld : Kept { s with closes := s.closes.eraseIdx i } [] [pool] := by
      refine { h with closes := ?_, closes_nodup := ?_, closeLedger := fun other => ?_ }
      · exact fun entry hentry => h.closes entry (List.mem_of_mem_eraseIdx hentry)
      · change ((s.closes.eraseIdx i).map Prod.fst).Nodup
        exact h.closes_nodup.sublist ((List.eraseIdx_sublist _ _).map _)
      · have hcalls := h.closeLedger other
        have htally := tally_eraseIdx hi Prod.fst other
        simp only [List.count_singleton, List.count_nil, beq_iff_eq] at hcalls htally ⊢
        omega
    exact hheld.release hpool hcalled hreleased herase
  · refine { h with closes := ?_, closes_nodup := ?_, closeLedger := fun other => ?_ }
    · intro entry hentry
      rcases List.mem_or_eq_of_mem_set hentry with hentry | rfl
      · exact h.closes entry hentry
      · exact ⟨hcalled, hpool, hreleased⟩
    · have hsame : (s.closes.set i (pool, nclose - 1)).map Prod.fst = s.closes.map Prod.fst := by
        rw [List.map_set]
        refine List.ext_getElem? fun j => ?_
        rw [List.getElem?_set]
        split_ifs with hj hlength
        · exact hj ▸ hkeys.symm
        · exact absurd (by rwa [List.length_map]) hlength
        · rfl
      change ((s.closes.set i (pool, nclose - 1)).map Prod.fst).Nodup
      rw [hsame]
      exact h.closes_nodup
    · have hcalls := h.closeLedger other
      have htally : tally Prod.fst other (s.closes.set i (pool, nclose - 1)) =
          tally Prod.fst other s.closes :=
        tally_set hi (by rfl) other
      simp only [htally]
      exact hcalls

/-! ## Disconnecting -/

/-- The native object of a connection that is being closed is deleted. -/
theorem Kept.disconnect (h : Kept s [] [pool]) (hclosing : .closing c ∈ s.trace) :
    Kept (s.disconnect c pool) [] [] := by
  have hsame : ∀ d, (Function.update s.connections c
        { s.connections c with isConnected := false } d).referenceCount =
        (s.connections d).referenceCount ∧
      (Function.update s.connections c
        { s.connections c with isConnected := false } d).isDisconnecting =
        (s.connections d).isDisconnecting ∧
      (Function.update s.connections c
        { s.connections c with isConnected := false } d).pendingConnections =
        (s.connections d).pendingConnections := by
    intro d
    by_cases hd : d = c
    · rw [hd, Function.update_self]
      exact ⟨rfl, rfl, rfl⟩
    · rw [Function.update_of_ne hd]
      exact ⟨rfl, rfl, rfl⟩
  refine
    { h with
      disconnecting := fun d hd => h.disconnecting d ((hsame d).2.1 ▸ hd)
      counted := fun d hd => (hsame d).1.trans (h.counted d hd)
      fresh := fun d hge => ?_
      lingers := h.lingers.imp_right fun ⟨d, other, hd, hbase, hzero⟩ =>
        ⟨d, other, hd, hbase, (hsame d).1.trans hzero⟩
      opening := ?_
      connectLedger := fun other => ?_
      closeLedger := fun other => ?_ }
  · have hne : d ≠ c := by
      rintro rfl
      exact absurd (h.closing_lt d hclosing) (Nat.not_lt_of_le hge)
    obtain ⟨hdefault, hnone⟩ := h.fresh d hge
    exact ⟨(Function.update_of_ne hne ..).trans hdefault, hnone⟩
  · refine h.opening.imp_right fun ⟨d, hd, hbase, hconnected, hpending⟩ =>
      ⟨d, hd, hbase, ?_, fun heq => hpending ((hsame d).2.2.symm.trans heq)⟩
    have hne : d ≠ c := by
      rintro rfl
      exact h.notClosing d hbase hclosing
    change (Function.update s.connections c _ d).isConnected = false
    rw [Function.update_of_ne hne]
    exact hconnected
  · have hwaiting : (s.opening.flatMap fun d => (Function.update s.connections c
        { s.connections c with isConnected := false } d).pendingConnections) = s.waiting :=
      congrArg s.opening.flatMap (funext fun d => (hsame d).2.2)
    change _ = _ + (s.opening.flatMap fun d => (Function.update s.connections c
      { s.connections c with isConnected := false } d).pendingConnections).count other + _
    rw [hwaiting]
    exact h.connectLedger other
  · have hcalls := h.closeLedger other
    simp only [State.disconnect, State.modify, tally_append, tally_singleton, List.count_singleton,
      List.count_nil, beq_iff_eq] at hcalls ⊢
    omega

/-- A connection that is being closed waits for its last results. -/
theorem Kept.disconnecting_append (h : Kept s [] [pool]) (hclosing : .closing c ∈ s.trace) :
    Kept { s with
      connections := Function.update s.connections c
        { s.connections c with isDisconnecting := true }
      disconnects := s.disconnects ++ [(c, pool)] } [] [] := by
  have hsame : ∀ d, (Function.update s.connections c
        { s.connections c with isDisconnecting := true } d).referenceCount =
        (s.connections d).referenceCount ∧
      (Function.update s.connections c
        { s.connections c with isDisconnecting := true } d).isConnected =
        (s.connections d).isConnected ∧
      (Function.update s.connections c
        { s.connections c with isDisconnecting := true } d).pendingConnections =
        (s.connections d).pendingConnections := by
    intro d
    by_cases hd : d = c
    · rw [hd, Function.update_self]
      exact ⟨rfl, rfl, rfl⟩
    · rw [Function.update_of_ne hd]
      exact ⟨rfl, rfl, rfl⟩
  refine
    { h with
      disconnecting := fun d hd => ?_
      counted := fun d hd => (hsame d).1.trans (h.counted d hd)
      fresh := fun d hge => ?_
      disconnects := ?_
      lingers := h.lingers.imp_right fun ⟨d, other, hd, hbase, hzero⟩ =>
        ⟨d, other, hd, hbase, (hsame d).1.trans hzero⟩
      opening := h.opening.imp_right fun ⟨d, hd, hbase, hconnected, hpending⟩ =>
        ⟨d, hd, hbase, (hsame d).2.1.trans hconnected,
          fun heq => hpending ((hsame d).2.2.symm.trans heq)⟩
      connectLedger := fun other => ?_
      closeLedger := fun other => ?_ }
  · by_cases hc : d = c
    · rwa [hc]
    · refine h.disconnecting d ?_
      change (Function.update s.connections c _ d).isDisconnecting = true at hd
      rwa [Function.update_of_ne hc] at hd
  · have hne : d ≠ c := by
      rintro rfl
      exact absurd (h.closing_lt d hclosing) (Nat.not_lt_of_le hge)
    obtain ⟨hdefault, hnone⟩ := h.fresh d hge
    exact ⟨(Function.update_of_ne hne ..).trans hdefault, hnone⟩
  · intro entry hentry
    rcases List.mem_append.mp hentry with hentry | hentry
    · exact h.disconnects entry hentry
    · cases List.mem_singleton.mp hentry
      exact hclosing
  · have hwaiting : (s.opening.flatMap fun d => (Function.update s.connections c
        { s.connections c with isDisconnecting := true } d).pendingConnections) = s.waiting :=
      congrArg s.opening.flatMap (funext fun d => (hsame d).2.2)
    change _ = _ + (s.opening.flatMap fun d => (Function.update s.connections c
      { s.connections c with isDisconnecting := true } d).pendingConnections).count other + _
    rw [hwaiting]
    exact h.connectLedger other
  · have hcalls := h.closeLedger other
    simp only [tally_append, tally_singleton, List.count_singleton, List.count_nil,
      beq_iff_eq] at hcalls ⊢
    omega

/-- The connection of the table is closed: nobody uses it, and it has been answered. -/
theorem Kept.shut (h : Kept s [] []) (hlingers : s.lingers = [(c, pool)]) (hbase : s.base = some c)
    (hzero : (s.connections c).referenceCount = 0) (hopening : s.opening = []) :
    Kept { s with base := none, lingers := [], trace := s.trace ++ [.closing c] } [] [pool] := by
  have hlt := h.base_lt c hbase
  have hnone : users c s.trace = [] := by
    have hcounted := h.counted c hlt
    rw [hzero] at hcounted
    exact List.length_eq_zero_iff.mp (Int.natCast_eq_zero.mp hcounted.symm)
  have hmem : ∀ output, output ≠ .closing c →
      (output ∈ s.trace ++ [.closing c] ↔ output ∈ s.trace) := by
    intro output hne
    simp [hne]
  have husers : ∀ d, users d (s.trace ++ [.closing c]) = users d s.trace :=
    fun d => users_closing d c
  refine
    { base_lt := fun d hd => nomatch hd
      remembered := fun d hd hnot => ?_
      notClosing := fun d hd => nomatch hd
      closing_lt := fun d hc => ?_
      disconnecting := fun d hd => List.mem_append_left _ (h.disconnecting d hd)
      counted := fun d hd => (husers d).symm ▸ h.counted d hd
      fresh := fun d hge => (husers d).symm ▸ h.fresh d hge
      unused := fun d hc => ?_
      uses := fun other d hother hnot => (husers d).symm ▸ h.uses other d hother fun e he =>
        hnot e ((hmem _ (by simp)).mpr he)
      released := fun other d hc => (hmem _ (by simp)).mpr (h.released other d ((hmem _ (by simp)).mp hc))
      closes := fun entry hentry => ?_
      closes_nodup := h.closes_nodup
      disconnects := fun entry hentry => List.mem_append_left _ (h.disconnects entry hentry)
      lingers := Or.inl rfl
      opening := Or.inl hopening
      connectLedger := fun other => ?_
      closeLedger := fun other => ?_
      permitted := h.permitted.concat hnone }
  · -- Another connection would have been in the table.
    have hbase' := h.remembered d hd fun hc => hnot (List.mem_append_left _ hc)
    obtain rfl := Option.some.inj (hbase.symm.trans hbase')
    exact absurd (List.mem_append_right _ (List.mem_singleton_self _)) hnot
  · rcases List.mem_append.mp hc with hc | hc
    · exact h.closing_lt d hc
    · cases List.mem_singleton.mp hc
      exact hlt
  · rw [husers]
    rcases List.mem_append.mp hc with hc | hc
    · exact h.unused d hc
    · cases List.mem_singleton.mp hc
      exact hnone
  · obtain ⟨hcall, hsome, hnot⟩ := h.closes entry hentry
    exact ⟨(hmem _ (by simp)).mpr hcall, hsome, fun d hd => hnot d ((hmem _ (by simp)).mp hd)⟩
  · have hcalls := h.connectLedger other
    change _ = _ + s.waiting.count other + _
    rw [connectCalls_append, connectCallbacks_append, hcalls]
    simp [connectCalls, connectCallbacks]
  · have hcalls := h.closeLedger other
    rw [hlingers] at hcalls
    rw [List.count_append, List.count_append, hcalls]
    simp only [tally_singleton, tally_nil, List.count_singleton, List.count_nil, beq_iff_eq,
      reduceCtorEq, if_false]
    omega

theorem Kept.closeReally (h : Kept s [] []) {i : ℕ} (hi : s.lingers[i]? = some (c, pool))
    (hallowed : Allowed s (.closeReally i)) : Kept (s.closeReally i c pool) [] [] := by
  obtain ⟨d, other, hlingers, hbase, hzero⟩ : ∃ d other, s.lingers = [(d, other)] ∧
      s.base = some d ∧ (s.connections d).referenceCount = 0 := by
    rcases h.lingers with hnone | hsome
    · rw [hnone] at hi
      simp at hi
    · exact hsome
  obtain ⟨heq, herase⟩ := eraseIdx_singleton hlingers hi
  obtain ⟨rfl, rfl⟩ := Prod.mk.inj heq
  have hopening : s.opening = [] := by
    rcases h.opening with hnone | ⟨e, he, hbase', -⟩
    · exact hnone
    · obtain rfl := Option.some.inj (hbase.symm.trans hbase')
      have hmem : c ∈ s.opening := by
        rw [he]
        exact List.mem_singleton_self _
      exact absurd hmem (hallowed (c, pool) hi)
  have hclosing := h.shut hlingers hbase hzero hopening
  have hmem : .closing c ∈ s.trace ++ [.closing c] :=
    List.mem_append_right _ (List.mem_singleton_self _)
  have hnotDisconnecting : (s.connections c).isDisconnecting = false := by
    by_contra hd
    exact h.notClosing c hbase (h.disconnecting c (Bool.not_eq_false _ ▸ hd))
  unfold State.closeReally
  dsimp only
  rw [if_pos hzero, herase]
  unfold State.closeConnection
  dsimp only
  rw [hnotDisconnecting, if_neg Bool.false_ne_true]
  split_ifs
  · exact hclosing.disconnect hmem
  · exact hclosing.disconnecting_append hmem

/-! ## Runs -/

theorem Kept.step {event : Event} (h : Kept s [] []) (hallowed : Allowed s event)
    (hnext : step s event = some next) : Kept next [] [] := by
  cases event with
  | connect pool =>
      cases hnext
      exact h.connect hallowed
  | onConnected i success =>
      obtain ⟨c, hc, rfl⟩ := Option.map_eq_some_iff.mp hnext
      exact h.onConnected hc success
  | onReady i success =>
      obtain ⟨c, hc, rfl⟩ := Option.map_eq_some_iff.mp hnext
      exact h.onReady hc success
  | close pool nclose =>
      cases hnext
      exact h.close hallowed
  | onNdbClose i =>
      obtain ⟨⟨pool, nclose⟩, hi, rfl⟩ := Option.map_eq_some_iff.mp hnext
      exact h.onNdbClose hi
  | closeReally i =>
      obtain ⟨⟨c, pool⟩, hi, rfl⟩ := Option.map_eq_some_iff.mp hnext
      exact h.closeReally hi hallowed
  | disconnect i =>
      obtain ⟨⟨c, pool⟩, hi, rfl⟩ := Option.map_eq_some_iff.mp hnext
      have hheld : Kept { s with disconnects := s.disconnects.eraseIdx i } [] [pool] := by
        refine { h with disconnects := ?_, closeLedger := fun other => ?_ }
        · exact fun entry hentry => h.disconnects entry (List.mem_of_mem_eraseIdx hentry)
        · have hcalls := h.closeLedger other
          have htally := tally_eraseIdx hi Prod.snd other
          simp only [List.count_singleton, List.count_nil, beq_iff_eq] at hcalls htally ⊢
          omega
      exact hheld.disconnect (h.disconnects _ (List.mem_of_getElem? hi))
  | deleted i =>
      obtain ⟨⟨c, pool⟩, hi, rfl⟩ := Option.map_eq_some_iff.mp hnext
      have hheld : Kept { s with deletes := s.deletes.eraseIdx i } [] [pool] := by
        refine { h with closeLedger := fun other => ?_ }
        have hcalls := h.closeLedger other
        have htally := tally_eraseIdx hi Prod.snd other
        simp only [List.count_singleton, List.count_nil, beq_iff_eq] at hcalls htally ⊢
        omega
      exact hheld.answer_close

/-- In every run in which no pool connects to a connection that lingers or has failed, connects or
closes twice, and no linger timer goes off while the connection is opening, connections are shared
as they should be. -/
theorem shares_of_guarded {events : List Event} (hguarded : Guarded step Allowed {} events)
    (hrun : run step {} events = some s) : Shares s :=
  (invariant_of_guarded (Kept · [] []) (fun _ _ _ h hallowed hnext => h.step hallowed hnext)
    kept_start hguarded hrun).shares

/-- Two pools share a connection, and after it has been closed a third one opens another. -/
def threePools : List Event :=
  [.connect 0, .connect 1, .onConnected 0 true, .onReady 0 true, .close 0 2, .onNdbClose 0,
    .onNdbClose 0, .close 1 0, .closeReally 0, .connect 2, .disconnect 0, .onConnected 0 false,
    .deleted 0, .close 2 0, .closeReally 0, .deleted 0]

theorem shares_of_guarded_three : ∃ s, run step {} threePools = some s ∧ Shares s :=
  have hguarded : Guarded step Allowed {} threePools := by decide
  ⟨_, rfl, shares_of_guarded hguarded rfl⟩

/-- A pool connects while the connection lingers, and the one that has closed is not called back. -/
theorem forgets_callback : ∃ s, run step {} [.connect 0, .onConnected 0 true, .onReady 0 true,
      .close 0 0, .connect 1, .closeReally 0] = some s ∧ ¬ Shares s := by
  refine ⟨_, rfl, fun hshares => ?_⟩
  have hcalled := hshares.closeCallback_eq ⟨rfl, rfl, rfl, rfl, rfl, rfl⟩ 0
  exact absurd hcalled (by decide)

end DatabaseJones.NdbConnection
