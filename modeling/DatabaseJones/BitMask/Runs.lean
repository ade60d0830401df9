import DatabaseJones.BitMask.Words
import DatabaseJones.Library.Run

/-!
# Masks and finite sets

A program makes masks, calls their methods in any order and looks at what these return.
The same program can be run on finite sets of numbers.  Both runs agree exactly as long as
no binary operation loses a number: the result of `_binaryOp` has the words that the
larger of the two sizes counts, and after `set(bit)` with a multiple of 24 that is the
size of the mask, or the one it grows to, the size does not count the word of the bit.
-/

namespace DatabaseJones.Query

namespace BitMask

open DatabaseJones.Library

/-- A call; the masks that exist are numbered. -/
inductive Call
  | new (size : Option ℕ)
  | set (mask bit : ℕ)
  | bitIsSet (mask bit : ℕ)
  | binaryOp (op : Operator) (mask that : ℕ)
  | orWith (mask that : ℕ)
  | isEqualTo (mask that : ℕ)
  | toArray (mask : ℕ)
deriving DecidableEq, Repr

/-- What a call returns, besides a mask. -/
inductive Result
  | bool (value : Bool)
  | array (value : List ℕ)
deriving DecidableEq, Repr

/-- The operations on which a program can be run. -/
structure SetOperations (μ : Type) where
  new : Option ℕ → μ
  set : μ → ℕ → μ
  bitIsSet : μ → ℕ → Bool × μ
  binaryOp : Operator → μ → μ → μ
  orWith : μ → μ → μ
  isEqualTo : μ → μ → Bool
  toArray : μ → List ℕ

/-- The masks of the source. -/
def bitMasks : SetOperations BitMask where
  new := newOfSize
  set := BitMask.set
  bitIsSet := BitMask.bitIsSet
  binaryOp := BitMask.binaryOp
  orWith := BitMask.orWith
  isEqualTo := BitMask.isEqualTo
  toArray := BitMask.toArray

/-- What they stand for. -/
def finiteSets : SetOperations (Finset ℕ) where
  new _ := ∅
  set members bit := insert bit members
  bitIsSet members bit := (decide (bit ∈ members), members)
  binaryOp := Operator.finsets
  orWith members that := members ∪ that
  isEqualTo members that := decide (members = that)
  toArray members := members.sort (· ≤ ·)

/-- The masks that exist, and what the calls have returned so far. -/
structure State (μ : Type) where
  masks : List μ
  results : List Result
deriving DecidableEq, Repr

variable {μ : Type}

/-- No masks. -/
def State.start : State μ := { masks := [], results := [] }

/-- A new mask. -/
def State.push (state : State μ) (mask : μ) : State μ :=
  { state with masks := state.masks ++ [mask] }

/-- A mask that changes in place. -/
def State.put (state : State μ) (i : ℕ) (mask : μ) : State μ :=
  { state with masks := state.masks.set i mask }

def State.returned (state : State μ) (result : Result) : State μ :=
  { state with results := state.results ++ [result] }

/-- One call; `none` if it names a mask that does not exist. -/
def step (operations : SetOperations μ) (state : State μ) : Call → Option (State μ)
  | .new size => some (state.push (operations.new size))
  | .set i bit => state.masks[i]?.map fun mask => state.put i (operations.set mask bit)
  | .bitIsSet i bit => state.masks[i]?.map fun mask =>
      (state.put i (operations.bitIsSet mask bit).2).returned
        (.bool (operations.bitIsSet mask bit).1)
  | .binaryOp op i j => do
      let mask ← state.masks[i]?
      let that ← state.masks[j]?
      some (state.push (operations.binaryOp op mask that))
  | .orWith i j => do
      let mask ← state.masks[i]?
      let that ← state.masks[j]?
      some (state.put i (operations.orWith mask that))
  | .isEqualTo i j => do
      let mask ← state.masks[i]?
      let that ← state.masks[j]?
      some (state.returned (.bool (operations.isEqualTo mask that)))
  | .toArray i => state.masks[i]?.map fun mask =>
      state.returned (.array (operations.toArray mask))

/-- The sets of the masks. -/
def State.sets (state : State BitMask) : State (Finset ℕ) :=
  { masks := state.masks.map toFinset, results := state.results }

/-- The program does on masks what it does on finite sets: after each of its calls the
masks are those sets, and everything that was returned is the same. -/
def Agrees (calls : List Call) : Prop :=
  Simulates (step bitMasks) (step finiteSets) State.sets State.start calls

/-- A binary operation loses nothing of its result. -/
def Allowed (state : State BitMask) : Call → Prop
  | .binaryOp op i j => ∀ mask ∈ state.masks[i]?, ∀ that ∈ state.masks[j]?, NothingLost op mask that
  | .orWith i j => ∀ mask ∈ state.masks[i]?, ∀ that ∈ state.masks[j]?, NothingLost .or mask that
  | _ => True

instance (state : State BitMask) (call : Call) : Decidable (Allowed state call) := by
  cases call <;> simp only [Allowed] <;> infer_instance

/-! ## One call -/

def State.Sound (state : State BitMask) : Prop := ∀ mask ∈ state.masks, mask.Sound

theorem State.Sound.getElem {state : State BitMask} (h : state.Sound) {i : ℕ} {mask : BitMask}
    (hmask : state.masks[i]? = some mask) : mask.Sound := h mask (List.mem_of_getElem? hmask)

theorem State.Sound.push {state : State BitMask} (h : state.Sound) {mask : BitMask}
    (hmask : mask.Sound) : (state.push mask).Sound := by
  intro other hother
  rcases List.mem_append.mp hother with hold | hnew
  · exact h other hold
  · rw [List.mem_singleton.mp hnew]
    exact hmask

theorem State.Sound.put {state : State BitMask} (h : state.Sound) (i : ℕ) {mask : BitMask}
    (hmask : mask.Sound) : (state.put i mask).Sound := by
  intro other hother
  rcases List.mem_or_eq_of_mem_set hother with hold | rfl
  · exact h other hold
  · exact hmask

theorem sets_push (state : State BitMask) (mask : BitMask) :
    (state.push mask).sets = state.sets.push mask.toFinset := by
  simp only [State.sets, State.push, List.map_append, List.map_cons, List.map_nil]

theorem sets_put (state : State BitMask) (i : ℕ) (mask : BitMask) :
    (state.put i mask).sets = state.sets.put i mask.toFinset := by
  simp only [State.sets, State.put, List.map_set]

theorem sets_returned (state : State BitMask) (result : Result) :
    (state.returned result).sets = state.sets.returned result := rfl

theorem masks_sets (state : State BitMask) (i : ℕ) :
    state.sets.masks[i]? = state.masks[i]?.map toFinset := List.getElem?_map ..

/-- The masks stay sound. -/
theorem State.Sound.step {state next : State BitMask} {call : Call} (h : state.Sound)
    (hstep : BitMask.step bitMasks state call = some next) : next.Sound := by
  cases call with
  | new size =>
      cases hstep
      exact h.push (sound_new _)
  | set i bit =>
      obtain ⟨mask, hmask, rfl⟩ := Option.map_eq_some_iff.mp hstep
      exact h.put i ((h.getElem hmask).set bit)
  | bitIsSet i bit =>
      obtain ⟨mask, hmask, rfl⟩ := Option.map_eq_some_iff.mp hstep
      exact h.put i ((h.getElem hmask).grownFor bit)
  | binaryOp op i j =>
      obtain ⟨mask, hmask, hstep⟩ := Option.bind_eq_some_iff.mp hstep
      obtain ⟨that, hthat, hstep⟩ := Option.bind_eq_some_iff.mp hstep
      cases hstep
      exact h.push ((h.getElem hmask).binaryOp (h.getElem hthat) op)
  | orWith i j =>
      obtain ⟨mask, hmask, hstep⟩ := Option.bind_eq_some_iff.mp hstep
      obtain ⟨that, hthat, hstep⟩ := Option.bind_eq_some_iff.mp hstep
      cases hstep
      exact h.put i ((h.getElem hmask).binaryOp (h.getElem hthat) .or)
  | isEqualTo i j =>
      obtain ⟨mask, hmask, hstep⟩ := Option.bind_eq_some_iff.mp hstep
      obtain ⟨that, hthat, hstep⟩ := Option.bind_eq_some_iff.mp hstep
      cases hstep
      exact h
  | toArray i =>
      obtain ⟨mask, hmask, rfl⟩ := Option.map_eq_some_iff.mp hstep
      exact h

theorem push_inj {state : State μ} {mask that : μ} :
    state.push mask = state.push that ↔ mask = that := by
  constructor
  · intro heq
    have hmasks := congrArg State.masks heq
    exact List.singleton_inj.mp (List.append_cancel_left hmasks)
  · rintro rfl
    rfl

theorem put_inj {state : State μ} {i : ℕ} (hi : i < state.masks.length) {mask that : μ} :
    state.put i mask = state.put i that ↔ mask = that := by
  constructor
  · intro heq
    have hmasks := congrArg (fun changed => changed.masks[i]?) heq
    simpa only [State.put, List.getElem?_set_self hi, Option.some_inj] using hmasks
  · rintro rfl
    rfl

/-- A call does on masks what it does on their sets exactly when it loses nothing. -/
theorem State.Sound.step_sets_iff {state : State BitMask} (h : state.Sound) (call : Call) :
    (BitMask.step bitMasks state call).map State.sets = BitMask.step finiteSets state.sets call ↔
      Allowed state call := by
  cases call with
  | new size =>
      refine iff_of_true ?_ trivial
      change some (state.push (newOfSize size)).sets = some (state.sets.push ∅)
      rw [sets_push, newOfSize, toFinset_new]
  | set i bit =>
      refine iff_of_true ?_ trivial
      simp only [BitMask.step, masks_sets, Option.map_map]
      cases hmask : state.masks[i]? with
      | none => rfl
      | some mask =>
          change some (state.put i (mask.set bit)).sets =
            some (state.sets.put i (insert bit mask.toFinset))
          rw [sets_put, (h.getElem hmask).toFinset_set]
  | bitIsSet i bit =>
      refine iff_of_true ?_ trivial
      simp only [BitMask.step, masks_sets, Option.map_map]
      cases hmask : state.masks[i]? with
      | none => rfl
      | some mask =>
          change some (((state.put i (mask.bitIsSet bit).2).returned _).sets) =
            some ((state.sets.put i mask.toFinset).returned (.bool (decide (bit ∈ mask.toFinset))))
          rw [sets_returned, sets_put, bitIsSet_snd, toFinset_grownFor]
          exact congrArg (fun value => some (State.returned _ (.bool value))) (bitIsSet_fst mask bit)
  | binaryOp op i j =>
      simp only [BitMask.step, masks_sets, Allowed]
      cases hmask : state.masks[i]? with
      | none => exact iff_of_true rfl (by rintro _ ⟨⟩)
      | some mask =>
          cases hthat : state.masks[j]? with
          | none => exact iff_of_true rfl (by rintro _ _ _ ⟨⟩)
          | some that =>
              change some (state.push (BitMask.binaryOp op mask that)).sets =
                some (state.sets.push (op.finsets mask.toFinset that.toFinset)) ↔ _
              rw [Option.some_inj, sets_push, push_inj,
                (h.getElem hmask).toFinset_binaryOp_iff (h.getElem hthat)]
              simp only [Option.mem_some_iff, forall_eq']
  | orWith i j =>
      simp only [BitMask.step, masks_sets, Allowed]
      cases hmask : state.masks[i]? with
      | none => exact iff_of_true rfl (by rintro _ ⟨⟩)
      | some mask =>
          cases hthat : state.masks[j]? with
          | none => exact iff_of_true rfl (by rintro _ _ _ ⟨⟩)
          | some that =>
              have hi : i < state.sets.masks.length := by
                rw [State.sets, List.length_map]
                exact (List.getElem?_eq_some_iff.mp hmask).1
              change some (state.put i (BitMask.binaryOp .or mask that)).sets =
                some (state.sets.put i (Operator.or.finsets mask.toFinset that.toFinset)) ↔ _
              rw [Option.some_inj, sets_put, put_inj hi,
                (h.getElem hmask).toFinset_binaryOp_iff (h.getElem hthat)]
              simp only [Option.mem_some_iff, forall_eq']
  | isEqualTo i j =>
      refine iff_of_true ?_ trivial
      simp only [BitMask.step, masks_sets]
      cases hmask : state.masks[i]? with
      | none => rfl
      | some mask =>
          cases hthat : state.masks[j]? with
          | none => rfl
          | some that =>
              exact congrArg (fun value => some (State.returned state.sets (.bool value)))
                ((h.getElem hmask).isEqualTo_eq (h.getElem hthat))
  | toArray i =>
      refine iff_of_true ?_ trivial
      simp only [BitMask.step, masks_sets, Option.map_map]
      cases hmask : state.masks[i]? with
      | none => rfl
      | some mask =>
          exact congrArg (fun value => some (State.returned state.sets (.array value)))
            mask.toArray_eq_sort

/-! ## Programs -/

theorem sound_start : (State.start : State BitMask).Sound := fun _ hmask =>
  absurd hmask List.not_mem_nil

/-- From sound masks on, a program is simulated as long as nothing is lost. -/
theorem State.Sound.simulates_iff {state : State BitMask} (h : state.Sound) (calls : List Call) :
    Simulates (BitMask.step bitMasks) (BitMask.step finiteSets) State.sets state calls ↔
      Guarded (BitMask.step bitMasks) Allowed state calls :=
  simulates_iff_guarded State.Sound (fun _ call hsound => hsound.step_sets_iff call)
    (fun _ _ _ hsound hstep => hsound.step hstep) h calls

/-- A program agrees with its run on finite sets exactly when none of its binary
operations loses a number. -/
theorem agrees_iff (calls : List Call) :
    Agrees calls ↔ Guarded (step bitMasks) Allowed State.start calls :=
  sound_start.simulates_iff calls

/-- Bit 24 of a mask is lost in the union with an empty mask. -/
theorem loses_bit_twentyFour :
    ¬Agrees [.new none, .set 0 24, .new none, .binaryOp .or 0 1, .bitIsSet 2 24] := by
  intro hagrees
  exact absurd ((sound_start.simulates_iff _).mp hagrees) (by decide)

end BitMask

end DatabaseJones.Query
