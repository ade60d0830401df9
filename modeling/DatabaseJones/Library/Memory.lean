import Mathlib.Data.List.Basic
import Mathlib.Logic.Function.Basic
import Mathlib.Tactic

/-!
# Bytes and bits in a buffer

A buffer is a function from addresses to bytes.  Writing a region leaves what does not
overlap it, and setting or clearing a bit leaves all other bits.
-/

namespace DatabaseJones.Library

abbrev Memory := ℕ → UInt8

/-! ## Regions -/

def readBytes (memory : Memory) (offset size : ℕ) : List (UInt8) :=
  (List.range size).map fun i => memory (offset + i)

def writeBytes (memory : Memory) (offset : ℕ) (bytes : List (UInt8)) : Memory := fun address =>
  if offset ≤ address then (bytes[address - offset]?).getD (memory address) else memory address

@[simp] theorem length_readBytes (memory : Memory) (offset size : ℕ) :
    (readBytes memory offset size).length = size := by
  rw [readBytes, List.length_map, List.length_range]

theorem readBytes_congr {memory other : Memory} {offset size : ℕ}
    (h : ∀ address, offset ≤ address → address < offset + size → memory address = other address) :
    readBytes memory offset size = readBytes other offset size := by
  refine List.map_congr_left fun i hi => h _ (Nat.le_add_right _ _) ?_
  have := List.mem_range.mp hi
  omega

theorem writeBytes_of_lt {memory : Memory} {offset address : ℕ} (bytes : List (UInt8))
    (h : address < offset) : writeBytes memory offset bytes address = memory address :=
  if_neg (Nat.not_le_of_lt h)

theorem writeBytes_of_ge {memory : Memory} {offset address : ℕ} {bytes : List (UInt8)}
    (h : offset + bytes.length ≤ address) :
    writeBytes memory offset bytes address = memory address := by
  rw [writeBytes, if_pos (by omega), List.getElem?_eq_none (by omega), Option.getD_none]

theorem readBytes_writeBytes_self (memory : Memory) (offset : ℕ) (bytes : List (UInt8)) :
    readBytes (writeBytes memory offset bytes) offset bytes.length = bytes := by
  refine List.ext_getElem (by simp) fun i hi hi' => ?_
  simp [readBytes, writeBytes, hi']

/-- A region that does not overlap the one written. -/
theorem readBytes_writeBytes {memory : Memory} {offset other size : ℕ} {bytes : List (UInt8)}
    (h : other + size ≤ offset ∨ offset + bytes.length ≤ other) :
    readBytes (writeBytes memory offset bytes) other size = readBytes memory other size := by
  refine readBytes_congr fun address hge hlt => ?_
  rcases h with h | h
  · exact writeBytes_of_lt bytes (by omega)
  · exact writeBytes_of_ge (by omega)

@[simp] theorem writeBytes_nil (memory : Memory) (offset : ℕ) :
    writeBytes memory offset [] = memory := by
  funext address
  rw [writeBytes, List.getElem?_nil, Option.getD_none, ite_self]

/-- Two regions that follow each other. -/
theorem writeBytes_writeBytes (memory : Memory) (offset : ℕ) (bytes others : List UInt8) :
    writeBytes (writeBytes memory offset bytes) (offset + bytes.length) others =
      writeBytes memory offset (bytes ++ others) := by
  funext address
  rcases Nat.lt_or_ge address (offset + bytes.length) with hlt | hge
  · rw [writeBytes_of_lt others hlt, writeBytes, writeBytes]
    split_ifs with hle
    · rw [List.getElem?_append_left (by omega)]
    · rfl
  · have hle : offset ≤ address := by omega
    have hindex : address - (offset + bytes.length) = address - offset - bytes.length := by omega
    rw [writeBytes, if_pos hge, writeBytes_of_ge hge, writeBytes, if_pos hle,
      List.getElem?_append_right (by omega), hindex]

/-- A region of which the beginning was written. -/
theorem readBytes_writeBytes_beginning (memory : Memory) (offset : ℕ) {size : ℕ} {bytes : List UInt8}
    (h : bytes.length ≤ size) :
    readBytes (writeBytes memory offset bytes) offset size =
      bytes ++ readBytes memory (offset + bytes.length) (size - bytes.length) := by
  refine List.ext_getElem (by simp; omega) fun i hi _ => ?_
  rw [length_readBytes] at hi
  by_cases hlt : i < bytes.length
  · simp [readBytes, writeBytes, hlt]
  · have hnone : bytes[i]? = none := List.getElem?_eq_none (by omega)
    have haddress : offset + bytes.length + (i - bytes.length) = offset + i := by omega
    simp [readBytes, writeBytes, hnone, List.getElem_append_right (Nat.le_of_not_lt hlt), haddress]

/-- Writing other regions, one after the other. -/
theorem readBytes_foldl_writeBytes {writes : List (ℕ × List UInt8)} {memory : Memory}
    {offset size : ℕ} (h : ∀ write ∈ writes,
      offset + size ≤ write.1 ∨ write.1 + write.2.length ≤ offset) :
    readBytes (writes.foldl (fun memory write => writeBytes memory write.1 write.2) memory)
      offset size = readBytes memory offset size := by
  induction writes generalizing memory with
  | nil => rfl
  | cons write writes ih =>
      rw [List.foldl_cons, ih fun other hother => h other (List.mem_cons_of_mem _ hother)]
      exact readBytes_writeBytes (h write List.mem_cons_self)

/-! ## Bits -/

/-- `1 << bit`. -/
def bitMask (bit : ℕ) : UInt8 := ⟨BitVec.twoPow 8 bit⟩

/-- `byte & (1 << bit)`. -/
def testBit (memory : Memory) (address bit : ℕ) : Bool := memory address &&& bitMask bit ≠ 0

/-- `byte |= 1 << bit`. -/
def setBit (memory : Memory) (address bit : ℕ) : Memory :=
  Function.update memory address (memory address ||| bitMask bit)

/-- `byte &= 0xFF ^ (1 << bit)`. -/
def clearBit (memory : Memory) (address bit : ℕ) : Memory :=
  Function.update memory address (memory address &&& (0xFF ^^^ bitMask bit))

theorem testBit_eq (memory : Memory) (address : ℕ) {bit : ℕ} (h : bit < 8) :
    testBit memory address bit = (memory address).toBitVec.getLsbD bit := by
  have hpos : BitVec.twoPow 8 bit ≠ 0#8 := by
    intro hzero
    have hbit := congrArg (BitVec.getLsbD · bit) hzero
    simp [h] at hbit
  have hiff : memory address &&& bitMask bit ≠ 0 ↔
      (memory address).toBitVec.getLsbD bit = true := by
    rw [Ne, ← UInt8.toBitVec_inj, UInt8.toBitVec_and, bitMask, BitVec.and_twoPow]
    cases (memory address).toBitVec.getLsbD bit <;> simp [hpos]
  exact Bool.eq_iff_iff.mpr (decide_eq_true_iff.trans hiff)

theorem testBit_setBit_self (memory : Memory) (address : ℕ) {bit : ℕ} (h : bit < 8) :
    testBit (setBit memory address bit) address bit = true := by
  rw [testBit_eq _ _ h, setBit, Function.update_self, UInt8.toBitVec_or, bitMask,
    BitVec.getLsbD_or, BitVec.getLsbD_twoPow]
  simp [h]

theorem testBit_clearBit_self (memory : Memory) (address : ℕ) {bit : ℕ} (h : bit < 8) :
    testBit (clearBit memory address bit) address bit = false := by
  have hones : (0xFF : UInt8).toBitVec.getLsbD bit = true := by
    rw [show (0xFF : UInt8).toBitVec = BitVec.allOnes 8 from rfl, BitVec.getLsbD_allOnes]
    exact decide_eq_true h
  rw [testBit_eq _ _ h, clearBit, Function.update_self, UInt8.toBitVec_and, UInt8.toBitVec_xor,
    bitMask, BitVec.getLsbD_and, BitVec.getLsbD_xor, BitVec.getLsbD_twoPow, hones]
  simp [h]

/-- Another bit stays what it was. -/
theorem testBit_setBit_of_ne (memory : Memory) {address other bit otherBit : ℕ}
    (hbit : otherBit < 8) (hne : (other, otherBit) ≠ (address, bit)) :
    testBit (setBit memory address bit) other otherBit = testBit memory other otherBit := by
  rw [testBit_eq _ _ hbit, testBit_eq _ _ hbit, setBit]
  by_cases haddress : other = address
  · have hne : otherBit ≠ bit := fun h => hne (by rw [haddress, h])
    rw [haddress, Function.update_self, UInt8.toBitVec_or, bitMask, BitVec.getLsbD_or,
      BitVec.getLsbD_twoPow, decide_eq_false hne.symm, Bool.and_false, Bool.or_false]
  · rw [Function.update_of_ne haddress]

theorem testBit_clearBit_of_ne (memory : Memory) {address other bit otherBit : ℕ}
    (hbit : otherBit < 8) (hne : (other, otherBit) ≠ (address, bit)) :
    testBit (clearBit memory address bit) other otherBit = testBit memory other otherBit := by
  rw [testBit_eq _ _ hbit, testBit_eq _ _ hbit, clearBit]
  by_cases haddress : other = address
  · have hne : otherBit ≠ bit := fun h => hne (by rw [haddress, h])
    have hones : (0xFF : UInt8).toBitVec.getLsbD otherBit = true := by
      rw [show (0xFF : UInt8).toBitVec = BitVec.allOnes 8 from rfl, BitVec.getLsbD_allOnes]
      exact decide_eq_true hbit
    rw [haddress, Function.update_self, UInt8.toBitVec_and, UInt8.toBitVec_xor, bitMask,
      BitVec.getLsbD_and, BitVec.getLsbD_xor, BitVec.getLsbD_twoPow, decide_eq_false hne.symm,
      Bool.and_false, Bool.xor_false, hones, Bool.and_true]
  · rw [Function.update_of_ne haddress]

theorem setBit_of_ne (memory : Memory) {address other : ℕ} (bit : ℕ) (h : other ≠ address) :
    setBit memory address bit other = memory other :=
  Function.update_of_ne h _ _

theorem clearBit_of_ne (memory : Memory) {address other : ℕ} (bit : ℕ) (h : other ≠ address) :
    clearBit memory address bit other = memory other :=
  Function.update_of_ne h _ _

/-! ## Bits by number -/

/-- The bits of a number of bytes are those that were set. -/
theorem testBit_foldl_setBit (bits : List ℕ) (mask : Memory) (n : ℕ) :
    testBit (bits.foldl (fun mask bit => setBit mask (bit / 8) (bit % 8)) mask) (n / 8) (n % 8) = true ↔
      testBit mask (n / 8) (n % 8) = true ∨ n ∈ bits := by
  induction bits generalizing mask with
  | nil => simp
  | cons bit bits ih =>
      rw [List.foldl_cons, ih, List.mem_cons]
      by_cases hn : n = bit
      · rw [hn, testBit_setBit_self _ _ (Nat.mod_lt _ (by decide))]
        simp
      · have hne : (n / 8, n % 8) ≠ (bit / 8, bit % 8) := by
          intro heq
          obtain ⟨hbyte, hbit⟩ := Prod.mk.inj heq
          exact hn (by omega)
        rw [testBit_setBit_of_ne _ (Nat.mod_lt _ (by decide)) hne]
        simp [hn]

/-- No bit is set in a buffer of zeros. -/
@[simp] theorem testBit_zero (address bit : ℕ) : testBit (fun _ => 0) address bit = false := by
  simp [testBit]

end DatabaseJones.Library

/-!
## Regions of a buffer

A region is a part of a buffer, given by its offset and length.  Items that lie one behind
another have regions of which each ends where the next begins.
-/

namespace DatabaseJones.Library

variable {α β : Type}

/-- A part of a buffer. -/
structure Region where
  offset : ℕ
  length : ℕ
deriving DecidableEq

namespace Region

def stop (region : Region) : ℕ := region.offset + region.length

/-- The region ends before the other begins. -/
def Before (region region' : Region) : Prop := region.stop ≤ region'.offset

instance (region region' : Region) : Decidable (region.Before region') :=
  inferInstanceAs (Decidable (_ ≤ _))

/-- The region lies between two positions. -/
def Within (start stop : ℕ) (region : Region) : Prop :=
  start ≤ region.offset ∧ region.stop ≤ stop

/-- What stands in the region. -/
def slice (region : Region) (buffer : List β) : List β :=
  (buffer.drop region.offset).take region.length

theorem Within.before {region region' : Region} {start middle stop : ℕ}
    (h : region.Within start middle) (h' : region'.Within middle stop) : region.Before region' :=
  h.2.trans h'.1

theorem Within.mono {region : Region} {start stop start' stop' : ℕ} (h : region.Within start stop)
    (hstart : start' ≤ start) (hstop : stop ≤ stop') : region.Within start' stop' :=
  ⟨hstart.trans h.1, h.2.trans hstop⟩

theorem slice_append (before inside after : List β) :
    (⟨before.length, inside.length⟩ : Region).slice (before ++ (inside ++ after)) = inside := by
  simp [slice]

end Region

section
variable (lengthOf : α → ℕ)

/-- The regions of items that lie one behind another. -/
def consecutive : ℕ → List α → List Region
  | _, [] => []
  | offset, item :: items => ⟨offset, lengthOf item⟩ :: consecutive (offset + lengthOf item) items

variable {lengthOf}

theorem within_of_mem_consecutive {items : List α} {offset : ℕ} {region : Region}
    (h : region ∈ consecutive lengthOf offset items) :
    region.Within offset (offset + (items.map lengthOf).sum) := by
  induction items generalizing offset with
  | nil => exact absurd h List.not_mem_nil
  | cons item items ih =>
      rw [List.map_cons, List.sum_cons]
      rcases List.mem_cons.mp h with rfl | h
      · refine ⟨le_refl _, ?_⟩
        unfold Region.stop
        dsimp only
        omega
      · exact (ih h).mono (by omega) (by omega)

/-- Each ends before the next begins. -/
theorem pairwise_consecutive (items : List α) (offset : ℕ) :
    (consecutive lengthOf offset items).Pairwise Region.Before := by
  induction items generalizing offset with
  | nil => exact List.Pairwise.nil
  | cons item items ih =>
      refine List.pairwise_cons.mpr ⟨fun region hregion => ?_, ih _⟩
      exact (within_of_mem_consecutive hregion).1

end

end DatabaseJones.Library
