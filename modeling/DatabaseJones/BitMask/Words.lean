import DatabaseJones.Query.Predicate
import Mathlib.Data.Finset.Sort
import Mathlib.Data.Nat.Bitwise

/-!
# The words of a mask

The operations of `BitMask.js` that the column masks do not need, and the set of
numbers that a mask stands for.  The words of a mask stay below `2 ^ 24`, so that the
32-bit operators of the source are those of the natural numbers.
-/

namespace DatabaseJones.Query

namespace BitMask

/-! ## The other operations -/

/-- The operators of `_binaryOp`. -/
inductive Operator
  | and
  | or
  | xor
deriving DecidableEq, Repr

/-- What `_binaryOp` does with two words. -/
def Operator.words : Operator → ℕ → ℕ → ℕ
  | .and => (· &&& ·)
  | .or => (· ||| ·)
  | .xor => (· ^^^ ·)

/-- `_binaryOp(op, that)`: the larger size decides how many words the result has. -/
def binaryOp (op : Operator) (bitMask that : BitMask) : BitMask :=
  let m := new (max bitMask.size that.size)
  { m with mask := (List.range m.mask.length).map fun i =>
      op.words (bitMask.getPart i) (that.getPart i) }

/-- `bitIsSet(bit)`: a mask that is too small grows. -/
def bitIsSet (bitMask : BitMask) (bit : ℕ) : Bool × BitMask :=
  let bitMask := if bitMask.size ≤ bit then bitMask.grow bit else bitMask
  (bitMask.getPart (bit / radix) &&& 2 ^ (bit % radix) != 0, bitMask)

/-- `isEqualTo(that)`. -/
def isEqualTo (bitMask that : BitMask) : Bool :=
  (List.range (max bitMask.mask.length that.mask.length)).all fun i =>
    bitMask.getPart i == that.getPart i

/-- The loop of `maskToIntArray(mask)` from bit `i` on, at most `fuel` turns of it. -/
def maskToIntArray : ℕ → ℕ → ℕ → List ℕ
  | 0, _, _ => []
  | fuel + 1, mask, i =>
      if mask = 0 then []
      else if mask &&& 2 ^ i ≠ 0 then i :: maskToIntArray fuel (mask ^^^ 2 ^ i) (i + 1)
      else maskToIntArray fuel mask (i + 1)

/-- `new BitMask(size)`, with or without a size. -/
def newOfSize (size : Option ℕ) : BitMask := new (size.getD radix)

theorem orWith_eq (bitMask that : BitMask) : bitMask.orWith that = binaryOp .or bitMask that := rfl

/-! ## The set of a mask -/

/-- The numbers whose bits are set. -/
def toFinset (bitMask : BitMask) : Finset ℕ := bitMask.toArray.toFinset

/-- Whether a word has a bit, as the source tests it. -/
theorem and_two_pow_ne_zero (word i : ℕ) : word &&& 2 ^ i ≠ 0 ↔ word.testBit i = true := by
  rw [Nat.and_two_pow]
  cases word.testBit i with
  | false => simp
  | true => simp

theorem radix_pos : 0 < radix := by decide

theorem getPart_of_length_le {bitMask : BitMask} {n : ℕ} (h : bitMask.mask.length ≤ n) :
    bitMask.getPart n = 0 := List.getD_eq_default _ _ h

theorem lt_length_of_testBit {bitMask : BitMask} {n i : ℕ}
    (h : (bitMask.getPart n).testBit i = true) : n < bitMask.mask.length := by
  by_contra hlength
  rw [getPart_of_length_le (not_lt.mp hlength), Nat.zero_testBit] at h
  exact absurd h Bool.false_ne_true

/-- A number belongs to the mask if its bit is set in its word. -/
theorem mem_toArray {bitMask : BitMask} {bit : ℕ} :
    bit ∈ bitMask.toArray ↔ (bitMask.getPart (bit / radix)).testBit (bit % radix) = true := by
  simp only [toArray, List.mem_flatMap, List.mem_range, List.mem_map, List.mem_filter]
  constructor
  · rintro ⟨n, -, i, ⟨hi, htest⟩, rfl⟩
    rw [Nat.add_mul_div_right _ _ radix_pos, Nat.div_eq_of_lt hi, Nat.zero_add,
      Nat.add_mul_mod_self_right, Nat.mod_eq_of_lt hi]
    exact htest
  · intro htest
    refine ⟨bit / radix, lt_length_of_testBit htest, bit % radix,
      ⟨Nat.mod_lt _ radix_pos, htest⟩, ?_⟩
    rw [Nat.mul_comm]
    exact Nat.mod_add_div _ _

theorem mem_toFinset {bitMask : BitMask} {bit : ℕ} :
    bit ∈ bitMask.toFinset ↔ (bitMask.getPart (bit / radix)).testBit (bit % radix) = true := by
  rw [toFinset, List.mem_toFinset, mem_toArray]

/-! ## Sound masks -/

/-- What every operation keeps: the words have 24 bits, the size counts whole words, and
there are at least as many words as it counts. -/
structure Sound (bitMask : BitMask) : Prop where
  words : ∀ n, bitMask.getPart n < 2 ^ radix
  whole : radix ∣ bitMask.size
  covered : bitMask.size ≤ bitMask.mask.length * radix

/-- Every bit of a sound word is in the set. -/
theorem Sound.testBit {bitMask : BitMask} (h : bitMask.Sound) (n i : ℕ) :
    (bitMask.getPart n).testBit i = true ↔ i < radix ∧ n * radix + i ∈ bitMask.toFinset := by
  by_cases hi : i < radix
  · have hdiv : (n * radix + i) / radix = n := by
      rw [Nat.add_comm, Nat.add_mul_div_right _ _ radix_pos, Nat.div_eq_of_lt hi, Nat.zero_add]
    have hmod : (n * radix + i) % radix = i := by
      rw [Nat.add_comm, Nat.add_mul_mod_self_right, Nat.mod_eq_of_lt hi]
    rw [mem_toFinset, hdiv, hmod]
    exact ⟨fun htest => ⟨hi, htest⟩, fun htest => htest.2⟩
  · have hword : bitMask.getPart n < 2 ^ i :=
      (h.words n).trans_le (Nat.pow_le_pow_right (by decide) (not_lt.mp hi))
    rw [Nat.testBit_lt_two_pow hword]
    exact ⟨fun htest => absurd htest Bool.false_ne_true, fun htest => absurd htest.1 hi⟩

/-- Sound masks of the same set have the same words. -/
theorem Sound.getPart_eq_iff {bitMask that : BitMask} (h : bitMask.Sound) (hthat : that.Sound) :
    (∀ n, bitMask.getPart n = that.getPart n) ↔ bitMask.toFinset = that.toFinset := by
  constructor
  · intro heq
    ext bit
    rw [mem_toFinset, mem_toFinset, heq]
  · intro heq n
    apply Nat.eq_of_testBit_eq
    intro i
    rw [Bool.eq_iff_iff, h.testBit, hthat.testBit, heq]

/-! ## Growing and setting -/

theorem length_grow (bitMask : BitMask) (size : ℕ) :
    (bitMask.grow size).mask.length * radix = (bitMask.grow size).size := by
  rw [grow, List.length_append, List.length_replicate]

theorem le_size_grow (bitMask : BitMask) (size : ℕ) : size ≤ (bitMask.grow size).size := by
  simp only [grow, radix]
  omega

@[simp] theorem getPart_grow (bitMask : BitMask) (size n : ℕ) :
    (bitMask.grow size).getPart n = bitMask.getPart n := by
  simp only [getPart, grow, List.getD_eq_getElem?_getD]
  rcases lt_or_ge n bitMask.mask.length with hlt | hge
  · rw [List.getElem?_append_left hlt]
  · rw [List.getElem?_append_right hge, List.getElem?_eq_none hge]
    cases h : (List.replicate _ 0)[n - bitMask.mask.length]? with
    | none => rfl
    | some word =>
        rw [List.eq_of_mem_replicate (List.mem_of_getElem? h)]
        rfl

theorem toFinset_grow (bitMask : BitMask) (size : ℕ) :
    (bitMask.grow size).toFinset = bitMask.toFinset := by
  ext bit
  rw [mem_toFinset, mem_toFinset, getPart_grow]

theorem Sound.grow {bitMask : BitMask} (h : bitMask.Sound) (size : ℕ) :
    (bitMask.grow size).Sound where
  words n := by
    rw [getPart_grow]
    exact h.words n
  whole := ⟨_, Nat.mul_comm _ _⟩
  covered := (length_grow bitMask size).ge

/-- A mask without words. -/
theorem sound_empty : ({ size := 0, mask := [] } : BitMask).Sound where
  words n := by
    rw [getPart_of_length_le (Nat.zero_le n)]
    decide
  whole := dvd_zero _
  covered := le_rfl

theorem sound_new (size : ℕ) : (new size).Sound := sound_empty.grow size

theorem toFinset_new (size : ℕ) : (new size).toFinset = ∅ := by
  rw [new, toFinset_grow]
  rfl

/-- The mask that `set` and `bitIsSet` look at. -/
def grownFor (bitMask : BitMask) (bit : ℕ) : BitMask :=
  if bitMask.size ≤ bit then bitMask.grow bit else bitMask

theorem getPart_grownFor (bitMask : BitMask) (bit n : ℕ) :
    (bitMask.grownFor bit).getPart n = bitMask.getPart n := by
  unfold grownFor
  split_ifs with hsize
  · exact getPart_grow bitMask bit n
  · rfl

theorem toFinset_grownFor (bitMask : BitMask) (bit : ℕ) :
    (bitMask.grownFor bit).toFinset = bitMask.toFinset := by
  ext other
  rw [mem_toFinset, mem_toFinset, getPart_grownFor]

theorem Sound.grownFor {bitMask : BitMask} (h : bitMask.Sound) (bit : ℕ) :
    (bitMask.grownFor bit).Sound := by
  unfold BitMask.grownFor
  split_ifs with hsize
  · exact h.grow bit
  · exact h

/-- The word of the bit exists or is the next one: `set` never leaves a hole. -/
theorem Sound.div_le_length {bitMask : BitMask} (h : bitMask.Sound) (bit : ℕ) :
    bit / radix ≤ (bitMask.grownFor bit).mask.length := by
  have hbit : bit ≤ (bitMask.grownFor bit).mask.length * radix := by
    unfold BitMask.grownFor
    split_ifs with hsize
    · rw [length_grow]
      exact le_size_grow bitMask bit
    · exact (not_le.mp hsize).le.trans h.covered
  exact Nat.div_le_of_le_mul (Nat.mul_comm radix _ ▸ hbit)

/-- The assignment of `set(bit)`, on the mask that has grown. -/
def assign (bitMask : BitMask) (bit : ℕ) : BitMask :=
  let part := bitMask.getPart (bit / radix) ||| 2 ^ (bit % radix)
  { bitMask with
    mask := if bit / radix < bitMask.mask.length then bitMask.mask.set (bit / radix) part
      else bitMask.mask ++ [part] }

theorem set_eq (bitMask : BitMask) (bit : ℕ) : bitMask.set bit = (bitMask.grownFor bit).assign bit :=
  rfl

theorem getPart_assign {bitMask : BitMask} {bit : ℕ} (h : bit / radix ≤ bitMask.mask.length)
    (n : ℕ) :
    (bitMask.assign bit).getPart n =
      if n = bit / radix then bitMask.getPart n ||| 2 ^ (bit % radix) else bitMask.getPart n := by
  simp only [assign, getPart, List.getD_eq_getElem?_getD]
  split_ifs with hword hn hn
  · rw [hn, List.getElem?_set_self hword]
    rfl
  · rw [List.getElem?_set_ne (Ne.symm hn)]
  · have hend : n = bitMask.mask.length := by omega
    rw [← hn, hend, List.getElem?_concat_length]
    rfl
  · rcases lt_or_ge n bitMask.mask.length with hlt | hge
    · rw [List.getElem?_append_left hlt]
    · rw [List.getElem?_eq_none hge, List.getElem?_eq_none]
      rw [List.length_append, List.length_singleton]
      omega

/-- What the words are after `set(bit)`. -/
theorem Sound.getPart_set {bitMask : BitMask} (h : bitMask.Sound) (bit n : ℕ) :
    (bitMask.set bit).getPart n =
      if n = bit / radix then bitMask.getPart n ||| 2 ^ (bit % radix) else bitMask.getPart n := by
  rw [set_eq, getPart_assign (h.div_le_length bit), getPart_grownFor]

theorem Sound.set {bitMask : BitMask} (h : bitMask.Sound) (bit : ℕ) : (bitMask.set bit).Sound where
  words n := by
    rw [h.getPart_set]
    split_ifs with hn
    · exact Nat.or_lt_two_pow (h.words n)
        (Nat.pow_lt_pow_right (by decide) (Nat.mod_lt _ radix_pos))
    · exact h.words n
  whole := (h.grownFor bit).whole
  covered := by
    have hlength : (bitMask.grownFor bit).mask.length ≤ (bitMask.set bit).mask.length := by
      rw [set_eq]
      simp only [assign]
      split_ifs with hword
      · rw [List.length_set]
      · rw [List.length_append]
        exact Nat.le_add_right _ _
    exact (h.grownFor bit).covered.trans (Nat.mul_le_mul_right radix hlength)

/-- `set(bit)` adds the bit and nothing else. -/
theorem Sound.toFinset_set {bitMask : BitMask} (h : bitMask.Sound) (bit : ℕ) :
    (bitMask.set bit).toFinset = insert bit bitMask.toFinset := by
  ext other
  rw [Finset.mem_insert, mem_toFinset, mem_toFinset, h.getPart_set]
  split_ifs with hword
  · rw [Nat.testBit_or, Bool.or_eq_true, Nat.testBit_two_pow, decide_eq_true_eq, or_comm]
    refine or_congr ?_ Iff.rfl
    constructor
    · intro hmod
      rw [← Nat.div_add_mod other radix, ← Nat.div_add_mod bit radix, hword, hmod]
    · rintro rfl
      rfl
  · have hne : other ≠ bit := fun heq => hword (heq ▸ rfl)
    exact ⟨Or.inr, fun hor => hor.resolve_left hne⟩

/-- `bitIsSet(bit)` tells whether the bit is in the set. -/
theorem bitIsSet_fst (bitMask : BitMask) (bit : ℕ) :
    (bitMask.bitIsSet bit).1 = decide (bit ∈ bitMask.toFinset) := by
  change (((bitMask.grownFor bit).getPart (bit / radix) &&& 2 ^ (bit % radix)) != 0) = _
  rw [Bool.eq_iff_iff, bne_iff_ne, getPart_grownFor, and_two_pow_ne_zero, decide_eq_true_eq,
    mem_toFinset]

/-- `bitIsSet(bit)` may let the mask grow. -/
theorem bitIsSet_snd (bitMask : BitMask) (bit : ℕ) :
    (bitMask.bitIsSet bit).2 = bitMask.grownFor bit := rfl

/-! ## Two masks -/

/-- The set operation of an operator. -/
def Operator.finsets : Operator → Finset ℕ → Finset ℕ → Finset ℕ
  | .and => (· ∩ ·)
  | .or => (· ∪ ·)
  | .xor => symmDiff

/-- The words of the result. -/
theorem getPart_binaryOp (op : Operator) (bitMask that : BitMask) (n : ℕ) :
    (binaryOp op bitMask that).getPart n =
      if n < (binaryOp op bitMask that).mask.length then
        op.words (bitMask.getPart n) (that.getPart n) else 0 := by
  split_ifs with hn
  · simp only [binaryOp, List.length_map, List.length_range] at hn
    simp only [binaryOp, getPart, List.getD_eq_getElem?_getD, List.getElem?_map,
      List.getElem?_range hn, Option.map_some, Option.getD_some]
  · exact getPart_of_length_le (not_lt.mp hn)

/-- The result has as many words as the larger size counts. -/
theorem Sound.lt_length_binaryOp {bitMask that : BitMask} (h : bitMask.Sound) (hthat : that.Sound)
    (op : Operator) (bit : ℕ) :
    bit / radix < (binaryOp op bitMask that).mask.length ↔ bit < max bitMask.size that.size := by
  obtain ⟨words, hwords⟩ : radix ∣ max bitMask.size that.size := by
    rcases max_choice bitMask.size that.size with hmax | hmax
    · rw [hmax]
      exact h.whole
    · rw [hmax]
      exact hthat.whole
  have hlength : (binaryOp op bitMask that).mask.length = words := by
    simp only [BitMask.binaryOp, new, BitMask.grow, List.length_map, List.length_range,
      List.nil_append, List.length_replicate, List.length_nil, hwords, radix]
    omega
  rw [hlength, hwords, Nat.div_lt_iff_lt_mul radix_pos, Nat.mul_comm]

/-- The operators work on the bits of two words one by one. -/
theorem Operator.testBit_words (op : Operator) (word that i : ℕ) :
    (op.words word that).testBit i = true ↔
      match op with
      | .and => word.testBit i = true ∧ that.testBit i = true
      | .or => word.testBit i = true ∨ that.testBit i = true
      | .xor => ¬(word.testBit i = true ↔ that.testBit i = true) := by
  cases op with
  | and => rw [words, Nat.testBit_and, Bool.and_eq_true]
  | or => rw [words, Nat.testBit_or, Bool.or_eq_true]
  | xor =>
      rw [words, Nat.testBit_xor]
      cases word.testBit i <;> cases that.testBit i <;> simp

theorem Operator.mem_finsets (op : Operator) (first second : Finset ℕ) (bit : ℕ) :
    bit ∈ op.finsets first second ↔
      match op with
      | .and => bit ∈ first ∧ bit ∈ second
      | .or => bit ∈ first ∨ bit ∈ second
      | .xor => ¬(bit ∈ first ↔ bit ∈ second) := by
  cases op with
  | and => exact Finset.mem_inter
  | or => exact Finset.mem_union
  | xor =>
      rw [finsets, Finset.mem_symmDiff]
      tauto

/-- A number is in the result if the set operation puts it there and the larger size
counts its word. -/
theorem Sound.mem_binaryOp {bitMask that : BitMask} (h : bitMask.Sound) (hthat : that.Sound)
    (op : Operator) (bit : ℕ) :
    bit ∈ (binaryOp op bitMask that).toFinset ↔
      bit < max bitMask.size that.size ∧ bit ∈ op.finsets bitMask.toFinset that.toFinset := by
  rw [mem_toFinset, getPart_binaryOp, ← h.lt_length_binaryOp hthat op]
  split_ifs with hword
  · have hbits : (op.words (bitMask.getPart (bit / radix)) (that.getPart (bit / radix))).testBit
        (bit % radix) = true ↔ bit ∈ op.finsets bitMask.toFinset that.toFinset := by
      rw [op.testBit_words, op.mem_finsets, mem_toFinset, mem_toFinset]
    rw [hbits]
    exact ⟨fun hmem => ⟨hword, hmem⟩, fun hmem => hmem.2⟩
  · rw [Nat.zero_testBit]
    exact ⟨fun htest => absurd htest Bool.false_ne_true, fun hmem => absurd hmem.1 hword⟩

/-- No number of the result lies beyond both sizes. -/
def NothingLost (op : Operator) (bitMask that : BitMask) : Prop :=
  ∀ bit ∈ op.finsets bitMask.toFinset that.toFinset, bit < max bitMask.size that.size

instance (op : Operator) (bitMask that : BitMask) : Decidable (NothingLost op bitMask that) :=
  inferInstanceAs (Decidable (∀ bit ∈ _, _))

/-- `_binaryOp` is the set operation exactly when nothing is lost. -/
theorem Sound.toFinset_binaryOp_iff {bitMask that : BitMask} (h : bitMask.Sound)
    (hthat : that.Sound) (op : Operator) :
    (binaryOp op bitMask that).toFinset = op.finsets bitMask.toFinset that.toFinset ↔
      NothingLost op bitMask that := by
  constructor
  · intro heq bit hbit
    rw [← heq, h.mem_binaryOp hthat] at hbit
    exact hbit.1
  · intro hnothing
    ext bit
    rw [h.mem_binaryOp hthat]
    exact ⟨fun hmem => hmem.2, fun hmem => ⟨hnothing bit hmem, hmem⟩⟩

theorem Sound.binaryOp {bitMask that : BitMask} (h : bitMask.Sound) (hthat : that.Sound)
    (op : Operator) : (BitMask.binaryOp op bitMask that).Sound where
  words n := by
    rw [getPart_binaryOp]
    split_ifs with hn
    · cases op with
      | and => exact Nat.and_lt_two_pow _ (hthat.words n)
      | or => exact Nat.or_lt_two_pow (h.words n) (hthat.words n)
      | xor => exact Nat.xor_lt_two_pow (h.words n) (hthat.words n)
    · decide
  whole := (sound_new _).whole
  covered := by
    simp only [BitMask.binaryOp, List.length_map, List.length_range]
    exact (sound_new _).covered

/-- `isEqualTo` is equality of the sets, whatever the sizes. -/
theorem Sound.isEqualTo_eq {bitMask that : BitMask} (h : bitMask.Sound) (hthat : that.Sound) :
    bitMask.isEqualTo that = decide (bitMask.toFinset = that.toFinset) := by
  rw [Bool.eq_iff_iff, decide_eq_true_eq, ← h.getPart_eq_iff hthat]
  simp only [isEqualTo, List.all_eq_true, List.mem_range, beq_iff_eq]
  constructor
  · intro hall n
    rcases lt_or_ge n (max bitMask.mask.length that.mask.length) with hlt | hge
    · exact hall n hlt
    · rw [getPart_of_length_le (le_trans (le_max_left _ _) hge),
        getPart_of_length_le (le_trans (le_max_right _ _) hge)]
  · intro hall n _
    exact hall n

/-! ## The array -/

/-- From bit `i` on, the loop collects the bits of a word that has none below `i`, and ends. -/
theorem maskToIntArray_eq {turns word i : ℕ} (hlow : ∀ j < i, word.testBit j = false)
    (hword : word < 2 ^ (i + turns)) :
    maskToIntArray (turns + 1) word i = (List.range' i turns).filter word.testBit := by
  induction turns generalizing word i with
  | zero =>
      have hzero : word = 0 := by
        apply Nat.eq_of_testBit_eq
        intro j
        rw [Nat.zero_testBit]
        rcases lt_or_ge j i with hlt | hge
        · exact hlow j hlt
        · exact Nat.testBit_lt_two_pow (hword.trans_le (Nat.pow_le_pow_right (by decide) hge))
      rw [hzero, maskToIntArray, if_pos rfl]
      rfl
  | succ turns ih =>
      rw [maskToIntArray]
      by_cases hzero : word = 0
      · rw [if_pos hzero, hzero, eq_comm, List.filter_eq_nil_iff]
        intro j _
        rw [Nat.zero_testBit]
        exact Bool.false_ne_true
      rw [if_neg hzero, List.range'_succ, List.filter_cons]
      have hnext : word < 2 ^ (i + 1 + turns) := by
        rwa [Nat.add_assoc, Nat.add_comm 1 turns]
      by_cases htest : word.testBit i = true
      · -- the bit is taken out of the word
        have hclear : ∀ j, (word ^^^ 2 ^ i).testBit j = (word.testBit j && decide (j ≠ i)) := by
          intro j
          rw [Nat.testBit_xor, Nat.testBit_two_pow]
          by_cases hj : i = j
          · rw [← hj, htest]
            simp
          · simp [hj, Ne.symm hj]
        rw [if_pos ((and_two_pow_ne_zero word i).mpr htest), if_pos htest]
        have hlow' : ∀ j < i + 1, (word ^^^ 2 ^ i).testBit j = false := by
          intro j hj
          rw [hclear]
          rcases Nat.lt_or_eq_of_le (Nat.le_of_lt_succ hj) with hlt | heq
          · rw [hlow j hlt, Bool.false_and]
          · rw [heq, decide_eq_false (not_not.mpr rfl), Bool.and_false]
        have hword' : word ^^^ 2 ^ i < 2 ^ (i + 1 + turns) :=
          Nat.xor_lt_two_pow hnext (Nat.pow_lt_pow_right (by decide) (by omega))
        rw [ih hlow' hword']
        congr 1
        apply List.filter_congr
        intro j hj
        have hne : j ≠ i := by
          rw [List.mem_range'_1] at hj
          omega
        rw [hclear, decide_eq_true hne, Bool.and_true]
      · rw [if_neg fun hmask => htest ((and_two_pow_ne_zero word i).mp hmask), if_neg htest]
        refine ih (fun j hj => ?_) hnext
        rcases Nat.lt_or_eq_of_le (Nat.le_of_lt_succ hj) with hlt | heq
        · exact hlow j hlt
        · rw [heq]
          exact Bool.eq_false_iff.mpr htest

/-- The loops of `toArray()` end on the words of a sound mask, and collect its set in
ascending order. -/
theorem Sound.toArray_eq_loops {bitMask : BitMask} (h : bitMask.Sound) :
    bitMask.toArray = (List.range bitMask.mask.length).flatMap fun n =>
      (maskToIntArray (radix + 1) (bitMask.getPart n) 0).map (· + n * radix) := by
  rw [toArray]
  congr 1
  funext n
  rw [maskToIntArray_eq (fun j hj => absurd hj (Nat.not_lt_zero j))
    ((Nat.zero_add radix).symm ▸ h.words n), ← List.range_eq_range']

theorem pairwise_toArray (bitMask : BitMask) : bitMask.toArray.Pairwise (· < ·) := by
  rw [toArray, List.pairwise_flatMap]
  constructor
  · intro n _
    rw [List.pairwise_map]
    exact (List.pairwise_lt_range.filter _).imp fun hlt => Nat.add_lt_add_right hlt _
  · refine List.pairwise_lt_range.imp fun {n m} hlt first hfirst second hsecond => ?_
    obtain ⟨i, hi, rfl⟩ := List.mem_map.mp hfirst
    obtain ⟨j, -, rfl⟩ := List.mem_map.mp hsecond
    have hbit : i < radix := List.mem_range.mp (List.mem_of_mem_filter hi)
    calc i + n * radix < radix + n * radix := Nat.add_lt_add_right hbit _
      _ = (n + 1) * radix := by rw [Nat.add_mul, Nat.one_mul, Nat.add_comm]
      _ ≤ m * radix := Nat.mul_le_mul_right radix hlt
      _ ≤ j + m * radix := Nat.le_add_left _ _

/-- `toArray()` lists the set in ascending order. -/
theorem toArray_eq_sort (bitMask : BitMask) :
    bitMask.toArray = bitMask.toFinset.sort (· ≤ ·) := by
  have hsorted := bitMask.pairwise_toArray
  refine List.Perm.eq_of_pairwise (fun _ _ _ _ h h' => le_antisymm h h')
    (hsorted.imp fun hlt => hlt.le) (Finset.pairwise_sort _ _) ?_
  refine List.perm_of_nodup_nodup_toFinset_eq (hsorted.imp fun hlt => hlt.ne)
    (Finset.sort_nodup _ _) ?_
  rw [Finset.sort_toFinset, toFinset]

end BitMask

end DatabaseJones.Query
