import Mathlib.Data.Nat.BitIndices
import Mathlib.Data.Nat.Bitwise
import Mathlib.Tactic

/-!
# Counting the bits of a word

The loop that clears the lowest bit of a word until none is left runs once for every bit.
-/

namespace DatabaseJones.Library

/-- The number of turns of `while (v) v &= v - 1`, at most `fuel`. -/
def countBits : ℕ → ℕ → ℕ
  | 0, _ => 0
  | fuel + 1, v => if v = 0 then 0 else countBits fuel (v &&& (v - 1)) + 1

/-- Clearing the lowest bit leaves one bit less. -/
theorem length_bitIndices_and_pred {v : ℕ} (h : v ≠ 0) :
    (v &&& (v - 1)).bitIndices.length + 1 = v.bitIndices.length := by
  induction v using Nat.strong_induction_on with
  | _ v ih =>
      obtain ⟨half, rfl | rfl⟩ := Nat.even_or_odd' v
      · have hhalf : half ≠ 0 := fun hzero => h (by rw [hzero])
        have hclear : 2 * half &&& (2 * half - 1) = 2 * (half &&& (half - 1)) := by
          have hpred : 2 * half - 1 = Nat.bit true (half - 1) := by
            rw [Nat.bit_val]
            change 2 * half - 1 = 2 * (half - 1) + 1
            omega
          rw [hpred, ← Nat.bit_false_apply half, Nat.land_bit, ← Nat.bit_false_apply]
          rfl
        rw [hclear, Nat.bitIndices_two_mul, Nat.bitIndices_two_mul, List.length_map,
          List.length_map]
        exact ih half (by omega) hhalf
      · have hclear : 2 * half + 1 &&& (2 * half + 1 - 1) = 2 * half := by
          rw [Nat.add_sub_cancel, ← Nat.bit_true_apply half, ← Nat.bit_false_apply half,
            Nat.land_bit, Nat.and_self]
          rfl
        rw [hclear, Nat.bitIndices_two_mul, Nat.bitIndices_two_mul_add_one, List.length_cons]

/-- The loop counts the bits of a word that has no more than `fuel` of them. -/
theorem countBits_eq {fuel v : ℕ} (h : v.bitIndices.length ≤ fuel) :
    countBits fuel v = v.bitIndices.length := by
  induction fuel generalizing v with
  | zero => exact (Nat.le_zero.mp h).symm
  | succ fuel ih =>
      rw [countBits]
      split_ifs with hzero
      · rw [hzero, Nat.bitIndices_zero, List.length_nil]
      · have hclear := length_bitIndices_and_pred hzero
        rw [ih (by omega), hclear]

/-- A word whose bits are among the members of a list has all of them once it has as many. -/
theorem testBit_of_length {v : ℕ} {members : List ℕ} (hsubset : ∀ i, v.testBit i → i ∈ members)
    (hlength : members.length ≤ v.bitIndices.length) {i : ℕ} (hi : i ∈ members) :
    v.testBit i = true := by
  have hsubperm : v.bitIndices.Subperm members :=
    List.subperm_of_subset Nat.bitIndices_nodup fun j hj => hsubset j (Nat.mem_bitIndices.mp hj)
  exact Nat.mem_bitIndices.mp ((hsubperm.perm_of_length_le hlength).mem_iff.mpr hi)

/-- There are no more bits than members. -/
theorem length_bitIndices_le {v : ℕ} {members : List ℕ}
    (hsubset : ∀ i, v.testBit i → i ∈ members) : v.bitIndices.length ≤ members.length :=
  (List.subperm_of_subset Nat.bitIndices_nodup fun j hj =>
    hsubset j (Nat.mem_bitIndices.mp hj)).length_le

end DatabaseJones.Library
