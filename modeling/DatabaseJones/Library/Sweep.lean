import Mathlib.Data.Prod.Lex
import Mathlib.Data.List.Basic
import Mathlib.Tactic

/-!
# Sweeping over the ends of segments

A line of segments is the list of the cuts at which they begin and end.  Of several lines
the transitions are sorted together, and a sweep counts how many segments are open: those
transitions at which the count reaches or leaves a target are again a line, which covers
the positions that at least so many lines cover.  Where a segment ends and another begins
at one cut, the end goes first.
-/

namespace DatabaseJones.Library

variable {γ : Type*}

/-- A cut, and whether a segment begins there; ends are before beginnings. -/
abbrev Transition (γ : Type*) := γ ×ₗ Bool

namespace Transition

def cut (p : Transition γ) : γ := (ofLex p).1

def isLow (p : Transition γ) : Bool := (ofLex p).2

/-- What a transition adds to the number of open segments. -/
def change (p : Transition γ) : ℤ := if p.isLow then 1 else -1

/-- The same cut, with beginnings and ends exchanged. -/
def flip (p : Transition γ) : Transition γ := toLex (p.cut, !p.isLow)

@[simp] theorem cut_flip (p : Transition γ) : p.flip.cut = p.cut := rfl

@[simp] theorem isLow_flip (p : Transition γ) : p.flip.isLow = !p.isLow := rfl

theorem cut_le_of_le [LinearOrder γ] {p q : Transition γ} (h : p ≤ q) : p.cut ≤ q.cut := by
  rcases Prod.Lex.le_iff.mp h with hlt | ⟨heq, -⟩
  · exact hlt.le
  · exact heq.le

end Transition

open Transition

/-! ## Taking turns -/

/-- Beginnings and ends take turns, the last one is an end. -/
def Alternates : Bool → List (Transition γ) → Prop
  | inside, [] => inside = false
  | inside, p :: ps => p.isLow = !inside ∧ Alternates p.isLow ps

instance decidableAlternates : ∀ (inside : Bool) (ps : List (Transition γ)),
    Decidable (Alternates inside ps)
  | inside, [] => inferInstanceAs (Decidable (inside = false))
  | _, p :: ps =>
      have := decidableAlternates p.isLow ps
      inferInstanceAs (Decidable (_ ∧ _))

/-- Whoever opened a segment has closed it at the end. -/
theorem Alternates.sum_change {inside : Bool} {ps : List (Transition γ)} (h : Alternates inside ps) :
    (if inside then 1 else 0) + (ps.map change).sum = 0 := by
  induction ps generalizing inside with
  | nil =>
      rw [show inside = false from h]
      rfl
  | cons p ps ih =>
      have hchange : (if inside then 1 else 0) + p.change = if p.isLow then (1 : ℤ) else 0 := by
        rw [change, h.1]
        cases inside <;> rfl
      rw [List.map_cons, List.sum_cons, ← add_assoc, hchange]
      exact ih h.2

/-- Every segment has two ends. -/
theorem Alternates.length_even {inside : Bool} {ps : List (Transition γ)}
    (h : Alternates inside ps) : (ps.length + if inside then 1 else 0) % 2 = 0 := by
  induction ps generalizing inside with
  | nil =>
      rw [show inside = false from h]
      rfl
  | cons p ps ih =>
      have hrest := ih h.2
      rw [h.1] at hrest
      rw [List.length_cons]
      cases inside with
      | false =>
          simp only [Bool.not_false, if_true] at hrest
          simpa using hrest
      | true =>
          simp only [Bool.not_true, Bool.false_eq_true, if_false] at hrest
          simp only [if_true]
          omega

/-! ## The sweep -/

/-- The number of open segments reaches or leaves the target. -/
def Records (target depth : ℤ) (p : Transition γ) : Prop :=
  (if p.isLow then depth + 1 else depth) = target

instance (target depth : ℤ) (p : Transition γ) : Decidable (Records target depth p) :=
  inferInstanceAs (Decidable (_ = target))

/-- The transitions at which the number of open segments reaches or leaves the target. -/
def sweep (target : ℤ) : ℤ → List (Transition γ) → List (Transition γ)
  | _, [] => []
  | depth, p :: ps =>
      if Records target depth p then p :: sweep target (depth + p.change) ps
      else sweep target (depth + p.change) ps

theorem sweep_sublist (target depth : ℤ) (ps : List (Transition γ)) :
    (sweep target depth ps).Sublist ps := by
  induction ps generalizing depth with
  | nil => exact List.Sublist.refl _
  | cons p ps ih =>
      rw [sweep]
      split_ifs
      · exact (ih _).cons_cons p
      · exact (ih _).cons p

theorem Records.target_le {target depth : ℤ} {p : Transition γ} (h : Records target depth p) :
    decide (target ≤ depth) = !p.isLow ∧ decide (target ≤ depth + p.change) = p.isLow := by
  unfold Records at h
  rw [change]
  cases hlow : p.isLow with
  | false =>
      rw [hlow] at h
      simp only [Bool.false_eq_true, if_false] at h ⊢
      simp only [Bool.not_false, decide_eq_true_eq, decide_eq_false_iff_not]
      omega
  | true =>
      rw [hlow] at h
      simp only [if_true] at h ⊢
      simp only [Bool.not_true, decide_eq_true_eq, decide_eq_false_iff_not]
      omega

/-- The target is neither reached nor left elsewhere. -/
theorem target_le_of_not_records {target depth : ℤ} {p : Transition γ}
    (h : ¬Records target depth p) :
    decide (target ≤ depth + p.change) = decide (target ≤ depth) := by
  unfold Records at h
  rw [change, decide_eq_decide]
  cases hlow : p.isLow with
  | false =>
      rw [hlow] at h
      simp only [Bool.false_eq_true, if_false] at h ⊢
      omega
  | true =>
      rw [hlow] at h
      simp only [if_true] at h ⊢
      omega

/-- A sweep that ends below the target records beginnings and ends in turns. -/
theorem alternates_sweep {target depth : ℤ} {ps : List (Transition γ)}
    (hend : depth + (ps.map change).sum < target) :
    Alternates (decide (target ≤ depth)) (sweep target depth ps) := by
  induction ps generalizing depth with
  | nil => simpa [sweep, Alternates] using hend
  | cons p ps ih =>
      have hrest : Alternates (decide (target ≤ depth + p.change)) (sweep target (depth + p.change) ps) := by
        apply ih
        rwa [add_assoc, ← List.sum_cons, ← List.map_cons]
      rw [sweep]
      split_ifs with hrecord
      · rw [hrecord.target_le.2] at hrest
        exact ⟨by rw [hrecord.target_le.1, Bool.not_not], hrest⟩
      · rwa [target_le_of_not_records hrecord] at hrest

variable [LinearOrder γ]

/-! ## Lines -/

/-- Whether a position is in a segment, by the last transition that is not beyond it;
`inside` if there is none. -/
def Covers (position : γ) : Bool → List (Transition γ) → Prop
  | inside, [] => inside = true
  | inside, p :: ps => if p.cut ≤ position then Covers position p.isLow ps else inside = true

instance decidableCovers (position : γ) :
    ∀ (inside : Bool) (ps : List (Transition γ)), Decidable (Covers position inside ps)
  | inside, [] => inferInstanceAs (Decidable (inside = true))
  | inside, p :: ps =>
      have := decidableCovers position p.isLow ps
      inferInstanceAs
        (Decidable (if p.cut ≤ position then Covers position p.isLow ps else inside = true))

/-- A line: beginnings and ends take turns in ascending order. -/
structure IsLine (ps : List (Transition γ)) : Prop where
  alternates : Alternates false ps
  sorted : ps.Pairwise (· < ·)

theorem covers_of_lt {position : γ} {ps : List (Transition γ)} (h : ∀ p ∈ ps, position < p.cut)
    (inside : Bool) : Covers position inside ps ↔ inside = true := by
  cases ps with
  | nil => exact Iff.rfl
  | cons p ps => rw [Covers, if_neg (not_le.mpr (h p List.mem_cons_self))]

/-- Exchanging beginnings and ends covers the other positions. -/
theorem covers_flip (position : γ) (inside : Bool) (ps : List (Transition γ)) :
    Covers position (!inside) (ps.map Transition.flip) ↔ ¬Covers position inside ps := by
  induction ps generalizing inside with
  | nil =>
      rw [List.map_nil, Covers, Covers]
      cases inside <;> simp
  | cons p ps ih =>
      rw [List.map_cons, Covers, Covers, cut_flip, isLow_flip]
      split_ifs with hcut
      · exact ih p.isLow
      · cases inside <;> simp

/-- A transition beyond the position does not matter at the end. -/
theorem covers_concat {position : γ} {p : Transition γ} (h : position < p.cut) (inside : Bool)
    (ps : List (Transition γ)) :
    Covers position inside (ps ++ [p]) ↔ Covers position inside ps := by
  induction ps generalizing inside with
  | nil =>
      rw [List.nil_append, Covers, Covers]
      exact iff_of_eq (if_neg (not_le.mpr h))
  | cons q ps ih =>
      rw [List.cons_append, Covers, Covers]
      split_ifs with hcut
      · exact ih q.isLow
      · exact Iff.rfl

/-- Taking turns and ascending, transitions ascend strictly. -/
theorem Alternates.pairwise_lt {inside : Bool} {ps : List (Transition γ)}
    (h : Alternates inside ps) (hsorted : ps.Pairwise (· ≤ ·)) : ps.Pairwise (· < ·) := by
  induction ps generalizing inside with
  | nil => exact List.Pairwise.nil
  | cons p ps ih =>
      obtain ⟨hle, hrest⟩ := List.pairwise_cons.mp hsorted
      refine List.pairwise_cons.mpr ⟨?_, ih h.2 hrest⟩
      cases ps with
      | nil => exact fun _ hmem => absurd hmem List.not_mem_nil
      | cons q ps =>
          have hne : p ≠ q := by
            intro heq
            have hturn : q.isLow = !p.isLow := h.2.1
            rw [heq] at hturn
            exact Bool.not_ne_self _ hturn.symm
          have hpq : p < q := lt_of_le_of_ne (hle q List.mem_cons_self) hne
          intro r hr
          rcases List.mem_cons.mp hr with rfl | hr
          · exact hpq
          · exact hpq.trans_le ((List.pairwise_cons.mp hrest).1 r hr)

/-! ## Depths -/

/-- How many more segments are open at a position than before all transitions. -/
def depthAt (position : γ) (ps : List (Transition γ)) : ℤ :=
  (ps.map fun p => if p.cut ≤ position then p.change else 0).sum

theorem depthAt_cons (position : γ) (p : Transition γ) (ps : List (Transition γ)) :
    depthAt position (p :: ps) =
      (if p.cut ≤ position then p.change else 0) + depthAt position ps := by
  rw [depthAt, List.map_cons, List.sum_cons, depthAt]

theorem depthAt_append (position : γ) (ps qs : List (Transition γ)) :
    depthAt position (ps ++ qs) = depthAt position ps + depthAt position qs := by
  rw [depthAt, List.map_append, List.sum_append, depthAt, depthAt]

theorem depthAt_perm {position : γ} {ps qs : List (Transition γ)} (h : ps.Perm qs) :
    depthAt position ps = depthAt position qs := (h.map _).sum_eq

theorem depthAt_of_lt {position : γ} {ps : List (Transition γ)} (h : ∀ p ∈ ps, position < p.cut) :
    depthAt position ps = 0 := by
  induction ps with
  | nil => rfl
  | cons p ps ih =>
      rw [depthAt_cons, if_neg (not_le.mpr (h p List.mem_cons_self)),
        ih fun q hq => h q (List.mem_cons_of_mem _ hq), zero_add]

/-- What is beyond a position stays beyond it in a sorted list. -/
theorem lt_cut_of_sorted {position : γ} {p : Transition γ} {ps : List (Transition γ)}
    (hsorted : (p :: ps).Pairwise (· ≤ ·)) (h : position < p.cut) :
    ∀ q ∈ p :: ps, position < q.cut := by
  intro q hq
  rcases List.mem_cons.mp hq with rfl | hq
  · exact h
  · exact h.trans_le (cut_le_of_le ((List.pairwise_cons.mp hsorted).1 q hq))

/-- One segment of a line is open where the line covers the position, and none elsewhere. -/
theorem Alternates.depthAt_eq {inside : Bool} {ps : List (Transition γ)}
    (h : Alternates inside ps) (hsorted : ps.Pairwise (· ≤ ·)) (position : γ) :
    (if inside then 1 else 0) + depthAt position ps =
      if Covers position inside ps then 1 else 0 := by
  induction ps generalizing inside with
  | nil => exact add_zero _
  | cons p ps ih =>
      rcases le_or_gt p.cut position with hle | hlt
      · have hrest := ih h.2 (List.pairwise_cons.mp hsorted).2
        have hchange : (if inside then 1 else 0) + p.change = if p.isLow then (1 : ℤ) else 0 := by
          rw [change, h.1]
          cases inside <;> rfl
        rw [depthAt_cons, if_pos hle, ← add_assoc, hchange, hrest]
        simp only [Covers, if_pos hle]
      · have hbeyond := lt_cut_of_sorted hsorted hlt
        rw [depthAt_of_lt hbeyond, add_zero]
        simp only [covers_of_lt hbeyond]

/-! ## What a sweep covers -/

/-- A sweep covers the positions at which at least the target number of segments are open. -/
theorem covers_sweep {ps : List (Transition γ)} (hsorted : ps.Pairwise (· ≤ ·)) (position : γ)
    (target depth : ℤ) :
    Covers position (decide (target ≤ depth)) (sweep target depth ps) ↔
      target ≤ depth + depthAt position ps := by
  induction ps generalizing depth with
  | nil => simp [sweep, Covers, depthAt]
  | cons p ps ih =>
      rcases le_or_gt p.cut position with hle | hlt
      · have hrest := ih (List.pairwise_cons.mp hsorted).2 (depth + p.change)
        rw [depthAt_cons, if_pos hle, ← add_assoc, ← hrest, sweep]
        split_ifs with hrecord
        · rw [Covers, if_pos hle, hrecord.target_le.2]
        · rw [target_le_of_not_records hrecord]
      · have hbeyond := lt_cut_of_sorted hsorted hlt
        rw [depthAt_of_lt hbeyond, add_zero, covers_of_lt, decide_eq_true_eq]
        exact fun q hq => hbeyond q ((sweep_sublist target depth (p :: ps)).mem hq)

/-! ## Several lines -/

/-- The depth of several lines together is the number of those that cover the position. -/
theorem depthAt_flatten {lines : List (List (Transition γ))} (h : ∀ line ∈ lines, IsLine line)
    (position : γ) :
    depthAt position lines.flatten = (lines.countP fun line => Covers position false line : ℕ) := by
  induction lines with
  | nil => rfl
  | cons line lines ih =>
      obtain ⟨hline, hlines⟩ := List.forall_mem_cons.mp h
      have hone := hline.alternates.depthAt_eq (hline.sorted.imp le_of_lt) position
      rw [List.flatten_cons, depthAt_append, ih hlines, List.countP_cons]
      simp only [Bool.false_eq_true, if_false, zero_add] at hone
      rw [hone]
      by_cases hcovers : Covers position false line
      · rw [if_pos hcovers, if_pos (decide_eq_true hcovers), Nat.cast_add, Nat.cast_one, add_comm]
      · rw [if_neg hcovers, if_neg (by rwa [decide_eq_true_eq]), zero_add, add_zero]

theorem sum_change_flatten {lines : List (List (Transition γ))} (h : ∀ line ∈ lines, IsLine line) :
    (lines.flatten.map change).sum = 0 := by
  induction lines with
  | nil => rfl
  | cons line lines ih =>
      obtain ⟨hline, hlines⟩ := List.forall_mem_cons.mp h
      have hone := hline.alternates.sum_change
      rw [List.flatten_cons, List.map_append, List.sum_append, ih hlines, add_zero]
      simpa using hone

section Merged

variable {lines : List (List (Transition γ))} {merged : List (Transition γ)}

/-- The sweep over the transitions of several lines is a line. -/
theorem isLine_sweep (h : ∀ line ∈ lines, IsLine line) (hperm : merged.Perm lines.flatten)
    (hsorted : merged.Pairwise (· ≤ ·)) {target : ℤ} (htarget : 0 < target) :
    IsLine (sweep target 0 merged) := by
  have hend : 0 + (merged.map change).sum < target := by
    rwa [zero_add, (hperm.map change).sum_eq, sum_change_flatten h]
  have halternates := alternates_sweep hend
  rw [decide_eq_false (not_le.mpr htarget)] at halternates
  exact ⟨halternates, halternates.pairwise_lt (hsorted.sublist (sweep_sublist _ _ _))⟩

/-- It covers what at least the target number of lines cover. -/
theorem covers_sweep_iff (h : ∀ line ∈ lines, IsLine line) (hperm : merged.Perm lines.flatten)
    (hsorted : merged.Pairwise (· ≤ ·)) {target : ℕ} (htarget : 0 < target) (position : γ) :
    Covers position false (sweep target 0 merged) ↔
      target ≤ lines.countP fun line => Covers position false line := by
  have hcovers := covers_sweep hsorted position (target : ℤ) 0
  rw [decide_eq_false (by omega), zero_add, depthAt_perm hperm, depthAt_flatten h] at hcovers
  rw [hcovers, Nat.cast_le]

end Merged

end DatabaseJones.Library
