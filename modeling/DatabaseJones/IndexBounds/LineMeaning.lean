import DatabaseJones.IndexBounds.NumberLine
import DatabaseJones.Library.Sweep

/-!
# What number lines denote

A number line of plain values denotes a set of points: the values of a column, NULL and
the infinities.  An endpoint is a cut between points; the order of endpoints in the source
is the order of cuts, and where a segment ends and another begins at one cut the end goes
first.
-/

namespace DatabaseJones.IndexBounds

open DatabaseJones.Library

/-! ## Points and endpoints -/

section

variable {α : Type*} [LinearOrder α]

/-- The plain value of an endpoint. -/
def Endpoint.part (endpoint : Endpoint α) : KeyPart α :=
  match endpoint.value with
  | .plain value => value
  | .index _ => .negInf

/-- The points from a low endpoint on. -/
def Endpoint.FromOn (endpoint : Endpoint α) (point : KeyPart α) : Prop :=
  if endpoint.inclusive then endpoint.part ≤ point else endpoint.part < point

/-- The points up to a high endpoint. -/
def Endpoint.UpTo (endpoint : Endpoint α) (point : KeyPart α) : Prop :=
  if endpoint.inclusive then point ≤ endpoint.part else point < endpoint.part

/-- The segments of a line are from P0 to P1, P2 to P3, etc. -/
def denotes : List (Endpoint α) → Set (KeyPart α)
  | low :: high :: endpoints => {point | low.FromOn point ∧ high.UpTo point} ∪ denotes endpoints
  | _ => ∅

/-- An endpoint of a line of plain values.  The infinities are the inclusive ends of the key
space. -/
structure Endpoint.Plain (endpoint : Endpoint α) : Prop where
  value : endpoint.value = .plain endpoint.part
  side : endpoint.isLow.isSome = true
  negInf : endpoint.part = .negInf → endpoint = negInf
  posInf : endpoint.part = .posInf → endpoint = posInf

instance (endpoint : Endpoint α) : Decidable endpoint.Plain :=
  decidable_of_iff (endpoint.value = .plain endpoint.part ∧ endpoint.isLow.isSome = true ∧
      (endpoint.part = .negInf → endpoint = IndexBounds.negInf) ∧
      (endpoint.part = .posInf → endpoint = IndexBounds.posInf))
    ⟨fun ⟨value, side, negInf, posInf⟩ => ⟨value, side, negInf, posInf⟩,
      fun ⟨value, side, negInf, posInf⟩ => ⟨value, side, negInf, posInf⟩⟩

/-! ## Cuts -/

/-- Before a point or after it. -/
abbrev Cut (α : Type*) := KeyPart α ×ₗ Bool

/-- A point is between the cut before it and the cut after it. -/
def cutBefore (point : KeyPart α) : Cut α := toLex (point, false)

/-- The transition that an endpoint stands for. -/
def Endpoint.transition (endpoint : Endpoint α) : Transition (Cut α) :=
  toLex (toLex (endpoint.part, endpoint.inclusive != (endpoint.isLow == some true)),
    endpoint.isLow == some true)

omit [LinearOrder α] in
theorem Endpoint.isLow_transition (endpoint : Endpoint α) :
    endpoint.transition.isLow = (endpoint.isLow == some true) := rfl

omit [LinearOrder α] in
theorem Endpoint.cut_transition (endpoint : Endpoint α) :
    endpoint.transition.cut =
      toLex (endpoint.part, endpoint.inclusive != (endpoint.isLow == some true)) := rfl

theorem cut_le_cutBefore {part point : KeyPart α} {after : Bool} :
    (toLex (part, after) : Cut α) ≤ cutBefore point ↔
      if after then part < point else part ≤ point := by
  rw [cutBefore, Prod.Lex.le_iff]
  cases after with
  | false => simp [le_iff_lt_or_eq]
  | true => simp

/-- The points beyond the cut of a low endpoint. -/
theorem Endpoint.fromOn_iff {endpoint : Endpoint α} (h : endpoint.transition.isLow = true)
    (point : KeyPart α) :
    endpoint.FromOn point ↔ endpoint.transition.cut ≤ cutBefore point := by
  rw [Endpoint.isLow_transition] at h
  rw [Endpoint.cut_transition, cut_le_cutBefore, h, FromOn]
  cases endpoint.inclusive <;> rfl

/-- The points that are not beyond the cut of a high endpoint. -/
theorem Endpoint.upTo_iff {endpoint : Endpoint α} (h : endpoint.transition.isLow = false)
    (point : KeyPart α) :
    endpoint.UpTo point ↔ ¬endpoint.transition.cut ≤ cutBefore point := by
  rw [Endpoint.isLow_transition] at h
  rw [Endpoint.cut_transition, cut_le_cutBefore, h, UpTo]
  cases endpoint.inclusive <;> simp

/-- What a line denotes is what its transitions cover. -/
theorem mem_denotes_iff {endpoints : List (Endpoint α)}
    (halternates : Alternates false (endpoints.map Endpoint.transition))
    (hsorted : (endpoints.map Endpoint.transition).Pairwise fun p q => p.cut ≤ q.cut)
    (point : KeyPart α) :
    point ∈ denotes endpoints ↔
      Covers (cutBefore point) false (endpoints.map Endpoint.transition) := by
  match endpoints with
  | [] => simp [denotes, Covers]
  | [low] =>
      have hlow : low.transition.isLow = true := halternates.1
      exact absurd (hlow.symm.trans halternates.2) (by decide)
  | low :: high :: endpoints =>
      obtain ⟨hlow, hhigh, hrest⟩ := halternates
      rw [Bool.not_false] at hlow
      rw [hlow, Bool.not_true] at hhigh
      rw [hhigh] at hrest
      have hbeyond := List.pairwise_cons.mp hsorted
      have hbeyondHigh := List.pairwise_cons.mp hbeyond.2
      rw [denotes, Set.mem_union, mem_denotes_iff hrest hbeyondHigh.2 point, Set.mem_ofPred_eq,
        Endpoint.fromOn_iff hlow, Endpoint.upTo_iff hhigh]
      simp only [List.map_cons, Covers, hlow, hhigh]
      split_ifs with hcutLow hcutHigh
      · simp [hcutHigh]
      · simp [hcutLow, hcutHigh]
      · -- the point is before the first segment, and so before all others
        have hnone : ∀ p ∈ endpoints.map Endpoint.transition, cutBefore point < p.cut :=
          fun p hp => (not_le.mp hcutLow).trans_le
            (hbeyond.1 p (List.mem_cons_of_mem _ hp))
        simp [hcutLow, covers_of_lt hnone]

/-! ## The order of endpoints -/

/-- Two endpoints at one value, in the order of the source. -/
theorem Endpoint.compareSides_spec {this that : Endpoint α} (hthis : this.isLow.isSome = true)
    (hthat : that.isLow.isSome = true) (hpart : this.part = that.part) :
    if this.compareSides that = .gt then that.transition ≤ this.transition
    else this.transition ≤ that.transition := by
  obtain ⟨value, inclusive, isLow⟩ := this
  obtain ⟨value', inclusive', isLow'⟩ := that
  obtain ⟨low, rfl⟩ := Option.isSome_iff_exists.mp hthis
  obtain ⟨low', rfl⟩ := Option.isSome_iff_exists.mp hthat
  simp only [transition, compareSides, Prod.Lex.le_iff, Prod.Lex.lt_iff, hpart]
  cases inclusive <;> cases inclusive' <;> cases low <;> cases low' <;> simp

theorem Endpoint.transition_le_of_lt {this that : Endpoint α} (h : this.part < that.part) :
    this.transition ≤ that.transition := by
  rw [Prod.Lex.le_iff]
  exact Or.inl (Prod.Lex.lt_iff.mpr (Or.inl h))

theorem compareValues_of_lt {a b : KeyPart α} (h : a < b) : compareValues a b = .lt := by
  rw [compareValues]
  split_ifs with hlt hgt
  · rfl
  · rcases hgt with rfl | rfl
    · exact absurd h (not_lt.mpr (KeyPart.le_posInf b))
    · exact absurd h (not_lt.mpr (KeyPart.negInf_le a))
  · exact compare_lt_iff_lt.mpr h

theorem compareValues_of_gt {a b : KeyPart α} (h : b < a) : compareValues a b = .gt := by
  rw [compareValues]
  split_ifs with hlt hgt
  · rcases hlt with rfl | rfl
    · exact absurd h (not_lt.mpr (KeyPart.negInf_le b))
    · exact absurd h (not_lt.mpr (KeyPart.le_posInf a))
  · rfl
  · exact compare_gt_iff_gt.mpr h

/-- Only infinities are not equal to themselves. -/
theorem compareValues_self {a : KeyPart α} (hneg : a ≠ .negInf) (hpos : a ≠ .posInf) :
    compareValues a a = .eq := by
  rw [compareValues, if_neg (not_or.mpr ⟨hneg, hpos⟩), if_neg (not_or.mpr ⟨hpos, hneg⟩)]
  exact compare_eq_iff_eq.mpr rfl

/-- `compare` never fails on plain endpoints, and tells which transition is the earlier one. -/
theorem Endpoint.Plain.compare_spec {this that : Endpoint α} (hthis : this.Plain)
    (hthat : that.Plain) :
    ∃ cmp, this.compare that = some cmp ∧
      if cmp = .gt then that.transition ≤ this.transition
      else this.transition ≤ that.transition := by
  have hcompare : this.compare that =
      some ((compareValues this.part that.part).then (this.compareSides that)) := by
    rw [Endpoint.compare, hthis.value, hthat.value]
    rfl
  refine ⟨_, hcompare, ?_⟩
  rcases lt_trichotomy this.part that.part with hlt | heq | hgt
  · rw [compareValues_of_lt hlt]
    exact Endpoint.transition_le_of_lt hlt
  · -- equal infinities belong to equal endpoints, whatever the comparison says
    rcases eq_or_ne this.part .negInf with hneg | hneg
    · rw [hthis.negInf hneg, hthat.negInf (heq.symm.trans hneg), ite_self]
    rcases eq_or_ne this.part .posInf with hpos | hpos
    · rw [hthis.posInf hpos, hthat.posInf (heq.symm.trans hpos), ite_self]
    rw [← heq, compareValues_self hneg hpos]
    exact Endpoint.compareSides_spec hthis.side hthat.side heq
  · rw [compareValues_of_gt hgt]
    exact Endpoint.transition_le_of_lt hgt

end

/-! ## Lines in the heap -/

namespace Heap

variable {α : Type} [LinearOrder α] (heap : Heap α)

/-- The endpoints of a line. -/
def pointsOf (line : ℕ) : List (Endpoint α) := (heap.lines line).map heap.endpoints

/-- What a line denotes. -/
def denotes (line : ℕ) : Set (KeyPart α) := IndexBounds.denotes (heap.pointsOf line)

/-- Beginnings and ends of segments in turns and in ascending order, at plain values. -/
structure WellFormed (line : ℕ) : Prop where
  allocated : ∀ point ∈ heap.lines line, point < heap.endpointCount
  plain : ∀ endpoint ∈ heap.pointsOf line, endpoint.Plain
  isLine : IsLine ((heap.pointsOf line).map Endpoint.transition)

variable {heap}

theorem WellFormed.mem_denotes_iff {line : ℕ} (h : heap.WellFormed line) (point : KeyPart α) :
    point ∈ heap.denotes line ↔
      Covers (cutBefore point) false ((heap.pointsOf line).map Endpoint.transition) :=
  IndexBounds.mem_denotes_iff h.isLine.alternates
    (h.isLine.sorted.imp fun hlt => Transition.cut_le_of_le hlt.le) point

end Heap

end DatabaseJones.IndexBounds
