import Mathlib.Data.List.Nodup
import Mathlib.Tactic

/-!
# Folds over the components of a state

A state has a component for every index, and a step for an index changes only its own
component.  A fold over different indices changes each of their components once, as the step
would have in the state before the fold.
-/

namespace DatabaseJones.Library

variable {σ ι α : Type*} {view : σ → ι → α} {step : σ → ι → σ} {indices : List ι}

theorem view_foldl_of_notMem (hother : ∀ state i j, i ≠ j → view (step state j) i = view state i)
    (state : σ) {i : ι} (hi : i ∉ indices) : view (indices.foldl step state) i = view state i := by
  induction indices generalizing state with
  | nil => rfl
  | cons index indices ih =>
      obtain ⟨hne, hrest⟩ := not_or.mp (mt List.mem_cons.mpr hi)
      rw [List.foldl_cons, ih (step state index) hrest, hother state i index hne]

theorem view_foldl_of_mem {act : ι → α → α}
    (hself : ∀ state i, view (step state i) i = act i (view state i))
    (hother : ∀ state i j, i ≠ j → view (step state j) i = view state i)
    (hnodup : indices.Nodup) (state : σ) {i : ι} (hi : i ∈ indices) :
    view (indices.foldl step state) i = act i (view state i) := by
  induction indices generalizing state with
  | nil => exact absurd hi List.not_mem_nil
  | cons index indices ih =>
      obtain ⟨hnotMem, hnodup⟩ := List.nodup_cons.mp hnodup
      rw [List.foldl_cons]
      rcases List.mem_cons.mp hi with rfl | hi
      · rw [view_foldl_of_notMem hother _ hnotMem, hself]
      · have hne : i ≠ index := fun heq => hnotMem (heq ▸ hi)
        rw [ih hnodup (step state index) hi, hother state i index hne]

/-- A property that every step keeps exactly if its component permits. -/
theorem foldl_iff_forall {property : σ → Prop} {permits : ι → α → Prop}
    (hstep : ∀ state i, property (step state i) ↔ property state ∧ permits i (view state i))
    (hother : ∀ state i j, i ≠ j → view (step state j) i = view state i)
    (hnodup : indices.Nodup) (state : σ) :
    property (indices.foldl step state) ↔
      property state ∧ ∀ i ∈ indices, permits i (view state i) := by
  induction indices generalizing state with
  | nil => simp
  | cons index indices ih =>
      obtain ⟨hnotMem, hnodup⟩ := List.nodup_cons.mp hnodup
      have hrest : (∀ i ∈ indices, permits i (view (step state index) i)) ↔
          ∀ i ∈ indices, permits i (view state i) := by
        refine forall₂_congr fun i hi => ?_
        rw [hother state i index fun heq => hnotMem (heq ▸ hi)]
      rw [List.foldl_cons, ih hnodup (step state index), hstep, hrest, List.forall_mem_cons,
        and_assoc]

end DatabaseJones.Library
