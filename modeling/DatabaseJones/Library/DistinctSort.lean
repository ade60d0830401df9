import Mathlib.Data.List.Nodup
import Mathlib.Tactic

/-!
# Sorting distinct elements by a strict order

A merge sort whose comparison is strict is not stable and need not sort equal elements, but it
never compares an element of a list without duplicates with itself.
-/

namespace DatabaseJones.Library

variable {α : Type}

/-- A merge depends on the comparisons between the two lists only. -/
theorem merge_congr {lt le : α → α → Bool} (first second : List α)
    (h : ∀ a ∈ first, ∀ b ∈ second, lt a b = le a b) :
    first.merge second lt = first.merge second le := by
  induction first generalizing second with
  | nil => simp
  | cons a first ih =>
      induction second with
      | nil => simp
      | cons b second ihSecond =>
          have hhead := h a (by simp) b (by simp)
          rw [List.merge, List.merge, hhead,
            ih (b :: second) fun x hx y hy => h x (by simp [hx]) y hy,
            ihSecond fun x hx y hy => h x hx y (by simp [hy])]

/-- Comparisons that agree on distinct elements sort a list without duplicates in the same way. -/
theorem mergeSort_congr {lt le : α → α → Bool} (h : ∀ a b, a ≠ b → lt a b = le a b) :
    ∀ items : List α, items.Nodup → items.mergeSort lt = items.mergeSort le
  | [], _ => by simp
  | [a], _ => by simp
  | a :: b :: items, hnodup => by
      have happend := List.MergeSort.Internal.splitInTwo_fst_append_splitInTwo_snd
        (⟨a :: b :: items, rfl⟩ : { l : List α // l.length = items.length + 1 + 1 })
      have hsplit := hnodup
      rw [show a :: b :: items = _ from happend.symm, List.nodup_append] at hsplit
      obtain ⟨hfirst, hsecond, hdisjoint⟩ := hsplit
      rw [List.mergeSort, List.mergeSort, mergeSort_congr h _ hfirst, mergeSort_congr h _ hsecond]
      refine merge_congr _ _ fun x hx y hy => h x y ?_
      exact hdisjoint x (List.mem_mergeSort.mp hx) y (List.mem_mergeSort.mp hy)
termination_by items => items.length

/-- Sorting a list without duplicates by a strict order puts it in that order. -/
theorem pairwise_mergeSort_of_nodup {lt : α → α → Bool}
    (htrans : ∀ a b c, lt a b = true → lt b c = true → lt a c = true)
    (htotal : ∀ a b, a ≠ b → lt a b = true ∨ lt b a = true)
    {items : List α} (hnodup : items.Nodup) :
    (items.mergeSort lt).Pairwise fun a b => lt a b = true := by
  classical
  let le : α → α → Bool := fun a b => decide (a = b) || lt a b
  have hcongr : items.mergeSort lt = items.mergeSort le :=
    mergeSort_congr (fun a b hne => by simp [le, hne]) items hnodup
  have hsorted : (items.mergeSort le).Pairwise fun a b => le a b = true := by
    refine List.pairwise_mergeSort (fun a b c hab hbc => ?_) (fun a b => ?_) items
    · simp only [le, Bool.or_eq_true, decide_eq_true_eq] at hab hbc ⊢
      rcases hab with rfl | hab
      · exact hbc
      · rcases hbc with rfl | hbc
        · exact .inr hab
        · exact .inr (htrans a b c hab hbc)
    · by_cases hab : a = b
      · simp [le, hab]
      · rcases htotal a b hab with hlt | hlt <;> simp [le, hlt]
  rw [hcongr]
  have hdistinct : (items.mergeSort le).Nodup := List.nodup_mergeSort.mpr hnodup
  refine (hsorted.and hdistinct).imp fun {a b} h => ?_
  have hle := h.1
  simp only [le, Bool.or_eq_true, decide_eq_true_eq] at hle
  exact hle.resolve_left h.2

/-- Two elements of a sorted list stand in the order in which they compare. -/
theorem pairwise_iff_of_pairwise {lt : α → α → Bool} {order : α → α → Prop} {items : List α}
    (hsorted : items.Pairwise fun a b => lt a b = true)
    (hasymm : ∀ a b, lt a b = true → lt b a = false) :
    items.Pairwise order ↔ ∀ a ∈ items, ∀ b ∈ items, lt a b = true → order a b := by
  constructor
  · intro horder a ha b hb hab
    obtain ⟨i, hi, rfl⟩ := List.getElem_of_mem ha
    obtain ⟨j, hj, rfl⟩ := List.getElem_of_mem hb
    rcases Nat.lt_trichotomy i j with hij | rfl | hij
    · exact List.pairwise_iff_getElem.mp horder i j hi hj hij
    · have := hasymm _ _ hab
      rw [hab] at this
      cases this
    · have hba := List.pairwise_iff_getElem.mp hsorted j i hj hi hij
      rw [hasymm _ _ hba] at hab
      cases hab
  · intro h
    exact hsorted.imp_of_mem fun ha hb hab => h _ ha _ hb hab

end DatabaseJones.Library
