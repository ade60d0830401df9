import Mathlib.Data.List.DropRight
import Mathlib.Tactic

/-!
# Trailing blanks

A list without the blanks at its end, and the list as what remains followed by blanks.
-/

namespace DatabaseJones.Library

variable {α : Type} [DecidableEq α] (space : α)

/-- The list without the blanks at its end. -/
def trimEnd (items : List α) : List α := items.rdropWhile fun item => decide (item = space)

/-- The list does not end in a blank. -/
def Unpadded (items : List α) : Prop := items.getLast? ≠ some space

theorem exists_trimEnd_append (items : List α) :
    ∃ count, items = trimEnd space items ++ List.replicate count space := by
  induction items using List.reverseRecOn with
  | nil => exact ⟨0, rfl⟩
  | append_singleton items item ih =>
      by_cases hitem : item = space
      · obtain ⟨count, hcount⟩ := ih
        refine ⟨count + 1, ?_⟩
        unfold trimEnd at hcount ⊢
        rw [List.rdropWhile_concat_pos _ _ _ (by simpa using hitem), List.replicate_succ',
          ← List.append_assoc, ← hcount, hitem]
      · refine ⟨0, ?_⟩
        unfold trimEnd
        rw [List.rdropWhile_concat_neg _ _ _ (by simpa using hitem)]
        simp

theorem unpadded_trimEnd (items : List α) : Unpadded space (trimEnd space items) := by
  induction items using List.reverseRecOn with
  | nil => simp [Unpadded, trimEnd]
  | append_singleton items item ih =>
      by_cases hitem : item = space
      · unfold trimEnd
        rw [List.rdropWhile_concat_pos _ _ _ (by simpa using hitem)]
        exact ih
      · unfold trimEnd Unpadded
        rw [List.rdropWhile_concat_neg _ _ _ (by simpa using hitem), List.getLast?_concat]
        simpa using hitem

variable {space}

/-- Blanks at the end make no difference. -/
theorem trimEnd_append_replicate (items : List α) (count : ℕ) :
    trimEnd space (items ++ List.replicate count space) = trimEnd space items := by
  induction count with
  | zero => simp
  | succ count ih =>
      unfold trimEnd at ih ⊢
      rw [List.replicate_succ', ← List.append_assoc, List.rdropWhile_concat_pos _ _ _ (by simp), ih]

theorem trimEnd_of_unpadded {items : List α} (h : Unpadded space items) :
    trimEnd space items = items := by
  induction items using List.reverseRecOn with
  | nil => rfl
  | append_singleton items item _ =>
      unfold Unpadded at h
      rw [List.getLast?_concat] at h
      have hitem : item ≠ space := fun heq => h (congrArg some heq)
      unfold trimEnd
      rw [List.rdropWhile_concat_neg _ _ _ (by simpa using hitem)]

theorem trimEnd_trimEnd (items : List α) :
    trimEnd space (trimEnd space items) = trimEnd space items :=
  trimEnd_of_unpadded (unpadded_trimEnd space items)

/-- There is one way to take a list apart into what ends in no blank and blanks. -/
theorem trimEnd_eq {items kept : List α} {count : ℕ} (hitems : items = kept ++ List.replicate count space)
    (hkept : Unpadded space kept) : trimEnd space items = kept := by
  rw [hitems, trimEnd_append_replicate, trimEnd_of_unpadded hkept]

theorem trimEnd_ne_nil_iff {items : List α} :
    trimEnd space items ≠ [] ↔ ∃ item ∈ items, item ≠ space := by
  unfold trimEnd
  rw [Ne, List.rdropWhile_eq_nil_iff]
  simp

theorem trimEnd_sublist (items : List α) : (trimEnd space items).Sublist items :=
  (List.rdropWhile_prefix _ _).sublist

/-- Trimming commutes with a map that tells blanks from other items. -/
theorem trimEnd_map {β : Type} [DecidableEq β] {f : α → β} {space' : β}
    (h : ∀ item, f item = space' ↔ item = space) (items : List α) :
    trimEnd space' (items.map f) = (trimEnd space items).map f := by
  obtain ⟨count, hcount⟩ := exists_trimEnd_append space items
  refine trimEnd_eq (?_ : _ = _ ++ List.replicate count space') ?_
  · conv_lhs => rw [hcount, List.map_append, List.map_replicate, (h space).mpr rfl]
  · unfold Unpadded
    rw [List.getLast?_map]
    intro hlast
    obtain ⟨item, hitem, heq⟩ := Option.map_eq_some_iff.mp hlast
    rw [(h item).mp heq] at hitem
    exact unpadded_trimEnd space items hitem

end DatabaseJones.Library
