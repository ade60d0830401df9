import Mathlib.Logic.Function.Basic
import Mathlib.Data.List.Basic
import Mathlib.Tactic

/-!
# Writing fixed values into a map

A traversal that may come to a place more than once, but writes the same value there each
time, leaves that value at all places it came to, and the other places as they were.
-/

namespace DatabaseJones.Library

variable {ι β : Type*} {value old middle new : ι → β} {places others : List ι}

/-- The new map has the given values at the places in the list, and the old ones elsewhere. -/
structure Writes (value : ι → β) (places : List ι) (old new : ι → β) : Prop where
  written : ∀ n ∈ places, new n = value n
  kept : ∀ n ∉ places, new n = old n

theorem Writes.nil : Writes value [] old old :=
  ⟨nofun, fun _ _ => rfl⟩

theorem Writes.update [DecidableEq ι] {n : ι} {v : β} (hv : v = value n) :
    Writes value [n] old (Function.update old n v) := by
  refine ⟨fun m hm => ?_, fun m hm => ?_⟩
  · obtain rfl := List.mem_singleton.mp hm
    rw [Function.update_self, hv]
  · exact Function.update_of_ne (fun heq => hm (List.mem_singleton.mpr heq)) _ _

/-- One traversal after another. -/
theorem Writes.trans (hfirst : Writes value places old middle) (hsecond : Writes value others middle new) :
    Writes value (places ++ others) old new := by
  refine ⟨fun n hn => ?_, fun n hn => ?_⟩
  · by_cases hother : n ∈ others
    · exact hsecond.written n hother
    · rw [hsecond.kept n hother]
      exact hfirst.written n ((List.mem_append.mp hn).resolve_right hother)
  · rw [List.mem_append, not_or] at hn
    rw [hsecond.kept n hn.2, hfirst.kept n hn.1]

/-- Only the places matter, not their order. -/
theorem Writes.of_mem_iff (h : Writes value places old new) (hiff : ∀ n, n ∈ others ↔ n ∈ places) :
    Writes value others old new :=
  ⟨fun n hn => h.written n ((hiff n).mp hn), fun n hn => h.kept n fun hmem => hn ((hiff n).mpr hmem)⟩

/-- A value is either what the traversal wrote or what was there before. -/
theorem Writes.eq_or_eq (h : Writes value places old new) (n : ι) :
    new n = value n ∨ new n = old n := by
  by_cases hn : n ∈ places
  · exact .inl (h.written n hn)
  · exact .inr (h.kept n hn)

/-- Writing the same values again changes nothing. -/
theorem Writes.again (hfirst : Writes value places old middle) (hsecond : Writes value places middle new) :
    new = middle := by
  funext n
  by_cases hn : n ∈ places
  · rw [hsecond.written n hn, hfirst.written n hn]
  · exact hsecond.kept n hn

end DatabaseJones.Library
