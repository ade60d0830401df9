import Mathlib.Logic.Relation
import Mathlib.Order.WellFounded
import Mathlib.Tactic

/-!
# Walks from a place, level by level

A place leads to the places of a list.  The walks of one length from a place make a level; the
levels end exactly if every chain of places ends, and what is on some level is what is reached.

A queue that takes what a place leads to at its end visits level after level, until a place makes
it stop.  It does not remember where it was.
-/

namespace DatabaseJones.Library

open Relation

variable {α : Type*} (next : α → List α)

/-- The ends of the walks of a length, in their order. -/
def level (start : α) : ℕ → List α
  | 0 => [start]
  | steps + 1 => (level start steps).flatMap next

/-- The levels one after the other. -/
def levels (start : α) (count : ℕ) : List α := (List.range count).flatMap (level next start)

/-- A place leads to another one. -/
def Leads (place other : α) : Prop := other ∈ next place

variable {next}

theorem levels_succ (start : α) (count : ℕ) :
    levels next start (count + 1) = levels next start count ++ level next start count := by
  rw [levels, List.range_succ, List.flatMap_append, List.flatMap_singleton]
  rfl

/-- A walk begins with a step. -/
theorem level_succ' (start : α) (steps : ℕ) :
    level next start (steps + 1) = (next start).flatMap fun place => level next place steps := by
  induction steps with
  | zero => simp [level]
  | succ steps ih =>
      rw [level, ih, List.flatMap_assoc]
      rfl

theorem mem_level_succ {start place : α} {steps : ℕ} :
    place ∈ level next start (steps + 1) ↔
      ∃ before ∈ level next start steps, Leads next before place := List.mem_flatMap

theorem reflTransGen_of_mem_level {start place : α} {steps : ℕ}
    (h : place ∈ level next start steps) : ReflTransGen (Leads next) start place := by
  induction steps generalizing place with
  | zero => exact List.mem_singleton.mp h ▸ .refl
  | succ steps ih =>
      obtain ⟨before, hbefore, hleads⟩ := mem_level_succ.mp h
      exact (ih hbefore).tail hleads

theorem exists_mem_level {start place : α} (h : ReflTransGen (Leads next) start place) :
    ∃ steps, place ∈ level next start steps := by
  induction h with
  | refl => exact ⟨0, List.mem_singleton_self start⟩
  | tail _ hleads ih =>
      obtain ⟨steps, hmem⟩ := ih
      exact ⟨steps + 1, mem_level_succ.mpr ⟨_, hmem, hleads⟩⟩

theorem level_eq_nil_of_le {start : α} {steps more : ℕ} (h : level next start steps = [])
    (hle : steps ≤ more) : level next start more = [] := by
  induction more, hle using Nat.le_induction with
  | base => exact h
  | succ more _ ih => rw [level, ih, List.flatMap_nil]

/-- The levels end exactly if every chain of places does. -/
theorem exists_level_eq_nil_iff {start : α} :
    (∃ steps, level next start steps = []) ↔ Acc (flip (Leads next)) start := by
  constructor
  · rintro ⟨steps, h⟩
    induction steps generalizing start with
    | zero => cases h
    | succ steps ih =>
        constructor
        intro place hplace
        rw [level_succ', List.flatMap_eq_nil_iff] at h
        exact ih (h place hplace)
  · intro h
    induction h with
    | intro start _ ih =>
        -- The longest of the levels that begin at the places that the first one leads to.
        have hall : ∀ places : List α, (∀ place ∈ places, Leads next start place) →
            ∃ steps, ∀ place ∈ places, level next place steps = [] := by
          intro places hplaces
          induction places with
          | nil => exact ⟨0, List.forall_mem_nil _⟩
          | cons place places ihplaces =>
              rw [List.forall_mem_cons] at hplaces
              obtain ⟨first, hfirst⟩ := ih place hplaces.1
              obtain ⟨others, hothers⟩ := ihplaces hplaces.2
              refine ⟨max first others, List.forall_mem_cons.mpr ⟨?_, fun other hother => ?_⟩⟩
              · exact level_eq_nil_of_le hfirst (le_max_left _ _)
              · exact level_eq_nil_of_le (hothers other hother) (le_max_right _ _)
        obtain ⟨steps, hsteps⟩ := hall (next start) fun _ h => h
        exact ⟨steps + 1, by rw [level_succ', List.flatMap_eq_nil_iff]; exact hsteps⟩

/-! ## A queue -/

section
variable (next) (stops : α → Bool)

/-- Visit the places of a queue; `none` if the number of steps is not enough. -/
def visit : ℕ → List α → Option (List α)
  | 0, _ => none
  | _ + 1, [] => some []
  | fuel + 1, place :: queue =>
      if stops place then some [] else (visit fuel (queue ++ next place)).map (place :: ·)

/-- The place is visited: it stands in front of the first place that stops the queue. -/
def Visited (start place : α) : Prop :=
  ∃ count, place ∈ (levels next start count).takeWhile fun other => !stops other

/-- The queue ends: it becomes empty, or a place stops it. -/
def Ends (start : α) : Prop :=
  Acc (flip (Leads next)) start ∨ ∃ place, ReflTransGen (Leads next) start place ∧ stops place = true

end

variable {stops : α → Bool}

/-- Places that do not stop the queue are visited, and what they lead to comes after the others. -/
theorem visit_append {places : List α} (hgo : ∀ place ∈ places, stops place = false) (fuel : ℕ)
    (queue : List α) : visit next stops (fuel + places.length) (places ++ queue) =
      (visit next stops fuel (queue ++ places.flatMap next)).map (places ++ ·) := by
  induction places generalizing queue with
  | nil => simp
  | cons place places ih =>
      rw [List.forall_mem_cons] at hgo
      rw [List.length_cons, ← Nat.add_assoc, List.cons_append, visit, hgo.1, if_neg (by simp),
        List.append_assoc, ih hgo.2, Option.map_map, List.append_assoc, List.flatMap_cons]
      rfl

/-- More steps change nothing. -/
theorem visit_of_le {fuel more : ℕ} {queue visited : List α}
    (h : visit next stops fuel queue = some visited) (hle : fuel ≤ more) :
    visit next stops more queue = some visited := by
  induction fuel generalizing more queue visited with
  | zero => cases h
  | succ fuel ih =>
      obtain ⟨more, rfl⟩ : ∃ rest, more = rest + 1 := ⟨more - 1, by omega⟩
      cases queue with
      | nil => exact h
      | cons place queue =>
          rw [visit] at h ⊢
          split_ifs at h ⊢
          · exact h
          · obtain ⟨rest, hrest, rfl⟩ := Option.map_eq_some_iff.mp h
            rw [ih hrest (Nat.le_of_succ_le_succ hle)]
            rfl

/-- Levels without a place that stops the queue. -/
theorem visit_levels {start : α} {count : ℕ}
    (hgo : ∀ place ∈ levels next start count, stops place = false) (fuel : ℕ) :
    visit next stops (fuel + (levels next start count).length) [start] =
      (visit next stops fuel (level next start count)).map (levels next start count ++ ·) := by
  induction count generalizing fuel with
  | zero => simp [levels, level]
  | succ count ih =>
      rw [levels_succ, List.forall_mem_append] at hgo
      have hlevel := @visit_append _ next stops _ hgo.2 fuel []
      rw [List.append_nil, List.nil_append] at hlevel
      rw [levels_succ, List.length_append, Nat.add_comm (levels next start count).length,
        ← Nat.add_assoc, ih hgo.1, hlevel, Option.map_map]
      congr 1
      funext visited
      exact List.append_assoc _ _ _ |>.symm

theorem length_le_levels {start : α} (h : ∀ steps, level next start steps ≠ []) (count : ℕ) :
    count ≤ (levels next start count).length := by
  induction count with
  | zero => exact Nat.zero_le _
  | succ count ih =>
      have hpos := List.length_pos_iff.mpr (h count)
      rw [levels_succ, List.length_append]
      omega

theorem takeWhile_append_of_go {places others : List α}
    (hgo : ∀ place ∈ places, stops place = false) :
    (places ++ others).takeWhile (fun other => !stops other) =
      places ++ others.takeWhile fun other => !stops other :=
  List.takeWhile_append_of_pos fun place hplace => by rw [hgo place hplace]; rfl

theorem takeWhile_prefix_append (places others : List α) :
    (places.takeWhile fun other => !stops other) <+:
      (places ++ others).takeWhile fun other => !stops other := by
  induction places with
  | nil => exact List.nil_prefix
  | cons place places ih =>
      rw [List.cons_append, List.takeWhile_cons, List.takeWhile_cons]
      split_ifs
      · exact (List.prefix_cons_inj place).mpr ih
      · exact List.prefix_refl _

/-- Where the queue ends, exactly the visited places are visited. -/
theorem exists_visit {start : α} (h : Ends next stops start) :
    ∃ fuel visited, visit next stops fuel [start] = some visited ∧
      ∀ place, place ∈ visited ↔ Visited next stops start place := by
  have hend : ∃ count, level next start count = [] ∨
      ∃ place ∈ level next start count, stops place = true := by
    rcases h with hacc | ⟨place, hreached, hstops⟩
    · obtain ⟨count, hcount⟩ := exists_level_eq_nil_iff.mpr hacc
      exact ⟨count, .inl hcount⟩
    · obtain ⟨count, hmem⟩ := exists_mem_level hreached
      exact ⟨count, .inr ⟨place, hmem, hstops⟩⟩
  classical
  -- The first level that is empty or has a place that stops the queue.
  obtain ⟨count, hcount, hfirst⟩ : ∃ count, (level next start count = [] ∨
      ∃ place ∈ level next start count, stops place = true) ∧ ∀ other < count,
        ¬(level next start other = [] ∨ ∃ place ∈ level next start other, stops place = true) :=
    ⟨Nat.find hend, Nat.find_spec hend, fun _ hlt => Nat.find_min hend hlt⟩
  have hgo : ∀ place ∈ levels next start count, stops place = false := by
    intro place hplace
    obtain ⟨other, hother, hmem⟩ := List.mem_flatMap.mp hplace
    have hnot := hfirst other (List.mem_range.mp hother)
    push Not at hnot
    exact Bool.eq_false_of_not_eq_true (hnot.2 place hmem)
  have hmono : ∀ {few many : ℕ}, few ≤ many →
      levels next start few <+: levels next start many := by
    intro few many hle
    induction many, hle using Nat.le_induction with
    | base => exact List.prefix_refl _
    | succ many _ ih => exact ih.trans (levels_succ start many ▸ List.prefix_append _ _)
  rcases hcount with hnil | ⟨stop, hmem, hstops⟩
  · refine ⟨_, levels next start count, (visit_levels hgo 1).trans (by rw [hnil]; simp [visit]),
      fun place => ?_⟩
    have hall : ∀ more, levels next start more <+: levels next start count := by
      intro more
      rcases Nat.le_total more count with hle | hle
      · exact hmono hle
      · induction more, hle using Nat.le_induction with
        | base => exact List.prefix_refl _
        | succ more hle ih =>
            rw [levels_succ, level_eq_nil_of_le hnil hle, List.append_nil]
            exact ih
    constructor
    · intro hplace
      refine ⟨count, ?_⟩
      rw [← List.append_nil (levels next start count), takeWhile_append_of_go hgo]
      exact List.mem_append_left _ hplace
    · rintro ⟨more, hplace⟩
      exact (hall more).subset ((List.takeWhile_prefix _).subset hplace)
  · obtain ⟨front, stop, back, hlevel, hfront, hstop⟩ : ∃ front stop back,
        level next start count = front ++ stop :: back ∧
          (∀ place ∈ front, stops place = false) ∧ stops stop = true := by
      obtain ⟨stop, hfind⟩ := Option.isSome_iff_exists.mp
        (List.find?_isSome.mpr ⟨stop, hmem, hstops⟩)
      obtain ⟨hstop, front, back, hsplit, hgo⟩ := List.find?_eq_some_iff_append.mp hfind
      exact ⟨front, stop, back, hsplit, fun place hplace => by simpa using hgo place hplace, hstop⟩
    have hvisit : visit next stops (1 + front.length) (level next start count) = some front := by
      rw [hlevel, visit_append hfront]
      simp [visit, hstop]
    refine ⟨_, levels next start count ++ front, (visit_levels hgo _).trans (by rw [hvisit]; rfl),
      fun place => ?_⟩
    have hsame : (levels next start (count + 1)).takeWhile (fun other => !stops other) =
        levels next start count ++ front := by
      rw [levels_succ, takeWhile_append_of_go hgo, hlevel, takeWhile_append_of_go hfront,
        List.takeWhile_cons_of_neg (by simp [hstop]), List.append_nil]
    constructor
    · exact fun hplace => ⟨count + 1, by rw [hsame]; exact hplace⟩
    · rintro ⟨more, hplace⟩
      rcases Nat.le_total more (count + 1) with hle | hle
      · rw [← hsame]
        obtain ⟨rest, hrest⟩ := hmono hle
        rw [← hrest]
        exact (takeWhile_prefix_append _ _).subset hplace
      · obtain ⟨rest, hrest⟩ := hmono hle
        rw [← hrest, levels_succ, List.append_assoc, takeWhile_append_of_go hgo, hlevel,
          List.append_assoc, takeWhile_append_of_go hfront, List.cons_append,
          List.takeWhile_cons_of_neg (by simp [hstop]), List.append_nil] at hplace
        exact hplace

/-- A queue that is visited in some number of steps ends. -/
theorem ends_of_visit {start : α} {fuel : ℕ} {visited : List α}
    (h : visit next stops fuel [start] = some visited) : Ends next stops start := by
  by_contra hnever
  unfold Ends at hnever
  push Not at hnever
  obtain ⟨hacc, hstops⟩ := hnever
  rw [← exists_level_eq_nil_iff] at hacc
  push Not at hacc
  have hgo : ∀ place ∈ levels next start fuel, stops place = false := by
    intro place hplace
    obtain ⟨steps, -, hmem⟩ := List.mem_flatMap.mp hplace
    exact Bool.eq_false_of_not_eq_true (hstops place (reflTransGen_of_mem_level hmem))
  have hlonger := visit_of_le h (length_le_levels hacc fuel)
  have hnone := visit_levels hgo 0
  rw [Nat.zero_add, hlonger] at hnone
  cases hnone

end DatabaseJones.Library
