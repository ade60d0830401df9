import Mathlib.Data.List.Basic
import Mathlib.Tactic
import Mathlib.Data.List.Perm.Basic

/-!
# Arrays with free slots

An array in which the first free element is taken, or a new one added at the end, and elements
are written by their index.
-/

namespace DatabaseJones.Library

variable {α : Type} {slots : List α} {index : ℕ}

/-- `slots[index] = slot`, for an index that is at most the length. -/
def put (slots : List α) (index : ℕ) (slot : α) : List α :=
  if index < slots.length then slots.set index slot else slots ++ [slot]

theorem getElem?_put (hindex : index ≤ slots.length) (slot : α) (j : ℕ) :
    (put slots index slot)[j]? = if j = index then some slot else slots[j]? := by
  unfold put
  split_ifs with hlt heq heq
  · rw [heq, List.getElem?_set_self hlt]
  · rw [List.getElem?_set_ne (Ne.symm heq)]
  · rw [heq, List.getElem?_append_right (Nat.le_of_not_lt hlt)]
    have hzero : index - slots.length = 0 := by omega
    rw [hzero]
    rfl
  · by_cases hj : j < slots.length
    · rw [List.getElem?_append_left hj]
    · have hout : slots[j]? = none := List.getElem?_eq_none (Nat.le_of_not_lt hj)
      rw [hout]
      refine List.getElem?_eq_none ?_
      rw [List.length_append, List.length_singleton]
      omega

theorem length_put_le (slot : α) : slots.length ≤ (put slots index slot).length := by
  unfold put
  split_ifs
  · rw [List.length_set]
  · rw [List.length_append]
    omega

theorem lt_length_put (hindex : index ≤ slots.length) (slot : α) :
    index < (put slots index slot).length := by
  unfold put
  split_ifs with hlt
  · rwa [List.length_set]
  · rw [List.length_append, List.length_singleton]
    omega

/-- What an array holds after a write, it held before or was written. -/
theorem getElem?_put_cases {slot other : α} {j : ℕ} (h : (put slots index slot)[j]? = some other) :
    slots[j]? = some other ∨ other = slot := by
  unfold put at h
  split_ifs at h with hlt
  · by_cases hj : j = index
    · rw [hj, List.getElem?_set_self hlt] at h
      exact Or.inr (Option.some.inj h).symm
    · rw [List.getElem?_set_ne (Ne.symm hj)] at h
      exact Or.inl h
  · by_cases hj : j < slots.length
    · rw [List.getElem?_append_left hj] at h
      exact Or.inl h
    · rw [List.getElem?_append_right (Nat.le_of_not_lt hj)] at h
      exact Or.inr (List.mem_singleton.mp (List.mem_of_getElem? h))

variable [DecidableEq α] {free : α}

/-- The index of the first free slot, or of a new one. -/
def firstFree (free : α) (slots : List α) : ℕ := slots.findIdx fun slot => slot = free

theorem firstFree_le : firstFree free slots ≤ slots.length := List.findIdx_le_length

/-- What stands at the index of the first free slot. -/
theorem getElem?_firstFree : slots[firstFree free slots]? = none ∨
    slots[firstFree free slots]? = some free := by
  by_cases hlt : firstFree free slots < slots.length
  · refine Or.inr ?_
    have hnull := List.findIdx_getElem (w := hlt)
    rw [List.getElem?_eq_getElem hlt]
    exact congrArg some (of_decide_eq_true hnull)
  · exact Or.inl (List.getElem?_eq_none (Nat.le_of_not_lt hlt))

end DatabaseJones.Library

/-!
## Tallies and histories

A callback that has not been called waits as an entry of some list, and a step moves it to
another one.  So long as the tally of the lists and of what was delivered stays the same,
none is lost and none is called twice.  What is expected of every output of a trace, given
the outputs before it, is kept by adding outputs that are as expected.
-/

namespace DatabaseJones.Library

/-! ## Tallies -/

variable {α κ : Type} [DecidableEq κ] {key : α → κ} {k : κ} {entries : List α} {entry : α} {i : ℕ}

/-- How many entries of a list belong to a key. -/
def tally (key : α → κ) (k : κ) (entries : List α) : ℕ := entries.countP fun entry => key entry = k

@[simp] theorem tally_nil : tally key k [] = 0 := rfl

@[simp] theorem tally_append (first second : List α) :
    tally key k (first ++ second) = tally key k first + tally key k second :=
  List.countP_append

@[simp] theorem tally_singleton (entry : α) :
    tally key k [entry] = if key entry = k then 1 else 0 := by
  simp [tally, List.countP_cons]

theorem tally_cons (entry : α) (entries : List α) :
    tally key k (entry :: entries) = tally key k entries + if key entry = k then 1 else 0 := by
  simp [tally, List.countP_cons]

/-- Taking out one entry. -/
theorem tally_eraseIdx (h : entries[i]? = some entry) (key : α → κ) (k : κ) :
    tally key k entries = tally key k (entries.eraseIdx i) + if key entry = k then 1 else 0 := by
  obtain ⟨hi, rfl⟩ := List.getElem?_eq_some_iff.mp h
  have hperm := (List.getElem_cons_eraseIdx_perm hi).countP_eq fun entry => key entry = k
  rw [tally, ← hperm, List.countP_cons]
  simp [tally]

/-- Replacing one entry by another one of the same key. -/
theorem tally_set {other : α} (h : entries[i]? = some entry) (hkey : key other = key entry) (k : κ) :
    tally key k (entries.set i other) = tally key k entries := by
  obtain ⟨hi, rfl⟩ := List.getElem?_eq_some_iff.mp h
  have hperm := (List.set_perm_cons_eraseIdx hi other).countP_eq fun entry => key entry = k
  rw [tally, hperm, tally_eraseIdx h, List.countP_cons, hkey]
  simp [tally]

theorem tally_pos (h : entry ∈ entries) : 0 < tally key (key entry) entries :=
  List.countP_pos_iff.mpr ⟨entry, h, by simp⟩

theorem tally_eq_zero (h : ∀ entry ∈ entries, key entry ≠ k) : tally key k entries = 0 := by
  refine List.countP_eq_zero.mpr fun entry hentry => ?_
  simpa using h entry hentry

omit [DecidableEq κ] in
/-- Taking out one entry, counting the entries themselves. -/
theorem count_eraseIdx [DecidableEq α] (h : entries[i]? = some entry) (other : α) :
    entries.count other = (entries.eraseIdx i).count other + if entry = other then 1 else 0 := by
  obtain ⟨hi, rfl⟩ := List.getElem?_eq_some_iff.mp h
  rw [← (List.getElem_cons_eraseIdx_perm hi).count_eq, List.count_cons]
  simp

/-- The other entries stay. -/
theorem mem_eraseIdx_of_ne {other : α} (h : entries[i]? = some entry) (hother : other ∈ entries)
    (hne : other ≠ entry) : other ∈ entries.eraseIdx i := by
  obtain ⟨j, hj⟩ := List.getElem?_of_mem hother
  refine List.mem_eraseIdx_iff_getElem?.mpr ⟨j, fun heq => ?_, hj⟩
  rw [heq, h] at hj
  exact hne (Option.some.inj hj).symm

omit [DecidableEq κ] in
/-- Taking out the only entry of its key. -/
theorem mem_map_eraseIdx (h : entries[i]? = some entry) (hnodup : (entries.map key).Nodup) :
    k ∈ (entries.eraseIdx i).map key ↔ k ∈ entries.map key ∧ k ≠ key entry := by
  obtain ⟨hi, rfl⟩ := List.getElem?_eq_some_iff.mp h
  have hperm := (List.getElem_cons_eraseIdx_perm hi).map key
  have hcons := hperm.nodup_iff.mpr hnodup
  rw [List.map_cons, List.nodup_cons] at hcons
  rw [← hperm.mem_iff, List.map_cons, List.mem_cons]
  constructor
  · intro hmem
    exact ⟨Or.inr hmem, fun heq => hcons.1 (heq ▸ hmem)⟩
  · rintro ⟨rfl | hmem, hne⟩
    · exact absurd rfl hne
    · exact hmem

omit [DecidableEq κ] in
theorem nodup_map_eraseIdx (hnodup : (entries.map key).Nodup) (i : ℕ) :
    ((entries.eraseIdx i).map key).Nodup :=
  hnodup.sublist ((List.eraseIdx_sublist entries i).map key)

/-! ## Histories -/

variable {ω : Type} {permitted : List ω → ω → Prop} {trace : List ω}

/-- Every output is permitted after the outputs before it. -/
def Throughout (permitted : List ω → ω → Prop) (trace : List ω) : Prop :=
  ∀ before output, before ++ [output] <+: trace → permitted before output

theorem throughout_nil : Throughout permitted [] := by
  intro before output hbegins
  exact absurd (List.prefix_nil.mp hbegins) (by simp)

theorem Throughout.concat (h : Throughout permitted trace) {output : ω}
    (houtput : permitted trace output) : Throughout permitted (trace ++ [output]) := by
  intro before other hbegins
  rcases List.prefix_concat_iff.mp hbegins with heq | hbegins
  · obtain ⟨rfl, hsingle⟩ := List.append_inj' heq rfl
    obtain rfl := List.singleton_inj.mp hsingle
    exact houtput
  · exact h before other hbegins

/-- What is permitted of the outputs of the trace may be weakened. -/
theorem Throughout.imp (h : Throughout permitted trace) {weaker : List ω → ω → Prop}
    (himp : ∀ before, ∀ output ∈ trace, permitted before output → weaker before output) :
    Throughout weaker trace := by
  intro before output hbegins
  refine himp before output (hbegins.subset ?_) (h before output hbegins)
  exact List.mem_append_right _ (List.mem_singleton_self _)

/-- Several outputs are added, each permitted whatever part of the others comes before it. -/
theorem Throughout.append (h : Throughout permitted trace) {outputs : List ω}
    (houtputs : ∀ output ∈ outputs, ∀ first, (∀ other ∈ first, other ∈ outputs) →
      permitted (trace ++ first) output) : Throughout permitted (trace ++ outputs) := by
  suffices hall : ∀ (rest first : List ω), first ++ rest = outputs →
      Throughout permitted (trace ++ first) → Throughout permitted (trace ++ first ++ rest) by
    have hadded := hall outputs [] (List.nil_append _) (by rwa [List.append_nil])
    rwa [List.append_nil] at hadded
  intro rest
  induction rest with
  | nil =>
      intro first _ hfirst
      rwa [List.append_nil]
  | cons output rest ih =>
      intro first heq hfirst
      have houtput : permitted (trace ++ first) output :=
        houtputs output (by rw [← heq]; simp) first fun other hother => by
          rw [← heq]
          exact List.mem_append_left _ hother
      have hmore := ih (first ++ [output]) (by rw [List.append_assoc]; exact heq)
        (by rw [← List.append_assoc]; exact hfirst.concat houtput)
      rwa [← List.append_assoc, List.append_assoc, List.singleton_append] at hmore

end DatabaseJones.Library
