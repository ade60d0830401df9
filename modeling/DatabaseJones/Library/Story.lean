import Mathlib.Data.List.Basic
import Mathlib.Tactic

/-!
# What a trace tells about one subject

Every output of a trace is about one subject, or about none.  If a subject goes through
stages, each of which has a story, then a step that moves a subject to another stage adds
to the trace what the story of that stage has more.
-/

namespace DatabaseJones.Library

variable {ω κ : Type} [DecidableEq κ]

/-- The part of a trace that is about a subject. -/
def about (subject : ω → Option κ) (key : κ) (trace : List ω) : List ω :=
  trace.filter fun output => subject output = some key

variable {subject : ω → Option κ}

@[simp] theorem about_nil (key : κ) : about subject key [] = [] := rfl

@[simp] theorem about_append (key : κ) (first second : List ω) :
    about subject key (first ++ second) = about subject key first ++ about subject key second :=
  List.filter_append ..

theorem about_singleton_self {key : κ} {output : ω} (h : subject output = some key) :
    about subject key [output] = [output] := by
  rw [about, List.filter_cons_of_pos (by simpa using h), List.filter_nil]

theorem about_singleton_of_ne {key : κ} {output : ω} (h : subject output ≠ some key) :
    about subject key [output] = [] := by
  rw [about, List.filter_cons_of_neg (by simpa using h), List.filter_nil]

theorem about_concat_self {key : κ} {output : ω} (trace : List ω) (h : subject output = some key) :
    about subject key (trace ++ [output]) = about subject key trace ++ [output] := by
  rw [about_append, about_singleton_self h]

theorem about_concat_of_ne {key other : κ} {output : ω} (trace : List ω)
    (h : subject output = some key) (hne : other ≠ key) :
    about subject other (trace ++ [output]) = about subject other trace := by
  have hother : subject output ≠ some other := by
    rw [h]
    exact fun heq => hne (Option.some.inj heq).symm
  rw [about_append, about_singleton_of_ne hother, List.append_nil]

theorem about_concat_none {output : ω} (trace : List ω) (h : subject output = none) (key : κ) :
    about subject key (trace ++ [output]) = about subject key trace := by
  rw [about_append, about_singleton_of_ne (by simp [h]), List.append_nil]

/-- Outputs that are all about one subject. -/
theorem about_of_forall {key : κ} {outputs : List ω}
    (h : ∀ output ∈ outputs, subject output = some key) : about subject key outputs = outputs := by
  rw [about, List.filter_eq_self]
  exact fun output houtput => by simpa using h output houtput

theorem about_of_forall_ne {key other : κ} {outputs : List ω}
    (h : ∀ output ∈ outputs, subject output = some other) (hne : key ≠ other) :
    about subject key outputs = [] := by
  rw [about, List.filter_eq_nil_iff]
  intro output houtput
  rw [h output houtput]
  simpa using fun heq => hne heq.symm

/-- Outputs that are about no subject. -/
theorem about_of_forall_none {outputs : List ω} (h : ∀ output ∈ outputs, subject output = none)
    (key : κ) : about subject key outputs = [] := by
  rw [about, List.filter_eq_nil_iff]
  intro output houtput
  simp [h output houtput]

/-- Outputs of several subjects, listed subject by subject. -/
theorem about_flatMap_of_mem {ι : Type} {keys : ι → κ} {indices : List ι} {outputs : ι → List ω}
    (hkeys : Function.Injective keys)
    (h : ∀ index, ∀ output ∈ outputs index, subject output = some (keys index))
    (hnodup : indices.Nodup) {index : ι} (hmem : index ∈ indices) :
    about subject (keys index) (indices.flatMap outputs) = outputs index := by
  induction indices with
  | nil => exact absurd hmem List.not_mem_nil
  | cons head tail ih =>
      obtain ⟨hnotMem, hnodup⟩ := List.nodup_cons.mp hnodup
      rw [List.flatMap_cons, about_append]
      rcases List.mem_cons.mp hmem with rfl | hmem
      · have hrest : about subject (keys index) (tail.flatMap outputs) = [] := by
          rw [about, List.filter_eq_nil_iff]
          intro output houtput
          obtain ⟨other, hother, houtput⟩ := List.mem_flatMap.mp houtput
          rw [h other output houtput]
          have hne : other ≠ index := fun heq => hnotMem (heq ▸ hother)
          simpa using fun heq => hne (hkeys heq)
        rw [about_of_forall (h index), hrest, List.append_nil]
      · have hne : index ≠ head := fun heq => hnotMem (heq ▸ hmem)
        rw [about_of_forall_ne (h head) (fun heq => hne (hkeys heq)), List.nil_append,
          ih hnodup hmem]

/-- Outputs of other subjects. -/
theorem about_flatMap_of_notMem {ι : Type} {keys : ι → κ} {indices : List ι}
    {outputs : ι → List ω} (h : ∀ index, ∀ output ∈ outputs index, subject output = some (keys index))
    {key : κ} (hkey : ∀ index ∈ indices, keys index ≠ key) :
    about subject key (indices.flatMap outputs) = [] := by
  rw [about, List.filter_eq_nil_iff]
  intro output houtput
  obtain ⟨index, hindex, houtput⟩ := List.mem_flatMap.mp houtput
  rw [h index output houtput]
  simpa using hkey index hindex

theorem mem_of_mem_about {key : κ} {trace : List ω} {output : ω}
    (h : output ∈ about subject key trace) : output ∈ trace :=
  List.mem_of_mem_filter h

theorem mem_about_iff {key : κ} {trace : List ω} {output : ω} :
    output ∈ about subject key trace ↔ output ∈ trace ∧ subject output = some key := by
  rw [about, List.mem_filter, decide_eq_true_eq]

variable {σ : Type} {story : κ → σ → List ω} {stages : κ → Option σ} {trace : List ω}

/-- A trace that tells of every subject the story of its stage. -/
def Told (subject : ω → Option κ) (story : κ → σ → List ω) (stages : κ → Option σ)
    (trace : List ω) : Prop :=
  ∀ key, about subject key trace = (stages key).elim [] (story key)

/-- One subject moves to another stage, and the trace grows by what is new in its story. -/
theorem Told.update (h : Told subject story stages trace) {key : κ} {stage : σ} {outputs : List ω}
    (hsubject : ∀ output ∈ outputs, subject output = some key)
    (hstory : story key stage = (stages key).elim [] (story key) ++ outputs) :
    Told subject story (Function.update stages key (some stage)) (trace ++ outputs) := by
  intro other
  rw [about_append, h other]
  by_cases hkey : other = key
  · subst hkey
    rw [Function.update_self, about_of_forall hsubject, Option.elim_some, hstory]
  · rw [Function.update_of_ne hkey, about_of_forall_ne hsubject hkey, List.append_nil]

/-- An output about no subject adds nothing to any story. -/
theorem Told.silent (h : Told subject story stages trace) {output : ω}
    (hsubject : subject output = none) : Told subject story stages (trace ++ [output]) := by
  intro key
  rw [about_append, h key, about_singleton_of_ne (by simp [hsubject]), List.append_nil]

/-- What the trace says about a subject is said in its story. -/
theorem Told.mem_story (h : Told subject story stages trace) {key : κ} {output : ω}
    (hsubject : subject output = some key) (hmem : output ∈ trace) :
    ∃ stage, stages key = some stage ∧ output ∈ story key stage := by
  have habout : output ∈ about subject key trace := mem_about_iff.mpr ⟨hmem, hsubject⟩
  rw [h key] at habout
  cases hstage : stages key with
  | none =>
      rw [hstage] at habout
      exact absurd habout List.not_mem_nil
  | some stage =>
      rw [hstage] at habout
      exact ⟨stage, rfl, habout⟩

end DatabaseJones.Library
