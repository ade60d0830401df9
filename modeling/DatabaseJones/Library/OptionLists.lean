import Mathlib.Data.List.Forall2
import Mathlib.Tactic
import Mathlib.Data.List.Basic

/-!
# Lists of optional results

What a list of results says about the single ones when every element of a list is mapped,
and one failure makes the whole fail.
-/

namespace DatabaseJones.Library

variable {α β : Type}

/-- The results are those of the elements, one by one. -/
theorem mapM_eq_some_iff {f : α → Option β} {items : List α} {results : List β} :
    items.mapM f = some results ↔ List.Forall₂ (fun item result => f item = some result) items results := by
  induction items generalizing results with
  | nil =>
      rw [List.mapM_nil, List.forall₂_nil_left_iff]
      exact ⟨fun h => (Option.some.inj h).symm, fun h => h ▸ rfl⟩
  | cons item items ih =>
      rw [List.mapM_cons, List.forall₂_cons_left_iff]
      constructor
      · intro h
        obtain ⟨result, hresult, h⟩ := Option.bind_eq_some_iff.mp h
        obtain ⟨others, hothers, h⟩ := Option.bind_eq_some_iff.mp h
        exact ⟨result, others, hresult, ih.mp hothers, (Option.some.inj h).symm⟩
      · rintro ⟨result, others, hresult, hothers, rfl⟩
        rw [hresult, ih.mpr hothers]
        rfl

theorem exists_mapM_eq_some {f : α → Option β} {items : List α}
    (hsome : ∀ item ∈ items, (f item).isSome) : ∃ results, items.mapM f = some results := by
  induction items with
  | nil => exact ⟨[], rfl⟩
  | cons item items ih =>
      obtain ⟨result, hresult⟩ := Option.isSome_iff_exists.mp (hsome item List.mem_cons_self)
      obtain ⟨results, hresults⟩ := ih fun other hother => hsome other (List.mem_cons_of_mem _ hother)
      exact ⟨result :: results, by rw [List.mapM_cons, hresult, hresults]; rfl⟩

/-- If every element has a result with some property, there are such results for all. -/
theorem exists_mapM_forall₂ {f : α → Option β} {p : α → β → Prop} {items : List α}
    (h : ∀ item ∈ items, ∃ result, f item = some result ∧ p item result) :
    ∃ results, items.mapM f = some results ∧ List.Forall₂ p items results := by
  induction items with
  | nil => exact ⟨[], rfl, .nil⟩
  | cons item items ih =>
      obtain ⟨result, hresult, hp⟩ := h item List.mem_cons_self
      obtain ⟨results, hresults, hall⟩ := ih fun other hother => h other (List.mem_cons_of_mem _ hother)
      exact ⟨result :: results, by rw [List.mapM_cons, hresult, hresults]; rfl, .cons hp hall⟩

/-- If every element has its result, these are the results. -/
theorem mapM_eq_some_map {f : α → Option β} {g : α → β} {items : List α}
    (h : ∀ item ∈ items, f item = some (g item)) : items.mapM f = some (items.map g) := by
  rw [mapM_eq_some_iff, List.forall₂_map_right_iff, List.forall₂_same]
  exact h

/-- If there are results, every element has one. -/
theorem of_mapM_eq_some {f : α → Option β} {items : List α} {results : List β}
    (h : items.mapM f = some results) {item : α} (hitem : item ∈ items) :
    ∃ result ∈ results, f item = some result := by
  have hall := mapM_eq_some_iff.mp h
  clear h
  induction hall with
  | nil => exact absurd hitem List.not_mem_nil
  | cons hresult _ ih =>
      rcases List.mem_cons.mp hitem with rfl | hmem
      · exact ⟨_, List.mem_cons_self, hresult⟩
      · obtain ⟨result, hresults, hf⟩ := ih hmem
        exact ⟨result, List.mem_cons_of_mem _ hresults, hf⟩

/-- Every element stands next to a result that it is related to. -/
theorem exists_zip_of_forall₂ {γ : Type} {r : α → β → Prop} {f : α → γ} {items : List α}
    {results : List β} (hall : List.Forall₂ r items results) {item : α} (hitem : item ∈ items) :
    ∃ result, r item result ∧ (f item, result) ∈ (items.map f).zip results := by
  induction hall with
  | nil => exact absurd hitem List.not_mem_nil
  | cons hresult _ ih =>
      rw [List.map_cons, List.zip_cons_cons]
      rcases List.mem_cons.mp hitem with rfl | hmem
      · exact ⟨_, hresult, List.mem_cons_self⟩
      · obtain ⟨result, hr, hzip⟩ := ih hmem
        exact ⟨result, hr, List.mem_cons_of_mem _ hzip⟩

/-- If the only result that an element can have is known, so are the results. -/
theorem eq_map_of_mapM_eq_some {f : α → Option β} {g : α → β} {items : List α} {results : List β}
    (h : items.mapM f = some results) (hf : ∀ item result, f item = some result → result = g item) :
    results = items.map g ∧ ∀ item ∈ items, f item = some (g item) := by
  have hall : ∀ item ∈ items, f item = some (g item) := by
    intro item hitem
    obtain ⟨result, _, hresult⟩ := of_mapM_eq_some h hitem
    rw [hresult, hf item result hresult]
  exact ⟨Option.some.inj (h.symm.trans (mapM_eq_some_map hall)), hall⟩

theorem mapM_congr {f g : α → Option β} {items : List α} (h : ∀ item ∈ items, f item = g item) :
    items.mapM f = items.mapM g := by
  induction items with
  | nil => rfl
  | cons item items ih =>
      rw [List.mapM_cons, List.mapM_cons, h item List.mem_cons_self,
        ih fun other hother => h other (List.mem_cons_of_mem _ hother)]

/-- Two mappings, of which one succeeds everywhere, give the same results exactly if they
agree everywhere. -/
theorem mapM_eq_mapM_iff {f g : α → Option β} {items : List α}
    (hsome : ∀ item ∈ items, (g item).isSome) :
    items.mapM f = items.mapM g ↔ ∀ item ∈ items, f item = g item := by
  refine ⟨fun h => ?_, mapM_congr⟩
  obtain ⟨results, hresults⟩ := exists_mapM_eq_some hsome
  have hg := mapM_eq_some_iff.mp hresults
  have hf := mapM_eq_some_iff.mp (h.trans hresults)
  clear h hresults hsome
  induction hg with
  | nil => exact fun item hitem => absurd hitem List.not_mem_nil
  | cons hresult _ ih =>
      rw [List.forall₂_cons] at hf
      rw [List.forall_mem_cons]
      exact ⟨hf.1.trans hresult.symm, ih hf.2⟩

/-! ## Folds that can fail -/

/-- A fold whose steps do not fail. -/
theorem foldlM_eq_some_foldl {f : β → α → Option β} {g : β → α → β} {items : List α}
    (h : ∀ item ∈ items, ∀ state, f state item = some (g state item)) (state : β) :
    items.foldlM f state = some (items.foldl g state) := by
  induction items generalizing state with
  | nil => rfl
  | cons item items ih =>
      rw [List.foldlM_cons, h item List.mem_cons_self]
      exact ih (fun other hother => h other (List.mem_cons_of_mem _ hother)) (g state item)

/-- What each step keeps holds after a fold. -/
theorem invariant_of_foldlM {f : β → α → Option β} {items : List α} {p : β → Prop}
    (hstep : ∀ item ∈ items, ∀ state next, p state → f state item = some next → p next)
    {state final : β} (h : p state) (hfold : items.foldlM f state = some final) : p final := by
  induction items generalizing state with
  | nil => exact Option.some.inj hfold ▸ h
  | cons item items ih =>
      rw [List.foldlM_cons] at hfold
      obtain ⟨next, hnext, hfold⟩ := Option.bind_eq_some_iff.mp hfold
      exact ih (fun other hother => hstep other (List.mem_cons_of_mem _ hother))
        (hstep item List.mem_cons_self state next h hnext) hfold

end DatabaseJones.Library

/-!
## Optional parts of a list

A list that is put together from optional parts, each of which starts with an item of its
own: by its first item it is known which part comes next.
-/

namespace DatabaseJones.Library

variable {α : Type*} {rest : List α} {heads : List α} {first : α}

/-- The first item, if there is one, is among these. -/
def HeadIn (items heads : List α) : Prop := ∀ head ∈ items.head?, head ∈ heads

theorem headIn_nil : HeadIn ([] : List α) heads := fun _ h => absurd h (by simp)

/-- A part that is left out, or starts with `first`, before the rest. -/
theorem HeadIn.append (h : HeadIn rest heads) {part : List α}
    (hpart : ∀ head ∈ part.head?, head = first) : HeadIn (part ++ rest) (first :: heads) := by
  intro head hhead
  cases part with
  | nil => exact List.mem_cons_of_mem _ (h head hhead)
  | cons item part =>
      obtain rfl := Option.some.inj hhead
      rw [hpart item rfl]
      exact List.mem_cons_self

theorem HeadIn.head?_ne (h : HeadIn rest heads) (hfirst : first ∉ heads) :
    rest.head? ≠ some first :=
  fun hhead => hfirst (h first hhead)

end DatabaseJones.Library
