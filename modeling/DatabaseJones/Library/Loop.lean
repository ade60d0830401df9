import Mathlib.Data.List.Basic
import Mathlib.Tactic

/-!
# While loops

A loop is a function `step : σ → σ ⊕ β`: it goes on with another state or ends with a
result.  `loop` runs it with fuel, and `LoopsTo` says that some fuel is enough.  A loop
each of whose steps lowers a measure ends from every state, and a loop with an invariant
under which it always goes on never ends.
-/

namespace DatabaseJones.Library

variable {σ β : Type*} {step : σ → σ ⊕ β}

/-- Run the loop for at most `fuel` steps. -/
def loop (step : σ → σ ⊕ β) : ℕ → σ → Option β
  | 0, _ => none
  | fuel + 1, state =>
      match step state with
      | .inl next => loop step fuel next
      | .inr result => some result

/-- The loop ends with `result` when it is started in `state`. -/
def LoopsTo (step : σ → σ ⊕ β) (state : σ) (result : β) : Prop :=
  ∃ fuel, loop step fuel state = some result

theorem loop_succ_of_inl {state next : σ} (hstep : step state = .inl next) (fuel : ℕ) :
    loop step (fuel + 1) state = loop step fuel next := by
  simp only [loop, hstep]

theorem loop_succ_of_inr {state : σ} {result : β} (hstep : step state = .inr result)
    (fuel : ℕ) : loop step (fuel + 1) state = some result := by
  simp only [loop, hstep]

theorem loopsTo_of_inr {state : σ} {result : β} (hstep : step state = .inr result) :
    LoopsTo step state result :=
  ⟨1, loop_succ_of_inr hstep 0⟩

theorem loopsTo_iff_of_inl {state next : σ} {result : β} (hstep : step state = .inl next) :
    LoopsTo step state result ↔ LoopsTo step next result := by
  constructor
  · rintro ⟨fuel, hfuel⟩
    cases fuel with
    | zero => cases hfuel
    | succ fuel =>
        rw [loop_succ_of_inl hstep] at hfuel
        exact ⟨fuel, hfuel⟩
  · rintro ⟨fuel, hfuel⟩
    exact ⟨fuel + 1, by rw [loop_succ_of_inl hstep, hfuel]⟩

/-- More fuel changes nothing. -/
theorem loop_of_le {fuel more : ℕ} {state : σ} {result : β}
    (h : loop step fuel state = some result) (hle : fuel ≤ more) :
    loop step more state = some result := by
  induction fuel generalizing state more with
  | zero => cases h
  | succ fuel ih =>
      obtain ⟨more, rfl⟩ : ∃ less, more = less + 1 := ⟨more - 1, by omega⟩
      cases hstep : step state with
      | inl next =>
          rw [loop_succ_of_inl hstep] at h ⊢
          exact ih h (by omega)
      | inr other =>
          rw [loop_succ_of_inr hstep] at h ⊢
          exact h

/-- A loop ends with one result at most. -/
theorem LoopsTo.unique {state : σ} {result other : β} (h : LoopsTo step state result)
    (h' : LoopsTo step state other) : result = other := by
  obtain ⟨fuel, hfuel⟩ := h
  obtain ⟨fuel', hfuel'⟩ := h'
  have hresult := loop_of_le hfuel (le_max_left fuel fuel')
  have hother := loop_of_le hfuel' (le_max_right fuel fuel')
  exact Option.some.inj (hresult.symm.trans hother)

/-- A loop each of whose steps lowers a measure ends. -/
theorem exists_loopsTo_of_measure (measure : σ → ℕ)
    (hlower : ∀ state next, step state = .inl next → measure next < measure state)
    (state : σ) : ∃ result, LoopsTo step state result := by
  induction hsize : measure state using Nat.strong_induction_on generalizing state with
  | _ size ih =>
      cases hstep : step state with
      | inr result => exact ⟨result, loopsTo_of_inr hstep⟩
      | inl next =>
          have hlt : measure next < size := hsize ▸ hlower _ _ hstep
          obtain ⟨result, hresult⟩ := ih _ hlt next rfl
          exact ⟨result, (loopsTo_iff_of_inl hstep).mpr hresult⟩

/-! ## Loops whose steps may not end -/

/-- Run a loop whose steps are computed with fuel themselves. -/
def loopM (step : σ → Option (σ ⊕ β)) : ℕ → σ → Option β
  | 0, _ => none
  | fuel + 1, state =>
      (step state).bind fun
        | .inl next => loopM step fuel next
        | .inr result => some result

section LoopM

variable {partialStep fuller : σ → Option (σ ⊕ β)}

theorem loopM_of_inl {state next : σ} (hstep : partialStep state = some (.inl next)) (fuel : ℕ) :
    loopM partialStep (fuel + 1) state = loopM partialStep fuel next := by
  rw [loopM, hstep]
  rfl

theorem loopM_of_inr {state : σ} {result : β} (hstep : partialStep state = some (.inr result))
    (fuel : ℕ) : loopM partialStep (fuel + 1) state = some result := by
  rw [loopM, hstep]
  rfl

/-- More fuel, also for the steps, changes nothing. -/
theorem loopM_of_le {fuel more : ℕ} {state : σ} {result : β}
    (h : loopM partialStep fuel state = some result)
    (hstep : ∀ state next, partialStep state = some next → fuller state = some next)
    (hle : fuel ≤ more) : loopM fuller more state = some result := by
  induction fuel generalizing state more with
  | zero => cases h
  | succ fuel ih =>
      obtain ⟨more, rfl⟩ : ∃ less, more = less + 1 := ⟨more - 1, by omega⟩
      obtain ⟨next, hnext, hrest⟩ := Option.bind_eq_some_iff.mp h
      cases next with
      | inl next =>
          rw [loopM_of_inl (hstep _ _ hnext)]
          exact ih hrest (by omega)
      | inr other =>
          rw [loopM_of_inr (hstep _ _ hnext)]
          exact hrest

/-- A loop that goes on from every state that keeps an invariant never ends. -/
theorem loopM_eq_none {fuel : ℕ} {state : σ} (invariant : σ → Prop) (h : invariant state)
    (hstep : ∀ state next, invariant state → partialStep state = some next →
      ∃ kept, next = .inl kept ∧ invariant kept) :
    loopM partialStep fuel state = none := by
  induction fuel generalizing state with
  | zero => rfl
  | succ fuel ih =>
      cases hnext : partialStep state with
      | none => rw [loopM, hnext]; rfl
      | some next =>
          obtain ⟨kept, rfl, hkept⟩ := hstep _ _ h hnext
          rw [loopM_of_inl hnext]
          exact ih hkept

end LoopM

end DatabaseJones.Library
