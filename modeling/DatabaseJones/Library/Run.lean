import Mathlib.Data.List.Basic
import Mathlib.Tactic

/-!
# Runs of a partial transition function

A machine is a partial function `step : σ → ε → Option σ`; `none` means that the
event is not enabled.  `run` feeds it a list of events.  `Guarded` says that
every step of a run was taken in a state, and with an event, that a side
condition allows.  An invariant is proved once per step and transported along
the run by `invariant_of_guarded`.
-/

namespace DatabaseJones.Library

variable {σ ε : Type*}

/-- Feed a list of events to a partial transition function. -/
def run (step : σ → ε → Option σ) : σ → List ε → Option σ
  | state, [] => some state
  | state, event :: events => (step state event).bind fun next => run step next events

/-- Every step of the run is taken where `allowed` permits it. -/
def Guarded (step : σ → ε → Option σ) (allowed : σ → ε → Prop) : σ → List ε → Prop
  | _, [] => True
  | state, event :: events =>
      allowed state event ∧ ∀ next, step state event = some next → Guarded step allowed next events

variable {step : σ → ε → Option σ} {allowed : σ → ε → Prop}

@[simp] theorem run_nil (state : σ) : run step state [] = some state := rfl

theorem run_cons_eq_some {state final : σ} {event : ε} {events : List ε} :
    run step state (event :: events) = some final ↔
      ∃ next, step state event = some next ∧ run step next events = some final := by
  simp [run, Option.bind_eq_some_iff]

theorem run_append (state : σ) (first second : List ε) :
    run step state (first ++ second) =
      (run step state first).bind fun middle => run step middle second := by
  induction first generalizing state with
  | nil => rfl
  | cons event events ih =>
      simp only [List.cons_append, run]
      cases step state event with
      | none => rfl
      | some next => exact ih next

/-- An invariant kept by every step holds at the end of every run. -/
theorem invariant_of_run (invariant : σ → Prop)
    (hstep : ∀ state event next, invariant state → step state event = some next → invariant next)
    {start final : σ} {events : List ε} (hstart : invariant start)
    (hrun : run step start events = some final) : invariant final := by
  induction events generalizing start with
  | nil =>
      cases hrun
      exact hstart
  | cons event events ih =>
      obtain ⟨next, hnext, hrest⟩ := run_cons_eq_some.mp hrun
      exact ih (hstep _ _ _ hstart hnext) hrest

/-- An invariant kept by every allowed step holds at the end of every run made
of allowed steps. -/
theorem invariant_of_guarded (invariant : σ → Prop)
    (hstep : ∀ state event next, invariant state → allowed state event →
      step state event = some next → invariant next)
    {start final : σ} {events : List ε} (hstart : invariant start)
    (hguarded : Guarded step allowed start events) (hrun : run step start events = some final) :
    invariant final := by
  induction events generalizing start with
  | nil =>
      cases hrun
      exact hstart
  | cons event events ih =>
      obtain ⟨next, hnext, hrest⟩ := run_cons_eq_some.mp hrun
      exact ih (hstep _ _ _ hstart hguarded.1 hnext) (hguarded.2 next hnext) hrest

/-- A weaker side condition guards every run a stronger one does. -/
theorem Guarded.mono {wider : σ → ε → Prop} (hmono : ∀ state event, allowed state event →
    wider state event) {state : σ} {events : List ε} (hguarded : Guarded step allowed state events) :
    Guarded step wider state events := by
  induction events generalizing state with
  | nil => trivial
  | cons event events ih =>
      exact ⟨hmono _ _ hguarded.1, fun next hnext => ih (hguarded.2 next hnext)⟩

/-- A run each of whose events is allowed in every state. -/
theorem guarded_of_forall {events : List ε} (h : ∀ event ∈ events, ∀ state, allowed state event)
    (state : σ) : Guarded step allowed state events := by
  induction events generalizing state with
  | nil => trivial
  | cons event events ih =>
      refine ⟨h event List.mem_cons_self state, fun next _ => ih ?_ next⟩
      exact fun other hother => h other (List.mem_cons_of_mem _ hother)

instance decidableGuarded [∀ state event, Decidable (allowed state event)] :
    ∀ (state : σ) (events : List ε), Decidable (Guarded step allowed state events)
  | _, [] => .isTrue trivial
  | state, event :: events =>
      match h : step state event with
      | none => decidable_of_iff (allowed state event) (by simp [Guarded, h])
      | some next =>
          have := decidableGuarded next events
          decidable_of_iff (allowed state event ∧ Guarded step allowed next events)
            (by simp [Guarded, h])

end DatabaseJones.Library

/-!
## Simulation by an abstraction function

Two machines take the same events, and `abstract` maps the states of the first to
those of the second.  The second simulates the first on a run when every beginning of
the run leads to the same abstract state.  Where a step of the machines agrees exactly
when a side condition allows it, whole runs agree exactly when they are guarded by it.
-/

namespace DatabaseJones.Library

variable {σ τ ε : Type*}

/-- Every beginning of the run leads the two machines to the same abstract state, or
stops both. -/
def Simulates (step : σ → ε → Option σ) (abstractStep : τ → ε → Option τ) (abstract : σ → τ)
    (state : σ) (events : List ε) : Prop :=
  ∀ first, first <+: events →
    (run step state first).map abstract = run abstractStep (abstract state) first

variable {step : σ → ε → Option σ} {abstractStep : τ → ε → Option τ} {abstract : σ → τ}

theorem simulates_nil (state : σ) : Simulates step abstractStep abstract state [] := by
  intro first hfirst
  rw [List.prefix_nil.mp hfirst]
  rfl

/-- A run is simulated if its first step is, and the rest of it is from there on. -/
theorem simulates_cons {state : σ} {event : ε} {events : List ε} :
    Simulates step abstractStep abstract state (event :: events) ↔
      (step state event).map abstract = abstractStep (abstract state) event ∧
        ∀ next, step state event = some next →
          Simulates step abstractStep abstract next events := by
  constructor
  · intro hsimulates
    have hevent : (step state event).map abstract = abstractStep (abstract state) event := by
      have hone := hsimulates [event] (List.cons_prefix_cons.mpr ⟨rfl, List.nil_prefix⟩)
      simpa [run, Option.bind_some] using hone
    refine ⟨hevent, fun next hnext first hfirst => ?_⟩
    have hrest := hsimulates (event :: first) (List.cons_prefix_cons.mpr ⟨rfl, hfirst⟩)
    rw [hnext, Option.map_some] at hevent
    simpa only [run, hnext, ← hevent, Option.bind_some] using hrest
  · rintro ⟨hevent, hrest⟩ first hfirst
    cases first with
    | nil => rfl
    | cons head first =>
        obtain ⟨rfl, htail⟩ := List.cons_prefix_cons.mp hfirst
        cases hnext : step state head with
        | none =>
            rw [hnext, Option.map_none] at hevent
            simp only [run, hnext, ← hevent, Option.bind_none, Option.map_none]
        | some next =>
            rw [hnext, Option.map_some] at hevent
            simp only [run, hnext, ← hevent, Option.bind_some]
            exact hrest next hnext first htail

/-- Where single steps agree exactly when they are allowed, runs are simulated exactly
when they are guarded. -/
theorem simulates_iff_guarded {allowed : σ → ε → Prop} (invariant : σ → Prop)
    (hagree : ∀ state event, invariant state →
      ((step state event).map abstract = abstractStep (abstract state) event ↔
        allowed state event))
    (hkeep : ∀ state event next, invariant state → step state event = some next →
      invariant next)
    {state : σ} (hstart : invariant state) (events : List ε) :
    Simulates step abstractStep abstract state events ↔ Guarded step allowed state events := by
  induction events generalizing state with
  | nil => exact ⟨fun _ => trivial, fun _ => simulates_nil state⟩
  | cons event events ih =>
      rw [simulates_cons, hagree state event hstart]
      refine and_congr_right fun _ => forall_congr' fun next => ?_
      exact forall_congr' fun hnext => ih (hkeep state event next hstart hnext)

end DatabaseJones.Library
