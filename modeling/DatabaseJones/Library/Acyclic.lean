import Mathlib.Data.Fintype.Card
import Mathlib.Order.WellFounded
import Mathlib.Logic.Relation
import Mathlib.Order.RelClasses
import Mathlib.Tactic

/-!
# Descents among finitely many things

A relation says to what a thing leads.  If only finitely many things are reached from the first
one, then every way from there ends if and only if nothing that is reached leads back to itself.
-/

namespace DatabaseJones.Library

open Relation

variable {α : Type*} {leads : α → α → Prop}

/-- Nothing that is reached from a thing, the thing itself included, leads back to itself. -/
def NoLoop (leads : α → α → Prop) (start : α) : Prop :=
  ∀ reached, ReflTransGen leads start reached → ¬ TransGen leads reached reached

/-- A thing from which every way ends leads to such things only. -/
theorem acc_of_reflTransGen {start reached : α} (h : Acc (flip leads) start)
    (hreached : ReflTransGen leads start reached) : Acc (flip leads) reached := by
  induction hreached with
  | refl => exact h
  | tail _ hleads ih => exact ih.inv hleads

theorem not_transGen_of_acc {start : α} (h : Acc (flip leads) start) :
    ¬ TransGen leads start start := by
  intro hloop
  have hswap : TransGen (flip leads) start start := transGen_swap.mpr hloop
  have hacc : Acc (TransGen (flip leads)) start := h.transGen
  clear hloop h
  induction hacc with
  | intro start _ ih => exact ih start hswap hswap

theorem noLoop_of_acc {start : α} (h : Acc (flip leads) start) : NoLoop leads start :=
  fun _ hreached => not_transGen_of_acc (acc_of_reflTransGen h hreached)

/-- Every way from a thing ends if it reaches finitely many things and makes no loop. -/
theorem acc_of_noLoop {start : α} (hfinite : {reached | ReflTransGen leads start reached}.Finite)
    (h : NoLoop leads start) : Acc (flip leads) start := by
  let Reached := {reached // ReflTransGen leads start reached}
  let Behind : Reached → Reached → Prop := fun b a => TransGen leads a.1 b.1
  have : Finite Reached := hfinite
  have : IsTrans Reached Behind := ⟨fun _ _ _ hab hbc => hbc.trans hab⟩
  have : Std.Irrefl Behind := ⟨fun a => h a.1 a.2⟩
  have hwf : WellFounded Behind := Finite.wellFounded_of_trans_of_irrefl Behind
  -- what is reached from a reached thing is reached
  have hacc : ∀ a : Reached, Acc (flip leads) a.1 := by
    intro a
    induction a using hwf.induction with
    | _ a ih =>
        constructor
        intro b hb
        exact ih ⟨b, a.2.tail hb⟩ (TransGen.single hb)
  exact hacc ⟨start, ReflTransGen.refl⟩

theorem acc_iff_noLoop {start : α} (hfinite : {reached | ReflTransGen leads start reached}.Finite) :
    Acc (flip leads) start ↔ NoLoop leads start :=
  ⟨noLoop_of_acc, acc_of_noLoop hfinite⟩

end DatabaseJones.Library
