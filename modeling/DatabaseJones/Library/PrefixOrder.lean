import Mathlib.Data.List.Basic
import Mathlib.Order.Basic
import Mathlib.Tactic

/-!
# Comparing lists on their common prefix

`comparePrefix` compares two lists component by component and stops with
`Ordering.eq` where the shorter one ends.  A list compared in this way stands for
all its extensions: it is equal to each of them.
-/

namespace DatabaseJones.Library

variable {β : Type*} [LinearOrder β]

/-- The lexicographic comparison of two lists, on as many components as both have. -/
def comparePrefix : List β → List β → Ordering
  | [], _ => .eq
  | _ :: _, [] => .eq
  | a :: as, b :: bs => (compare a b).then (comparePrefix as bs)

@[simp] theorem comparePrefix_nil_left (bs : List β) : comparePrefix [] bs = .eq := by
  cases bs <;> rfl

@[simp] theorem comparePrefix_nil_right (as : List β) : comparePrefix as [] = .eq := by
  cases as <;> rfl

@[simp] theorem comparePrefix_cons (a b : β) (as bs : List β) :
    comparePrefix (a :: as) (b :: bs) = (compare a b).then (comparePrefix as bs) := rfl

/-- The first part decides, and where it agrees the rest does. -/
theorem comparePrefix_append (as more bs : List β) :
    comparePrefix (as ++ more) bs =
      (comparePrefix as bs).then (comparePrefix more (bs.drop as.length)) := by
  induction as generalizing bs with
  | nil => simp
  | cons a as ih =>
      cases bs with
      | nil => simp
      | cons b bs =>
          rw [List.cons_append, comparePrefix_cons, comparePrefix_cons, ih, List.length_cons,
            List.drop_succ_cons]
          cases compare a b <;> rfl

/-- A list agrees with a list that is not shorter exactly if it is a prefix of it. -/
theorem comparePrefix_eq_iff {as bs : List β} (hlength : as.length ≤ bs.length) :
    comparePrefix as bs = .eq ↔ as <+: bs := by
  induction as generalizing bs with
  | nil => simp
  | cons a as ih =>
      cases bs with
      | nil => simp at hlength
      | cons b bs =>
          rw [comparePrefix_cons, Ordering.then_eq_eq, compare_eq_iff_eq, List.cons_prefix_cons,
            ih (by simpa using hlength)]

/-! ## An order of lists that are not prefixes of each other -/

/-- Where two lists differ for the first time the first one is smaller. -/
def Below (as bs : List β) : Prop :=
  ∃ common a b, common ++ [a] <+: as ∧ common ++ [b] <+: bs ∧ a < b

theorem below_cons_iff {a b : β} {as bs : List β} :
    Below (a :: as) (b :: bs) ↔ a < b ∨ a = b ∧ Below as bs := by
  constructor
  · rintro ⟨common, x, y, has, hbs, hlt⟩
    cases common with
    | nil =>
        rw [List.nil_append, List.cons_prefix_cons] at has hbs
        rw [← has.1, ← hbs.1]
        exact .inl hlt
    | cons c common =>
        rw [List.cons_append, List.cons_prefix_cons] at has hbs
        exact .inr ⟨has.1.symm.trans hbs.1, common, x, y, has.2, hbs.2, hlt⟩
  · rintro (hlt | ⟨rfl, common, x, y, has, hbs, hlt⟩)
    · exact ⟨[], a, b, List.cons_prefix_cons.mpr ⟨rfl, List.nil_prefix⟩,
        List.cons_prefix_cons.mpr ⟨rfl, List.nil_prefix⟩, hlt⟩
    · exact ⟨a :: common, x, y, List.cons_prefix_cons.mpr ⟨rfl, has⟩,
        List.cons_prefix_cons.mpr ⟨rfl, hbs⟩, hlt⟩

theorem comparePrefix_lt_iff {as bs : List β} : comparePrefix as bs = .lt ↔ Below as bs := by
  induction as generalizing bs with
  | nil =>
      rw [comparePrefix_nil_left]
      refine iff_of_false nofun ?_
      rintro ⟨common, _, _, has, -⟩
      exact absurd (List.prefix_nil.mp has) (List.append_ne_nil_of_right_ne_nil _ nofun)
  | cons a as ih =>
      cases bs with
      | nil =>
          rw [comparePrefix_nil_right]
          refine iff_of_false nofun ?_
          rintro ⟨common, _, _, -, hbs, -⟩
          exact absurd (List.prefix_nil.mp hbs) (List.append_ne_nil_of_right_ne_nil _ nofun)
      | cons b bs =>
          rw [comparePrefix_cons, Ordering.then_eq_lt, compare_lt_iff_lt, compare_eq_iff_eq, ih,
            below_cons_iff]

theorem comparePrefix_swap (as bs : List β) :
    (comparePrefix as bs).swap = comparePrefix bs as := by
  induction as generalizing bs with
  | nil => rw [comparePrefix_nil_left, comparePrefix_nil_right]; rfl
  | cons a as ih =>
      cases bs with
      | nil => rw [comparePrefix_nil_left, comparePrefix_nil_right]; rfl
      | cons b bs =>
          rw [comparePrefix_cons, comparePrefix_cons, Ordering.swap_then, ih, ← Std.OrientedCmp.eq_swap]

/-- Lists are compared as equal exactly if one is a prefix of the other. -/
theorem comparePrefix_eq_iff_prefix {as bs : List β} :
    comparePrefix as bs = .eq ↔ as <+: bs ∨ bs <+: as := by
  rcases Nat.le_total as.length bs.length with hlength | hlength
  · rw [comparePrefix_eq_iff hlength]
    refine ⟨.inl, fun h => h.elim id fun hpre => ?_⟩
    rw [hpre.eq_of_length (Nat.le_antisymm hpre.length_le hlength)]
  · rw [← comparePrefix_swap, Ordering.swap_eq_eq, comparePrefix_eq_iff hlength]
    refine ⟨.inr, fun h => h.elim (fun hpre => ?_) id⟩
    rw [hpre.eq_of_length (Nat.le_antisymm hpre.length_le hlength)]

theorem Below.trans {as bs cs : List β} (h : Below as bs) (hnext : Below bs cs) : Below as cs := by
  induction as generalizing bs cs with
  | nil => exact absurd (comparePrefix_lt_iff.mpr h) (by simp)
  | cons a as ih =>
      cases bs with
      | nil => exact absurd (comparePrefix_lt_iff.mpr h) (by simp)
      | cons b bs =>
          cases cs with
          | nil => exact absurd (comparePrefix_lt_iff.mpr hnext) (by simp)
          | cons c cs =>
              rw [below_cons_iff] at h hnext ⊢
              rcases h with hlt | ⟨rfl, hbelow⟩
              · rcases hnext with hlt' | ⟨rfl, -⟩
                · exact .inl (hlt.trans hlt')
                · exact .inl hlt
              · rcases hnext with hlt' | ⟨rfl, hbelow'⟩
                · exact .inl hlt'
                · exact .inr ⟨rfl, ih hbelow hbelow'⟩

theorem Below.not_below {as bs : List β} (h : Below as bs) : ¬ Below bs as := by
  intro hback
  have hlt := comparePrefix_lt_iff.mpr h
  rw [← comparePrefix_swap, comparePrefix_lt_iff.mpr hback] at hlt
  cases hlt

/-- One is below the other, or one is a prefix of the other. -/
theorem below_cases (as bs : List β) :
    Below as bs ∨ Below bs as ∨ as <+: bs ∨ bs <+: as := by
  cases hcompare : comparePrefix as bs with
  | lt => exact .inl (comparePrefix_lt_iff.mp hcompare)
  | eq => exact .inr (.inr ( comparePrefix_eq_iff_prefix.mp hcompare))
  | gt =>
      refine .inr (.inl (comparePrefix_lt_iff.mp ?_))
      rw [← comparePrefix_swap, hcompare]
      rfl

theorem Below.not_comparable {as bs : List β} (h : Below as bs) : ¬ (as <+: bs ∨ bs <+: as) := by
  rw [← comparePrefix_eq_iff_prefix, comparePrefix_lt_iff.mpr h]
  nofun

/-- What is comparable to two lists, one of which is below the other, is a prefix of both. -/
theorem Below.prefix_of_comparable {as bs cs : List β} (h : Below as cs)
    (has : as <+: bs ∨ bs <+: as) (hcs : bs <+: cs ∨ cs <+: bs) : bs <+: as ∧ bs <+: cs := by
  have hne := not_or.mp h.not_comparable
  rcases has with has | has
  · rcases hcs with hcs | hcs
    · exact absurd (has.trans hcs) hne.1
    · exact absurd (List.prefix_or_prefix_of_prefix has hcs) (not_or.mpr hne)
  · rcases hcs with hcs | hcs
    · exact ⟨has, hcs⟩
    · exact absurd (hcs.trans has) hne.2

end DatabaseJones.Library
