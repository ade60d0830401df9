import DatabaseJones.PredicateObjects.Trees
import DatabaseJones.Library.Writes

/-!
# Marks of predicate objects

The marks that a visitor leaves in an object are those of the predicate below it, however
often the object is visited: except for a BETWEEN from a parameter to a literal, whose
`constants` are counted up by every visit.
-/

namespace DatabaseJones.PredicateObjects

open DatabaseJones.Query DatabaseJones.TableHandler DatabaseJones.Library

/-! ## Constants -/

mutual

/-- The `constants` that a predicate gets when it is marked for the first time. -/
def constantsOf : Predicate Literal → ℕ
  | .comparator _ _ parameter => markComparator parameter 0
  | .between _ parameter1 parameter2 => markBetween parameter1 parameter2 0
  | .unaryOperator .. => 1
  | .not operand => if constantsOf operand ≠ 0 then 1 else 0
  | .nary _ first rest => constantsOfOperands (if constantsOf first ≠ 0 then 1 else 0) rest

def constantsOfOperands (constants : ℕ) : List (Predicate Literal) → ℕ
  | [] => constants
  | operand :: operands =>
      constantsOfOperands (if constantsOf operand ≠ 0 then 1 else constants) operands

end

theorem constantsOfOperands_one (operands : List (Predicate Literal)) :
    constantsOfOperands 1 operands = 1 := by
  induction operands with
  | nil => rfl
  | cons operand operands ih => rw [constantsOfOperands, ite_self, ih]

theorem constantsOfOperands_zero (operands : List (Predicate Literal)) :
    constantsOfOperands 0 operands = 0 ∨ constantsOfOperands 0 operands = 1 := by
  induction operands with
  | nil => exact .inl rfl
  | cons operand operands ih =>
      rw [constantsOfOperands]
      split
      · exact .inr (constantsOfOperands_one operands)
      · exact ih

/-- A BETWEEN whose second visit would change its `constants`. -/
def PredicateObject.countsTwice : PredicateObject → Bool
  | .between _ parameter1 parameter2 => isQueryParameter parameter1 && !isQueryParameter parameter2
  | _ => false

theorem markComparator_idem (parameter : Parameter Literal) :
    markComparator parameter (markComparator parameter 0) = markComparator parameter 0 := by
  unfold markComparator
  split <;> rfl

theorem markBetween_idem {parameter1 parameter2 : Parameter Literal} (queryField : QueryField)
    (h : (PredicateObject.between queryField parameter1 parameter2).countsTwice = false) :
    markBetween parameter1 parameter2 (markBetween parameter1 parameter2 0) =
      markBetween parameter1 parameter2 0 := by
  unfold markBetween
  cases h1 : isQueryParameter parameter1 with
  | false => simp
  | true =>
      have h2 : isQueryParameter parameter2 = true := by
        simpa [PredicateObject.countsTwice, h1] using h
      simp [h2]

variable {objects : List PredicateObject} {tree operand head : Tree} {tail : List Tree}
  {id : ℕ} {operator : NaryOperator} {value constants : ℕ → ℕ}

/-- What the constants of the nodes of a tree are when a visitor comes: those of the
prototypes, or marks that are there already. -/
structure Markable (value constants : ℕ → ℕ) (tree : Tree) : Prop where
  value_eq : ∀ subtree ∈ tree.subtrees, value subtree.id = constantsOf subtree.predicate
  constants_eq : ∀ subtree ∈ tree.subtrees,
    constants subtree.id = subtree.object.constants ∨ constants subtree.id = value subtree.id
  once : ∀ subtree ∈ tree.subtrees, subtree.object.countsTwice = false

theorem Markable.root (h : Markable value constants tree) :
    value tree.id = constantsOf tree.predicate ∧
      (constants tree.id = tree.object.constants ∨ constants tree.id = value tree.id) ∧
      tree.object.countsTwice = false :=
  have hmem := tree.self_mem_subtrees
  ⟨h.value_eq tree hmem, h.constants_eq tree hmem, h.once tree hmem⟩

theorem Markable.of_subset {part : Tree} (h : Markable value constants tree)
    (hsubset : ∀ subtree ∈ part.subtrees, subtree ∈ tree.subtrees) : Markable value constants part :=
  ⟨fun subtree hmem => h.value_eq subtree (hsubset subtree hmem),
    fun subtree hmem => h.constants_eq subtree (hsubset subtree hmem),
    fun subtree hmem => h.once subtree (hsubset subtree hmem)⟩

theorem Markable.not (h : Markable value constants (.not id operand)) :
    Markable value constants operand :=
  h.of_subset fun _ hmem => List.mem_cons_of_mem _ hmem

theorem Markable.first (h : Markable value constants (.nary id operator head tail)) :
    Markable value constants head :=
  h.of_subset fun _ hmem => Tree.mem_subtrees_first id operator head tail hmem

theorem Markable.rest (h : Markable value constants (.nary id operator head tail))
    (hoperand : operand ∈ tail) : Markable value constants operand :=
  h.of_subset fun _ hmem => Tree.mem_subtrees_rest id operator head hoperand hmem

/-- A tree can be marked after another one, and after an object outside has changed. -/
theorem Markable.of_eq_or_eq {constants' : ℕ → ℕ} (h : Markable value constants tree)
    (hconstants : ∀ n ∈ tree.ids, constants' n = value n ∨ constants' n = constants n) :
    Markable value constants' tree := by
  refine ⟨h.value_eq, fun subtree hmem => ?_, h.once⟩
  rcases hconstants subtree.id (List.mem_map_of_mem hmem) with heq | heq
  · exact .inr heq
  · exact heq ▸ h.constants_eq subtree hmem

/-- The mark of an AND, OR or NOT after one operand. -/
theorem markConstantOperand_apply (id operand n : ℕ) (constants : ℕ → ℕ) :
    markConstantOperand id operand constants n =
      if n = id then (if constants operand ≠ 0 then 1 else constants id) else constants n := by
  unfold markConstantOperand
  by_cases hn : n = id
  · subst hn
    by_cases hoperand : constants operand ≠ 0
    · rw [if_pos hoperand, Function.update_self, if_pos rfl, if_pos hoperand]
    · rw [if_neg hoperand, if_pos rfl, if_neg hoperand]
  · rw [if_neg hn]
    split
    · exact Function.update_of_ne hn _ _
    · rfl

/-- One operand of an AND, OR or NOT. -/
theorem writes_markConstantOperand (hmarkable : Markable value constants operand)
    (hid : id ∉ operand.ids)
    (hwrites : Writes value operand.ids constants (markConstants operand constants)) :
    let next := markConstantOperand id operand.id (markConstants operand constants)
    next id = (if constantsOf operand.predicate ≠ 0 then 1 else constants id) ∧
      (∀ n ≠ id, n ∈ operand.ids → next n = value n) ∧
      ∀ n ≠ id, n ∉ operand.ids → next n = constants n := by
  intro next
  have hoperand : markConstants operand constants operand.id = constantsOf operand.predicate := by
    rw [hwrites.written _ operand.id_mem_ids, hmarkable.root.1]
  refine ⟨?_, fun n hne hn => ?_, fun n hne hn => ?_⟩
  · exact (markConstantOperand_apply ..).trans (by rw [if_pos rfl, hoperand, hwrites.kept id hid])
  · exact (markConstantOperand_apply ..).trans (by rw [if_neg hne, hwrites.written n hn])
  · exact (markConstantOperand_apply ..).trans (by rw [if_neg hne, hwrites.kept n hn])

/-- The loop over operands of an AND or OR. -/
theorem writes_markConstantOperands (operands : List Tree) (hid : id ∉ idsOf operands)
    (hmarkable : ∀ operand ∈ operands, Markable value constants operand)
    (hvalue : value id = constantsOfOperands (constants id) (operands.map Tree.predicate))
    (hwrites : ∀ operand ∈ operands, ∀ {constants}, Markable value constants operand →
      Writes value operand.ids constants (markConstants operand constants)) :
    Writes value (id :: idsOf operands) constants (markConstantOperands id operands constants) := by
  induction operands generalizing constants with
  | nil => exact ⟨fun n hn => by obtain rfl := List.mem_singleton.mp hn; exact hvalue.symm, fun _ _ => rfl⟩
  | cons operand operands ih =>
      rw [idsOf_cons, List.mem_append, not_or] at hid
      have hhead := hmarkable operand List.mem_cons_self
      obtain ⟨hown, hwritten, hkept⟩ :=
        writes_markConstantOperand hhead hid.1 (hwrites operand List.mem_cons_self hhead)
      have hne : ∀ {n}, n ∈ idsOf operands → n ≠ id := fun hn heq => hid.2 (heq ▸ hn)
      have hrest := ih hid.2 (fun other hother => by
          apply (hmarkable other (List.mem_cons_of_mem _ hother)).of_eq_or_eq
          intro n hn
          have hne := hne ((mem_idsOf operands).mpr ⟨other, hother, hn⟩)
          by_cases hmem : n ∈ operand.ids
          · exact .inl (hwritten n hne hmem)
          · exact .inr (hkept n hne hmem))
        (by rw [hvalue, hown, List.map_cons, constantsOfOperands])
        fun other hother => hwrites other (List.mem_cons_of_mem _ hother)
      refine ⟨fun n hn => ?_, fun n hn => ?_⟩
      · by_cases hmem : n ∈ id :: idsOf operands
        · exact hrest.written n hmem
        · rw [List.mem_cons, not_or] at hmem
          have hoperand : n ∈ operand.ids := by
            rw [idsOf_cons, List.mem_cons, List.mem_append] at hn
            tauto
          exact (hrest.kept n (by simp [hmem])).trans (hwritten n hmem.1 hoperand)
      · rw [idsOf_cons, List.mem_cons, List.mem_append, not_or, not_or] at hn
        exact (hrest.kept n (by simp [hn])).trans (hkept n hn.1 hn.2.1)

/-- Visit a tree by `ConstMarkerVisitor`. -/
theorem writes_markConstants (hordered : Ordered objects) (hdenotes : Denotes objects tree)
    (hmarkable : Markable value constants tree) :
    Writes value tree.ids constants (markConstants tree constants) := by
  induction tree generalizing constants with
  | comparator id comparator queryField parameter =>
      obtain ⟨hvalue, hold, -⟩ := hmarkable.root
      change value id = markComparator parameter 0 at hvalue
      change constants id = 0 ∨ constants id = value id at hold
      change Writes value [id] _ _
      apply Writes.update
      rcases hold with hold | hold
      · rw [hold, hvalue]
      · rw [hold, hvalue, markComparator_idem]
  | between id queryField parameter1 parameter2 =>
      obtain ⟨hvalue, hold, honce⟩ := hmarkable.root
      change value id = markBetween parameter1 parameter2 0 at hvalue
      change constants id = 0 ∨ constants id = value id at hold
      change Writes value [id] _ _
      apply Writes.update
      rcases hold with hold | hold
      · rw [hold, hvalue]
      · rw [hold, hvalue, markBetween_idem queryField honce]
  | unaryOperator id operator queryField =>
      obtain ⟨hvalue, hold, -⟩ := hmarkable.root
      change value id = 1 at hvalue
      change constants id = 1 ∨ constants id = value id at hold
      refine ⟨fun n hn => ?_, fun _ _ => rfl⟩
      obtain rfl := List.mem_singleton.mp hn
      rcases hold with hold | hold
      · exact hold.trans hvalue.symm
      · exact hold
  | not id operand ih =>
      obtain ⟨hvalue, hold, -⟩ := hmarkable.root
      change value id = (if constantsOf operand.predicate ≠ 0 then 1 else 0) at hvalue
      change constants id = 0 ∨ constants id = value id at hold
      obtain ⟨hown, hwritten, hkept⟩ := writes_markConstantOperand hmarkable.not
        (hdenotes.id_notMem_not hordered) (ih hdenotes.not hmarkable.not)
      refine ⟨fun n hn => ?_, fun n hn => ?_⟩
      · by_cases hne : n = id
        · subst hne
          refine hown.trans ?_
          rw [hvalue]
          split
          · rfl
          · rcases hold with hold | hold
            · exact hold
            · rw [hold, hvalue, if_neg ‹_›]
        · rw [Tree.ids_not, List.mem_cons] at hn
          exact hwritten n hne (hn.resolve_left hne)
      · rw [Tree.ids_not, List.mem_cons, not_or] at hn
        exact hkept n hn.1 hn.2
  | nary id operator first rest ihfirst ihrest =>
      obtain ⟨hvalue, hold, -⟩ := hmarkable.root
      have hvalue : value id = constantsOfOperands (if constantsOf first.predicate ≠ 0 then 1 else 0)
          (rest.map Tree.predicate) := by
        rw [← predicatesOf_eq_map]
        exact hvalue
      change constants id = 0 ∨ constants id = value id at hold
      have hwhole : Writes value (id :: idsOf (first :: rest)) constants
          (markConstantOperands id (first :: rest) constants) :=
        writes_markConstantOperands (first :: rest)
        (by
          rw [idsOf_cons, List.mem_append, not_or]
          exact ⟨hdenotes.id_notMem_first hordered, hdenotes.id_notMem_rest hordered⟩)
        (List.forall_mem_cons.mpr ⟨hmarkable.first, fun operand => hmarkable.rest⟩)
        (by
          rcases hold with hold | hold
          · rw [hold, hvalue, List.map_cons, constantsOfOperands]
          · -- the mark is there already: it is 1 if there is a constant, and stays
            have hbit : value id = 0 ∨ value id = 1 := by
              rw [hvalue]
              split
              · exact .inr (constantsOfOperands_one _)
              · exact constantsOfOperands_zero _
            rw [hold]
            rcases hbit with hbit | hbit
            · rw [hbit, List.map_cons, constantsOfOperands, ← hvalue, hbit]
            · rw [hbit, constantsOfOperands_one])
        (List.forall_mem_cons.mpr ⟨fun hmarkable => ihfirst hdenotes.first hmarkable,
          fun operand hoperand _ hmarkable => ihrest operand hoperand (hdenotes.rest hoperand) hmarkable⟩)
      rw [Tree.ids_nary]
      exact hwhole

/-! ## Column masks -/

/-- The masks of an AND or OR after the given operands. -/
def orWithOperands (masks : PredicateMasks) (operands : List (Predicate Literal)) : PredicateMasks :=
  { usedColumnMask := usedByOperands masks.usedColumnMask operands
    equalColumnMask := equalByOperands masks.equalColumnMask operands }

theorem orWithOperands_cons (masks : PredicateMasks) (operand : Predicate Literal)
    (operands : List (Predicate Literal)) :
    orWithOperands masks (operand :: operands) =
      orWithOperands (orWithOperand masks operand.masks) operands := rfl

theorem masks_nary (operator : NaryOperator) (first : Predicate Literal)
    (rest : List (Predicate Literal)) :
    (Predicate.nary operator first rest).masks = orWithOperands noMasks (first :: rest) := rfl

theorem masks_comparator (comparator : Comparator) (queryField : QueryField)
    (parameter : Parameter Literal) :
    (Predicate.comparator comparator queryField parameter).masks =
      comparatorMasks comparator queryField := by
  cases comparator <;> rfl

variable {columns : ℕ → Option PredicateMasks} {masks : Masks}

/-- One operand of an AND or OR whose masks have been begun. -/
theorem markOperand_apply {own : PredicateMasks} (hown : masks id = some own) (hid : id ∉ operand.ids)
    (hcolumns : columns operand.id = some operand.predicate.masks)
    (hwrites : Writes columns operand.ids masks (markMasks operand masks)) (n : ℕ) :
    markOperand id operand.id (markMasks operand masks) n =
      if n = id then some (orWithOperand own operand.predicate.masks)
      else markMasks operand masks n := by
  unfold markOperand
  by_cases hn : n = id
  · subst hn
    rw [if_pos rfl, Function.update_self, hwrites.kept n hid, hown,
      hwrites.written _ operand.id_mem_ids, hcolumns]
    rfl
  · rw [if_neg hn, Function.update_of_ne hn]

/-- The loop over operands of an AND or OR. -/
theorem writes_markOperands (operands : List Tree) {own : PredicateMasks} (hown : masks id = some own)
    (hid : id ∉ idsOf operands)
    (hvalue : columns id = some (orWithOperands own (operands.map Tree.predicate)))
    (hcolumns : ∀ operand ∈ operands, columns operand.id = some operand.predicate.masks)
    (hwrites : ∀ operand ∈ operands, ∀ masks,
      Writes columns operand.ids masks (markMasks operand masks)) :
    Writes columns (id :: idsOf operands) masks (markOperands id operands masks) := by
  induction operands generalizing masks own with
  | nil =>
      refine ⟨fun n hn => ?_, fun _ _ => rfl⟩
      obtain rfl := List.mem_singleton.mp hn
      rw [hvalue]
      exact hown
  | cons operand operands ih =>
      rw [idsOf_cons, List.mem_append, not_or] at hid
      have happly := markOperand_apply hown hid.1 (hcolumns operand List.mem_cons_self)
        (hwrites operand List.mem_cons_self masks)
      have hhead := hwrites operand List.mem_cons_self masks
      have hrest := ih ((happly id).trans (if_pos rfl)) hid.2
        (by rw [hvalue, List.map_cons, orWithOperands_cons])
        (fun other hother => hcolumns other (List.mem_cons_of_mem _ hother))
        fun other hother => hwrites other (List.mem_cons_of_mem _ hother)
      refine ⟨fun n hn => ?_, fun n hn => ?_⟩
      · by_cases hmem : n ∈ id :: idsOf operands
        · exact hrest.written n hmem
        · have hne : n ≠ id := fun heq => hmem (heq ▸ List.mem_cons_self)
          have hoperand : n ∈ operand.ids := by
            rw [idsOf_cons, List.mem_cons, List.mem_append] at hn
            rw [List.mem_cons] at hmem
            tauto
          rw [markOperands, hrest.kept n hmem, happly n, if_neg hne]
          exact hhead.written n hoperand
      · rw [idsOf_cons, List.mem_cons, List.mem_append, not_or, not_or] at hn
        have hmem : n ∉ id :: idsOf operands := by
          rw [List.mem_cons]
          tauto
        rw [markOperands, hrest.kept n hmem, happly n, if_neg hn.1]
        exact hhead.kept n hn.2.1

/-- Visit a tree by `MaskMarkerVisitor`. -/
theorem writes_markMasks (hordered : Ordered objects) (hdenotes : Denotes objects tree)
    (hcolumns : ∀ subtree ∈ tree.subtrees, columns subtree.id = some subtree.predicate.masks)
    (masks : Masks) : Writes columns tree.ids masks (markMasks tree masks) := by
  have hroot := hcolumns tree tree.self_mem_subtrees
  induction tree generalizing masks with
  | comparator id comparator queryField parameter =>
      change columns id = some _ at hroot
      change Writes columns [id] _ _
      exact Writes.update (by rw [hroot]; exact congrArg some (masks_comparator ..).symm)
  | between id queryField parameter1 parameter2 =>
      change columns id = some _ at hroot
      change Writes columns [id] _ _
      exact Writes.update hroot.symm
  | unaryOperator id operator queryField =>
      change columns id = some _ at hroot
      change Writes columns [id] _ _
      exact Writes.update hroot.symm
  | not id operand ih =>
      have hinner : ∀ subtree ∈ operand.subtrees, columns subtree.id = some subtree.predicate.masks :=
        fun subtree hmem => hcolumns subtree (List.mem_cons_of_mem _ hmem)
      have hoperand := hinner operand operand.self_mem_subtrees
      have hwrites := ih hdenotes.not hinner masks hoperand
      change columns id = some _ at hroot
      have hmasks : (markMasks operand masks operand.id).map notMasks = columns id := by
        rw [hwrites.written _ operand.id_mem_ids, hoperand, hroot]
        rfl
      refine (hwrites.trans (Writes.update hmasks)).of_mem_iff fun n => ?_
      rw [Tree.ids_not, List.mem_cons, List.mem_append, List.mem_singleton, or_comm]
  | nary id operator first rest ihfirst ihrest =>
      have hfirst : ∀ subtree ∈ first.subtrees, columns subtree.id = some subtree.predicate.masks :=
        fun subtree hmem => hcolumns subtree (Tree.mem_subtrees_first id operator first rest hmem)
      have hrest : ∀ operand ∈ rest, ∀ subtree ∈ operand.subtrees,
          columns subtree.id = some subtree.predicate.masks :=
        fun operand hoperand subtree hmem =>
          hcolumns subtree (Tree.mem_subtrees_rest id operator first hoperand hmem)
      have hroot : columns id = some (orWithOperands noMasks ((first :: rest).map Tree.predicate)) := by
        rw [List.map_cons, ← predicatesOf_eq_map]
        exact hroot
      have hself := fun operand (hmem : operand ∈ rest) => hrest operand hmem operand operand.self_mem_subtrees
      have hbegun : Function.update masks id (some noMasks) id = some noMasks := Function.update_self ..
      have hwhole := writes_markOperands (first :: rest) hbegun
        (by
          rw [idsOf_cons, List.mem_append, not_or]
          exact ⟨hdenotes.id_notMem_first hordered, hdenotes.id_notMem_rest hordered⟩)
        hroot
        (List.forall_mem_cons.mpr ⟨hfirst first first.self_mem_subtrees, hself⟩)
        (List.forall_mem_cons.mpr
          ⟨fun masks => ihfirst hdenotes.first hfirst masks (hfirst first first.self_mem_subtrees),
            fun operand hoperand masks => ihrest operand hoperand (hdenotes.rest hoperand)
              (hrest operand hoperand) masks (hself operand hoperand)⟩)
      rw [Tree.ids_nary]
      refine ⟨hwhole.written, fun n hn => ?_⟩
      have hne : n ≠ id := fun heq => hn (heq ▸ List.mem_cons_self)
      exact (hwhole.kept n hn).trans (Function.update_of_ne hne _ _)

end DatabaseJones.PredicateObjects
