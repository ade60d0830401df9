import DatabaseJones.NdbOperation.ScanFilter
import DatabaseJones.NdbOperation.FilterExecution

/-!
# What a scan filter means

The filter that a predicate tree leads to is well bracketed and combines the tests of the tree
as the tree does.  Its comparands lie one behind the other in two buffers.
-/

namespace DatabaseJones.NdbOperation

open DatabaseJones.Library DatabaseJones.Query

variable {V : Type}

/-! ## The condition of a predicate -/

section
variable (columnOf : QueryField → ℕ) (comparand : Predicate V → Bool → Option (List UInt8))

/-- The tests of a comparison or null test, given the numbers of the columns and the comparands
of the atoms: the only or first one, and the second one of BETWEEN. -/
def testsOfAtom : Predicate V → List AtomicTest
  | .comparator comparator queryField parameter =>
      [.compare comparator (columnOf queryField)
        (comparand (.comparator comparator queryField parameter) false)]
  | .between queryField parameter1 parameter2 =>
      [.compare .ge (columnOf queryField)
          (comparand (.between queryField parameter1 parameter2) false),
        .compare .le (columnOf queryField)
          (comparand (.between queryField parameter1 parameter2) true)]
  | .unaryOperator operator queryField => [.nullTest operator (columnOf queryField)]
  | _ => []

/-- The tests of a predicate, in order. -/
def testsOfPredicate (predicate : Predicate V) : List AtomicTest :=
  predicate.atoms.flatMap (testsOfAtom columnOf comparand)

mutual

/-- The truth value of a predicate, given that of its tests. -/
def truthOfPredicate (truth : AtomicTest → Option Bool) : Predicate V → Option Bool
  | .comparator comparator queryField parameter =>
      truth (.compare comparator (columnOf queryField)
        (comparand (.comparator comparator queryField parameter) false))
  | .between queryField parameter1 parameter2 =>
      NaryOperator.and.apply
        (truth (.compare .ge (columnOf queryField)
          (comparand (.between queryField parameter1 parameter2) false)))
        (truth (.compare .le (columnOf queryField)
          (comparand (.between queryField parameter1 parameter2) true)))
  | .unaryOperator operator queryField => truth (.nullTest operator (columnOf queryField))
  | .not predicate => truthNot (truthOfPredicate truth predicate)
  | .nary operator first rest =>
      truthOfOperands truth operator (truthOfPredicate truth first) rest

def truthOfOperands (truth : AtomicTest → Option Bool) (operator : NaryOperator)
    (value : Option Bool) : List (Predicate V) → Option Bool
  | [] => value
  | operand :: operands =>
      truthOfOperands truth operator (operator.apply value (truthOfPredicate truth operand)) operands

end

mutual

/-- The condition that combines the tests of a predicate as the predicate does. -/
def conditionOf : Predicate V → ScanCondition
  | .comparator comparator queryField parameter =>
      .test (.compare comparator (columnOf queryField)
        (comparand (.comparator comparator queryField parameter) false))
  | .between queryField parameter1 parameter2 =>
      .group .and
        [.test (.compare .ge (columnOf queryField)
            (comparand (.between queryField parameter1 parameter2) false)),
          .test (.compare .le (columnOf queryField)
            (comparand (.between queryField parameter1 parameter2) true))]
  | .unaryOperator operator queryField => .test (.nullTest operator (columnOf queryField))
  | .not predicate => .nand [conditionOf predicate]
  | .nary operator first rest => .group operator (conditionOf first :: conditionsOf rest)

def conditionsOf : List (Predicate V) → List ScanCondition
  | [] => []
  | operand :: operands => conditionOf operand :: conditionsOf operands

end

end

variable {columnOf : QueryField → ℕ} {comparand : Predicate V → Bool → Option (List UInt8)}

theorem apply_emptyGroup (operator : NaryOperator) (truth : Option Bool) :
    operator.apply (emptyGroup operator) truth = truth := by
  cases operator with
  | and => rcases truth with _ | _ | _ <;> rfl
  | or => rcases truth with _ | _ | _ <;> rfl

/-- The condition has the tests of the predicate. -/
theorem tests_conditionOf (predicate : Predicate V) :
    (conditionOf columnOf comparand predicate).tests =
      testsOfPredicate columnOf comparand predicate := by
  induction predicate with
  | comparator comparator queryField parameter => rfl
  | between queryField parameter1 parameter2 => rfl
  | unaryOperator operator queryField => rfl
  | not predicate ih =>
      calc (conditionOf columnOf comparand (.not predicate)).tests
        _ = (conditionOf columnOf comparand predicate).tests := by
            simp [conditionOf, ScanCondition.tests, testsOfMembers]
        _ = testsOfPredicate columnOf comparand predicate := ih
        _ = testsOfPredicate columnOf comparand (.not predicate) := by
            simp [testsOfPredicate, Predicate.atoms]
  | nary operator first rest ihfirst ihrest =>
      have hrest : testsOfMembers (conditionsOf columnOf comparand rest) =
          (atomsOfOperands rest).flatMap (testsOfAtom columnOf comparand) := by
        clear ihfirst
        induction rest with
        | nil => rfl
        | cons operand operands ih =>
            have hoperand := ihrest operand List.mem_cons_self
            have hoperands := ih fun other hother => ihrest other (List.mem_cons_of_mem _ hother)
            simp only [conditionsOf, testsOfMembers, atomsOfOperands, List.flatMap_append]
            rw [hoperand, hoperands]
            rfl
      simp only [conditionOf, ScanCondition.tests, testsOfMembers, testsOfPredicate, Predicate.atoms,
        List.flatMap_append]
      rw [ihfirst, hrest]
      rfl

/-- The condition is true where the predicate is. -/
theorem eval_conditionOf (truth : AtomicTest → Option Bool) (predicate : Predicate V) :
    (conditionOf columnOf comparand predicate).eval truth =
      truthOfPredicate columnOf comparand truth predicate := by
  induction predicate with
  | comparator comparator queryField parameter => rfl
  | between queryField parameter1 parameter2 =>
      simp only [conditionOf, ScanCondition.eval, evalMembers, apply_emptyGroup, truthOfPredicate]
  | unaryOperator operator queryField => rfl
  | not predicate ih =>
      have hmember := apply_emptyGroup .and ((conditionOf columnOf comparand predicate).eval truth)
      simp only [conditionOf, ScanCondition.eval, evalMembers, truthOfPredicate]
      rw [← ih]
      exact congrArg truthNot hmember
  | nary operator first rest ihfirst ihrest =>
      have hrest : ∀ value, evalMembers truth operator value (conditionsOf columnOf comparand rest) =
          truthOfOperands columnOf comparand truth operator value rest := by
        clear ihfirst
        induction rest with
        | nil => exact fun _ => rfl
        | cons operand operands ih =>
            intro value
            have hoperand := ihrest operand List.mem_cons_self
            simp only [conditionsOf, evalMembers, truthOfOperands]
            rw [hoperand]
            exact ih (fun other hother => ihrest other (List.mem_cons_of_mem _ hother)) _
      simp only [conditionOf, ScanCondition.eval, evalMembers, apply_emptyGroup, truthOfPredicate]
      rw [ihfirst]
      exact hrest _

/-! ## Reading the calls of a node -/

section
variable (region : Comparand V → Option (List UInt8))

mutual

/-- The condition of a node whose comparands are in the given regions. -/
def FilterNode.condition : FilterNode V → ScanCondition
  | .cmp comparator comparand =>
      .test (.compare comparator comparand.term.column.columnNumber (region comparand))
  | .between low high =>
      .group .and [.test (.compare .ge low.term.column.columnNumber (region low)),
        .test (.compare .le high.term.column.columnNumber (region high))]
  | .nullTest operator columnNumber => .test (.nullTest operator columnNumber)
  | .not node => .nand [node.condition]
  | .nary operator nodes => .group operator (conditionsOfNodes nodes)

def conditionsOfNodes : List (FilterNode V) → List ScanCondition
  | [] => []
  | node :: nodes => node.condition :: conditionsOfNodes nodes

end

end

/-- Where the native filter reads a comparand. -/
def FilterCode.regionOf (code : FilterCode) (comparand : Comparand V) : Option (List UInt8) :=
  code.region (if comparand.isConstant then .constBuffer else .paramBuffer) comparand.term.offset
    comparand.term.column.columnSpace

variable {code : FilterCode} {group : ℕ} {members : List ScanCondition} {groups : OpenGroups}

theorem comparatorOfCode_comparatorCode (comparator : Comparator) :
    comparatorOfCode (comparatorCode comparator) = some comparator := by
  cases comparator <;> rfl

/-- A comparison is one more member of the innermost group. -/
theorem step_cmp (comparator : Comparator) (comparand : Comparand V) :
    code.step ((group, members) :: groups) (comparand.cmp (comparatorCode comparator)) =
      some ((group, members ++ [.test (.compare comparator comparand.term.column.columnNumber
        (code.regionOf comparand))]) :: groups) := by
  simp only [Comparand.cmp, FilterCode.step, comparatorOfCode_comparatorCode, Option.bind_some]
  rfl

theorem closeGroup_naryCode (operator : NaryOperator) (members : List ScanCondition) :
    closeGroup (naryCode operator) members = some (.group operator members) := by
  cases operator <;> rfl

/-- Calls in brackets are one more member, if they fill a group that can be closed. -/
theorem run_group {calls : List FilterCall} {inner : ℕ} {others : List ScanCondition}
    {condition : ScanCondition}
    (hcalls : run code.step ((inner, []) :: (group, members) :: groups) calls =
      some ((inner, others) :: (group, members) :: groups))
    (hclose : closeGroup inner others = some condition) :
    run code.step ((group, members) :: groups) (.begin inner :: calls ++ [.finish]) =
      some ((group, members ++ [condition]) :: groups) := by
  rw [List.cons_append, run_cons_eq_some]
  refine ⟨(inner, []) :: (group, members) :: groups, rfl, ?_⟩
  rw [run_append, hcalls, Option.bind_some, run_cons_eq_some]
  refine ⟨_, ?_, rfl⟩
  simp only [FilterCode.step, hclose, Option.bind_some]
  rfl

mutual

/-- The calls of a node add its condition to the innermost group. -/
theorem run_calls (code : FilterCode) : ∀ (node : FilterNode V) (group : ℕ)
    (members : List ScanCondition) (groups : OpenGroups),
    run code.step ((group, members) :: groups) node.calls =
      some ((group, members ++ [node.condition code.regionOf]) :: groups)
  | .cmp comparator comparand, group, members, groups => by
      rw [FilterNode.calls, run_cons_eq_some]
      exact ⟨_, step_cmp comparator comparand, rfl⟩
  | .between low high, group, members, groups => by
      have hcalls : run code.step ((naryCode .and, []) :: (group, members) :: groups)
          [low.cmp (comparatorCode .ge), high.cmp (comparatorCode .le)] = some ((naryCode .and, _) ::
            (group, members) :: groups) :=
        run_cons_eq_some.mpr ⟨_, step_cmp .ge low, run_cons_eq_some.mpr ⟨_, step_cmp .le high, rfl⟩⟩
      exact run_group hcalls (closeGroup_naryCode .and _)
  | .nullTest .isNull columnNumber, group, members, groups => rfl
  | .nullTest .isNotNull columnNumber, group, members, groups => rfl
  | .not node, group, members, groups =>
      run_group (run_calls code node notCode [] _) rfl
  | .nary operator nodes, group, members, groups =>
      run_group (run_callsOfNodes code nodes (naryCode operator) [] _)
        (closeGroup_naryCode operator _)

theorem run_callsOfNodes (code : FilterCode) : ∀ (nodes : List (FilterNode V)) (group : ℕ)
    (members : List ScanCondition) (groups : OpenGroups),
    run code.step ((group, members) :: groups) (callsOfNodes nodes) =
      some ((group, members ++ conditionsOfNodes code.regionOf nodes) :: groups)
  | [], group, members, groups => by
      rw [callsOfNodes, run_nil, conditionsOfNodes, List.append_nil]
  | node :: nodes, group, members, groups => by
      rw [callsOfNodes, run_append, run_calls code node, Option.bind_some, run_callsOfNodes code nodes,
        conditionsOfNodes, List.append_assoc]
      rfl

end

/-- The filter of a node is well bracketed. -/
theorem condition_of_calls (code : FilterCode) (node : FilterNode V)
    (hcalls : code.calls = .begin 1 :: node.calls ++ [.finish]) :
    code.condition = some (.group .and [node.condition code.regionOf]) := by
  have hrun := run_group (run_calls code node 1 [] [(0, [])]) rfl
  unfold FilterCode.condition
  rw [hcalls, hrun]
  rfl

/-! ## The layout of the buffers -/

/-- The terms of a schema lie one behind the other, inside of its buffer. -/
structure BufferSchema.Consistent (schema : BufferSchema V) : Prop where
  positive : ∀ term ∈ schema.layout, 0 < term.column.columnSpace
  apart : schema.layout.Pairwise fun term other =>
    term.offset + term.column.columnSpace ≤ other.offset
  inside : ∀ term ∈ schema.layout, term.offset + term.column.columnSpace ≤ schema.size

theorem consistent_empty : BufferSchema.Consistent ({} : BufferSchema V) :=
  ⟨fun _ h => absurd h List.not_mem_nil, List.Pairwise.nil, fun _ h => absurd h List.not_mem_nil⟩

theorem BufferSchema.Consistent.addTerm {schema : BufferSchema V} (h : schema.Consistent)
    {column : ColumnMetadata} (hspace : 0 < column.columnSpace) (param : Parameter V) :
    (schema.addTerm column param).2.Consistent := by
  refine ⟨fun term hterm => ?_, ?_, fun term hterm => ?_⟩
  · rcases List.mem_append.mp hterm with hterm | hterm
    · exact h.positive term hterm
    · rw [List.mem_singleton.mp hterm]
      exact hspace
  · refine List.pairwise_append.mpr ⟨h.apart, List.pairwise_singleton _ _, fun term hterm other hother => ?_⟩
    rw [List.mem_singleton.mp hother]
    exact h.inside term hterm
  · rcases List.mem_append.mp hterm with hterm | hterm
    · exact (h.inside term hterm).trans (Nat.le_add_right _ _)
    · rw [List.mem_singleton.mp hterm]
      exact le_rfl

/-- The schema of the constants or that of the parameters. -/
def Schemas.schema (schemas : Schemas V) (isConstant : Bool) : BufferSchema V :=
  if isConstant then schemas.constSchema else schemas.paramSchema

/-- Both schemas have grown. -/
def Schemas.Extends (before after : Schemas V) : Prop :=
  ∀ isConstant, (before.schema isConstant).layout <+: (after.schema isConstant).layout

theorem Schemas.Extends.refl (schemas : Schemas V) : schemas.Extends schemas := fun _ =>
  List.prefix_rfl

theorem Schemas.Extends.trans {first second third : Schemas V} (h : first.Extends second)
    (h' : second.Extends third) : first.Extends third := fun isConstant =>
  (h isConstant).trans (h' isConstant)

def Schemas.Consistent (schemas : Schemas V) : Prop :=
  ∀ isConstant, (schemas.schema isConstant).Consistent

/-- What a new term does to the schemas. -/
theorem addTerm_spec (schemas : Schemas V) (isConstant : Bool) (column : ColumnMetadata)
    (param : Parameter V) :
    schemas.Extends (schemas.addTerm isConstant column param).2 ∧
      (0 < column.columnSpace → schemas.Consistent →
        (schemas.addTerm isConstant column param).2.Consistent) ∧
      (schemas.addTerm isConstant column param).1.isConstant = isConstant ∧
      (schemas.addTerm isConstant column param).1.term.param = param ∧
      (schemas.addTerm isConstant column param).1.term ∈
        ((schemas.addTerm isConstant column param).2.schema isConstant).layout := by
  cases isConstant with
  | true =>
      refine ⟨fun isConstant => ?_, fun hspace h isConstant => ?_, rfl, rfl, ?_⟩
      · cases isConstant with
        | true => exact List.prefix_append _ _
        | false => exact List.prefix_rfl
      · cases isConstant with
        | true => exact (h true).addTerm hspace param
        | false => exact h false
      · exact List.mem_append_right _ (List.mem_singleton_self _)
  | false =>
      refine ⟨fun isConstant => ?_, fun hspace h isConstant => ?_, rfl, rfl, ?_⟩
      · cases isConstant with
        | true => exact List.prefix_rfl
        | false => exact List.prefix_append _ _
      · cases isConstant with
        | true => exact h true
        | false => exact (h false).addTerm hspace param
      · exact List.mem_append_right _ (List.mem_singleton_self _)

/-! ## The layout of a tree -/

/-- The first or the second comparand of an atom, with its field. -/
def comparandOf : Predicate V → Bool → Option (QueryField × Parameter V)
  | .comparator _ queryField parameter, _ => some (queryField, parameter)
  | .between queryField parameter1 parameter2, second =>
      some (queryField, if second then parameter2 else parameter1)
  | _, _ => none

/-- Whether the comparand is laid out as a constant. -/
def isConstant (marks : ℕ) : Predicate V → Bool → Bool
  | .comparator _ _ parameter, _ => (markComparator parameter)^[marks] 0 != 0
  | .between _ parameter1 parameter2, second =>
      ((markBetween parameter1 parameter2)^[marks] 0).testBit second.toNat
  | _, _ => false

/-- The bytes of a comparand, given those of every constant and parameter for every column. -/
def bytesOfComparand (columns : List ColumnMetadata) (isConstant : Predicate V → Bool → Bool)
    (bytes : Bool → ColumnMetadata → Parameter V → Option (List UInt8)) (atom : Predicate V)
    (second : Bool) : Option (List UInt8) :=
  (comparandOf atom second).bind fun (queryField, parameter) =>
    (columns[queryField.field.columnNumber]?).bind fun column =>
      bytes (isConstant atom second) column parameter

/-- The number of a field's column in the handler. -/
def numberOf (queryField : QueryField) : ℕ := queryField.field.columnNumber

/-- The schemas `after` hold the terms of comparands, and the regions hold their bytes. -/
def Filled (bytes : Bool → ColumnMetadata → Parameter V → Option (List UInt8))
    (region : Comparand V → Option (List UInt8)) (after : Schemas V) : Prop :=
  ∀ comparand, comparand.term ∈ (after.schema comparand.isConstant).layout →
    region comparand = bytes comparand.isConstant comparand.term.column comparand.term.param

variable {bytes : Bool → ColumnMetadata → Parameter V → Option (List UInt8)}
  {region : Comparand V → Option (List UInt8)}

theorem Filled.mono {before after : Schemas V} (h : Filled bytes region after)
    (hextends : before.Extends after) : Filled bytes region before := fun comparand hmem =>
  h comparand ((hextends comparand.isConstant).subset hmem)

theorem Filled.addTerm {schemas : Schemas V} {isConstant : Bool} {column : ColumnMetadata}
    {param : Parameter V} (h : Filled bytes region (schemas.addTerm isConstant column param).2) :
    region (schemas.addTerm isConstant column param).1 = bytes isConstant column param := by
  obtain ⟨-, -, hconstant, hparam, hmem⟩ := addTerm_spec schemas isConstant column param
  have hregion := h (schemas.addTerm isConstant column param).1 (by rw [hconstant]; exact hmem)
  rw [hregion, hconstant, hparam, addTerm_column]

section
variable {columns : List ColumnMetadata} {marks : ℕ} {schemas after : Schemas V}
  {node : FilterNode V}

/-- What the layout of a comparison does. -/
theorem layoutNode_comparator {comparator : Comparator} {queryField : QueryField}
    {parameter : Parameter V} (h : layoutNode columns marks
      (.comparator comparator queryField parameter) schemas = some (node, after)) :
    ∃ column, columns[queryField.field.columnNumber]? = some column ∧
      node = .cmp comparator (schemas.addTerm (isConstant marks
        (.comparator comparator queryField parameter) false) column parameter).1 ∧
      after = (schemas.addTerm (isConstant marks
        (.comparator comparator queryField parameter) false) column parameter).2 := by
  rw [layoutNode] at h
  obtain ⟨column, hcolumn, h⟩ := Option.bind_eq_some_iff.mp h
  have hresult : (FilterNode.cmp comparator (schemas.addTerm _ column parameter).1,
      (schemas.addTerm _ column parameter).2) = (node, after) := Option.some.inj h
  obtain ⟨rfl, rfl⟩ := Prod.mk.inj hresult
  exact ⟨column, hcolumn, rfl, rfl⟩

/-- What the layout of BETWEEN does. -/
theorem layoutNode_between {queryField : QueryField} {parameter1 parameter2 : Parameter V}
    (h : layoutNode columns marks (.between queryField parameter1 parameter2) schemas =
      some (node, after)) :
    ∃ column first, columns[queryField.field.columnNumber]? = some column ∧
      first = schemas.addTerm (isConstant marks (.between queryField parameter1 parameter2) false)
        column parameter1 ∧
      node = .between first.1 (first.2.addTerm (isConstant marks
        (.between queryField parameter1 parameter2) true) column parameter2).1 ∧
      after = (first.2.addTerm (isConstant marks (.between queryField parameter1 parameter2) true)
        column parameter2).2 := by
  rw [layoutNode] at h
  obtain ⟨column, hcolumn, h⟩ := Option.bind_eq_some_iff.mp h
  have hresult : (FilterNode.between (schemas.addTerm _ column parameter1).1
      ((schemas.addTerm _ column parameter1).2.addTerm _ column parameter2).1,
      ((schemas.addTerm _ column parameter1).2.addTerm _ column parameter2).2) = (node, after) :=
    Option.some.inj h
  obtain ⟨rfl, rfl⟩ := Prod.mk.inj hresult
  exact ⟨column, _, hcolumn, rfl, rfl, rfl⟩

section
variable (hspace : ∀ column ∈ columns, 0 < column.columnSpace)
include hspace

mutual

/-- The schemas grow in a consistent way while a tree is laid out. -/
theorem layoutNode_extends : ∀ (predicate : Predicate V) {schemas after : Schemas V}
    {node : FilterNode V}, layoutNode columns marks predicate schemas = some (node, after) →
      schemas.Extends after ∧ (schemas.Consistent → after.Consistent)
  | .comparator comparator queryField parameter, schemas, after, node, h => by
      obtain ⟨column, hcolumn, -, rfl⟩ := layoutNode_comparator h
      obtain ⟨hextends, hconsistent, -⟩ := addTerm_spec schemas _ column parameter
      exact ⟨hextends, hconsistent (hspace column (List.mem_of_getElem? hcolumn))⟩
  | .between queryField parameter1 parameter2, schemas, after, node, h => by
      obtain ⟨column, first, hcolumn, rfl, -, rfl⟩ := layoutNode_between h
      have hpositive := hspace column (List.mem_of_getElem? hcolumn)
      obtain ⟨hfirst, hconsistent, -⟩ := addTerm_spec schemas _ column parameter1
      obtain ⟨hsecond, hconsistent', -⟩ := addTerm_spec (schemas.addTerm _ column parameter1).2 _
        column parameter2
      exact ⟨hfirst.trans hsecond, fun hstart =>
        hconsistent' hpositive (hconsistent hpositive hstart)⟩
  | .unaryOperator operator queryField, schemas, after, node, h => by
      rw [layoutNode] at h
      obtain ⟨-, rfl⟩ := Prod.mk.inj (Option.some.inj h)
      exact ⟨.refl _, id⟩
  | .not predicate, schemas, after, node, h => by
      rw [layoutNode] at h
      obtain ⟨inner, hinner, h⟩ := Option.bind_eq_some_iff.mp h
      obtain ⟨-, rfl⟩ := Prod.mk.inj (Option.some.inj h)
      exact layoutNode_extends predicate hinner
  | .nary operator first rest, schemas, after, node, h => by
      rw [layoutNode] at h
      obtain ⟨head, hhead, h⟩ := Option.bind_eq_some_iff.mp h
      obtain ⟨tail, htail, h⟩ := Option.bind_eq_some_iff.mp h
      obtain ⟨-, rfl⟩ := Prod.mk.inj (Option.some.inj h)
      obtain ⟨hfirst, hconsistent⟩ := layoutNode_extends first hhead
      obtain ⟨hrest, hconsistent'⟩ := layoutOperands_extends rest htail
      exact ⟨hfirst.trans hrest, fun hstart => hconsistent' (hconsistent hstart)⟩

theorem layoutOperands_extends : ∀ (operands : List (Predicate V)) {schemas after : Schemas V}
    {nodes : List (FilterNode V)},
    layoutOperands columns marks operands schemas = some (nodes, after) →
      schemas.Extends after ∧ (schemas.Consistent → after.Consistent)
  | [], schemas, after, nodes, h => by
      rw [layoutOperands] at h
      obtain ⟨-, rfl⟩ := Prod.mk.inj (Option.some.inj h)
      exact ⟨.refl _, id⟩
  | operand :: operands, schemas, after, nodes, h => by
      rw [layoutOperands] at h
      obtain ⟨head, hhead, h⟩ := Option.bind_eq_some_iff.mp h
      obtain ⟨tail, htail, h⟩ := Option.bind_eq_some_iff.mp h
      obtain ⟨-, rfl⟩ := Prod.mk.inj (Option.some.inj h)
      obtain ⟨hfirst, hconsistent⟩ := layoutNode_extends operand hhead
      obtain ⟨hrest, hconsistent'⟩ := layoutOperands_extends operands htail
      exact ⟨hfirst.trans hrest, fun hstart => hconsistent' (hconsistent hstart)⟩

end

variable (hnumbers : ∀ (number : ℕ) (column : ColumnMetadata),
  columns[number]? = some column → column.columnNumber = number)
include hnumbers

mutual

/-- The node of a predicate stands for the condition of the predicate, with the bytes of the
terms in its regions. -/
theorem condition_layoutNode : ∀ (predicate : Predicate V) {schemas after : Schemas V}
    {node : FilterNode V}, layoutNode columns marks predicate schemas = some (node, after) →
      Filled bytes region after → node.condition region =
        conditionOf numberOf (bytesOfComparand columns (isConstant marks) bytes) predicate
  | .comparator comparator queryField parameter, schemas, after, node, h, hfilled => by
      obtain ⟨column, hcolumn, rfl, rfl⟩ := layoutNode_comparator h
      have hregion := hfilled.addTerm
      simp only [FilterNode.condition, conditionOf, hregion, addTerm_column, bytesOfComparand,
        comparandOf, hcolumn, Option.bind_some, hnumbers _ _ hcolumn]
      rfl
  | .between queryField parameter1 parameter2, schemas, after, node, h, hfilled => by
      obtain ⟨column, first, hcolumn, rfl, rfl, rfl⟩ := layoutNode_between h
      have hhigh := hfilled.addTerm
      have hlow := (hfilled.mono (addTerm_spec _ _ column parameter2).1).addTerm
      simp only [FilterNode.condition, conditionOf, hlow, hhigh, addTerm_column, bytesOfComparand,
        comparandOf, hcolumn, Option.bind_some, hnumbers _ _ hcolumn]
      rfl
  | .unaryOperator operator queryField, schemas, after, node, h, hfilled => by
      rw [layoutNode] at h
      obtain ⟨rfl, rfl⟩ := Prod.mk.inj (Option.some.inj h)
      rfl
  | .not predicate, schemas, after, node, h, hfilled => by
      rw [layoutNode] at h
      obtain ⟨inner, hinner, h⟩ := Option.bind_eq_some_iff.mp h
      obtain ⟨rfl, rfl⟩ := Prod.mk.inj (Option.some.inj h)
      rw [FilterNode.condition, condition_layoutNode predicate hinner hfilled, conditionOf]
  | .nary operator first rest, schemas, after, node, h, hfilled => by
      rw [layoutNode] at h
      obtain ⟨head, hhead, h⟩ := Option.bind_eq_some_iff.mp h
      obtain ⟨tail, htail, h⟩ := Option.bind_eq_some_iff.mp h
      obtain ⟨rfl, rfl⟩ := Prod.mk.inj (Option.some.inj h)
      have hbefore := hfilled.mono (layoutOperands_extends hspace rest htail).1
      rw [FilterNode.condition, conditionsOfNodes, condition_layoutNode first hhead hbefore,
        conditions_layoutOperands rest htail hfilled, conditionOf]

theorem conditions_layoutOperands : ∀ (operands : List (Predicate V)) {schemas after : Schemas V}
    {nodes : List (FilterNode V)},
    layoutOperands columns marks operands schemas = some (nodes, after) →
      Filled bytes region after → conditionsOfNodes region nodes =
        conditionsOf numberOf (bytesOfComparand columns (isConstant marks) bytes) operands
  | [], schemas, after, nodes, h, hfilled => by
      rw [layoutOperands] at h
      obtain ⟨rfl, rfl⟩ := Prod.mk.inj (Option.some.inj h)
      rfl
  | operand :: operands, schemas, after, nodes, h, hfilled => by
      rw [layoutOperands] at h
      obtain ⟨head, hhead, h⟩ := Option.bind_eq_some_iff.mp h
      obtain ⟨tail, htail, h⟩ := Option.bind_eq_some_iff.mp h
      obtain ⟨rfl, rfl⟩ := Prod.mk.inj (Option.some.inj h)
      have hbefore := hfilled.mono (layoutOperands_extends hspace operands htail).1
      rw [conditionsOfNodes, condition_layoutNode operand hhead hbefore,
        conditions_layoutOperands operands htail hfilled, conditionsOf]

end

end

end

end DatabaseJones.NdbOperation
