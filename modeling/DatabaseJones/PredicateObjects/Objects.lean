import DatabaseJones.Query.QueryHandler

/-!
# Predicate objects

The predicates of `Query.js` are objects that refer to each other: a predicate can be an
operand of many others.  `and()` of an AND and `or()` of an OR append to the receiver, all
other functions of the API make new objects.  The visitors write what they find into the
objects: `constants`, the column masks, the `sql` object with the text, and the note `ndb`
with the layout of the parameters for a scan filter.
-/

namespace DatabaseJones.PredicateObjects

open DatabaseJones.Query DatabaseJones.TableHandler

/-! ## Objects and their trees -/

/-- A predicate object without what the visitors write.  Other objects are given by their
numbers, in the order in which they were made. -/
inductive PredicateObject
  | comparator (comparator : Comparator) (queryField : QueryField) (parameter : Parameter Literal)
  | between (queryField : QueryField) (parameter1 parameter2 : Parameter Literal)
  | unaryOperator (operator : UnaryOperator) (queryField : QueryField)
  | not (predicate : ℕ)
  | nary (operator : NaryOperator) (first : ℕ) (rest : List ℕ)
deriving DecidableEq, Repr

/-- `predicates` of an object. -/
def PredicateObject.predicates : PredicateObject → List ℕ
  | .not predicate => [predicate]
  | .nary _ first rest => first :: rest
  | _ => []

/-- `constants` of the prototype: the null tests are treated as constants. -/
def PredicateObject.constants : PredicateObject → ℕ
  | .unaryOperator .. => 1
  | _ => 0

/-- The predicate below an object, with the number of each node. -/
inductive Tree
  | comparator (id : ℕ) (comparator : Comparator) (queryField : QueryField)
      (parameter : Parameter Literal)
  | between (id : ℕ) (queryField : QueryField) (parameter1 parameter2 : Parameter Literal)
  | unaryOperator (id : ℕ) (operator : UnaryOperator) (queryField : QueryField)
  | not (id : ℕ) (predicate : Tree)
  | nary (id : ℕ) (operator : NaryOperator) (first : Tree) (rest : List Tree)

/-- The number of the root. -/
def Tree.id : Tree → ℕ
  | .comparator id .. => id
  | .between id .. => id
  | .unaryOperator id .. => id
  | .not id _ => id
  | .nary id .. => id

/-- Follow the references of an object, to the depth `fuel`. -/
def tree? (objects : List PredicateObject) : ℕ → ℕ → Option Tree
  | 0, _ => none
  | fuel + 1, id =>
      match objects[id]? with
      | none => none
      | some (.comparator comparator queryField parameter) =>
          some (.comparator id comparator queryField parameter)
      | some (.between queryField parameter1 parameter2) =>
          some (.between id queryField parameter1 parameter2)
      | some (.unaryOperator operator queryField) => some (.unaryOperator id operator queryField)
      | some (.not predicate) => (tree? objects fuel predicate).map (.not id)
      | some (.nary operator first rest) =>
          (tree? objects fuel first).bind fun first =>
            (rest.mapM (tree? objects fuel)).map (.nary id operator first)

/-- The tree of an object.  There is none if the references go in a circle; the visitors do
not come back then. -/
def treeOf (objects : List PredicateObject) (id : ℕ) : Option Tree :=
  tree? objects objects.length id

mutual

/-- The predicate that a tree stands for. -/
def Tree.predicate : Tree → Predicate Literal
  | .comparator _ comparator queryField parameter => .comparator comparator queryField parameter
  | .between _ queryField parameter1 parameter2 => .between queryField parameter1 parameter2
  | .unaryOperator _ operator queryField => .unaryOperator operator queryField
  | .not _ operand => .not operand.predicate
  | .nary _ operator first rest => .nary operator first.predicate (predicatesOf rest)

def predicatesOf : List Tree → List (Predicate Literal)
  | [] => []
  | operand :: operands => operand.predicate :: predicatesOf operands

end

mutual

/-- The nodes of a tree, each as the tree below it. -/
def Tree.subtrees : Tree → List Tree
  | .not id operand => .not id operand :: operand.subtrees
  | .nary id operator first rest =>
      .nary id operator first rest :: (first.subtrees ++ subtreesOf rest)
  | leaf => [leaf]

def subtreesOf : List Tree → List Tree
  | [] => []
  | operand :: operands => operand.subtrees ++ subtreesOf operands

end

/-- The numbers of the nodes. -/
def Tree.ids (tree : Tree) : List ℕ := tree.subtrees.map Tree.id

/-! ## Marking constants -/

/-- An AND, OR or NOT has a constant if one of its operands has. -/
def markConstantOperand (id operand : ℕ) (constants : ℕ → ℕ) : ℕ → ℕ :=
  if constants operand ≠ 0 then Function.update constants id 1 else constants

mutual

/-- `ConstMarkerVisitor`, on the `constants` of all objects. -/
def markConstants : Tree → (ℕ → ℕ) → ℕ → ℕ
  | .comparator id _ _ parameter, constants =>
      Function.update constants id (markComparator parameter (constants id))
  | .between id _ parameter1 parameter2, constants =>
      Function.update constants id (markBetween parameter1 parameter2 (constants id))
  | .unaryOperator .., constants => constants
  | .not id operand, constants =>
      markConstantOperand id operand.id (markConstants operand constants)
  | .nary id _ first rest, constants =>
      markConstantOperands id rest (markConstantOperand id first.id (markConstants first constants))

def markConstantOperands (id : ℕ) : List Tree → (ℕ → ℕ) → ℕ → ℕ
  | [], constants => constants
  | operand :: operands, constants =>
      markConstantOperands id operands
        (markConstantOperand id operand.id (markConstants operand constants))

end

/-! ## Marking columns -/

/-- The masks that the objects have. -/
abbrev Masks := ℕ → Option PredicateMasks

/-- `markUsed(node)`. -/
def markUsed (queryField : QueryField) : PredicateMasks :=
  { usedColumnMask := BitMask.new.set queryField.field.columnNumber
    equalColumnMask := BitMask.new }

/-- The masks of a comparator; those of an equality have its column in both. -/
def comparatorMasks (comparator : Comparator) (queryField : QueryField) : PredicateMasks :=
  match comparator with
  | .eq => { markUsed queryField with
      equalColumnMask := BitMask.new.set queryField.field.columnNumber }
  | _ => markUsed queryField

/-- The masks of a NOT, which shares one mask with its operand. -/
def notMasks (operand : PredicateMasks) : PredicateMasks :=
  { usedColumnMask := operand.usedColumnMask, equalColumnMask := BitMask.new }

/-- The masks that an AND or OR begins with. -/
def noMasks : PredicateMasks :=
  { usedColumnMask := BitMask.new, equalColumnMask := BitMask.new }

/-- Add the masks of an operand to those of an AND or OR. -/
def orWithOperand (masks operand : PredicateMasks) : PredicateMasks :=
  { usedColumnMask := masks.usedColumnMask.orWith operand.usedColumnMask
    equalColumnMask := if MaskMarkerVisitor.operationCode = some 1 then
      masks.equalColumnMask.orWith operand.equalColumnMask else masks.equalColumnMask }

/-- The same on the objects. -/
def markOperand (id operand : ℕ) (masks : Masks) : Masks :=
  Function.update masks id ((masks id).bind fun own => (masks operand).map (orWithOperand own))

mutual

/-- `MaskMarkerVisitor`, on the masks of all objects. -/
def markMasks : Tree → Masks → Masks
  | .comparator id comparator queryField _, masks =>
      Function.update masks id (some (comparatorMasks comparator queryField))
  | .between id queryField _ _, masks => Function.update masks id (some (markUsed queryField))
  | .unaryOperator id _ queryField, masks => Function.update masks id (some (markUsed queryField))
  | .not id operand, masks =>
      let masks := markMasks operand masks
      Function.update masks id ((masks operand.id).map notMasks)
  | .nary id _ first rest, masks =>
      markOperands id rest
        (markOperand id first.id (markMasks first (Function.update masks id (some noMasks))))

def markOperands (id : ℕ) : List Tree → Masks → Masks
  | [], masks => masks
  | operand :: operands, masks =>
      markOperands id operands (markOperand id operand.id (markMasks operand masks))

end

/-! ## Generating SQL -/

/-- The `sql` object of a node: its own one, which it gets by `getSQL()`, or the one of a
prototype. -/
inductive SqlRef
  | own (id : ℕ)
  | shared (sql : SqlObject)
deriving DecidableEq, Repr

/-- The texts in all `sql` objects, and the parameters collected in the root's. -/
structure SqlObjects where
  sqlText : SqlRef → List Char
  formalParameters : List (Parameter Literal)

/-- Write the text of a node. -/
def SqlObjects.setText (sqls : SqlObjects) (sql : SqlRef) (text : List Char) : SqlObjects :=
  { sqls with sqlText := Function.update sqls.sqlText sql text }

/-- The text of a comparand, with the formal parameters after it. -/
def comparandText (isConstant : Bool) (parameter : Parameter Literal)
    (formalParameters : List (Parameter Literal)) : List Char × List (Parameter Literal) :=
  if isConstant then (getEscapedValue parameter, formalParameters)
  else (['?'], formalParameters ++ [parameter])

section
variable (constants : ℕ → ℕ) (hasSql : ℕ → Bool)

/-- `node.sql`, by the prototype chain. -/
def Tree.sql (tree : Tree) : SqlRef :=
  if hasSql tree.id then .own tree.id else .shared tree.predicate.sql

/-- Handle nodes QueryEq, QueryNe, QueryLt, QueryLe, QueryGt, QueryGe. -/
def writeComparator (sql : SqlRef) (constants : ℕ) (comparator : Comparator)
    (queryField : QueryField) (parameter : Parameter Literal) (sqls : SqlObjects) : SqlObjects :=
  let (value, formalParameters) := comparandText (constants != 0) parameter sqls.formalParameters
  { sqls with formalParameters }.setText sql
    (queryField.tableAlias ++ queryField.columnName ++ comparator.comparator ++ value)

/-- Handle node QueryBetween. -/
def writeBetween (sql : SqlRef) (constants : ℕ) (queryField : QueryField)
    (parameter1 parameter2 : Parameter Literal) (sqls : SqlObjects) : SqlObjects :=
  let (leftValue, formalParameters) :=
    comparandText (constants.testBit 0) parameter1 sqls.formalParameters
  let (rightValue, formalParameters) :=
    comparandText (constants.testBit 1) parameter2 formalParameters
  { sqls with formalParameters }.setText sql
    (queryField.tableAlias ++ queryField.field.columnName ++ " BETWEEN ".toList ++
      leftValue ++ " AND ".toList ++ rightValue)

/-- Handle nodes QueryIsNull, QueryIsNotNull. -/
def writeUnaryOperator (sql : SqlRef) (operator : UnaryOperator) (queryField : QueryField)
    (sqls : SqlObjects) : SqlObjects :=
  sqls.setText sql (queryField.tableAlias ++ queryField.field.columnName ++ operator.operator)

/-- Put the text of the operand, in parentheses, after what the text begins with. -/
def SqlObjects.enclose (sqls : SqlObjects) (sql : SqlRef) (before : List Char) (operand : SqlRef) :
    SqlObjects :=
  sqls.setText sql (before ++ '(' :: sqls.sqlText operand ++ [')'])

mutual

/-- `SQLVisitor`, on all `sql` objects. -/
def writeSql : Tree → SqlObjects → SqlObjects
  | .comparator id comparator queryField parameter, sqls =>
      writeComparator ((Tree.comparator id comparator queryField parameter).sql hasSql)
        (constants id) comparator queryField parameter sqls
  | .between id queryField parameter1 parameter2, sqls =>
      writeBetween ((Tree.between id queryField parameter1 parameter2).sql hasSql) (constants id)
        queryField parameter1 parameter2 sqls
  | .unaryOperator id operator queryField, sqls =>
      writeUnaryOperator ((Tree.unaryOperator id operator queryField).sql hasSql) operator
        queryField sqls
  | .not id operand, sqls =>
      (writeSql operand sqls).enclose ((Tree.not id operand).sql hasSql) " NOT ".toList
        (operand.sql hasSql)
  | .nary id operator first rest, sqls =>
      let sql := (Tree.nary id operator first rest).sql hasSql
      writeOperands sql operator rest ((writeSql first sqls).enclose sql [] (first.sql hasSql))

/-- The loop over the operands of AND and OR from the second on.  The text so far stays in
the object `sql` while an operand is visited. -/
def writeOperands (sql : SqlRef) (operator : NaryOperator) : List Tree → SqlObjects → SqlObjects
  | [], sqls => sqls
  | operand :: operands, sqls =>
      let sqls := sqls.setText sql (sqls.sqlText sql ++ operator.operator)
      let sqls := writeSql operand sqls
      writeOperands sql operator operands
        (sqls.enclose sql (sqls.sqlText sql) (operand.sql hasSql))

end

/-- The constructor of `SQLVisitor` gives the root an `sql` object of its own; then the tree
is visited. -/
def generateSql (tree : Tree) (sqlText : SqlRef → List Char) : SqlObjects :=
  writeSql constants (Function.update hasSql tree.id true) tree
    { sqlText := Function.update sqlText (.own tree.id) "initialized".toList
      formalParameters := [] }

end

/-! ## Preparing a scan filter -/

/-- What the filter compares a column with: the constant in the buffer of its term, or the
bytes at an offset of the buffer with the parameters. -/
inductive Source
  | constBuffer (param : Parameter Literal)
  | paramBuffer (offset : ℕ)
deriving DecidableEq, Repr

/-- The notes in `node.ndb`, as the sources in their layout.  The operation code and the
column in a note are those of the node itself. -/
abbrev Notes := ℕ → Option (List Source)

/-- The size of the parameters' buffer so far, with the notes. -/
structure Layout where
  size : ℕ
  notes : Notes

/-- `addTerm(column, param)`, on the schema that the mark of the comparand selects. -/
def addTerm (columnSpace : ℕ → ℕ) (isConstant : Bool) (columnNumber : ℕ)
    (param : Parameter Literal) (size : ℕ) : Source × ℕ :=
  if isConstant then (.constBuffer param, size)
  else (.paramBuffer size, size + columnSpace columnNumber)

/-- `markNode(node)`, with the layout that the node gets afterwards. -/
def Layout.markNode (layout : Layout) (id size : ℕ) (sources : List Source) : Layout :=
  { size, notes := Function.update layout.notes id (some sources) }

section
variable (constants : ℕ → ℕ) (columnSpace : ℕ → ℕ)

mutual

/-- `BufferManagerVisitor`. -/
def layOut : Tree → Layout → Layout
  | .comparator id _ queryField parameter, layout =>
      let (term, size) := addTerm columnSpace (constants id != 0) queryField.field.columnNumber
        parameter layout.size
      layout.markNode id size [term]
  | .between id queryField parameter1 parameter2, layout =>
      let (spec1, size) := addTerm columnSpace ((constants id).testBit 0)
        queryField.field.columnNumber parameter1 layout.size
      let (spec2, size) := addTerm columnSpace ((constants id).testBit 1)
        queryField.field.columnNumber parameter2 size
      layout.markNode id size [spec1, spec2]
  | .unaryOperator id _ _, layout => layout.markNode id layout.size []
  | .not id operand, layout => layOut operand (layout.markNode id layout.size [])
  | .nary id _ first rest, layout =>
      layOutOperands rest (layOut first (layout.markNode id layout.size []))

def layOutOperands : List Tree → Layout → Layout
  | [], layout => layout
  | operand :: operands, layout => layOutOperands operands (layOut operand layout)

end

/-- The notes for one filter. -/
def notesOf (tree : Tree) : Notes :=
  (layOut constants columnSpace tree { size := 0, notes := fun _ => none }).notes

end

/-- A `FilterSpec` with its predicate and the space of the columns of its table. -/
structure FilterSpec where
  predicate : ℕ
  columnSpace : ℕ → ℕ

/-! ## The operations -/

/-- All predicate objects, with what the visitors wrote. -/
structure Objects where
  objects : List PredicateObject
  constants : ℕ → ℕ
  masks : Masks
  hasSql : ℕ → Bool
  sqlText : SqlRef → List Char
  notes : Notes
  filterSpecs : List FilterSpec

/-- Before any predicate is made. -/
def Objects.empty : Objects :=
  { objects := [], constants := fun _ => 0, masks := fun _ => none, hasSql := fun _ => false
    sqlText := fun _ => [], notes := fun _ => none, filterSpecs := [] }

/-- Make an object; it finds `constants` in its prototype. -/
def Objects.create (state : Objects) (object : PredicateObject) : Objects :=
  let id := state.objects.length
  { state with
    objects := state.objects ++ [object]
    constants := Function.update state.constants id object.constants
    masks := Function.update state.masks id none
    hasSql := Function.update state.hasSql id false
    notes := Function.update state.notes id none }

/-- `predicates.push(predicate)` on the object `receiver`. -/
def Objects.push (state : Objects) (receiver predicate : ℕ) : Objects :=
  { state with
    objects := state.objects.modify receiver fun object =>
      match object with
      | .nary operator first rest => .nary operator first (rest ++ [predicate])
      | object => object }

/-- The object is an AND, or an OR. -/
def PredicateObject.isNary (object : PredicateObject) (operator : NaryOperator) : Bool :=
  match object with
  | .nary own _ _ => own = operator
  | _ => false

/-- `and(predicate)` or `or(predicate)` of the object `receiver`. -/
def Objects.combine (state : Objects) (operator : NaryOperator) (receiver predicate : ℕ) : Objects :=
  if (state.objects[receiver]?).any (·.isNary operator) then state.push receiver predicate
  else state.create (.nary operator receiver [predicate])

/-- `andNot(predicate)` or `orNot(predicate)`, which no predicate overrides. -/
def Objects.combineNot (state : Objects) (operator : NaryOperator) (receiver predicate : ℕ) :
    Objects :=
  (state.create (.not predicate)).create (.nary operator receiver [state.objects.length])

/-- The visits by the constructor of `QueryHandler`. -/
def Objects.mark (state : Objects) (tree : Tree) : Objects :=
  { state with
    constants := markConstants tree state.constants
    masks := markMasks tree state.masks }

/-- `getSQL()`, on the objects. -/
def Objects.writeSql (state : Objects) (tree : Tree) : Objects :=
  { state with
    hasSql := Function.update state.hasSql tree.id true
    sqlText := (generateSql state.constants state.hasSql tree state.sqlText).sqlText }

/-- The constructor of `FilterSpec`. -/
def Objects.prepareFilterSpec (state : Objects) (tree : Tree) (columnSpace : ℕ → ℕ) : Objects :=
  { state with
    notes := (layOut state.constants columnSpace tree { size := 0, notes := state.notes }).notes
    filterSpecs := state.filterSpecs ++ [{ predicate := tree.id, columnSpace }] }

/-- What can be done with predicates. -/
inductive Operation
  | comparator (comparator : Comparator) (queryField : QueryField) (parameter : Parameter Literal)
  | between (queryField : QueryField) (parameter1 parameter2 : Parameter Literal)
  | unaryOperator (operator : UnaryOperator) (queryField : QueryField)
  | combine (operator : NaryOperator) (receiver predicate : ℕ)
  | combineNot (operator : NaryOperator) (receiver predicate : ℕ)
  | not (predicate : ℕ)
  | where (predicate : ℕ)
  | getSQL (predicate : ℕ)
  | prepareFilterSpec (predicate : ℕ) (columnSpace : ℕ → ℕ)

/-- One operation.  It needs objects that exist; a filter is prepared for a predicate that a
query handler has marked. -/
def step (state : Objects) : Operation → Option Objects
  | .comparator comparator queryField parameter =>
      some (state.create (.comparator comparator queryField parameter))
  | .between queryField parameter1 parameter2 =>
      some (state.create (.between queryField parameter1 parameter2))
  | .unaryOperator operator queryField => some (state.create (.unaryOperator operator queryField))
  | .combine operator receiver predicate =>
      if receiver < state.objects.length ∧ predicate < state.objects.length then
        some (state.combine operator receiver predicate)
      else none
  | .combineNot operator receiver predicate =>
      if receiver < state.objects.length ∧ predicate < state.objects.length then
        some (state.combineNot operator receiver predicate)
      else none
  | .not predicate =>
      if predicate < state.objects.length then some (state.create (.not predicate)) else none
  | .where predicate => (treeOf state.objects predicate).map state.mark
  | .getSQL predicate => (treeOf state.objects predicate).map state.writeSql
  | .prepareFilterSpec predicate columnSpace =>
      if (state.masks predicate).isSome then
        (treeOf state.objects predicate).map fun tree => state.prepareFilterSpec tree columnSpace
      else none

end DatabaseJones.PredicateObjects
