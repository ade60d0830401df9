import DatabaseJones.Query.Predicate

/-!
# The SQL visitor

`getSQL` of `Query.js` visits a predicate tree and leaves the text of every node
in the `sql` object that the node finds by its prototype chain.  The root gets an
object of its own; all other nodes of one kind share the object of their
prototype, which keeps what the last visited node wrote to it, even from one tree
to the next.
-/

namespace DatabaseJones.Query

/-! ## Literals and constants -/

/-- A literal comparand: a string, or anything else with the text that its
`toString` gives. -/
inductive Literal
  | string (text : List Char)
  | other (text : List Char)
deriving DecidableEq, Repr

/-- `getEscapedValue(literal)`: a string is put between quotes as it is. -/
def getEscapedValue : Parameter Literal → List Char
  | .literal (.string text) => '\'' :: text ++ ['\'']
  | .literal (.other text) => text
  | .parameter _ => "[object Object]".toList

/-- `isQueryParameter(parameter)`. -/
def isQueryParameter {ν : Type*} : Parameter ν → Bool
  | .parameter _ => true
  | .literal _ => false

/-- `ConstMarkerVisitor.visitQueryComparator`, on the `constants` of the node. -/
def markComparator {ν : Type*} (parameter : Parameter ν) (constants : ℕ) : ℕ :=
  if isQueryParameter parameter then constants else 1

/-- `ConstMarkerVisitor.visitQueryBetweenOperator`.  The second parameter is counted
again whenever the tree is marked again. -/
def markBetween {ν : Type*} (parameter1 parameter2 : Parameter ν) (constants : ℕ) : ℕ :=
  let constants := if isQueryParameter parameter1 then constants else 1
  if isQueryParameter parameter2 then constants else constants + 2

/-! ## The visitor -/

/-- The `sql` objects: the one of the root and those on the prototypes. -/
inductive SqlObject
  | root | nary | unary | comparator | operator
deriving DecidableEq, Repr

/-- The object that a node other than the root finds by its prototype chain.
`QueryBetween` inherits from the comparators. -/
def Predicate.sql {ν : Type*} : Predicate ν → SqlObject
  | .comparator .. => .comparator
  | .between .. => .comparator
  | .unaryOperator .. => .operator
  | .not _ => .unary
  | .nary .. => .nary

/-- The texts in the `sql` objects and the parameters collected in the root's. -/
structure SQLVisitor where
  sqlText : SqlObject → List Char
  formalParameters : List (Parameter Literal)

/-- Write the text of a node. -/
def SQLVisitor.setText (visitor : SQLVisitor) (sql : SqlObject) (text : List Char) : SQLVisitor :=
  { visitor with sqlText := Function.update visitor.sqlText sql text }

@[simp] theorem SQLVisitor.sqlText_setText_self (visitor : SQLVisitor) (sql : SqlObject)
    (text : List Char) : (visitor.setText sql text).sqlText sql = text :=
  Function.update_self _ _ _

@[simp] theorem SQLVisitor.sqlText_setText_of_ne (visitor : SQLVisitor) {sql other : SqlObject}
    (hne : other ≠ sql) (text : List Char) :
    (visitor.setText sql text).sqlText other = visitor.sqlText other :=
  Function.update_of_ne hne _ _

@[simp] theorem SQLVisitor.formalParameters_setText (visitor : SQLVisitor) (sql : SqlObject)
    (text : List Char) : (visitor.setText sql text).formalParameters = visitor.formalParameters :=
  rfl

/-- Append the next formal parameter. -/
def SQLVisitor.addParameter (visitor : SQLVisitor) (parameter : Parameter Literal) : SQLVisitor :=
  { visitor with formalParameters := visitor.formalParameters ++ [parameter] }

/-- The text of a comparand, and the visitor afterwards.  `isConstant` is what the
node's `constants` say about it. -/
def SQLVisitor.comparand (visitor : SQLVisitor) (isConstant : Bool)
    (parameter : Parameter Literal) : List Char × SQLVisitor :=
  if isConstant then (getEscapedValue parameter, visitor)
  else (['?'], visitor.addParameter parameter)

/-- The constructor: the root gets an `sql` object of its own. -/
def SQLVisitor.create (texts : SqlObject → List Char) : SQLVisitor :=
  { sqlText := Function.update texts .root "initialized".toList, formalParameters := [] }

def Comparator.comparator : Comparator → List Char
  | .eq => " = ".toList
  | .ne => " != ".toList
  | .lt => " < ".toList
  | .le => " <= ".toList
  | .gt => " > ".toList
  | .ge => " >= ".toList

def UnaryOperator.operator : UnaryOperator → List Char
  | .isNull => " IS NULL".toList
  | .isNotNull => " IS NOT NULL".toList

def NaryOperator.operator : NaryOperator → List Char
  | .and => " AND ".toList
  | .or => " OR ".toList

section
variable (marks : ℕ)

/-- Handle nodes QueryEq, QueryNe, QueryLt, QueryLe, QueryGt, QueryGe.  The tree has
been marked `marks` times. -/
def visitQueryComparator (sql : SqlObject) (comparator : Comparator) (queryField : QueryField)
    (parameter : Parameter Literal) (visitor : SQLVisitor) : SQLVisitor :=
  let constants := (markComparator parameter)^[marks] 0
  let (value, visitor) := visitor.comparand (constants != 0) parameter
  visitor.setText sql
    (queryField.tableAlias ++ queryField.columnName ++ comparator.comparator ++ value)

/-- Handle node QueryBetween. -/
def visitQueryBetweenOperator (sql : SqlObject) (queryField : QueryField)
    (parameter1 parameter2 : Parameter Literal) (visitor : SQLVisitor) : SQLVisitor :=
  let constants := (markBetween parameter1 parameter2)^[marks] 0
  let (leftValue, visitor) := visitor.comparand (constants.testBit 0) parameter1
  let (rightValue, visitor) := visitor.comparand (constants.testBit 1) parameter2
  visitor.setText sql (queryField.tableAlias ++ queryField.field.columnName ++ " BETWEEN ".toList ++
    leftValue ++ " AND ".toList ++ rightValue)

/-- Handle nodes QueryIsNull, QueryIsNotNull. -/
def visitQueryUnaryOperator (sql : SqlObject) (operator : UnaryOperator) (queryField : QueryField)
    (visitor : SQLVisitor) : SQLVisitor :=
  visitor.setText sql (queryField.tableAlias ++ queryField.field.columnName ++ operator.operator)

mutual

/-- Visit a node whose text goes to the object `sql`. -/
def visit (sql : SqlObject) : Predicate Literal → SQLVisitor → SQLVisitor
  | .comparator comparator queryField parameter, visitor =>
      visitQueryComparator marks sql comparator queryField parameter visitor
  | .between queryField parameter1 parameter2, visitor =>
      visitQueryBetweenOperator marks sql queryField parameter1 parameter2 visitor
  | .unaryOperator operator queryField, visitor =>
      visitQueryUnaryOperator sql operator queryField visitor
  | .not predicate, visitor =>
      let visitor := visit predicate.sql predicate visitor
      visitor.setText sql (" NOT ".toList ++ '(' :: visitor.sqlText predicate.sql ++ [')'])
  | .nary operator first rest, visitor =>
      let visitor := visit first.sql first visitor
      visitOperands sql operator rest
        (visitor.setText sql ('(' :: visitor.sqlText first.sql ++ [')']))

/-- The loop over the operands of AND and OR from the second on.  The text so far
stays in the object `sql` while an operand is visited. -/
def visitOperands (sql : SqlObject) (operator : NaryOperator) :
    List (Predicate Literal) → SQLVisitor → SQLVisitor
  | [], visitor => visitor
  | operand :: operands, visitor =>
      let visitor := visitor.setText sql (visitor.sqlText sql ++ operator.operator)
      let visitor := visit operand.sql operand visitor
      visitOperands sql operator operands (visitor.setText sql
        (visitor.sqlText sql ++ '(' :: visitor.sqlText operand.sql ++ [')']))

end

/-- The `sql` object of the root after `getSQL()`. -/
structure Sql where
  sqlText : List Char
  formalParameters : List (Parameter Literal)
deriving DecidableEq, Repr

/-- `getSQL()` on a tree that has been marked `marks` times.  `texts` is what the
`sql` objects hold from earlier visits. -/
def getSQL (texts : SqlObject → List Char) (root : Predicate Literal) : Sql :=
  let visitor := visit marks .root root (.create texts)
  { sqlText := visitor.sqlText .root, formalParameters := visitor.formalParameters }

end

end DatabaseJones.Query
