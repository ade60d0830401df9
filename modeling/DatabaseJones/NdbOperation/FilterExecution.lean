import DatabaseJones.Library.Memory
import DatabaseJones.Library.Run
import DatabaseJones.NdbOperation.ScanFilter

/-!
# Executing a scan filter

A `FilterSpec` encodes its constants when it is made.  If it has no parameters, the filter is
built then, once and for all; otherwise it is built at every execution.  The native filter
reads the calls as a condition, in which `begin` and `end` bracket the members of a group, and
takes the comparand of a `cmp` from its region of a buffer.
-/

namespace DatabaseJones.NdbOperation

open DatabaseJones.Library DatabaseJones.Query

variable {V : Type}

/-! ## Encoding once or at every execution -/

mutual

/-- What `ConstMarkerVisitor` leaves in the `constants` of a node, after `marks` visits. -/
def constantsOf (marks : ℕ) : Predicate V → ℕ
  | .comparator _ _ parameter => (markComparator parameter)^[marks] 0
  | .between _ parameter1 parameter2 => (markBetween parameter1 parameter2)^[marks] 0
  | .unaryOperator _ _ => 1
  | .not predicate => if constantsOf marks predicate = 0 then 0 else 1
  | .nary _ first rest =>
      if constantsOf marks first = 0 ∧ haveConstants marks rest = false then 0 else 1

def haveConstants (marks : ℕ) : List (Predicate V) → Bool
  | [] => false
  | operand :: operands => constantsOf marks operand != 0 || haveConstants marks operands

end

/-- `buildFilter(paramBuffer)`. -/
def FilterSpec.buildFilter (filterSpec : FilterSpec V)
    (constBuffer paramBuffer : Option (List (ℕ × List UInt8))) : FilterCode :=
  { calls := .begin 1 :: filterSpec.node.calls ++ [.finish], constBuffer, paramBuffer }

/-- A `FilterSpec` after `markQuery()`: the buffer of its constants, and the filter if it has
no parameters. -/
structure PreparedFilter (V : Type) where
  filterSpec : FilterSpec V
  constBuffer : Option (List (ℕ × List UInt8))
  constFilter : Option FilterCode

/-- The second half of `markQuery()`; `constants` is that of the root. -/
def FilterSpec.prepare (encoderWrite : Encoder V) (constants : ℕ) (filterSpec : FilterSpec V) :
    PreparedFilter V :=
  if constants = 0 then { filterSpec, constBuffer := none, constFilter := none }
  else
    let constBuffer := filterSpec.schemas.constSchema.encode encoderWrite none
    { filterSpec, constBuffer
      constFilter :=
        if filterSpec.schemas.paramSchema.size = 0 then
          some (filterSpec.buildFilter constBuffer none)
        else none }

/-- `getScanFilterCode(params)`. -/
def PreparedFilter.getScanFilterCode (encoderWrite : Encoder V) (prepared : PreparedFilter V)
    (params : String → JsValue V) : FilterCode :=
  prepared.constFilter.getD <| prepared.filterSpec.buildFilter prepared.constBuffer <|
    prepared.filterSpec.schemas.paramSchema.encode encoderWrite (some params)

/-! ## The native filter -/

/-- A test of a column of the table. -/
inductive AtomicTest
  | compare (comparator : Comparator) (columnNumber : ℕ) (comparand : Option (List UInt8))
  | nullTest (operator : UnaryOperator) (columnNumber : ℕ)
deriving DecidableEq, Repr

/-- The condition that a native filter stands for. -/
inductive ScanCondition
  | test (test : AtomicTest)
  | group (operator : NaryOperator) (members : List ScanCondition)
  | nand (members : List ScanCondition)

/-- A buffer of zeros with what was written to it. -/
def bufferOf (writes : List (ℕ × List UInt8)) : Memory :=
  writes.foldl (fun memory write => writeBytes memory write.1 write.2) fun _ => 0

/-- `layout.constBuffer || this.paramBuffer`. -/
def FilterCode.buffer (code : FilterCode) : BufferName → Option (List (ℕ × List UInt8))
  | .constBuffer => code.constBuffer <|> code.paramBuffer
  | .paramBuffer => code.paramBuffer

/-- The bytes of a region; there are none without a buffer. -/
def FilterCode.region (code : FilterCode) (buffer : BufferName) (offset length : ℕ) :
    Option (List UInt8) :=
  (code.buffer buffer).map fun writes => readBytes (bufferOf writes) offset length

/-- The comparators by their codes. -/
def comparatorOfCode : ℕ → Option Comparator
  | 0 => some .le
  | 1 => some .lt
  | 2 => some .ge
  | 3 => some .gt
  | 4 => some .eq
  | 5 => some .ne
  | _ => none

/-- The groups by their codes: AND, OR and NAND. -/
def closeGroup : ℕ → List ScanCondition → Option ScanCondition
  | 1, members => some (.group .and members)
  | 2, members => some (.group .or members)
  | 3, members => some (.nand members)
  | _, _ => none

/-- The groups that are open, the innermost first, with their members so far. -/
abbrev OpenGroups : Type := List (ℕ × List ScanCondition)

def OpenGroups.add (groups : OpenGroups) (condition : ScanCondition) : Option OpenGroups :=
  match groups with
  | (code, members) :: groups => some ((code, members ++ [condition]) :: groups)
  | [] => none

def FilterCode.step (code : FilterCode) (groups : OpenGroups) : FilterCall → Option OpenGroups
  | .begin group => some ((group, []) :: groups)
  | .cmp condition columnNumber buffer offset length =>
      (comparatorOfCode condition).bind fun comparator =>
        groups.add (.test (.compare comparator columnNumber (code.region buffer offset length)))
  | .isnull columnNumber => groups.add (.test (.nullTest .isNull columnNumber))
  | .isnotnull columnNumber => groups.add (.test (.nullTest .isNotNull columnNumber))
  | .finish =>
      match groups with
      | (group, members) :: groups => (closeGroup group members).bind (OpenGroups.add groups)
      | [] => none

/-- The condition of a well-bracketed filter.  A group without a code holds what is outside of
all others. -/
def FilterCode.condition (code : FilterCode) : Option ScanCondition :=
  match run code.step [(0, [])] code.calls with
  | some [(0, [condition])] => some condition
  | _ => none

mutual

/-- The tests of a condition, in order. -/
def ScanCondition.tests : ScanCondition → List AtomicTest
  | .test test => [test]
  | .group _ members => testsOfMembers members
  | .nand members => testsOfMembers members

def testsOfMembers : List ScanCondition → List AtomicTest
  | [] => []
  | member :: members => member.tests ++ testsOfMembers members

end

/-- The truth of a group without members. -/
def emptyGroup : NaryOperator → Option Bool
  | .and => some true
  | .or => some false

mutual

/-- The truth value of a condition. -/
def ScanCondition.eval (truth : AtomicTest → Option Bool) : ScanCondition → Option Bool
  | .test test => truth test
  | .group operator members => evalMembers truth operator (emptyGroup operator) members
  | .nand members => truthNot (evalMembers truth .and (some true) members)

def evalMembers (truth : AtomicTest → Option Bool) (operator : NaryOperator)
    (value : Option Bool) : List ScanCondition → Option Bool
  | [] => value
  | member :: members =>
      evalMembers truth operator (operator.apply value (member.eval truth)) members

end

end DatabaseJones.NdbOperation
