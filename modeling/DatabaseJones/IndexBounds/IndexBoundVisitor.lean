import DatabaseJones.Query.Predicate
import DatabaseJones.IndexBounds.NumberLine

/-!
# Predicate nodes with their bounds

A predicate node together with what the visitors of `IndexBounds.js` store in it:
`columnBound`, a bound for each column that is used below the node, and
`indexRange`, a number line of index values.  Both stay in the node from one
execution of the query to the next.
-/

namespace DatabaseJones.IndexBounds

open DatabaseJones.Query

/-- The properties that the visitors store in a node.  Comparisons and null tests get no
`indexRange`. -/
structure NodeBounds where
  columnBound : ℕ → Option Bound
  indexRange : Option ℕ

/-- No properties. -/
def NodeBounds.none : NodeBounds := { columnBound := fun _ => Option.none, indexRange := Option.none }

/-- A predicate node; literals and parameters are values or NULL. -/
inductive QueryNode (α : Type)
  | comparator (bounds : NodeBounds) (comparator : Comparator) (queryField : QueryField)
      (parameter : Parameter (Option α))
  | between (bounds : NodeBounds) (queryField : QueryField)
      (parameter1 parameter2 : Parameter (Option α))
  | unaryOperator (bounds : NodeBounds) (operator : UnaryOperator) (queryField : QueryField)
  | not (bounds : NodeBounds) (predicate : QueryNode α)
  | nary (bounds : NodeBounds) (operator : NaryOperator) (first : QueryNode α)
      (rest : List (QueryNode α))

variable {α : Type}

def QueryNode.bounds : QueryNode α → NodeBounds
  | .comparator bounds .. => bounds
  | .between bounds .. => bounds
  | .unaryOperator bounds .. => bounds
  | .not bounds _ => bounds
  | .nary bounds .. => bounds

mutual

/-- The predicate tree without the bounds. -/
def QueryNode.predicate : QueryNode α → Predicate (Option α)
  | .comparator _ comparator queryField parameter => .comparator comparator queryField parameter
  | .between _ queryField parameter1 parameter2 => .between queryField parameter1 parameter2
  | .unaryOperator _ operator queryField => .unaryOperator operator queryField
  | .not _ predicate => .not predicate.predicate
  | .nary _ operator first rest => .nary operator first.predicate (predicatesOf rest)

def predicatesOf : List (QueryNode α) → List (Predicate (Option α))
  | [] => []
  | node :: nodes => node.predicate :: predicatesOf nodes

end

mutual

/-- A freshly built tree. -/
def QueryNode.fresh : Predicate (Option α) → QueryNode α
  | .comparator comparator queryField parameter => .comparator .none comparator queryField parameter
  | .between queryField parameter1 parameter2 => .between .none queryField parameter1 parameter2
  | .unaryOperator operator queryField => .unaryOperator .none operator queryField
  | .not predicate => .not .none (QueryNode.fresh predicate)
  | .nary operator first rest => .nary .none operator (QueryNode.fresh first) (freshNodes rest)

def freshNodes : List (Predicate (Option α)) → List (QueryNode α)
  | [] => []
  | predicate :: predicates => .fresh predicate :: freshNodes predicates

end

/-- The value of a comparand: a literal, or a parameter of the execution. -/
def actual (params : String → Option α) : Parameter (Option α) → Option α
  | .parameter name => params name
  | .literal value => value

end DatabaseJones.IndexBounds

/-!
## The column bound visitor

Given the actual parameters, `ColumnBoundVisitor` stores a segment in every
comparison and null test, and in AND, OR and NOT the intersection, union or
complement of the lines of the nodes below, column by column.
-/

namespace DatabaseJones.IndexBounds

open DatabaseJones.Query

variable {α : Type} [LinearOrder α]

/-- `evaluateNodeForColumn(node, columnNumber)`. -/
def evaluateNodeForColumn (node : QueryNode α) (columnNumber : ℕ) (heap : Heap α) :
    Option (Bound × Heap α) :=
  match node.bounds.columnBound columnNumber with
  | some bound => some (bound, heap)
  | none => heap.unboundedSegment.map fun (segment, heap) => (.segment segment, heap)

/-- The lines of several nodes for one column. -/
def linesForColumn (columnNumber : ℕ) : List (QueryNode α) → Heap α → Option (List ℕ × Heap α)
  | [], heap => some ([], heap)
  | node :: nodes, heap => do
      let (bound, heap) ← evaluateNodeForColumn node columnNumber heap
      let (line, heap) := heap.toNumberLine bound
      let (lines, heap) ← linesForColumn columnNumber nodes heap
      some (line :: lines, heap)

/-- `intersectionForColumn` and `unionForColumn`. -/
def naryForColumn (operator : NaryOperator) (predicates : List (QueryNode α)) (columnNumber : ℕ)
    (heap : Heap α) : Option (ℕ × Heap α) := do
  let (lines, heap) ← linesForColumn columnNumber predicates heap
  match operator with
  | .and => heap.intersection lines
  | .or => heap.union lines

/-- The `columnBound` of AND or OR, for the given columns. -/
def naryColumnBound (operator : NaryOperator) (predicates : List (QueryNode α)) :
    List ℕ → Heap α → Option ((ℕ → Option Bound) × Heap α)
  | [], heap => some (fun _ => none, heap)
  | column :: columns, heap => do
      let (line, heap) ← naryForColumn operator predicates column heap
      let (columnBound, heap) ← naryColumnBound operator predicates columns heap
      some (Function.update columnBound column (some (.line line)), heap)

/-- The `columnBound` of NOT, for the given columns.  The lines of the operand are
complemented in place. -/
def notColumnBound (predicate : QueryNode α) :
    List ℕ → Heap α → Option ((ℕ → Option Bound) × Heap α)
  | [], heap => some (fun _ => none, heap)
  | column :: columns, heap => do
      let bound ← predicate.bounds.columnBound column
      let (line, heap) := heap.toNumberLine bound
      let heap ← heap.complement line
      let (columnBound, heap) ← notColumnBound predicate columns heap
      some (Function.update columnBound column (some (.line line)), heap)

/-- `store(node, segment)`. -/
def NodeBounds.store (bounds : NodeBounds) (queryField : QueryField) (bound : Bound) :
    NodeBounds :=
  { bounds with columnBound := Function.update (fun _ => Option.none) queryField.field.columnNumber (some bound) }

/-- The segment of a null test. -/
def segmentForUnaryOperator (operator : UnaryOperator) (heap : Heap α) :
    Option (Segment × Heap α) :=
  match operator with
  | .isNull => heap.segmentBetween nullInc nullInc
  | .isNotNull => heap.segmentBetween nullExc posInf

variable (params : String → Option α)

mutual

/-- `node.visit(new ColumnBoundVisitor(params))`.  The columns of a mask are taken from
the end of its array. -/
def visitColumns : QueryNode α → Heap α → Option (QueryNode α × Heap α)
  | .comparator bounds comparator queryField parameter, heap => do
      let (bound, heap) ← heap.createSegmentForComparator comparator
        (.ofColumn (actual params parameter))
      some (.comparator (bounds.store queryField bound) comparator queryField parameter, heap)
  | .between bounds queryField parameter1 parameter2, heap => do
      let (segment, heap) ← heap.createSegmentBetween (.ofColumn (actual params parameter1))
        (.ofColumn (actual params parameter2))
      some (.between (bounds.store queryField (.segment segment)) queryField parameter1 parameter2,
        heap)
  | .unaryOperator bounds operator queryField, heap => do
      let (segment, heap) ← segmentForUnaryOperator operator heap
      some (.unaryOperator (bounds.store queryField (.segment segment)) operator queryField, heap)
  | .not bounds predicate, heap => do
      let (predicate, heap) ← visitColumns predicate heap
      let (columnBound, heap) ← notColumnBound predicate
        predicate.predicate.usedColumnMask.toArray.reverse heap
      some (.not { bounds with columnBound := columnBound } predicate, heap)
  | .nary bounds operator first rest, heap => do
      let (first, heap) ← visitColumns first heap
      let (rest, heap) ← visitOperandColumns rest heap
      let usedColumnMask :=
        (Predicate.nary operator first.predicate (predicatesOf rest)).usedColumnMask
      let (columnBound, heap) ← naryColumnBound operator (first :: rest)
        usedColumnMask.toArray.reverse heap
      some (.nary { bounds with columnBound := columnBound } operator first rest, heap)

/-- Visit the operands of AND or OR from the second on. -/
def visitOperandColumns : List (QueryNode α) → Heap α → Option (List (QueryNode α) × Heap α)
  | [], heap => some ([], heap)
  | node :: nodes, heap => do
      let (node, heap) ← visitColumns node heap
      let (nodes, heap) ← visitOperandColumns nodes heap
      some (node :: nodes, heap)

end

end DatabaseJones.IndexBounds

/-!
## The index bound visitor

`IndexBoundVisitor` turns the column bounds of a tree into ranges of index values:
AND consolidates the bounds of the columns of the index, OR forms the union of the
ranges of its operands, and NOT complements the range of its operand if it has one.
-/

namespace DatabaseJones.IndexBounds

open DatabaseJones.Query

variable {α : Type} [LinearOrder α]

/-- `evaluateNodeForIndex(node, firstIndexColumn)`. -/
def evaluateNodeForIndex (node : QueryNode α) (firstIndexColumn : ℕ) (heap : Heap α) :
    Option (Bound × Heap α) :=
  match node.bounds.indexRange with
  | some line => some (.line line, heap)
  | none => do
      let (bound, heap) ← evaluateNodeForColumn node firstIndexColumn heap
      heap.toIndexValues bound

/-! ## Consolidation -/

/-- The flags of a consolidator: whether the low and the high end go on. -/
structure Flags where
  doLow : Bool
  doHigh : Bool
deriving DecidableEq, Repr

/-- Push an endpoint onto a partial one, and say whether the partial one goes on. -/
def pushPart (doPush : Bool) (partialPoint point : ℕ) (heap : Heap α) : Bool × Heap α :=
  if doPush then
    let endpoint := heap.endpoints point
    (endpoint.inclusive && endpoint.value.isFinite,
      heap.modifyEndpoint partialPoint fun partialEndpoint => partialEndpoint.push endpoint)
  else (false, heap)

/-- `consolidate(partialBounds, doLow, doHigh)` of the first of a chain of consolidators,
given by the column bounds of the parts of the index.  The flags that one segment
leaves are those that the next segment starts with.  A part without a bound is an
exception here; `skip` keeps the parts after the first from it. -/
def consolidateParts (allBounds : ℕ) :
    List (Option Bound) → Segment → Flags → Heap α → Option (Heap α)
  | [], _, _, _ => none
  | none :: _, _, _, _ => none
  | some columnBounds :: nextColumns, partialBounds, flags, heap => do
      let (line, heap) := heap.toNumberLine columnBounds
      let next := match nextColumns with
        | some _ :: _ => some (consolidateParts allBounds nextColumns)
        | _ => none
      let (_, heap) ← forSegments (fun segment (flags, heap) => do
        let (idxBounds, heap) ← heap.copySegment partialBounds
        let (doLow, heap) := pushPart flags.doLow idxBounds.low segment.low heap
        let (doHigh, heap) := pushPart flags.doHigh idxBounds.high segment.high heap
        let heap ← match next with
          | some consolidateNext =>
              if doLow || doHigh then consolidateNext idxBounds ⟨doLow, doHigh⟩ heap
              else heap.insertSegment allBounds idxBounds
          | none => heap.insertSegment allBounds idxBounds
        some (⟨doLow, doHigh⟩, heap)) (heap.lines line) (flags, heap)
      some heap

/-- `consolidate(node)`, for a node without an `indexRange`.  The global
`initialIndexBounds` is only ever copied, so it is made here. -/
def consolidate (columnNumbers : List ℕ) (columnBound : ℕ → Option Bound) (heap : Heap α) :
    Option (ℕ × Heap α) := do
  let (allBounds, heap) := heap.addLine []
  let (initialIndexBounds, heap) ← heap.segmentBetween
    { value := .index [], inclusive := true, isLow := none }
    { value := .index [], inclusive := true, isLow := none }
  let heap ← consolidateParts allBounds (columnNumbers.map columnBound) initialIndexBounds
    ⟨true, true⟩ heap
  some (allBounds, heap)

/-! ## The visitor -/

/-- The lines of several nodes for the index. -/
def linesForIndex (firstIndexColumn : ℕ) : List (QueryNode α) → Heap α → Option (List ℕ × Heap α)
  | [], heap => some ([], heap)
  | node :: nodes, heap => do
      let (bound, heap) ← evaluateNodeForIndex node firstIndexColumn heap
      let (line, heap) := heap.toNumberLine bound
      let (lines, heap) ← linesForIndex firstIndexColumn nodes heap
      some (line :: lines, heap)

variable (firstColumnNumber : ℕ) (otherColumnNumbers : List ℕ)

mutual

/-- `node.visit(new IndexBoundVisitor(queryHandler, dbIndex))`, for an index on the given
columns.  It does nothing at comparisons and null tests. -/
def visitIndex : QueryNode α → Heap α → Option (QueryNode α × Heap α)
  | .comparator bounds comparator queryField parameter, heap =>
      some (.comparator bounds comparator queryField parameter, heap)
  | .between bounds queryField parameter1 parameter2, heap =>
      some (.between bounds queryField parameter1 parameter2, heap)
  | .unaryOperator bounds operator queryField, heap =>
      some (.unaryOperator bounds operator queryField, heap)
  | .not bounds predicate, heap => do
      let (predicate, heap) ← visitIndex predicate heap
      match predicate.bounds.indexRange with
      | some line => do
          let heap ← heap.complement line
          some (.not { bounds with indexRange := some line } predicate, heap)
      | none => some (.not bounds predicate, heap)
  | .nary bounds .and first rest, heap => do
      let (first, heap) ← visitIndex first heap
      let (rest, heap) ← visitOperandIndex rest heap
      match bounds.indexRange with
      | some _ => some (.nary bounds .and first rest, heap)
      | none => do
          let (line, heap) ← consolidate (firstColumnNumber :: otherColumnNumbers)
            bounds.columnBound heap
          some (.nary { bounds with indexRange := some line } .and first rest, heap)
  | .nary bounds .or first rest, heap => do
      let (first, heap) ← visitIndex first heap
      let (rest, heap) ← visitOperandIndex rest heap
      let (lines, heap) ← linesForIndex firstColumnNumber (first :: rest) heap
      let (line, heap) ← heap.union lines
      some (.nary { bounds with indexRange := some line } .or first rest, heap)

/-- Visit the operands of AND or OR from the second on. -/
def visitOperandIndex : List (QueryNode α) → Heap α → Option (List (QueryNode α) × Heap α)
  | [], heap => some ([], heap)
  | node :: nodes, heap => do
      let (node, heap) ← visitIndex node heap
      let (nodes, heap) ← visitOperandIndex nodes heap
      some (node :: nodes, heap)

end

/-! ## getIndexBounds -/

/-- `new IndexBoundEndpoint(endpoint)`.  An endpoint whose value is not an `IndexValue`
has no parts: the code exports a bound without a key, which nobody can use. -/
def exportEndpoint (endpoint : Endpoint α) : Option (IndexBoundEndpoint α) :=
  match endpoint.value with
  | .index parts => some { inclusive := endpoint.inclusive, key := parts }
  | .plain _ => none

/-- `new IndexBound(segment)`. -/
def exportSegment (segment : Segment) (heap : Heap α) : Option (IndexBound α) := do
  let low ← exportEndpoint (heap.endpoints segment.low)
  let high ← exportEndpoint (heap.endpoints segment.high)
  some { low := low, high := high }

/-- The array of bounds for a range. -/
def exportBounds (range : Bound) (heap : Heap α) : Option (List (IndexBound α) × Heap α) :=
  let (line, heap) := heap.toNumberLine range
  forSegments (fun segment (bounds, heap) => do
    let bound ← exportSegment segment heap
    some (bounds ++ [bound], heap)) (heap.lines line) ([], heap)

/-- `getIndexBounds(queryHandler, dbIndex, params)`, with the tree and the heap that it
leaves behind. -/
def getIndexBounds (params : String → Option α) (topNode : QueryNode α) (heap : Heap α) :
    Option (List (IndexBound α) × QueryNode α × Heap α) := do
  let (topNode, heap) ← visitColumns params topNode heap
  let (queryIndexRange, heap) ← evaluateNodeForIndex topNode firstColumnNumber heap
  if otherColumnNumbers = [] then
    let (bounds, heap) ← exportBounds queryIndexRange heap
    some (bounds, topNode, heap)
  else
    let (topNode, heap) ← visitIndex firstColumnNumber otherColumnNumbers topNode heap
    let (bounds, heap) ← exportBounds
      (topNode.bounds.indexRange.elim queryIndexRange Bound.line) heap
    some (bounds, topNode, heap)

end DatabaseJones.IndexBounds
