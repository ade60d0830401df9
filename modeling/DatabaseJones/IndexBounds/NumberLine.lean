import DatabaseJones.IndexBounds.Endpoint
import DatabaseJones.Query.Predicate

/-!
# Segments and number lines

Endpoints and number lines are objects that several predicate nodes share:
segments and lines refer to endpoints, which `low()`, `high()` and `complement()`
change in place, and a line keeps its identity when its transition points change.
They are modelled as addresses in a heap.  `none` is an exception.
-/

namespace DatabaseJones.IndexBounds

open DatabaseJones.Query

/-! ## The heap -/

/-- The endpoints and number lines that exist.  A line is the list of its transition
points. -/
structure Heap (α : Type*) where
  endpoints : ℕ → Endpoint α
  endpointCount : ℕ
  lines : ℕ → List ℕ
  lineCount : ℕ

/-- A segment holds two endpoints. -/
structure Segment where
  low : ℕ
  high : ℕ
deriving DecidableEq, Repr

/-- What a predicate node holds for a column or an index: a segment or a line. -/
inductive Bound
  | segment (segment : Segment)
  | line (line : ℕ)
deriving DecidableEq, Repr

variable {α : Type} [LinearOrder α]

namespace Heap

variable (heap : Heap α)

/-- No objects. -/
def empty : Heap α :=
  { endpoints := fun _ => negInf, endpointCount := 0, lines := fun _ => [], lineCount := 0 }

def addEndpoint (endpoint : Endpoint α) : ℕ × Heap α :=
  (heap.endpointCount, { heap with
    endpoints := Function.update heap.endpoints heap.endpointCount endpoint
    endpointCount := heap.endpointCount + 1 })

def addLine (transitions : List ℕ) : ℕ × Heap α :=
  (heap.lineCount, { heap with
    lines := Function.update heap.lines heap.lineCount transitions
    lineCount := heap.lineCount + 1 })

/-- Change an endpoint in place. -/
def modifyEndpoint (point : ℕ) (f : Endpoint α → Endpoint α) : Heap α :=
  { heap with endpoints := Function.update heap.endpoints point (f (heap.endpoints point)) }

/-- Change the transition points of a line in place. -/
def setLine (line : ℕ) (transitions : List ℕ) : Heap α :=
  { heap with lines := Function.update heap.lines line transitions }

/-! ## Segments -/

/-- `new Segment(point1, point2)`. -/
def newSegment (point1 point2 : ℕ) : Option (Segment × Heap α) :=
  ((heap.endpoints point1).compare (heap.endpoints point2)).map fun cmp =>
    if cmp = .lt then
      (⟨point1, point2⟩,
        (heap.modifyEndpoint point1 Endpoint.low).modifyEndpoint point2 Endpoint.high)
    else
      (⟨point2, point1⟩,
        (heap.modifyEndpoint point2 Endpoint.low).modifyEndpoint point1 Endpoint.high)

/-- `new Segment(p1, p2)` with two new endpoints. -/
def segmentBetween (p1 p2 : Endpoint α) : Option (Segment × Heap α) :=
  let (point1, heap) := heap.addEndpoint p1
  let (point2, heap) := heap.addEndpoint p2
  heap.newSegment point1 point2

/-- `segment.copy()`. -/
def copySegment (segment : Segment) : Option (Segment × Heap α) :=
  heap.segmentBetween (heap.endpoints segment.low) (heap.endpoints segment.high)

def unboundedSegment : Option (Segment × Heap α) := heap.segmentBetween negInf posInf

/-! ## Number lines -/

/-- `toNumberLine()` of a segment or a line. -/
def toNumberLine : Bound → ℕ × Heap α
  | .segment segment => heap.addLine [segment.low, segment.high]
  | .line line => (line, heap)

/-- `complement()` of a line. -/
def complement (line : ℕ) : Option (Heap α) := do
  let transitions := heap.lines line
  let heap := transitions.foldl (fun heap point => heap.modifyEndpoint point Endpoint.complement) heap
  -- `lowerBound()` of an empty line is an exception
  let lowerBound ← transitions.head?
  let (transitions, heap) :=
    if !(heap.endpoints lowerBound).value.isFinite then (transitions.tail, heap)
    else
      let (point, heap) := heap.addEndpoint negInf
      (point :: transitions, heap)
  let upperBoundIsFinite :=
    transitions.getLast?.any fun point => (heap.endpoints point).value.isFinite
  let (transitions, heap) :=
    if !upperBoundIsFinite then (transitions.dropLast, heap)
    else
      let (point, heap) := heap.addEndpoint posInf
      (transitions ++ [point], heap)
  if transitions.length % 2 = 0 then some (heap.setLine line transitions) else none

/-- `nonNull()` of a line. -/
def nonNull (line : ℕ) : Heap α :=
  let (point, heap) := heap.addEndpoint (Endpoint.low nullExc)
  heap.setLine line (point :: (heap.lines line).tail)

/-- `toIndexValues()` of a segment or a line. -/
def toIndexValues : Bound → Option (Bound × Heap α)
  | .segment segment =>
      (heap.segmentBetween (heap.endpoints segment.low).toIndexValueEndpoint
        (heap.endpoints segment.high).toIndexValueEndpoint).map fun (segment, heap) =>
          (.segment segment, heap)
  | .line line =>
      let (transitions, heap) := (heap.lines line).foldl
        (fun (transitions, heap) point =>
          let (point, heap) := heap.addEndpoint (heap.endpoints point).toIndexValueEndpoint
          (transitions ++ [point], heap)) ([], heap)
      let (line, heap) := heap.addLine transitions
      some (.line line, heap)

/-! ## The sweep -/

/-- The inner loop of `mergeSortEndpoints`: the points of the second list that go before
`point`, the head of the first. -/
def mergeFrom (point : ℕ) (list1 : List ℕ) (merged : List ℕ → Option (List ℕ)) :
    List ℕ → Option (List ℕ)
  | [] => some (point :: list1)
  | point2 :: list2 => do
      let cmp ← (heap.endpoints point).compare (heap.endpoints point2)
      if cmp ≠ .gt then (merged (point2 :: list2)).map (point :: ·)
      else (mergeFrom point list1 merged list2).map (point2 :: ·)

/-- `mergeSortEndpoints(list1, list2)`. -/
def mergeSortEndpoints : List ℕ → List ℕ → Option (List ℕ)
  | [], list2 => some list2
  | point :: list1, list2 => heap.mergeFrom point list1 (mergeSortEndpoints list1) list2

/-- `new NumberLineStack(lines)`: the last list, with the others merged into it from the
end. -/
def mergeLines : List (List ℕ) → Option (List ℕ)
  | [] => none
  | [list] => some list
  | list :: lists => do
      let merged ← mergeLines lists
      heap.mergeSortEndpoints merged list

/-- `sweep(targetDepth)`, from a depth on. -/
def sweep (targetDepth : ℤ) : ℤ → List ℕ → Option (List ℕ)
  | _, [] => some []
  | depth, point :: points => do
      let isLow ← (heap.endpoints point).isLow
      let next := if isLow then depth + 1 else depth - 1
      let rest ← sweep targetDepth next points
      if (if isLow then next else depth) = targetDepth then some (point :: rest) else some rest

/-- A new line from the points at which `targetDepth` of the lines begin or end to
overlap. -/
def sweepLines (targetDepth : ℕ) (lines : List ℕ) : Option (ℕ × Heap α) := do
  let list ← heap.mergeLines (lines.map heap.lines)
  let transitions ← heap.sweep targetDepth 0 list
  some (heap.addLine transitions)

/-- `new NumberLineStack(lines).intersection()`. -/
def intersection (lines : List ℕ) : Option (ℕ × Heap α) := heap.sweepLines lines.length lines

/-- `new NumberLineStack(lines).union()`. -/
def union (lines : List ℕ) : Option (ℕ × Heap α) := heap.sweepLines 1 lines

/-- `insertSegment(segment)` of a line. -/
def insertSegment (line : ℕ) (segment : Segment) : Option (Heap α) := do
  let (inserted, heap) := heap.toNumberLine (.segment segment)
  let (result, heap) ← heap.union [line, inserted]
  some (heap.setLine line (heap.lines result))

/-! ## Segments for comparisons -/

/-- `createSegmentBetween(a, b)`. -/
def createSegmentBetween (a b : KeyPart α) : Option (Segment × Heap α) :=
  heap.segmentBetween (newEndpoint a true) (newEndpoint b true)

/-- `createSegmentForComparator(operator, value)`; for `!=` it makes a line. -/
def createSegmentForComparator (operator : Comparator) (value : KeyPart α) :
    Option (Bound × Heap α) := do
  match operator with
  | .le =>
      let (segment, heap) ← heap.segmentBetween negInfNonNull (newEndpoint value true)
      some (.segment segment, heap)
  | .lt =>
      let (segment, heap) ← heap.segmentBetween negInfNonNull (newEndpoint value false)
      some (.segment segment, heap)
  | .ge =>
      let (segment, heap) ← heap.segmentBetween (newEndpoint value true) posInf
      some (.segment segment, heap)
  | .gt =>
      let (segment, heap) ← heap.segmentBetween (newEndpoint value false) posInf
      some (.segment segment, heap)
  | .eq =>
      let (segment, heap) ← heap.segmentBetween (newEndpoint value true) (newEndpoint value true)
      some (.segment segment, heap)
  | .ne =>
      let (segment, heap) ← heap.segmentBetween (newEndpoint value true) (newEndpoint value true)
      let (line, heap) := heap.toNumberLine (.segment segment)
      let heap ← heap.complement line
      some (.line line, heap.nonNull line)

end Heap

/-! ## Iterating over segments -/

/-- Run a loop body for every segment of a list of transition points; the points of each
segment pass through `new Segment`. -/
def forSegments {σ : Type} (body : Segment → σ × Heap α → Option (σ × Heap α)) :
    List ℕ → σ × Heap α → Option (σ × Heap α)
  | [], state => some state
  | [_], _ => none
  | point1 :: point2 :: points, (state, heap) => do
      let (segment, heap) ← heap.newSegment point1 point2
      let next ← body segment (state, heap)
      forSegments body points next

end DatabaseJones.IndexBounds
