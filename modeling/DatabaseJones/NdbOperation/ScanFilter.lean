import DatabaseJones.Query.SqlVisitor

/-!
# Scan filters of the NDB adapter

`NdbScanFilter.js` lays out the comparands of a predicate tree in two buffers, one for
constants and one for parameters, when the operation is declared.  It encodes the
constants there and then, the parameters when the operation is executed, and builds the
filter from the tree.  What the encoder reports is dropped by `QueryTerm.encode`.
-/

namespace DatabaseJones.NdbOperation

open DatabaseJones.Query

/-! ## Values, columns and encoders -/

/-- What a variable of JavaScript holds: nothing, `null`, a parameter of a query, or any
other value. -/
inductive JsValue (V : Type)
  | undefined
  | null
  | queryParameter (name : String)
  | value (value : V)
deriving DecidableEq, Repr

/-- The metadata of a column. -/
structure ColumnMetadata where
  name : String
  columnNumber : ℕ
  columnSpace : ℕ
  isNullable : Bool
deriving DecidableEq, Repr

/-- `encoderWrite`: the bytes that the encoder of a column leaves in the buffer, and the
SQLSTATE that it reports if it cannot encode the value. -/
abbrev Encoder (V : Type) : Type := ColumnMetadata → JsValue V → List UInt8 × Option String

variable {V : Type}

/-! ## Layout -/

/-- `QueryTerm`, with the value that `param` has if it is not a query parameter. -/
structure QueryTerm (V : Type) where
  offset : ℕ
  column : ColumnMetadata
  param : Parameter V
deriving DecidableEq, Repr

/-- `BufferSchema`. -/
structure BufferSchema (V : Type) where
  layout : List (QueryTerm V) := []
  size : ℕ := 0
deriving DecidableEq, Repr

/-- `addTerm(column, param)`. -/
def BufferSchema.addTerm (schema : BufferSchema V) (column : ColumnMetadata)
    (param : Parameter V) : QueryTerm V × BufferSchema V :=
  let term := { offset := schema.size, column, param }
  (term, { layout := schema.layout ++ [term], size := schema.size + column.columnSpace })

/-- The value that `QueryTerm.encode` gives to the encoder.  Without `params` it is the
constant of the term. -/
def QueryTerm.suppliedValue (term : QueryTerm V) (params : Option (String → JsValue V)) :
    JsValue V :=
  match params, term.param with
  | some params, .parameter name => params name
  | some _, .literal _ => .undefined
  | none, .parameter name => .queryParameter name
  | none, .literal value => .value value

/-- `QueryTerm.encode`: what is written for the term.  The SQLSTATE is not used. -/
def QueryTerm.encode (encoderWrite : Encoder V) (params : Option (String → JsValue V))
    (term : QueryTerm V) : ℕ × List UInt8 :=
  (term.offset, (encoderWrite term.column (term.suppliedValue params)).1)

/-- `BufferSchema.encode`: the buffer, as the bytes written at each offset. -/
def BufferSchema.encode (encoderWrite : Encoder V) (params : Option (String → JsValue V))
    (schema : BufferSchema V) : Option (List (ℕ × List UInt8)) :=
  if 0 < schema.size then some (schema.layout.map (QueryTerm.encode encoderWrite params)) else none

/-- A comparand in a schema: its term, and whether that is a constant. -/
structure Comparand (V : Type) where
  term : QueryTerm V
  isConstant : Bool
deriving DecidableEq, Repr

/-- A predicate node with its note for the filter. -/
inductive FilterNode (V : Type)
  | cmp (comparator : Comparator) (comparand : Comparand V)
  | between (low high : Comparand V)
  | nullTest (operator : UnaryOperator) (columnNumber : ℕ)
  | not (node : FilterNode V)
  | nary (operator : NaryOperator) (nodes : List (FilterNode V))

/-- The two schemas of a `FilterSpec`. -/
structure Schemas (V : Type) where
  constSchema : BufferSchema V := {}
  paramSchema : BufferSchema V := {}
deriving DecidableEq, Repr

/-- Add a term for a comparand to one of the schemas. -/
def Schemas.addTerm (schemas : Schemas V) (isConstant : Bool) (column : ColumnMetadata)
    (param : Parameter V) : Comparand V × Schemas V :=
  if isConstant then
    let (term, constSchema) := schemas.constSchema.addTerm column param
    ({ term, isConstant }, { schemas with constSchema })
  else
    let (term, paramSchema) := schemas.paramSchema.addTerm column param
    ({ term, isConstant }, { schemas with paramSchema })

section
variable (columns : List ColumnMetadata) (marks : ℕ)

mutual

/-- `BufferManagerVisitor`: the first pass over a tree that has been marked `marks` times.
The number of a field's column is looked up in the columns of the table; where there is no
such column, the visitor throws. -/
def layoutNode : Predicate V → Schemas V → Option (FilterNode V × Schemas V)
  | .comparator comparator queryField parameter, schemas => do
      let column ← columns[queryField.field.columnNumber]?
      let constants := (markComparator parameter)^[marks] 0
      let (comparand, schemas) := schemas.addTerm (constants != 0) column parameter
      pure (.cmp comparator comparand, schemas)
  | .between queryField parameter1 parameter2, schemas => do
      let column ← columns[queryField.field.columnNumber]?
      let constants := (markBetween parameter1 parameter2)^[marks] 0
      let (low, schemas) := schemas.addTerm (constants.testBit 0) column parameter1
      let (high, schemas) := schemas.addTerm (constants.testBit 1) column parameter2
      pure (.between low high, schemas)
  | .unaryOperator operator queryField, schemas =>
      some (.nullTest operator queryField.field.columnNumber, schemas)
  | .not predicate, schemas => do
      let (node, schemas) ← layoutNode predicate schemas
      pure (.not node, schemas)
  | .nary operator first rest, schemas => do
      let (node, schemas) ← layoutNode first schemas
      let (nodes, schemas) ← layoutOperands rest schemas
      pure (.nary operator (node :: nodes), schemas)

def layoutOperands : List (Predicate V) → Schemas V → Option (List (FilterNode V) × Schemas V)
  | [], schemas => some ([], schemas)
  | operand :: operands, schemas => do
      let (node, schemas) ← layoutNode operand schemas
      let (nodes, schemas) ← layoutOperands operands schemas
      pure (node :: nodes, schemas)

end

end

/-! ## Building the filter -/

/-- Where `cmp` reads its comparand. -/
inductive BufferName
  | constBuffer | paramBuffer
deriving DecidableEq, Repr

/-- The calls to the native `NdbScanFilter`. -/
inductive FilterCall
  | begin (group : ℕ)
  | cmp (condition columnNumber : ℕ) (buffer : BufferName) (offset length : ℕ)
  | isnull (columnNumber : ℕ)
  | isnotnull (columnNumber : ℕ)
  | finish
deriving DecidableEq, Repr

def comparatorCode : Comparator → ℕ
  | .le => 0
  | .lt => 1
  | .ge => 2
  | .gt => 3
  | .eq => 4
  | .ne => 5

def naryCode : NaryOperator → ℕ
  | .and => 1
  | .or => 2

/-- The operation code of `QueryNot`; the group is a NAND. -/
def notCode : ℕ := 3

def Comparand.cmp (comparand : Comparand V) (condition : ℕ) : FilterCall :=
  .cmp condition comparand.term.column.columnNumber
    (if comparand.isConstant then .constBuffer else .paramBuffer) comparand.term.offset
    comparand.term.column.columnSpace

mutual

/-- `FilterBuildingVisitor`: the second pass. -/
def FilterNode.calls : FilterNode V → List FilterCall
  | .cmp comparator comparand => [comparand.cmp (comparatorCode comparator)]
  | .between low high => [.begin 1, low.cmp 2, high.cmp 0, .finish]
  | .nullTest .isNull columnNumber => [.isnull columnNumber]
  | .nullTest .isNotNull columnNumber => [.isnotnull columnNumber]
  | .not node => .begin notCode :: node.calls ++ [.finish]
  | .nary operator nodes => .begin (naryCode operator) :: callsOfNodes nodes ++ [.finish]

def callsOfNodes : List (FilterNode V) → List FilterCall
  | [] => []
  | node :: nodes => node.calls ++ callsOfNodes nodes

end

/-- `FilterSpec`. -/
structure FilterSpec (V : Type) where
  node : FilterNode V
  schemas : Schemas V

/-- `markQuery()` of a `FilterSpec`. -/
def FilterSpec.create (columns : List ColumnMetadata) (marks : ℕ) (predicate : Predicate V) :
    Option (FilterSpec V) :=
  (layoutNode columns marks predicate {}).map fun (node, schemas) => { node, schemas }

/-- The native filter that `getScanFilterCode(params)` leads to, inside of its implicit
AND group, with the two buffers. -/
structure FilterCode where
  calls : List FilterCall
  constBuffer : Option (List (ℕ × List UInt8))
  paramBuffer : Option (List (ℕ × List UInt8))
deriving DecidableEq, Repr

/-- `getScanFilterCode(params)`. -/
def FilterSpec.getScanFilterCode (encoderWrite : Encoder V) (params : String → JsValue V)
    (filterSpec : FilterSpec V) : FilterCode :=
  { calls := .begin 1 :: filterSpec.node.calls ++ [.finish]
    constBuffer := filterSpec.schemas.constSchema.encode encoderWrite none
    paramBuffer := filterSpec.schemas.paramSchema.encode encoderWrite (some params) }

end DatabaseJones.NdbOperation

/-!
## The columns of a scan filter

The calls that build a filter name its columns by number.  Where the columns of the table
are numbered by their position, these are the numbers that the fields of the predicate
have.
-/

namespace DatabaseJones.NdbOperation

open DatabaseJones.Query

variable {V : Type}

/-- The column that a call to the native filter is about. -/
def FilterCall.columnNumber? : FilterCall → Option ℕ
  | .cmp _ columnNumber .. => some columnNumber
  | .isnull columnNumber => some columnNumber
  | .isnotnull columnNumber => some columnNumber
  | _ => none

/-- The fields that the filter of a comparison or null test compares. -/
def fieldsOfAtom : Predicate V → List QueryField
  | .between queryField _ _ => [queryField, queryField]
  | atom => atom.queryField?.toList

/-- The fields that the filter of a predicate compares, in order. -/
def comparedFields (predicate : Predicate V) : List QueryField :=
  predicate.atoms.flatMap fieldsOfAtom

theorem addTerm_column (schemas : Schemas V) (isConstant : Bool) (column : ColumnMetadata)
    (param : Parameter V) : (schemas.addTerm isConstant column param).1.term.column = column := by
  unfold Schemas.addTerm
  split_ifs <;> rfl

section
variable {columns : List ColumnMetadata} {marks : ℕ}
  (hnumbers : ∀ (number : ℕ) (column : ColumnMetadata),
    columns[number]? = some column → column.columnNumber = number)
include hnumbers

/-- The filter compares the columns whose numbers the fields have. -/
theorem layoutNode_columns (predicate : Predicate V) :
    ∀ {schemas : Schemas V} {result}, layoutNode columns marks predicate schemas = some result →
      result.1.calls.filterMap FilterCall.columnNumber? =
        (comparedFields predicate).map fun queryField => queryField.field.columnNumber := by
  induction predicate with
  | comparator comparator queryField parameter =>
      intro schemas result h
      rw [layoutNode] at h
      obtain ⟨column, hcolumn, h⟩ := Option.bind_eq_some_iff.mp h
      have hresult : (FilterNode.cmp comparator (schemas.addTerm _ column parameter).1,
          (schemas.addTerm _ column parameter).2) = result := Option.some.inj h
      rw [← hresult]
      simp only [FilterNode.calls, Comparand.cmp, List.filterMap_cons, FilterCall.columnNumber?,
        addTerm_column, hnumbers _ _ hcolumn]
      rfl
  | between queryField parameter1 parameter2 =>
      intro schemas result h
      rw [layoutNode] at h
      obtain ⟨column, hcolumn, h⟩ := Option.bind_eq_some_iff.mp h
      have hresult : (FilterNode.between (schemas.addTerm _ column parameter1).1
          ((schemas.addTerm _ column parameter1).2.addTerm _ column parameter2).1,
          ((schemas.addTerm _ column parameter1).2.addTerm _ column parameter2).2) = result :=
        Option.some.inj h
      rw [← hresult]
      simp only [FilterNode.calls, Comparand.cmp, List.filterMap_cons, FilterCall.columnNumber?,
        addTerm_column, hnumbers _ _ hcolumn]
      rfl
  | unaryOperator operator queryField =>
      intro schemas result h
      rw [layoutNode] at h
      rw [← Option.some.inj h]
      cases operator <;> rfl
  | not predicate ih =>
      intro schemas result h
      rw [layoutNode] at h
      obtain ⟨inner, hinner, h⟩ := Option.bind_eq_some_iff.mp h
      rw [← Option.some.inj h]
      simp only [FilterNode.calls, List.cons_append, List.filterMap_cons, List.filterMap_append,
        FilterCall.columnNumber?, List.filterMap_nil, List.append_nil]
      exact ih hinner
  | nary operator first rest ihfirst ihrest =>
      intro schemas result h
      rw [layoutNode] at h
      obtain ⟨head, hhead, h⟩ := Option.bind_eq_some_iff.mp h
      obtain ⟨tail, htail, h⟩ := Option.bind_eq_some_iff.mp h
      rw [← Option.some.inj h]
      have hoperands : ∀ {operands : List (Predicate V)} {schemas : Schemas V} {result},
          (∀ operand ∈ operands, operand ∈ rest) →
          layoutOperands columns marks operands schemas = some result →
          (callsOfNodes result.1).filterMap FilterCall.columnNumber? =
            ((atomsOfOperands operands).flatMap fieldsOfAtom).map
              fun queryField => queryField.field.columnNumber := by
        intro operands
        induction operands with
        | nil =>
            intro schemas result _ h
            rw [layoutOperands] at h
            rw [← Option.some.inj h]
            rfl
        | cons operand operands ih =>
            intro schemas result hmem h
            rw [layoutOperands] at h
            obtain ⟨head, hhead, h⟩ := Option.bind_eq_some_iff.mp h
            obtain ⟨tail, htail, h⟩ := Option.bind_eq_some_iff.mp h
            rw [← Option.some.inj h]
            have hfirst := ihrest operand (hmem operand List.mem_cons_self) hhead
            have hothers := ih (fun other hother => hmem other (List.mem_cons_of_mem _ hother)) htail
            simp only [callsOfNodes, List.filterMap_append, hfirst, hothers, atomsOfOperands,
              List.flatMap_append, List.map_append, comparedFields]
      have hrest := hoperands (fun _ h => h) htail
      simp only [FilterNode.calls, List.filterMap_cons, List.filterMap_append,
        FilterCall.columnNumber?, callsOfNodes, ihfirst hhead, hrest, comparedFields,
        Predicate.atoms, List.flatMap_append, List.map_append, List.append_nil, List.filterMap_nil,
        List.cons_append]

end

end DatabaseJones.NdbOperation
