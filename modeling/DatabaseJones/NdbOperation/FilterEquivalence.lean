import DatabaseJones.Library.Endian
import DatabaseJones.NdbOperation.FilterMeaning
import DatabaseJones.TableHandler.ColumnNumbers

/-!
# A scan filter is its predicate

Every execution of a filter tests the columns that the fields of the predicate name, against
the encodings of its literals and of the parameters of this execution, and combines the tests
as the predicate does.  This holds exactly if the columns of the fields have the same numbers
in the handler and in the table, and if no literal at the end of a BETWEEN is taken for a
parameter because the tree was marked several times.
-/

namespace DatabaseJones.NdbOperation

open DatabaseJones.Library DatabaseJones.Query
open DatabaseJones.TableHandler (DBTableHandler TableMapping TableMetadata NamesColumn Aligned)

variable {V : Type}

/-! ## The contents of the buffers -/

/-- The encoder of a column stays inside of its space. -/
def Fits (encoderWrite : Encoder V) : Prop :=
  ∀ column value, (encoderWrite column value).1.length ≤ column.columnSpace

/-- The space of a column with an encoded value; what the encoder leaves is zero. -/
def encoded (encoderWrite : Encoder V) (column : ColumnMetadata) (value : JsValue V) : List UInt8 :=
  (encoderWrite column value).1 ++
    List.replicate (column.columnSpace - (encoderWrite column value).1.length) 0

theorem length_encoded {encoderWrite : Encoder V} (hfits : Fits encoderWrite)
    (column : ColumnMetadata) (value : JsValue V) :
    (encoded encoderWrite column value).length = column.columnSpace := by
  have := hfits column value
  rw [encoded, List.length_append, List.length_replicate]
  omega

theorem readBytes_zero (offset size : ℕ) :
    readBytes (fun _ => 0) offset size = List.replicate size 0 := by
  rw [readBytes, List.map_const', List.length_range]

/-- The region of a term holds its encoded value. -/
theorem readBytes_bufferOf {encoderWrite : Encoder V} (hfits : Fits encoderWrite)
    {schema : BufferSchema V} (h : schema.Consistent) (params : Option (String → JsValue V))
    {term : QueryTerm V} (hterm : term ∈ schema.layout) :
    readBytes (bufferOf (schema.layout.map (QueryTerm.encode encoderWrite params))) term.offset
        term.column.columnSpace =
      encoded encoderWrite term.column (term.suppliedValue params) := by
  obtain ⟨earlier, later, hlayout⟩ := List.append_of_mem hterm
  have happart := h.apart
  rw [hlayout, List.pairwise_append, List.pairwise_cons] at happart
  obtain ⟨-, ⟨hafter, -⟩, hbefore⟩ := happart
  have hfit := hfits term.column (term.suppliedValue params)
  -- neither the later nor the earlier terms touch the region
  have hlater : ∀ write ∈ later.map (QueryTerm.encode encoderWrite params),
      term.offset + term.column.columnSpace ≤ write.1 ∨
        write.1 + write.2.length ≤ term.offset := by
    intro write hwrite
    obtain ⟨other, hother, rfl⟩ := List.mem_map.mp hwrite
    exact Or.inl (hafter other hother)
  have hearlier : ∀ size, ∀ write ∈ earlier.map (QueryTerm.encode encoderWrite params),
      term.offset + (encoderWrite term.column (term.suppliedValue params)).1.length + size ≤
          write.1 ∨
        write.1 + write.2.length ≤
          term.offset + (encoderWrite term.column (term.suppliedValue params)).1.length := by
    intro size write hwrite
    obtain ⟨other, hother, rfl⟩ := List.mem_map.mp hwrite
    have hoffset := hbefore other hother term List.mem_cons_self
    have hlength := hfits other.column (other.suppliedValue params)
    refine Or.inr ?_
    simp only [QueryTerm.encode]
    omega
  rw [bufferOf, hlayout, List.map_append, List.map_cons, List.foldl_append, List.foldl_cons,
    readBytes_foldl_writeBytes hlater, encoded]
  simp only [QueryTerm.encode] at hearlier ⊢
  rw [readBytes_writeBytes_beginning _ _ hfit, readBytes_foldl_writeBytes (hearlier _), readBytes_zero]

/-- The value that is encoded for a comparand, as a constant or as a parameter. -/
def suppliedValue (params : String → JsValue V) (isConstant : Bool) (parameter : Parameter V) :
    JsValue V :=
  match isConstant, parameter with
  | true, .parameter name => .queryParameter name
  | true, .literal value => .value value
  | false, .parameter name => params name
  | false, .literal _ => .undefined

theorem suppliedValue_constant (term : QueryTerm V) (params : String → JsValue V) :
    term.suppliedValue none = suppliedValue params true term.param := by
  unfold QueryTerm.suppliedValue suppliedValue
  cases term.param <;> rfl

theorem suppliedValue_parameter (term : QueryTerm V) (params : String → JsValue V) :
    term.suppliedValue (some params) = suppliedValue params false term.param := by
  unfold QueryTerm.suppliedValue suppliedValue
  cases term.param <;> rfl

/-- The bytes of a comparand at an execution. -/
def bytesAt (encoderWrite : Encoder V) (params : String → JsValue V) (isConstant : Bool)
    (column : ColumnMetadata) (parameter : Parameter V) : Option (List UInt8) :=
  some (encoded encoderWrite column (suppliedValue params isConstant parameter))

theorem encode_of_mem {encoderWrite : Encoder V} {params : Option (String → JsValue V)}
    {schema : BufferSchema V} (h : schema.Consistent) {term : QueryTerm V}
    (hterm : term ∈ schema.layout) : schema.encode encoderWrite params =
      some (schema.layout.map (QueryTerm.encode encoderWrite params)) := by
  have hpositive := h.positive term hterm
  have hinside := h.inside term hterm
  exact if_pos (by omega)

/-- The regions of a filter hold the bytes of the terms of its schemas. -/
theorem filled_regionOf {encoderWrite : Encoder V} (hfits : Fits encoderWrite)
    (params : String → JsValue V) {filterSpec : FilterSpec V}
    (h : filterSpec.schemas.Consistent) :
    Filled (bytesAt encoderWrite params)
      (filterSpec.getScanFilterCode encoderWrite params).regionOf filterSpec.schemas := by
  rintro ⟨term, isConstant⟩ hterm
  cases isConstant with
  | true =>
      have hbuffer : (filterSpec.getScanFilterCode encoderWrite params).buffer .constBuffer = some
          (filterSpec.schemas.constSchema.layout.map (QueryTerm.encode encoderWrite none)) := by
        have hencode : filterSpec.schemas.constSchema.encode encoderWrite none = some _ :=
          encode_of_mem (h true) hterm
        simp only [FilterCode.buffer, FilterSpec.getScanFilterCode, hencode]
        rfl
      have hread := readBytes_bufferOf hfits (h true) none hterm
      simp only [FilterCode.regionOf, FilterCode.region, if_true, hbuffer, Option.map_some, bytesAt]
      exact congrArg some (hread.trans (by rw [suppliedValue_constant term params]))
  | false =>
      have hbuffer : (filterSpec.getScanFilterCode encoderWrite params).buffer .paramBuffer = some
          (filterSpec.schemas.paramSchema.layout.map
            (QueryTerm.encode encoderWrite (some params))) :=
        encode_of_mem (h false) hterm
      have hread := readBytes_bufferOf hfits (h false) (some params) hterm
      simp only [FilterCode.regionOf, FilterCode.region, Bool.false_eq_true, if_false, hbuffer,
        Option.map_some, bytesAt]
      exact congrArg some (hread.trans (by rw [suppliedValue_parameter term params]))

/-! ## The cached filter -/

section
variable {columns : List ColumnMetadata} {marks : ℕ}

mutual

/-- Without constants no term is added to their schema. -/
theorem layoutNode_constSchema : ∀ (predicate : Predicate V) {schemas after : Schemas V}
    {node : FilterNode V}, layoutNode columns marks predicate schemas = some (node, after) →
      constantsOf marks predicate = 0 → after.constSchema = schemas.constSchema
  | .comparator comparator queryField parameter, schemas, after, node, h, hzero => by
      obtain ⟨column, -, -, rfl⟩ := layoutNode_comparator h
      have hflag : isConstant marks (.comparator comparator queryField parameter) false = false := by
        simpa [isConstant, constantsOf] using hzero
      rw [hflag]
      rfl
  | .between queryField parameter1 parameter2, schemas, after, node, h, hzero => by
      obtain ⟨column, first, -, rfl, -, rfl⟩ := layoutNode_between h
      have hflag : ∀ second,
          isConstant marks (.between queryField parameter1 parameter2) second = false := by
        intro second
        rw [constantsOf] at hzero
        rw [isConstant, hzero, Nat.zero_testBit]
      rw [hflag, hflag]
      rfl
  | .unaryOperator operator queryField, schemas, after, node, h, hzero =>
      absurd hzero Nat.one_ne_zero
  | .not predicate, schemas, after, node, h, hzero => by
      rw [layoutNode] at h
      obtain ⟨inner, hinner, h⟩ := Option.bind_eq_some_iff.mp h
      obtain ⟨-, rfl⟩ := Prod.mk.inj (Option.some.inj h)
      rw [constantsOf] at hzero
      split_ifs at hzero with hinnerZero
      exact layoutNode_constSchema predicate hinner hinnerZero
  | .nary operator first rest, schemas, after, node, h, hzero => by
      rw [layoutNode] at h
      obtain ⟨head, hhead, h⟩ := Option.bind_eq_some_iff.mp h
      obtain ⟨tail, htail, h⟩ := Option.bind_eq_some_iff.mp h
      obtain ⟨-, rfl⟩ := Prod.mk.inj (Option.some.inj h)
      rw [constantsOf] at hzero
      split_ifs at hzero with hall
      exact (layoutOperands_constSchema rest htail hall.2).trans
        (layoutNode_constSchema first hhead hall.1)

theorem layoutOperands_constSchema : ∀ (operands : List (Predicate V)) {schemas after : Schemas V}
    {nodes : List (FilterNode V)},
    layoutOperands columns marks operands schemas = some (nodes, after) →
      haveConstants marks operands = false → after.constSchema = schemas.constSchema
  | [], schemas, after, nodes, h, _ => by
      rw [layoutOperands] at h
      obtain ⟨-, rfl⟩ := Prod.mk.inj (Option.some.inj h)
      rfl
  | operand :: operands, schemas, after, nodes, h, hnone => by
      rw [layoutOperands] at h
      obtain ⟨head, hhead, h⟩ := Option.bind_eq_some_iff.mp h
      obtain ⟨tail, htail, h⟩ := Option.bind_eq_some_iff.mp h
      obtain ⟨-, rfl⟩ := Prod.mk.inj (Option.some.inj h)
      rw [haveConstants, Bool.or_eq_false_iff] at hnone
      have hzero : constantsOf marks operand = 0 := by simpa using hnone.1
      exact (layoutOperands_constSchema operands htail hnone.2).trans
        (layoutNode_constSchema operand hhead hzero)

end

/-- Whether it is cached or not, the filter of an execution is the one that is built for its
parameters. -/
theorem prepare_getScanFilterCode (encoderWrite : Encoder V) (params : String → JsValue V)
    {predicate : Predicate V} {filterSpec : FilterSpec V}
    (h : FilterSpec.create columns marks predicate = some filterSpec) :
    (filterSpec.prepare encoderWrite (constantsOf marks predicate)).getScanFilterCode encoderWrite
        params = filterSpec.getScanFilterCode encoderWrite params := by
  obtain ⟨⟨node, schemas⟩, hlayout, rfl⟩ := Option.map_eq_some_iff.mp h
  unfold FilterSpec.prepare PreparedFilter.getScanFilterCode
  split_ifs with hzero hsize
  · -- there are no constants to encode
    have hempty : schemas.constSchema = {} := layoutNode_constSchema predicate hlayout hzero
    simp only [Option.getD_none, FilterSpec.buildFilter, FilterSpec.getScanFilterCode, hempty]
    rfl
  · -- there are no parameters to encode
    have hnone : schemas.paramSchema.encode encoderWrite (some params) = none :=
      if_neg (by rw [hsize]; exact lt_irrefl 0)
    simp only [Option.getD_some, FilterSpec.buildFilter, FilterSpec.getScanFilterCode, hnone]
  · rfl

end

/-! ## Regions -/

/-- The region of a comparand: its buffer, its offset and its length. -/
def FilterCall.region? : FilterCall → Option (BufferName × ℕ × ℕ)
  | .cmp _ _ buffer offset length => some (buffer, offset, length)
  | _ => none

/-- Regions of one buffer lie one behind the other. -/
def Apart (region other : BufferName × ℕ × ℕ) : Prop :=
  region.1 = other.1 → region.2.1 + region.2.2 ≤ other.2.1

/-- The size of a buffer. -/
def Schemas.sizeOf (schemas : Schemas V) : BufferName → ℕ
  | .constBuffer => schemas.constSchema.size
  | .paramBuffer => schemas.paramSchema.size

/-- The regions of some calls are those that the schemas have grown by. -/
structure Between (before after : Schemas V) (regions : List (BufferName × ℕ × ℕ)) : Prop where
  mono : ∀ buffer, before.sizeOf buffer ≤ after.sizeOf buffer
  inside : ∀ region ∈ regions, before.sizeOf region.1 ≤ region.2.1 ∧
    region.2.1 + region.2.2 ≤ after.sizeOf region.1
  apart : regions.Pairwise Apart

theorem Between.nil (schemas : Schemas V) : Between schemas schemas [] :=
  ⟨fun _ => le_rfl, fun _ h => absurd h List.not_mem_nil, List.Pairwise.nil⟩

theorem Between.append {first second third : Schemas V} {regions others : List (BufferName × ℕ × ℕ)}
    (h : Between first second regions) (h' : Between second third others) :
    Between first third (regions ++ others) := by
  refine ⟨fun buffer => (h.mono buffer).trans (h'.mono buffer), fun region hregion => ?_,
    List.pairwise_append.mpr ⟨h.apart, h'.apart, fun region hregion other hother heq => ?_⟩⟩
  · rcases List.mem_append.mp hregion with hregion | hregion
    · exact ⟨(h.inside region hregion).1, (h.inside region hregion).2.trans (h'.mono _)⟩
    · exact ⟨(h.mono _).trans (h'.inside region hregion).1, (h'.inside region hregion).2⟩
  · calc region.2.1 + region.2.2
      _ ≤ second.sizeOf region.1 := (h.inside region hregion).2
      _ = second.sizeOf other.1 := by rw [heq]
      _ ≤ other.2.1 := (h'.inside other hother).1

/-- The region of one new comparand. -/
theorem between_addTerm (schemas : Schemas V) (isConstant : Bool) (column : ColumnMetadata)
    (param : Parameter V) (condition : ℕ) :
    Between schemas (schemas.addTerm isConstant column param).2
      (((schemas.addTerm isConstant column param).1.cmp condition).region?.toList) := by
  cases isConstant with
  | true =>
      refine ⟨fun buffer => ?_, fun region hregion => ?_, List.pairwise_singleton _ _⟩
      · cases buffer with
        | constBuffer => exact Nat.le_add_right _ _
        | paramBuffer => exact le_rfl
      · obtain rfl := List.mem_singleton.mp hregion
        exact ⟨le_rfl, le_rfl⟩
  | false =>
      refine ⟨fun buffer => ?_, fun region hregion => ?_, List.pairwise_singleton _ _⟩
      · cases buffer with
        | constBuffer => exact le_rfl
        | paramBuffer => exact Nat.le_add_right _ _
      · obtain rfl := List.mem_singleton.mp hregion
        exact ⟨le_rfl, le_rfl⟩

theorem filterMap_brackets (group : ℕ) (calls : List FilterCall) :
    (FilterCall.begin group :: calls ++ [FilterCall.finish]).filterMap FilterCall.region? =
      calls.filterMap FilterCall.region? := by
  rw [List.cons_append, List.filterMap_cons_none rfl, List.filterMap_append,
    List.filterMap_cons_none rfl, List.filterMap_nil, List.append_nil]

section
variable {columns : List ColumnMetadata} {marks : ℕ}

mutual

/-- The regions of a tree are those that the schemas grow by. -/
theorem between_layoutNode : ∀ (predicate : Predicate V) {schemas after : Schemas V}
    {node : FilterNode V}, layoutNode columns marks predicate schemas = some (node, after) →
      Between schemas after (node.calls.filterMap FilterCall.region?)
  | .comparator comparator queryField parameter, schemas, after, node, h => by
      obtain ⟨column, -, rfl, rfl⟩ := layoutNode_comparator h
      exact between_addTerm schemas _ column parameter (comparatorCode comparator)
  | .between queryField parameter1 parameter2, schemas, after, node, h => by
      obtain ⟨column, first, -, rfl, rfl, rfl⟩ := layoutNode_between h
      rw [FilterNode.calls]
      exact (between_addTerm schemas _ column parameter1 2).append
        (between_addTerm _ _ column parameter2 0)
  | .unaryOperator operator queryField, schemas, after, node, h => by
      rw [layoutNode] at h
      obtain ⟨rfl, rfl⟩ := Prod.mk.inj (Option.some.inj h)
      cases operator with
      | isNull => exact .nil _
      | isNotNull => exact .nil _
  | .not predicate, schemas, after, node, h => by
      rw [layoutNode] at h
      obtain ⟨inner, hinner, h⟩ := Option.bind_eq_some_iff.mp h
      obtain ⟨rfl, rfl⟩ := Prod.mk.inj (Option.some.inj h)
      rw [FilterNode.calls, filterMap_brackets]
      exact between_layoutNode predicate hinner
  | .nary operator first rest, schemas, after, node, h => by
      rw [layoutNode] at h
      obtain ⟨head, hhead, h⟩ := Option.bind_eq_some_iff.mp h
      obtain ⟨tail, htail, h⟩ := Option.bind_eq_some_iff.mp h
      obtain ⟨rfl, rfl⟩ := Prod.mk.inj (Option.some.inj h)
      rw [FilterNode.calls, filterMap_brackets, callsOfNodes, List.filterMap_append]
      exact (between_layoutNode first hhead).append (between_layoutOperands rest htail)

theorem between_layoutOperands : ∀ (operands : List (Predicate V)) {schemas after : Schemas V}
    {nodes : List (FilterNode V)},
    layoutOperands columns marks operands schemas = some (nodes, after) →
      Between schemas after ((callsOfNodes nodes).filterMap FilterCall.region?)
  | [], schemas, after, nodes, h => by
      rw [layoutOperands] at h
      obtain ⟨rfl, rfl⟩ := Prod.mk.inj (Option.some.inj h)
      exact .nil _
  | operand :: operands, schemas, after, nodes, h => by
      rw [layoutOperands] at h
      obtain ⟨head, hhead, h⟩ := Option.bind_eq_some_iff.mp h
      obtain ⟨tail, htail, h⟩ := Option.bind_eq_some_iff.mp h
      obtain ⟨rfl, rfl⟩ := Prod.mk.inj (Option.some.inj h)
      rw [callsOfNodes, List.filterMap_append]
      exact (between_layoutNode operand hhead).append (between_layoutOperands operands htail)

end

end

/-! ## The filter denotes the predicate -/

/-- The value of a comparand at an execution. -/
def operandValue (params : String → JsValue V) : Parameter V → JsValue V
  | .parameter name => params name
  | .literal value => .value value

/-- The bytes that a comparand should have: the encoding of its value for the column. -/
def operandBytes (encoderWrite : Encoder V) (columns : List ColumnMetadata)
    (columnOf : QueryField → ℕ) (params : String → JsValue V) (atom : Predicate V)
    (second : Bool) : Option (List UInt8) :=
  (comparandOf atom second).bind fun (queryField, parameter) =>
    (columns[columnOf queryField]?).map fun column =>
      encoded encoderWrite column (operandValue params parameter)

/-- A filter is well bracketed, has the tests of a predicate and combines them as it does. -/
def FilterCode.Denotes (code : FilterCode) (columnOf : QueryField → ℕ)
    (comparand : Predicate V → Bool → Option (List UInt8)) (predicate : Predicate V) : Prop :=
  ∃ condition, code.condition = some condition ∧
    condition.tests = testsOfPredicate columnOf comparand predicate ∧
    ∀ truth, condition.eval truth = truthOfPredicate columnOf comparand truth predicate

variable {S : Type}

/-- The filter of a query of a table handler, whose tree has been marked `marks` times: the
regions of its comparands are disjoint and inside of the buffers, and at every execution it
denotes the predicate on the columns that the fields name. -/
def Filters (describe : TableHandler.ColumnMetadata S → ℕ × Bool)
    (dbTableHandler : DBTableHandler S) (marks : ℕ) (predicate : Predicate V)
    (encoderWrite : Encoder V) : Prop :=
  ∃ filterSpec, FilterSpec.create (dbTableHandler.dbTable.ndbColumns describe) marks predicate =
      some filterSpec ∧
    (filterSpec.node.calls.filterMap FilterCall.region?).Pairwise Apart ∧
    (∀ region ∈ filterSpec.node.calls.filterMap FilterCall.region?,
      region.2.1 + region.2.2 ≤ filterSpec.schemas.sizeOf region.1) ∧
    ∃ columnOf : QueryField → ℕ,
      (∀ queryField ∈ comparedFields predicate, ∀ field,
        dbTableHandler.HasField queryField field →
          NamesColumn dbTableHandler.dbTable (columnOf queryField) field) ∧
      ∀ params, ((filterSpec.prepare encoderWrite (constantsOf marks predicate)).getScanFilterCode
        encoderWrite params).Denotes columnOf (operandBytes encoderWrite
          (dbTableHandler.dbTable.ndbColumns describe) columnOf params) predicate

/-- A parameter BETWEEN and a literal. -/
def endsInLiteral : Predicate V → Bool
  | .between _ (.parameter _) (.literal _) => true
  | _ => false

/-- The fields have the numbers of their columns in the table, and the ends of every BETWEEN are
laid out as what they are. -/
structure Suited (dbTable : TableMetadata S) (mapping : TableMapping S) (marks : ℕ)
    (predicate : Predicate V) : Prop where
  aligned : ∀ queryField ∈ comparedFields predicate,
    Aligned dbTable mapping queryField.field.columnNumber
  marked : marks % 2 = 1 ∨ ∀ atom ∈ predicate.atoms, endsInLiteral atom = false

section
variable {columns : List ColumnMetadata} {marks : ℕ} {predicate : Predicate V}

theorem create_condition {encoderWrite : Encoder V} (hfits : Fits encoderWrite)
    (hspace : ∀ column ∈ columns, 0 < column.columnSpace)
    (hnumbers : ∀ (number : ℕ) (column : ColumnMetadata),
      columns[number]? = some column → column.columnNumber = number)
    {filterSpec : FilterSpec V} (h : FilterSpec.create columns marks predicate = some filterSpec)
    (params : String → JsValue V) :
    ((filterSpec.prepare encoderWrite (constantsOf marks predicate)).getScanFilterCode encoderWrite
        params).condition =
      some (.group .and [conditionOf numberOf (bytesOfComparand columns (isConstant marks)
        (bytesAt encoderWrite params)) predicate]) := by
  rw [prepare_getScanFilterCode encoderWrite params h]
  obtain ⟨⟨node, schemas⟩, hlayout, rfl⟩ := Option.map_eq_some_iff.mp h
  have hstart : Schemas.Consistent ({} : Schemas V) := fun isConstant => by
    cases isConstant <;> exact consistent_empty
  have hconsistent := (layoutNode_extends hspace predicate hlayout).2 hstart
  have hfilled := @filled_regionOf V encoderWrite hfits params { node, schemas } hconsistent
  rw [condition_of_calls _ node rfl, condition_layoutNode hspace hnumbers predicate hlayout hfilled]

mutual

/-- A tree whose fields have columns can be laid out. -/
theorem layoutNode_isSome : ∀ (predicate : Predicate V) (schemas : Schemas V),
    (∀ queryField ∈ comparedFields predicate,
      (columns[queryField.field.columnNumber]?).isSome = true) →
      (layoutNode columns marks predicate schemas).isSome = true
  | .comparator comparator queryField parameter, schemas, h => by
      obtain ⟨column, hcolumn⟩ := Option.isSome_iff_exists.mp (h queryField (List.mem_singleton_self _))
      rw [layoutNode, hcolumn]
      rfl
  | .between queryField parameter1 parameter2, schemas, h => by
      obtain ⟨column, hcolumn⟩ := Option.isSome_iff_exists.mp (h queryField List.mem_cons_self)
      rw [layoutNode, hcolumn]
      rfl
  | .unaryOperator operator queryField, schemas, _ => rfl
  | .not predicate, schemas, h => by
      obtain ⟨inner, hinner⟩ := Option.isSome_iff_exists.mp (layoutNode_isSome predicate schemas h)
      rw [layoutNode, hinner]
      rfl
  | .nary operator first rest, schemas, h => by
      have hfields : comparedFields (.nary operator first rest) =
          comparedFields first ++ (atomsOfOperands rest).flatMap fieldsOfAtom :=
        List.flatMap_append
      rw [hfields] at h
      obtain ⟨⟨node, middle⟩, hfirst⟩ := Option.isSome_iff_exists.mp
        (layoutNode_isSome first schemas fun queryField hmem => h _ (List.mem_append_left _ hmem))
      obtain ⟨tail, htail⟩ := Option.isSome_iff_exists.mp
        (layoutOperands_isSome rest middle fun queryField hmem => h _ (List.mem_append_right _ hmem))
      simp only [layoutNode, hfirst, htail, Option.bind_eq_bind, Option.bind_some]
      rfl

theorem layoutOperands_isSome : ∀ (operands : List (Predicate V)) (schemas : Schemas V),
    (∀ queryField ∈ (atomsOfOperands operands).flatMap fieldsOfAtom,
      (columns[queryField.field.columnNumber]?).isSome = true) →
      (layoutOperands columns marks operands schemas).isSome = true
  | [], schemas, _ => rfl
  | operand :: operands, schemas, h => by
      rw [atomsOfOperands, List.flatMap_append] at h
      obtain ⟨⟨node, middle⟩, hfirst⟩ := Option.isSome_iff_exists.mp
        (layoutNode_isSome operand schemas fun queryField hmem => h _ (List.mem_append_left _ hmem))
      obtain ⟨tail, htail⟩ := Option.isSome_iff_exists.mp (layoutOperands_isSome operands middle
        fun queryField hmem => h _ (List.mem_append_right _ hmem))
      simp only [layoutOperands, hfirst, htail, Option.bind_eq_bind, Option.bind_some]
      rfl

end

variable {columnOf : QueryField → ℕ} {comparand other : Predicate V → Bool → Option (List UInt8)}

mutual

/-- The condition depends on the comparands of the atoms only. -/
theorem conditionOf_congr : ∀ (predicate : Predicate V),
    (∀ atom ∈ predicate.atoms, ∀ second, comparand atom second = other atom second) →
      conditionOf columnOf comparand predicate = conditionOf columnOf other predicate
  | .comparator comparator queryField parameter, h => by
      rw [conditionOf, conditionOf, h _ (List.mem_singleton_self _)]
  | .between queryField parameter1 parameter2, h => by
      rw [conditionOf, conditionOf, h _ (List.mem_singleton_self _),
        h _ (List.mem_singleton_self _)]
  | .unaryOperator operator queryField, _ => rfl
  | .not predicate, h => by
      rw [conditionOf, conditionOf, conditionOf_congr predicate h]
  | .nary operator first rest, h => by
      rw [conditionOf, conditionOf,
        conditionOf_congr first fun atom hatom => h atom (List.mem_append_left _ hatom),
        conditionsOf_congr rest fun atom hatom => h atom (List.mem_append_right _ hatom)]

theorem conditionsOf_congr : ∀ (operands : List (Predicate V)),
    (∀ atom ∈ atomsOfOperands operands, ∀ second, comparand atom second = other atom second) →
      conditionsOf columnOf comparand operands = conditionsOf columnOf other operands
  | [], _ => rfl
  | operand :: operands, h => by
      rw [conditionsOf, conditionsOf,
        conditionOf_congr operand fun atom hatom => h atom (List.mem_append_left _ hatom),
        conditionsOf_congr operands fun atom hatom => h atom (List.mem_append_right _ hatom)]

end

end

/-! ## Literals and parameters -/

/-- The bits of BETWEEN after the tree has been marked: the second end is counted every time. -/
theorem iterate_markBetween (parameter1 parameter2 : Parameter V) (marks : ℕ) (hmarks : 0 < marks) :
    (markBetween parameter1 parameter2)^[marks] 0 =
      match parameter1, parameter2 with
      | .parameter _, .parameter _ => 0
      | .literal _, .parameter _ => 1
      | .literal _, .literal _ => 3
      | .parameter _, .literal _ => 2 * marks := by
  obtain ⟨marks, rfl⟩ := Nat.exists_eq_succ_of_ne_zero hmarks.ne'
  clear hmarks
  cases parameter1 with
  | parameter name =>
      cases parameter2 with
      | parameter other =>
          induction marks with
          | zero => rfl
          | succ marks ih =>
              rw [Function.iterate_succ_apply', ih]
              rfl
      | literal value =>
          induction marks with
          | zero => rfl
          | succ marks ih =>
              rw [Function.iterate_succ_apply', ih]
              rfl
  | literal value =>
      cases parameter2 with
      | parameter other =>
          rw [Function.iterate_succ_apply']
          rfl
      | literal other =>
          rw [Function.iterate_succ_apply']
          rfl

theorem iterate_markComparator (parameter : Parameter V) (marks : ℕ) (hmarks : 0 < marks) :
    (markComparator parameter)^[marks] 0 = if isQueryParameter parameter then 0 else 1 := by
  obtain ⟨marks, rfl⟩ := Nat.exists_eq_succ_of_ne_zero hmarks.ne'
  clear hmarks
  cases parameter with
  | parameter name =>
      induction marks with
      | zero => rfl
      | succ marks ih =>
          rw [Function.iterate_succ_apply', ih]
          rfl
  | literal value =>
      rw [Function.iterate_succ_apply']
      rfl

theorem testBit_two_mul_one (marks : ℕ) : (2 * marks).testBit 1 = decide (marks % 2 = 1) := by
  rw [Nat.testBit_succ, Nat.mul_div_cancel_left marks Nat.two_pos, Nat.testBit_zero]

/-- A comparand is laid out as a constant exactly if it is a literal, the end of a BETWEEN that
begins with a parameter apart. -/
theorem isConstant_eq {marks : ℕ} (hmarks : 0 < marks) {atom : Predicate V} {second : Bool}
    {queryField : QueryField} {parameter : Parameter V}
    (hcomparand : comparandOf atom second = some (queryField, parameter))
    (hmarked : marks % 2 = 1 ∨ endsInLiteral atom = false) :
    isConstant marks atom second = !isQueryParameter parameter := by
  cases atom with
  | comparator comparator field other =>
      obtain ⟨-, rfl⟩ := Prod.mk.inj (Option.some.inj hcomparand)
      rw [isConstant, iterate_markComparator other marks hmarks]
      cases other <;> rfl
  | between field parameter1 parameter2 =>
      obtain ⟨-, rfl⟩ := Prod.mk.inj (Option.some.inj hcomparand)
      rw [isConstant, iterate_markBetween parameter1 parameter2 marks hmarks]
      cases parameter1 with
      | literal value => cases parameter2 <;> cases second <;> simp [isQueryParameter, Nat.testBit]
      | parameter name =>
          cases parameter2 with
          | parameter other => cases second <;> simp [isQueryParameter]
          | literal value =>
              have hodd : marks % 2 = 1 := hmarked.resolve_right Bool.noConfusion
              cases second with
              | false =>
                  refine (Nat.testBit_zero (2 * marks)).trans (decide_eq_false ?_)
                  omega
              | true => exact (testBit_two_mul_one marks).trans (decide_eq_true hodd)
  | unaryOperator operator field => exact nomatch hcomparand
  | not predicate => exact nomatch hcomparand
  | nary operator first rest => exact nomatch hcomparand

/-- Lists that are put together from blocks of the same lengths are the same block by block. -/
theorem eq_of_flatMap_eq {α β : Type} {f g : α → List β} {items : List α}
    (hlength : ∀ item ∈ items, (f item).length = (g item).length)
    (h : items.flatMap f = items.flatMap g) : ∀ item ∈ items, f item = g item := by
  induction items with
  | nil => exact fun _ hitem => absurd hitem List.not_mem_nil
  | cons item items ih =>
      rw [List.flatMap_cons, List.flatMap_cons] at h
      obtain ⟨hitem, hitems⟩ := List.append_inj h (hlength item List.mem_cons_self)
      intro other hother
      rcases List.mem_cons.mp hother with rfl | hother
      · exact hitem
      · exact ih (fun item hitem => hlength item (List.mem_cons_of_mem _ hitem)) hitems other hother

theorem length_testsOfAtom {columnOf otherColumnOf : QueryField → ℕ}
    {comparand other : Predicate V → Bool → Option (List UInt8)} (atom : Predicate V) :
    (testsOfAtom columnOf comparand atom).length =
      (testsOfAtom otherColumnOf other atom).length := by
  cases atom <;> rfl

/-- If an atom has the same tests for two numberings of columns, they agree on its fields. -/
theorem columnOf_eq_of_testsOfAtom {columnOf otherColumnOf : QueryField → ℕ}
    {comparand other : Predicate V → Bool → Option (List UInt8)} {atom : Predicate V}
    (h : testsOfAtom columnOf comparand atom = testsOfAtom otherColumnOf other atom) :
    ∀ queryField ∈ fieldsOfAtom atom, columnOf queryField = otherColumnOf queryField := by
  cases atom with
  | comparator comparator field parameter =>
      intro queryField hmem
      obtain rfl := List.mem_singleton.mp hmem
      exact (AtomicTest.compare.inj (List.singleton_inj.mp h)).2.1
  | between field parameter1 parameter2 =>
      intro queryField hmem
      obtain rfl : queryField = field := by simpa [fieldsOfAtom] using hmem
      exact (AtomicTest.compare.inj (List.cons.inj h).1).2.1
  | unaryOperator operator field =>
      intro queryField hmem
      obtain rfl := List.mem_singleton.mp hmem
      exact (AtomicTest.nullTest.inj (List.singleton_inj.mp h)).2
  | not predicate => exact fun queryField hmem => absurd hmem List.not_mem_nil
  | nary operator first rest => exact fun queryField hmem => absurd hmem List.not_mem_nil

/-! ## When it does -/

/-- The encoder that marks every value that is neither missing nor NULL. -/
def markValues : Encoder V := fun column value =>
  match value with
  | .value _ => (List.replicate column.columnSpace 1, none)
  | _ => ([], none)

theorem fits_markValues : Fits (markValues : Encoder V) := by
  intro column value
  cases value with
  | value value => simp [markValues]
  | _ => exact Nat.zero_le _

theorem encoded_markValues_ne {column : ColumnMetadata} (hspace : 0 < column.columnSpace) (value : V) :
    encoded (markValues : Encoder V) column (.value value) ≠
      encoded (markValues : Encoder V) column .undefined := by
  intro h
  obtain ⟨space, hsucc⟩ := Nat.exists_eq_succ_of_ne_zero hspace.ne'
  simp [encoded, markValues, hsucc, List.replicate_succ] at h

section
variable {describe : TableHandler.ColumnMetadata S → ℕ × Bool}
  {jsonConverter : TableHandler.Converter S} {dbTable : TableMetadata S} {mapping : TableMapping S}
  {marks : ℕ} {predicate : Predicate V}

/-- The spaces of the columns are those of the description. -/
theorem columnSpace_ndbColumns (hspace : ∀ column ∈ dbTable.columns, 0 < (describe column).1) :
    ∀ column ∈ dbTable.ndbColumns describe, 0 < column.columnSpace := by
  intro column hcolumn
  obtain ⟨⟨other, number⟩, hother, rfl⟩ := List.mem_map.mp hcolumn
  exact hspace other (List.fst_mem_of_mem_zipIdx hother)

/-- Every column of the table has a description. -/
theorem ndbColumns_isSome {number : ℕ} {column : TableHandler.ColumnMetadata S}
    (h : dbTable.columns[number]? = some column) :
    ((dbTable.ndbColumns describe)[number]?).isSome = true := by
  rw [TableMetadata.ndbColumns, List.getElem?_map, List.getElem?_zipIdx, h]
  rfl

/-- A comparand that is laid out as what it is has the bytes that it should have. -/
theorem bytesOfComparand_eq {columns : List ColumnMetadata} (encoderWrite : Encoder V)
    (params : String → JsValue V) (hmarks : 0 < marks) {atom : Predicate V} (second : Bool)
    (hmarked : marks % 2 = 1 ∨ endsInLiteral atom = false) :
    bytesOfComparand columns (isConstant marks) (bytesAt encoderWrite params) atom second =
      operandBytes encoderWrite columns numberOf params atom second := by
  unfold bytesOfComparand operandBytes
  cases hcomparand : comparandOf atom second with
  | none => rfl
  | some comparand =>
      obtain ⟨queryField, parameter⟩ := comparand
      have hconstant := isConstant_eq hmarks hcomparand hmarked
      have hvalue : suppliedValue params (isConstant marks atom second) parameter =
          operandValue params parameter := by
        rw [hconstant]
        cases parameter <;> rfl
      simp only [Option.bind_some, numberOf, bytesAt, hvalue]
      cases columns[queryField.field.columnNumber]? <;> rfl

/-- The filter of a suitable query is right for every encoder. -/
theorem filters_of_suited (hmarks : 0 < marks)
    (hspace : ∀ column ∈ dbTable.columns, 0 < (describe column).1)
    (hfields : ∀ queryField ∈ comparedFields predicate, ∃ field,
      (DBTableHandler.create jsonConverter dbTable mapping).HasField queryField field)
    (hsuited : Suited dbTable mapping marks predicate) {encoderWrite : Encoder V}
    (hfits : Fits encoderWrite) :
    Filters describe (.create jsonConverter dbTable mapping) marks predicate encoderWrite := by
  have hnames : ∀ queryField ∈ comparedFields predicate, ∀ field,
      (DBTableHandler.create jsonConverter dbTable mapping).HasField queryField field →
        NamesColumn dbTable queryField.field.columnNumber field := fun queryField hmem field hfield =>
    (TableHandler.namesColumn_iff hfield (hsuited.aligned queryField hmem) _).mpr rfl
  have hsome : ∀ queryField ∈ comparedFields predicate,
      ((dbTable.ndbColumns describe)[queryField.field.columnNumber]?).isSome = true := by
    intro queryField hmem
    obtain ⟨field, hfield⟩ := hfields queryField hmem
    obtain ⟨column, hcolumn, -⟩ := hnames queryField hmem field hfield
    exact ndbColumns_isSome hcolumn
  obtain ⟨⟨node, schemas⟩, hlayout⟩ : ∃ result,
      layoutNode (dbTable.ndbColumns describe) marks predicate {} = some result :=
    Option.isSome_iff_exists.mp (layoutNode_isSome predicate {} hsome)
  have hbetween := between_layoutNode predicate hlayout
  have hcreate : FilterSpec.create (dbTable.ndbColumns describe) marks predicate =
      some { node, schemas } := congrArg (Option.map _) hlayout
  refine ⟨{ node, schemas }, hcreate, hbetween.apart, fun region hregion =>
    (hbetween.inside region hregion).2, numberOf, hnames, fun params => ?_⟩
  have hcondition := create_condition hfits (columnSpace_ndbColumns hspace)
    (TableHandler.columnNumber_of_ndbColumns describe dbTable) hcreate params
  have hbytes : ∀ atom ∈ predicate.atoms, ∀ second,
      bytesOfComparand (dbTable.ndbColumns describe) (isConstant marks)
          (bytesAt encoderWrite params) atom second =
        operandBytes encoderWrite (dbTable.ndbColumns describe) numberOf params atom second :=
    fun atom hatom second => bytesOfComparand_eq encoderWrite params hmarks second
      (hsuited.marked.imp_right fun h => h atom hatom)
  rw [conditionOf_congr predicate hbytes] at hcondition
  refine ⟨_, hcondition, ?_, fun truth => ?_⟩
  · rw [ScanCondition.tests, testsOfMembers, testsOfMembers, List.append_nil, tests_conditionOf]
    rfl
  · rw [ScanCondition.eval, evalMembers, evalMembers, apply_emptyGroup, eval_conditionOf]
    rfl

theorem between_of_endsInLiteral {atom : Predicate V} (h : endsInLiteral atom = true) :
    ∃ queryField name value, atom = .between queryField (.parameter name) (.literal value) := by
  cases atom with
  | between queryField parameter1 parameter2 =>
      cases parameter1 with
      | literal value => exact absurd h Bool.false_ne_true
      | parameter name =>
          cases parameter2 with
          | parameter other => exact absurd h Bool.false_ne_true
          | literal value => exact ⟨queryField, name, value, rfl⟩
  | _ => exact absurd h Bool.false_ne_true

/-- A literal that is laid out as a parameter has the bytes of a missing value. -/
theorem testsOfAtom_endsInLiteral_ne {columns : List ColumnMetadata} {columnOf : QueryField → ℕ}
    (hmarks : 0 < marks) (heven : ¬ marks % 2 = 1)
    (hspace : ∀ column ∈ columns, 0 < column.columnSpace) {queryField : QueryField} {name : String}
    {value : V} (hcolumn : numberOf queryField = columnOf queryField ∧
      (columns[columnOf queryField]?).isSome = true) :
    testsOfAtom numberOf (bytesOfComparand columns (isConstant marks)
        (bytesAt markValues fun _ => .undefined))
        (.between queryField (.parameter name) (.literal value)) ≠
      testsOfAtom columnOf (operandBytes markValues columns columnOf fun _ => .undefined)
        (.between queryField (.parameter name) (.literal value)) := by
  intro h
  have hhigh := (AtomicTest.compare.inj (List.singleton_inj.mp (List.cons.inj h).2)).2.2
  have hflag : isConstant marks (.between queryField (.parameter name) (.literal value)) true =
      false := by
    rw [isConstant, iterate_markBetween _ _ marks hmarks]
    exact (testBit_two_mul_one marks).trans (decide_eq_false heven)
  obtain ⟨hnumber, hsome⟩ := hcolumn
  obtain ⟨column, hcolumn⟩ := Option.isSome_iff_exists.mp hsome
  have hbytes := hhigh
  simp only [bytesOfComparand, operandBytes, comparandOf, Option.bind_some, if_true, hflag] at hbytes
  rw [show queryField.field.columnNumber = columnOf queryField from hnumber, hcolumn] at hbytes
  have hpositive := hspace column (List.mem_of_getElem? hcolumn)
  exact encoded_markValues_ne hpositive value (Option.some.inj hbytes).symm

/-- A query whose filter is right for every encoder is suitable. -/
theorem suited_of_filters (hmarks : 0 < marks)
    (hspace : ∀ column ∈ dbTable.columns, 0 < (describe column).1)
    (hfields : ∀ queryField ∈ comparedFields predicate, ∃ field,
      (DBTableHandler.create jsonConverter dbTable mapping).HasField queryField field)
    (h : ∀ encoderWrite : Encoder V, Fits encoderWrite →
      Filters describe (.create jsonConverter dbTable mapping) marks predicate encoderWrite) :
    Suited dbTable mapping marks predicate := by
  obtain ⟨filterSpec, hcreate, -, -, columnOf, hnames, hdenotes⟩ := h markValues fits_markValues
  have hcondition := create_condition (fits_markValues (V := V)) (columnSpace_ndbColumns hspace)
    (TableHandler.columnNumber_of_ndbColumns describe dbTable) hcreate fun _ => .undefined
  obtain ⟨condition, hread, htests, -⟩ := hdenotes fun _ => .undefined
  obtain rfl := Option.some.inj (hcondition.symm.trans hread)
  rw [ScanCondition.tests, testsOfMembers, testsOfMembers, List.append_nil, tests_conditionOf] at htests
  -- the tests agree atom by atom
  have hatoms := eq_of_flatMap_eq (fun atom _ => length_testsOfAtom atom) htests
  have hcolumns : ∀ queryField ∈ comparedFields predicate,
      queryField.field.columnNumber = columnOf queryField := by
    intro queryField hmem
    obtain ⟨atom, hatom, hfield⟩ := List.mem_flatMap.mp hmem
    exact columnOf_eq_of_testsOfAtom (hatoms atom hatom) queryField hfield
  refine ⟨fun queryField hmem => ?_, ?_⟩
  · obtain ⟨field, hfield⟩ := hfields queryField hmem
    have hnamed := hnames queryField hmem field hfield
    rw [← hcolumns queryField hmem] at hnamed
    exact TableHandler.aligned_of_namesColumn hfield hnamed
  · by_contra hnot
    rw [not_or, not_forall] at hnot
    obtain ⟨heven, atom, hnot⟩ := hnot
    rw [Classical.not_imp, Bool.not_eq_false] at hnot
    obtain ⟨queryField, name, value, rfl⟩ := between_of_endsInLiteral hnot.2
    have hmem : queryField ∈ comparedFields predicate :=
      List.mem_flatMap.mpr ⟨_, hnot.1, List.mem_cons_self⟩
    obtain ⟨field, hfield⟩ := hfields queryField hmem
    obtain ⟨column, hcolumn, -⟩ := hnames queryField hmem field hfield
    rw [← hcolumns queryField hmem] at hcolumn
    refine testsOfAtom_endsInLiteral_ne hmarks heven (columnSpace_ndbColumns hspace) ?_
      (hatoms _ hnot.1)
    rw [← hcolumns queryField hmem]
    exact ⟨rfl, ndbColumns_isSome hcolumn⟩

end

/-! ## A query on people -/

/-- The fields of people, with the numbers that a mapping of all columns gives them. -/
def idField : QueryField where
  tableAlias := []
  field := { columnName := "id".toList, columnNumber := 0 }

def ageField : QueryField where
  tableAlias := []
  field := { columnName := "age".toList, columnNumber := 2 }

/-- The field `id` of a mapping that names the age first. -/
def secondField : QueryField where
  tableAlias := []
  field := { columnName := "id".toList, columnNumber := 1 }

/-- `age >= ? AND NOT (id BETWEEN ? AND 5)`. -/
def elders : Predicate ℕ :=
  .nary .and (.comparator .ge ageField (.parameter "age"))
    [.not (.between idField (.parameter "low") (.literal 5))]

theorem elders_fields : ∀ queryField ∈ comparedFields elders, ∃ field,
    (DBTableHandler.create ⟨some, some⟩ TableHandler.people {}).HasField queryField field := by
  have hfields : comparedFields elders = [ageField, idField, idField] := rfl
  rw [hfields]
  simp only [List.forall_mem_cons, List.not_mem_nil, false_implies, implies_true, and_true]
  have hage : (DBTableHandler.create ⟨some, some⟩ TableHandler.people {}).HasField ageField
      { fieldName := "age", columnName := some "age" } := ⟨_, rfl, rfl, rfl⟩
  have hid : (DBTableHandler.create ⟨some, some⟩ TableHandler.people {}).HasField idField
      { fieldName := "id", columnName := some "id" } := ⟨_, rfl, rfl, rfl⟩
  exact ⟨⟨_, hage⟩, ⟨_, hid⟩, ⟨_, hid⟩⟩

/-- The encoder of unsigned columns. -/
def storeUnsigned : Encoder ℕ := fun column value =>
  match value with
  | .value number => (littleEndian column.columnSpace number, none)
  | _ => ([], some "HY000")

theorem storeUnsigned_fits : Fits storeUnsigned := by
  intro column value
  cases value with
  | value number => exact (length_littleEndian column.columnSpace number).le
  | _ => exact Nat.zero_le _

end DatabaseJones.NdbOperation
