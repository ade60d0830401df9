import Mathlib.Data.List.Basic
import Mathlib.Tactic

/-!
# Query predicates

The predicate trees that the query API builds, with their meaning under SQL's
three-valued logic.  A truth value is an `Option Bool`, where `none` is UNKNOWN.
The type `ν` of literal comparands is a parameter.
-/

namespace DatabaseJones.Query

/-! ## Predicate trees -/

/-- The comparators of `QueryEq`, `QueryNe`, `QueryLt`, `QueryLe`, `QueryGt`, `QueryGe`. -/
inductive Comparator
  | eq | ne | lt | le | gt | ge
deriving DecidableEq, Repr

/-- The operators of `QueryIsNull` and `QueryIsNotNull`. -/
inductive UnaryOperator
  | isNull | isNotNull
deriving DecidableEq, Repr

/-- The operators of `QueryAnd` and `QueryOr`. -/
inductive NaryOperator
  | and | or
deriving DecidableEq, Repr

/-- What a predicate reads of a field mapping. -/
structure FieldMapping where
  columnName : List Char
  columnNumber : ℕ
deriving DecidableEq, Repr

/-- A mapped field of a sector: `tableAlias` is the alias of its table with the dot,
or empty. -/
structure QueryField where
  tableAlias : List Char
  field : FieldMapping
deriving DecidableEq, Repr

/-- The constructor copies the column name of the field mapping. -/
def QueryField.columnName (queryField : QueryField) : List Char := queryField.field.columnName

/-- A comparand: a named parameter or a literal. -/
inductive Parameter (ν : Type*)
  | parameter (name : String)
  | literal (value : ν)
deriving DecidableEq, Repr

/-- A predicate tree.  The operands of AND and OR are a first one and a list of
further ones; the API builds two and appends more. -/
inductive Predicate (ν : Type*)
  | comparator (comparator : Comparator) (queryField : QueryField) (parameter : Parameter ν)
  | between (queryField : QueryField) (parameter1 parameter2 : Parameter ν)
  | unaryOperator (operator : UnaryOperator) (queryField : QueryField)
  | not (predicate : Predicate ν)
  | nary (operator : NaryOperator) (first : Predicate ν) (rest : List (Predicate ν))

variable {ν V : Type*}

/-- Induction over predicate trees, with a hypothesis for every operand. -/
@[elab_as_elim, induction_eliminator]
theorem Predicate.induct {motive : Predicate ν → Prop}
    (comparator : ∀ comparator queryField parameter,
      motive (.comparator comparator queryField parameter))
    (between : ∀ queryField parameter1 parameter2,
      motive (.between queryField parameter1 parameter2))
    (unaryOperator : ∀ operator queryField, motive (.unaryOperator operator queryField))
    (not : ∀ predicate, motive predicate → motive (.not predicate))
    (nary : ∀ operator first rest, motive first → (∀ operand ∈ rest, motive operand) →
      motive (.nary operator first rest))
    (predicate : Predicate ν) : motive predicate :=
  @Predicate.rec ν motive (fun operands => ∀ operand ∈ operands, motive operand)
    comparator between unaryOperator not nary nofun
    (fun _ _ hhead htail => List.forall_mem_cons.mpr ⟨hhead, htail⟩) predicate

mutual

/-- The comparisons and null tests of a tree, in order. -/
def Predicate.atoms : Predicate ν → List (Predicate ν)
  | .not predicate => predicate.atoms
  | .nary _ first rest => first.atoms ++ atomsOfOperands rest
  | atom => [atom]

def atomsOfOperands : List (Predicate ν) → List (Predicate ν)
  | [] => []
  | operand :: operands => operand.atoms ++ atomsOfOperands operands

end

/-- The field that a comparison or null test is about. -/
def Predicate.queryField? : Predicate ν → Option QueryField
  | .comparator _ queryField _ => some queryField
  | .between queryField _ _ => some queryField
  | .unaryOperator _ queryField => some queryField
  | _ => none

/-- The comparands of a comparison. -/
def Predicate.parameters : Predicate ν → List (Parameter ν)
  | .comparator _ _ parameter => [parameter]
  | .between _ parameter1 parameter2 => [parameter1, parameter2]
  | _ => []

/-! ## Meaning -/

/-- NOT in three-valued logic. -/
def truthNot (truth : Option Bool) : Option Bool := truth.map (!·)

/-- AND and OR in three-valued logic. -/
def NaryOperator.apply : NaryOperator → Option Bool → Option Bool → Option Bool
  | .and, some false, _ => some false
  | .and, _, some false => some false
  | .and, some true, truth => truth
  | .and, none, _ => none
  | .or, some true, _ => some true
  | .or, _, some true => some true
  | .or, some false, truth => truth
  | .or, none, _ => none

/-- Values for columns and comparands, with a meaning for the comparators. -/
structure Interpretation (κ ω V : Type*) where
  column : κ → Option V
  value : ω → Option V
  compare : Comparator → V → V → Bool

variable {κ ω : Type*}

/-- A comparison with NULL is UNKNOWN. -/
def Interpretation.comparison (interpretation : Interpretation κ ω V) (comparator : Comparator)
    (column : κ) (value : ω) : Option Bool :=
  (interpretation.column column).bind fun left =>
    (interpretation.value value).map (interpretation.compare comparator left)

/-- `column BETWEEN low AND high` abbreviates `column >= low AND column <= high`. -/
def Interpretation.betweenness (interpretation : Interpretation κ ω V) (column : κ)
    (low high : ω) : Option Bool :=
  NaryOperator.and.apply (interpretation.comparison .ge column low)
    (interpretation.comparison .le column high)

/-- The null tests are never UNKNOWN. -/
def Interpretation.nullTest (interpretation : Interpretation κ ω V) (operator : UnaryOperator)
    (column : κ) : Option Bool :=
  match operator with
  | .isNull => some (interpretation.column column).isNone
  | .isNotNull => some (interpretation.column column).isSome

mutual

/-- The truth value of a predicate. -/
def Predicate.eval (interpretation : Interpretation QueryField (Parameter ν) V) :
    Predicate ν → Option Bool
  | .comparator comparator queryField parameter =>
      interpretation.comparison comparator queryField parameter
  | .between queryField parameter1 parameter2 =>
      interpretation.betweenness queryField parameter1 parameter2
  | .unaryOperator operator queryField => interpretation.nullTest operator queryField
  | .not predicate => truthNot (predicate.eval interpretation)
  | .nary operator first rest =>
      evalOperands interpretation operator (first.eval interpretation) rest

/-- Combine the truth value of the operands so far with those of the others. -/
def evalOperands (interpretation : Interpretation QueryField (Parameter ν) V)
    (operator : NaryOperator) (truth : Option Bool) : List (Predicate ν) → Option Bool
  | [] => truth
  | operand :: operands =>
      evalOperands interpretation operator (operator.apply truth (operand.eval interpretation))
        operands

end

end DatabaseJones.Query

/-!
## Column masks

`BitMask` is an array of 24-bit integers with a separate `size`.  Setting bit `24`
of a mask of size `24` extends the array but not the size, and `orWith` looks at
the size: the columns whose number is a positive multiple of 24 are lost there
unless another mask is larger.
-/

namespace DatabaseJones.Query

/-! ## BitMask -/

def radix : ℕ := 24

structure BitMask where
  size : ℕ
  mask : List ℕ
deriving DecidableEq, Repr

namespace BitMask

/-- `_grow(size)`: the size is rounded up. -/
def grow (bitMask : BitMask) (size : ℕ) : BitMask :=
  let missing := (size - bitMask.mask.length * radix + (radix - 1)) / radix
  { size := (bitMask.mask.length + missing) * radix
    mask := bitMask.mask ++ List.replicate missing 0 }

/-- `new BitMask(size)`. -/
def new (size : ℕ := radix) : BitMask := grow { size := 0, mask := [] } size

/-- `_getPart(n)`. -/
def getPart (bitMask : BitMask) (n : ℕ) : ℕ := bitMask.mask.getD n 0

/-- `set(bit)`. -/
def set (bitMask : BitMask) (bit : ℕ) : BitMask :=
  let bitMask := if bitMask.size ≤ bit then bitMask.grow bit else bitMask
  let part := bitMask.getPart (bit / radix) ||| 2 ^ (bit % radix)
  { bitMask with
    mask := if bit / radix < bitMask.mask.length then bitMask.mask.set (bit / radix) part
      else bitMask.mask ++ [part] }

/-- `orWith(that)`. -/
def orWith (bitMask that : BitMask) : BitMask :=
  let m := new (max bitMask.size that.size)
  { m with mask := (List.range m.mask.length).map fun i => bitMask.getPart i ||| that.getPart i }

/-- `toArray()`: the bits that are set, in ascending order. -/
def toArray (bitMask : BitMask) : List ℕ :=
  (List.range bitMask.mask.length).flatMap fun n =>
    ((List.range radix).filter fun i => (bitMask.getPart n).testBit i).map (· + n * radix)

end BitMask

/-! ## Marking the nodes -/

variable {ν : Type*}

mutual

/-- The `usedColumnMask` that `MaskMarkerVisitor` stores in a node. -/
def Predicate.usedColumnMask : Predicate ν → BitMask
  | .comparator _ queryField _ => BitMask.new.set queryField.field.columnNumber
  | .between queryField _ _ => BitMask.new.set queryField.field.columnNumber
  | .unaryOperator _ queryField => BitMask.new.set queryField.field.columnNumber
  | .not predicate => predicate.usedColumnMask
  | .nary _ first rest => usedByOperands (BitMask.new.orWith first.usedColumnMask) rest

def usedByOperands (usedColumnMask : BitMask) : List (Predicate ν) → BitMask
  | [] => usedColumnMask
  | operand :: operands => usedByOperands (usedColumnMask.orWith operand.usedColumnMask) operands

end

end DatabaseJones.Query
