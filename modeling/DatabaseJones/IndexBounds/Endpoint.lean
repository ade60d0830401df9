import DatabaseJones.Library.PrefixOrder

/-!
# Parts of index keys

An endpoint on a column is a value, NULL or an infinity.  NULL is below every
value and above `-Infinity`.
-/

namespace DatabaseJones.IndexBounds

/-- A column value of an endpoint. -/
inductive KeyPart (α : Type*)
  | negInf
  | null
  | val (value : α)
  | posInf
deriving DecidableEq, Repr

variable {α : Type*}

variable [LinearOrder α]

/-- The order `-Infinity`, NULL, the values, `Infinity`. -/
def KeyPart.le : KeyPart α → KeyPart α → Bool
  | .negInf, _ => true
  | _, .negInf => false
  | .null, _ => true
  | _, .null => false
  | .val value, .val value' => decide (value ≤ value')
  | .val _, .posInf => true
  | .posInf, .val _ => false
  | .posInf, .posInf => true

instance : LE (KeyPart α) := ⟨fun part part' => part.le part' = true⟩

instance : DecidableLE (KeyPart α) := fun _ _ => inferInstanceAs (Decidable (_ = true))

theorem KeyPart.le_iff {part part' : KeyPart α} : part ≤ part' ↔ part.le part' = true := Iff.rfl

instance : LinearOrder (KeyPart α) where
  le_refl part := by cases part <;> simp [KeyPart.le_iff, KeyPart.le]
  le_trans part part' part'' := by
    cases part <;> cases part' <;> cases part'' <;> simp [KeyPart.le_iff, KeyPart.le]
    exact le_trans
  le_antisymm part part' := by
    cases part <;> cases part' <;> simp [KeyPart.le_iff, KeyPart.le]
    exact le_antisymm
  le_total part part' := by
    cases part <;> cases part' <;> simp [KeyPart.le_iff, KeyPart.le]
    exact le_total _ _
  toDecidableLE := inferInstance

theorem KeyPart.lt_iff {part part' : KeyPart α} : part < part' ↔ part'.le part = false := by
  rw [← not_le, KeyPart.le_iff, Bool.not_eq_true]

@[simp] theorem KeyPart.negInf_lt_null : (KeyPart.negInf : KeyPart α) < .null := by
  simp [KeyPart.lt_iff, KeyPart.le]

@[simp] theorem KeyPart.negInf_lt_val (value : α) : KeyPart.negInf < .val value := by
  simp [KeyPart.lt_iff, KeyPart.le]

@[simp] theorem KeyPart.null_lt_val (value : α) : KeyPart.null < .val value := by
  simp [KeyPart.lt_iff, KeyPart.le]

@[simp] theorem KeyPart.null_lt_posInf : (KeyPart.null : KeyPart α) < .posInf := by
  simp [KeyPart.lt_iff, KeyPart.le]

@[simp] theorem KeyPart.val_lt_posInf (value : α) : KeyPart.val value < .posInf := by
  simp [KeyPart.lt_iff, KeyPart.le]

@[simp] theorem KeyPart.val_lt_val {value value' : α} :
    KeyPart.val value < .val value' ↔ value < value' := by
  simp [KeyPart.lt_iff, KeyPart.le]

@[simp] theorem KeyPart.negInf_le (part : KeyPart α) : .negInf ≤ part := by
  cases part <;> simp [KeyPart.le_iff, KeyPart.le]

@[simp] theorem KeyPart.le_posInf (part : KeyPart α) : part ≤ .posInf := by
  cases part <;> simp [KeyPart.le_iff, KeyPart.le]

/-- The value of a column in a row. -/
def KeyPart.ofColumn : Option α → KeyPart α
  | none => .null
  | some value => .val value

end DatabaseJones.IndexBounds

/-!
## Index bounds

What `getIndexBounds` exports: an `IndexBound` is a range of index keys between
two endpoints, each of them a list of key parts.  An endpoint with fewer parts
than the index has columns is compared with a key on the parts it has.
-/

namespace DatabaseJones.IndexBounds

open DatabaseJones.Library

variable {α : Type*}

/-- An endpoint of an exported bound. -/
structure IndexBoundEndpoint (α : Type*) where
  inclusive : Bool
  key : List (KeyPart α)
deriving DecidableEq, Repr

/-- An exported bound. -/
structure IndexBound (α : Type*) where
  low : IndexBoundEndpoint α
  high : IndexBoundEndpoint α
deriving DecidableEq, Repr

/-- The values of the columns of an index in a row, as key parts. -/
def indexKey (key : List (Option α)) : List (KeyPart α) := key.map .ofColumn

variable [LinearOrder α]

/-- A key is on the inner side of an endpoint: the endpoint compares as `side` with
it, or agrees with it and is inclusive.  The side of a low end is `lt`, that of a
high end is `gt`. -/
def Inside (side : Ordering) (parts : List (KeyPart α)) (inclusive : Bool)
    (key : List (KeyPart α)) : Prop :=
  comparePrefix parts key = side ∨ comparePrefix parts key = .eq ∧ inclusive = true

instance (side : Ordering) (parts : List (KeyPart α)) (inclusive : Bool) :
    DecidablePred (Inside side parts inclusive) :=
  fun _ => inferInstanceAs (Decidable (_ ∨ _))

/-- The index keys in a bound. -/
def IndexBound.Contains (bound : IndexBound α) (key : List (Option α)) : Prop :=
  Inside .lt bound.low.key bound.low.inclusive (indexKey key) ∧
    Inside .gt bound.high.key bound.high.inclusive (indexKey key)

instance (bound : IndexBound α) : DecidablePred bound.Contains :=
  fun _ => inferInstanceAs (Decidable (_ ∧ _))

end DatabaseJones.IndexBounds

/-!
## Endpoints

The values and endpoints of `IndexBounds.js`.  An endpoint holds a plain value, on
the number line of a column, or an `IndexValue`, on the number line of an index.
-/

namespace DatabaseJones.IndexBounds

open DatabaseJones.Library

variable {α : Type*} [LinearOrder α]

/-! ## Values -/

/-- `compareValues(a, b)` on plain values: the infinities are compared first, and
never equal. -/
def compareValues (a b : KeyPart α) : Ordering :=
  if a = .negInf ∨ b = .posInf then .lt
  else if a = .posInf ∨ b = .negInf then .gt
  else compare a b

/-- The loop of `IndexValue.compare`, on the parts that both have. -/
def compareParts : List (KeyPart α) → List (KeyPart α) → Ordering
  | a :: as, b :: bs => (compareValues a b).then (compareParts as bs)
  | _, _ => .eq

/-- The value of an endpoint: a plain value or an `IndexValue`. -/
inductive Value (α : Type*)
  | plain (value : KeyPart α)
  | index (parts : List (KeyPart α))
deriving DecidableEq, Repr

/-- The comparison of values: an `IndexValue` asserts that it is compared with
another one; a plain value that is not infinite or NULL is not equal to an
`IndexValue` and not less. -/
def Value.compare : Value α → Value α → Option Ordering
  | .plain a, .plain b => some (compareValues a b)
  | .index as, .index bs => some (compareParts as bs)
  | .index _, .plain _ => none
  | .plain .negInf, .index _ => some .lt
  | .plain .null, .index _ => some .lt
  | .plain (.val _), .index _ => some .gt
  | .plain .posInf, .index _ => some .gt

/-- Only values are finite: infinities are not, and NULL is taken for one. -/
def KeyPart.isFinite : KeyPart α → Bool
  | .val _ => true
  | _ => false

/-- The `isFinite` of an endpoint; an `IndexValue` is finite if its last part is. -/
def Value.isFinite : Value α → Bool
  | .plain value => value.isFinite
  | .index parts => parts.getLast?.any KeyPart.isFinite

/-- `new IndexValue(value)`. -/
def Value.toIndexValue : Value α → Value α
  | .plain value => .index [value]
  | .index parts => .index parts

/-! ## Endpoints -/

/-- An endpoint; `isLow` is `none` until `low()` or `high()` is called.  The field
`isFinite` of the source always is that of the value. -/
structure Endpoint (α : Type*) where
  value : Value α
  inclusive : Bool
  isLow : Option Bool
deriving DecidableEq, Repr

namespace Endpoint

variable (endpoint : Endpoint α)

def low : Endpoint α := { endpoint with isLow := some true }

def high : Endpoint α := { endpoint with isLow := some false }

/-- `complement()`: flips a finite endpoint between inclusive and exclusive. -/
def complement : Endpoint α :=
  { endpoint with
    inclusive := if endpoint.value.isFinite then !endpoint.inclusive else endpoint.inclusive
    isLow := endpoint.isLow.map (!·) }

/-- `toIndexValueEndpoint()`. -/
def toIndexValueEndpoint : Endpoint α := { endpoint with value := endpoint.value.toIndexValue }

/-- `push(e)`, on endpoints that contain an `IndexValue`. -/
def push (e : Endpoint α) : Endpoint α :=
  match endpoint.value, e.value with
  | .index parts, .plain value =>
      { endpoint with value := .index (parts ++ [value]), inclusive := e.inclusive }
  | _, _ => endpoint

/-- The order of endpoints whose values are equal. -/
def compareSides (this that : Endpoint α) : Ordering :=
  if this.isLow = some true ∧ that.isLow = some true ∧ this.inclusive ≠ that.inclusive then
    if this.inclusive then .lt else .gt
  else if this.isLow = that.isLow ∧ this.inclusive ≠ that.inclusive then
    if this.inclusive then .gt else .lt
  else if this.inclusive ∧ that.inclusive then
    if this.isLow = some true then .lt else .gt
  else
    if this.isLow = some true then .gt else .lt

/-- `compare(that)`; `none` is a failed assertion. -/
def compare (this that : Endpoint α) : Option Ordering :=
  (this.value.compare that.value).map fun cmp => cmp.then (this.compareSides that)

end Endpoint

/-- Inclusive endpoints for negative and positive infinity. -/
def negInf : Endpoint α := { value := .plain .negInf, inclusive := true, isLow := some true }

def posInf : Endpoint α := { value := .plain .posInf, inclusive := true, isLow := some false }

/-- `new Endpoint(value, inclusive)`. -/
def newEndpoint (value : KeyPart α) (inclusive : Bool) : Endpoint α :=
  { value := .plain value, inclusive := inclusive, isLow := none }

/-- The three endpoints for NULL and NOT NULL. -/
def negInfNonNull : Endpoint α := newEndpoint .null false

def nullInc : Endpoint α := newEndpoint .null true

def nullExc : Endpoint α := newEndpoint .null false

end DatabaseJones.IndexBounds
