import DatabaseJones.BitMask.Words
import DatabaseJones.TableHandler.IndexColumns

/-!
# Choosing an index by column masks

`chooseIndex` of `DBTableHandler.js` with the two choices it is made of and the score of an
index.  The fields of a key object and the columns of an index become masks over the columns
of the handler.
-/

namespace DatabaseJones.TableHandler

open DatabaseJones.Query

variable {S : Type}

/-! ## The masks of fields and indexes -/

/-- A new mask in which the bits have been set one after the other. -/
def maskOf (size : ℕ) (bits : List ℕ) : BitMask := bits.foldl BitMask.set (BitMask.new size)

/-- `columnMask` of a field, which has the size of the table.  A relationship field has none. -/
def DBTableHandler.columnMaskOf (dbTableHandler : DBTableHandler S) (field : DBTField S) :
    Option BitMask :=
  if field.mapping.relationship then none
  else some (maskOf dbTableHandler.dbTable.columns.length field.columnMask)

/-- The properties that every object has from `Object.prototype`. -/
def objectPrototypeNames : List String :=
  ["__defineGetter__", "__defineSetter__", "__lookupGetter__", "__lookupSetter__", "__proto__",
    "constructor", "hasOwnProperty", "isPrototypeOf", "propertyIsEnumerable", "toLocaleString",
    "toString", "valueOf"]

/-- `getColumnMaskForField(name)`.  `fields` is a plain object: under the names above it holds
something that has no `mapping`, and reading the mask of that throws. -/
def DBTableHandler.getColumnMaskForField (dbTableHandler : DBTableHandler S) (name : String) :
    Option (Option BitMask) :=
  if name ∈ objectPrototypeNames then none
  else some ((dbTableHandler.priv.field? name).bind dbTableHandler.columnMaskOf)

/-- `columnMask` of an index handler whose parent has `maxCols` columns. -/
def DBIndexHandler.columnMask (indexHandler : DBIndexHandler) (maxCols : ℕ) : BitMask :=
  maskOf maxCols indexHandler.indexColumnNumbers

/-! ## Choosing by masks -/

/-- The columns that a predicate uses, and those that it compares for equality. -/
structure PredicateMasks where
  usedColumnMask : BitMask
  equalColumnMask : BitMask
deriving DecidableEq, Repr

/-- The loop of `score(predicate)` over the remaining parts of an index; an index without
parts reads the bit `undefined`, which is never set.  The masks have room for all columns, so
that reading a bit does not let them grow. -/
def PredicateMasks.score (predicate : PredicateMasks) : List ℕ → ℕ
  | [] => 0
  | colNo :: columnNumbers =>
      if (predicate.usedColumnMask.bitIsSet colNo).1 then
        (1 + if (predicate.equalColumnMask.bitIsSet colNo).1 then 1 else 0) +
          predicate.score columnNumbers
      else 0

/-- `score(predicate)`. -/
def DBIndexHandler.score (indexHandler : DBIndexHandler) (predicate : PredicateMasks) : ℕ :=
  predicate.score indexHandler.indexColumnNumbers

/-- `chooseUniqueIndexForPredicate(predicate)`. -/
def DBTableHandler.chooseUniqueIndexForPredicate (dbTableHandler : DBTableHandler S)
    (predicate : PredicateMasks) : Option DBIndexHandler :=
  dbTableHandler.dbIndexHandlers.find? fun indexHandler =>
    let columnMask := indexHandler.columnMask dbTableHandler.getNumberOfColumns
    indexHandler.dbIndex.isUnique &&
      (BitMask.binaryOp .and predicate.equalColumnMask columnMask).isEqualTo columnMask

/-- The body of the loop of `chooseOrderedIndexForPredicate`, with `highScore` and
`highScorer`. -/
def considerIndex (predicate : PredicateMasks) (best : ℕ × Option DBIndexHandler)
    (indexHandler : DBIndexHandler) : ℕ × Option DBIndexHandler :=
  if indexHandler.dbIndex.isOrdered ∧ best.1 < indexHandler.score predicate then
    (indexHandler.score predicate, some indexHandler)
  else best

/-- `chooseOrderedIndexForPredicate(predicate)`. -/
def DBTableHandler.chooseOrderedIndexForPredicate (dbTableHandler : DBTableHandler S)
    (predicate : PredicateMasks) : Option DBIndexHandler :=
  (dbTableHandler.dbIndexHandlers.foldl (considerIndex predicate) (0, none)).2

/-! ## Choosing by keys -/

/-- The parameter `keys`: a number or string, or an object by its own properties.  `null`,
`undefined` and a boolean have none. -/
inductive Keys (S : Type)
  | simple (value : S)
  | object (properties : Properties S)

/-- The two masks before any field has been looked at. -/
def PredicateMasks.new (ncol : ℕ) : PredicateMasks := ⟨BitMask.new ncol, BitMask.new ncol⟩

/-- `orWith` on the mask of the used columns and, for a value that is not `null`, on that of
the equal ones. -/
def PredicateMasks.orWith (predicate : PredicateMasks) (mask : BitMask) (isNull : Bool) :
    PredicateMasks :=
  { usedColumnMask := predicate.usedColumnMask.orWith mask
    equalColumnMask :=
      if isNull then predicate.equalColumnMask else predicate.equalColumnMask.orWith mask }

/-- `value === null`. -/
def Value.isNull : Value S → Bool
  | .null => true
  | _ => false

/-- `value === undefined`. -/
def Value.isUndefined : Value S → Bool
  | .undefined => true
  | _ => false

/-- The body of the loop of `chooseIndex` over the properties of a key object. -/
def DBTableHandler.addKey (dbTableHandler : DBTableHandler S) (predicate : PredicateMasks)
    (property : String × Value S) : Option PredicateMasks :=
  if property.2.isUndefined then some predicate
  else
    (dbTableHandler.getColumnMaskForField property.1).map fun mask =>
      match mask with
      | some mask => predicate.orWith mask property.2.isNull
      | none => predicate

/-- The masks that `chooseIndex` derives from the keys.  It throws if there is no index for a
simple key, and if `keys.hasOwnProperty` is not the inherited one. -/
def DBTableHandler.predicateOf (dbTableHandler : DBTableHandler S) :
    Keys S → Option PredicateMasks
  | .simple _ =>
      dbTableHandler.dbIndexHandlers.head?.map fun indexHandler =>
        match indexHandler.indexColumnNumbers.head? with
        | some pkcol0 =>
            { usedColumnMask := (BitMask.new dbTableHandler.getNumberOfColumns).set pkcol0
              equalColumnMask := (BitMask.new dbTableHandler.getNumberOfColumns).set pkcol0 }
        | none => .new dbTableHandler.getNumberOfColumns
  | .object properties =>
      if "hasOwnProperty" ∈ properties.map Prod.fst then none
      else properties.foldlM dbTableHandler.addKey (.new dbTableHandler.getNumberOfColumns)

/-- `chooseIndex(keys, allowUnique, allowScan)`. -/
def DBTableHandler.chooseIndex (dbTableHandler : DBTableHandler S) (keys : Keys S)
    (allowUnique allowScan : Bool) : Option (Option DBIndexHandler) :=
  (dbTableHandler.predicateOf keys).map fun predicate =>
    let indexHandler :=
      if allowUnique then dbTableHandler.chooseUniqueIndexForPredicate predicate else none
    if allowScan ∧ indexHandler.isNone then dbTableHandler.chooseOrderedIndexForPredicate predicate
    else indexHandler

/-! ## What the masks contain -/

theorem maskOf_spec (size : ℕ) (bits : List ℕ) :
    (maskOf size bits).Sound ∧ (maskOf size bits).toFinset = bits.toFinset := by
  have hrun : ∀ (bits : List ℕ) (mask : BitMask), mask.Sound →
      (bits.foldl BitMask.set mask).Sound ∧
        (bits.foldl BitMask.set mask).toFinset = mask.toFinset ∪ bits.toFinset := by
    intro bits
    induction bits with
    | nil => exact fun mask h => ⟨h, by rw [List.foldl_nil, List.toFinset_nil, Finset.union_empty]⟩
    | cons bit bits ih =>
        intro mask h
        obtain ⟨hsound, hset⟩ := ih (mask.set bit) (h.set bit)
        refine ⟨hsound, ?_⟩
        rw [List.foldl_cons, hset, h.toFinset_set, List.toFinset_cons, Finset.insert_union,
          Finset.union_insert]
  obtain ⟨hsound, hset⟩ := hrun bits _ (BitMask.sound_new size)
  exact ⟨hsound, by rw [maskOf, hset, BitMask.toFinset_new, Finset.empty_union]⟩

theorem sound_maskOf (size : ℕ) (bits : List ℕ) : (maskOf size bits).Sound := (maskOf_spec size bits).1

theorem toFinset_maskOf (size : ℕ) (bits : List ℕ) : (maskOf size bits).toFinset = bits.toFinset :=
  (maskOf_spec size bits).2

/-- A mask with room for `ncol` columns, which has no other bits. -/
structure Fits (ncol : ℕ) (mask : BitMask) : Prop where
  sound : mask.Sound
  room : ncol ≤ mask.size
  bounded : ∀ bit ∈ mask.toFinset, bit < ncol

theorem fits_new (ncol : ℕ) : Fits ncol (BitMask.new ncol) where
  sound := BitMask.sound_new ncol
  room := BitMask.le_size_grow _ ncol
  bounded bit hbit := by
    rw [BitMask.toFinset_new] at hbit
    exact absurd hbit (Finset.notMem_empty bit)

/-- Reading the bit of a column leaves such a mask as it is. -/
theorem Fits.bitIsSet_snd {ncol : ℕ} {mask : BitMask} (h : Fits ncol mask) {bit : ℕ}
    (hbit : bit < ncol) : (mask.bitIsSet bit).2 = mask := by
  rw [BitMask.bitIsSet_snd, BitMask.grownFor, if_neg (not_le.mpr (hbit.trans_le h.room))]

theorem size_set_of_lt {mask : BitMask} {bit : ℕ} (h : bit < mask.size) :
    (mask.set bit).size = mask.size := by
  rw [BitMask.set_eq, BitMask.grownFor, if_neg (not_le.mpr h), BitMask.assign]

theorem Fits.set {ncol : ℕ} {mask : BitMask} (h : Fits ncol mask) {bit : ℕ} (hbit : bit < ncol) :
    Fits ncol (mask.set bit) where
  sound := h.sound.set bit
  room := by
    rw [size_set_of_lt (hbit.trans_le h.room)]
    exact h.room
  bounded other hother := by
    rw [h.sound.toFinset_set, Finset.mem_insert] at hother
    rcases hother with rfl | hother
    · exact hbit
    · exact h.bounded other hother

/-- Nothing is lost by `orWith` if the bits of both masks are numbers of columns. -/
theorem Fits.toFinset_orWith {ncol : ℕ} {mask that : BitMask} (h : Fits ncol mask)
    (hthat : that.Sound) (hbounded : ∀ bit ∈ that.toFinset, bit < ncol) :
    (mask.orWith that).toFinset = mask.toFinset ∪ that.toFinset := by
  rw [BitMask.orWith_eq]
  apply (h.sound.toFinset_binaryOp_iff hthat .or).mpr
  intro bit hbit
  have hlt : bit < ncol := by
    rcases Finset.mem_union.mp hbit with hmem | hmem
    · exact h.bounded bit hmem
    · exact hbounded bit hmem
  exact hlt.trans_le (h.room.trans (le_max_left _ _))

theorem Fits.orWith {ncol : ℕ} {mask that : BitMask} (h : Fits ncol mask) (hthat : that.Sound)
    (hbounded : ∀ bit ∈ that.toFinset, bit < ncol) : Fits ncol (mask.orWith that) where
  sound := h.sound.binaryOp hthat .or
  room := by
    have hsize : max mask.size that.size ≤ (mask.orWith that).size := BitMask.le_size_grow _ _
    exact h.room.trans ((le_max_left _ _).trans hsize)
  bounded bit hbit := by
    rw [h.toFinset_orWith hthat hbounded] at hbit
    rcases Finset.mem_union.mp hbit with hmem | hmem
    · exact h.bounded bit hmem
    · exact hbounded bit hmem

/-- Setting a bit does not make a mask smaller. -/
theorem size_le_size_set {mask : BitMask} (h : mask.Sound) (bit : ℕ) :
    mask.size ≤ (mask.set bit).size := by
  rw [BitMask.set_eq, BitMask.grownFor]
  split_ifs with hsize
  · exact h.covered.trans (Nat.mul_le_mul_right _ (Nat.le_add_right _ _))
  · exact le_rfl

theorem le_size_maskOf (size : ℕ) (bits : List ℕ) : size ≤ (maskOf size bits).size := by
  have hrun : ∀ (bits : List ℕ) (mask : BitMask), mask.Sound →
      mask.size ≤ (bits.foldl BitMask.set mask).size := by
    intro bits
    induction bits with
    | nil => exact fun mask _ => le_rfl
    | cons bit bits ih =>
        intro mask h
        exact (size_le_size_set h bit).trans (ih (mask.set bit) (h.set bit))
  have hnew : size ≤ (BitMask.new size).size := BitMask.le_size_grow _ size
  exact hnew.trans (hrun bits _ (BitMask.sound_new size))

/-- The test of `chooseUniqueIndexForPredicate`: all columns of the index are equal ones. -/
theorem and_isEqualTo_iff {mask : BitMask} (h : mask.Sound) {maxCols : ℕ} {columnNumbers : List ℕ}
    (hlt : ∀ number ∈ columnNumbers, number < maxCols) :
    (BitMask.binaryOp .and mask (maskOf maxCols columnNumbers)).isEqualTo
        (maskOf maxCols columnNumbers) = true ↔
      ∀ number ∈ columnNumbers, number ∈ mask.toFinset := by
  have hsound := sound_maskOf maxCols columnNumbers
  have hset : (BitMask.binaryOp .and mask (maskOf maxCols columnNumbers)).toFinset =
      mask.toFinset ∩ columnNumbers.toFinset := by
    rw [← toFinset_maskOf maxCols columnNumbers]
    apply (h.toFinset_binaryOp_iff hsound .and).mpr
    intro bit hbit
    have hmem := (Finset.mem_inter.mp hbit).2
    rw [toFinset_maskOf, List.mem_toFinset] at hmem
    exact (hlt bit hmem).trans_le ((le_size_maskOf maxCols columnNumbers).trans (le_max_right _ _))
  rw [(h.binaryOp hsound .and).isEqualTo_eq hsound, decide_eq_true_eq, hset, toFinset_maskOf,
    Finset.inter_eq_right]
  constructor
  · intro hsubset number hnumber
    exact hsubset (List.mem_toFinset.mpr hnumber)
  · intro hall number hnumber
    exact hall number (List.mem_toFinset.mp hnumber)

/-- The chosen unique index has all its columns compared for equality, and there is one if
any has. -/
theorem chooseUniqueIndexForPredicate_spec {dbTableHandler : DBTableHandler S}
    (hconsistent : dbTableHandler.Consistent) {predicate : PredicateMasks}
    (hsound : predicate.equalColumnMask.Sound) {equal : ℕ → Prop}
    (hequal : ∀ number, number ∈ predicate.equalColumnMask.toFinset ↔ equal number) :
    match dbTableHandler.chooseUniqueIndexForPredicate predicate with
    | some indexHandler => indexHandler ∈ dbTableHandler.dbIndexHandlers ∧
        indexHandler.dbIndex.isUnique = true ∧ ∀ number ∈ indexHandler.indexColumnNumbers, equal number
    | none => ∀ indexHandler ∈ dbTableHandler.dbIndexHandlers,
        indexHandler.dbIndex.isUnique = true → ∃ number ∈ indexHandler.indexColumnNumbers,
          ¬ equal number := by
  have htest : ∀ indexHandler ∈ dbTableHandler.dbIndexHandlers,
      ((BitMask.binaryOp .and predicate.equalColumnMask
        (indexHandler.columnMask dbTableHandler.getNumberOfColumns)).isEqualTo
          (indexHandler.columnMask dbTableHandler.getNumberOfColumns) = true ↔
        ∀ number ∈ indexHandler.indexColumnNumbers, equal number) := by
    intro indexHandler hmem
    rw [DBIndexHandler.columnMask, and_isEqualTo_iff hsound (hconsistent.lt indexHandler hmem)]
    simp only [hequal]
  cases hchosen : dbTableHandler.chooseUniqueIndexForPredicate predicate with
  | some indexHandler =>
      have hmem := List.mem_of_find?_eq_some hchosen
      have hfound := List.find?_some hchosen
      rw [Bool.and_eq_true, htest indexHandler hmem] at hfound
      exact ⟨hmem, hfound⟩
  | none =>
      intro indexHandler hmem hunique
      by_contra hall
      push Not at hall
      apply List.find?_eq_none.mp hchosen indexHandler hmem
      rw [Bool.and_eq_true, htest indexHandler hmem]
      exact ⟨hunique, hall⟩

end DatabaseJones.TableHandler
