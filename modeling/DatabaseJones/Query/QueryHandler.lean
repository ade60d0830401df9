import DatabaseJones.Query.SqlVisitor
import DatabaseJones.TableHandler.IndexMasks

/-!
# Access paths

`QueryHandler` of `Query.js` marks the columns that a predicate compares for equality,
chooses a primary key or unique index all of whose columns are marked, and takes the key from
the predicate.  The choice is right for a single comparison only: `MaskMarkerVisitor` looks
for the operation code of a node in itself, so that an AND has no marks.
-/

namespace DatabaseJones.Query

open DatabaseJones.TableHandler

variable {S V ν : Type}

/-! ## Marking -/

/-- `this.operationCode` in `visitQueryNaryPredicate`, where `this` is the visitor. -/
def MaskMarkerVisitor.operationCode : Option ℕ := none

mutual

/-- The `equalColumnMask` that `MaskMarkerVisitor` stores in a node. -/
def Predicate.equalColumnMask : Predicate ν → BitMask
  | .comparator .eq queryField _ => BitMask.new.set queryField.field.columnNumber
  | .comparator _ _ _ => BitMask.new
  | .between _ _ _ => BitMask.new
  | .unaryOperator _ _ => BitMask.new
  | .not _ => BitMask.new
  | .nary _ first rest =>
      equalByOperands
        (if MaskMarkerVisitor.operationCode = some 1 then BitMask.new.orWith first.equalColumnMask
          else BitMask.new) rest

def equalByOperands (equalColumnMask : BitMask) : List (Predicate ν) → BitMask
  | [] => equalColumnMask
  | operand :: operands =>
      equalByOperands
        (if MaskMarkerVisitor.operationCode = some 1 then
          equalColumnMask.orWith operand.equalColumnMask else equalColumnMask) operands

end

/-- The marks of the root. -/
def Predicate.masks (predicate : Predicate ν) : PredicateMasks :=
  { usedColumnMask := predicate.usedColumnMask, equalColumnMask := predicate.equalColumnMask }

/-! ## QueryHandler -/

/-- `QueryHandler`; the query types are 0 for a primary key, 1 for a unique key, 2 for an
index scan and 3 for a table scan. -/
structure QueryHandler (ν : Type) where
  predicate : Option (Predicate ν)
  dbIndexHandler : Option DBIndexHandler
  queryType : ℕ

/-- `new QueryHandler(dbTableHandler, predicate)`. -/
def QueryHandler.create (dbTableHandler : DBTableHandler S) (predicate : Option (Predicate ν)) :
    QueryHandler ν :=
  match predicate.bind fun predicate =>
      dbTableHandler.chooseUniqueIndexForPredicate predicate.masks with
  | some candidateIndex =>
      { predicate, dbIndexHandler := some candidateIndex
        queryType := if candidateIndex.dbIndex.isPrimaryKey then 0 else 1 }
  | none =>
      match predicate.bind fun predicate =>
          dbTableHandler.chooseOrderedIndexForPredicate predicate.masks with
      | some candidateIndex =>
          { predicate, dbIndexHandler := some candidateIndex, queryType := 2 }
      | none => { predicate, dbIndexHandler := none, queryType := 3 }

/-! ## Keys -/

/-- A value of JavaScript that a column can be compared with. -/
inductive JsValue (V : Type)
  | string (text : List Char)
  | other (value : V)
deriving DecidableEq, Repr

/-- `getEscapedValue(literal)`, which is always a string; `toText` is `toString` of what is
no string. -/
def JsValue.escaped (toText : V → List Char) : JsValue V → JsValue V
  | .string text => .string (getEscapedValue (.literal (.string text)))
  | .other value => .string (getEscapedValue (.literal (.other (toText value))))

/-- The value that a comparand stands for when the query is executed. -/
def Parameter.valueIn (values : String → JsValue V) : Parameter (JsValue V) → JsValue V
  | .parameter name => values name
  | .literal value => value

/-- The value that `getValueForColumn` takes from the parameter of a comparison. -/
def Parameter.keyValue (toText : V → List Char) (values : String → JsValue V) :
    Parameter (JsValue V) → JsValue V
  | .parameter name => values name
  | .literal value => value.escaped toText

/-- The number of operands in `node.predicates`, if there are any. -/
def Predicate.operandCount : Predicate ν → ℕ
  | .not _ => 1
  | .nary _ _ rest => 1 + rest.length
  | _ => 0

/-- `getValueForColumn(node, columnNumber, values)` with the depth of the recursion bounded by
`fuel`.  The result `some none` is `null`.  The recursive call is for the same node again. -/
def getValueForColumn (toText : V → List Char) (values : String → JsValue V)
    (node : Predicate (JsValue V)) (columnNumber : ℕ) : ℕ → Option (Option (JsValue V))
  | 0 => none
  | fuel + 1 =>
      if (node.equalColumnMask.bitIsSet columnNumber).1 then
        match node with
        | .comparator _ queryField parameter =>
            if queryField.field.columnNumber = columnNumber then
              some (some (parameter.keyValue toText values))
            else some none
        | node =>
            (List.range node.operandCount).foldlM (fun value _ =>
              match value with
              | some value => some (some value)
              | none => getValueForColumn toText values node columnNumber fuel) none
      else some none

/-- `getKeys(parameterValues)`. -/
def QueryHandler.getKeys (queryHandler : QueryHandler (JsValue V)) (toText : V → List Char)
    (values : String → JsValue V) (fuel : ℕ) : Option (List (Option (JsValue V))) := do
  let dbIndexHandler ← queryHandler.dbIndexHandler
  let predicate ← queryHandler.predicate
  dbIndexHandler.indexColumnNumbers.mapM fun columnNumber =>
    getValueForColumn toText values predicate columnNumber fuel

/-! ## What is expected -/

mutual

/-- The conjuncts of the ANDs at the top of a predicate. -/
def Predicate.conjuncts : Predicate ν → List (Predicate ν)
  | .nary .and first rest => first.conjuncts ++ conjunctsOf rest
  | predicate => [predicate]

def conjunctsOf : List (Predicate ν) → List (Predicate ν)
  | [] => []
  | operand :: operands => operand.conjuncts ++ conjunctsOf operands

end

/-- A field of the table that is queried, and not of a joined one. -/
def QueryField.OfTable (queryField : QueryField) : Prop :=
  queryField.tableAlias = [] ∨ queryField.tableAlias = ['t', '0', '.']

instance (queryField : QueryField) : Decidable queryField.OfTable :=
  inferInstanceAs (Decidable (_ ∨ _))

/-- A conjunct equates the column with the parameter. -/
def Predicate.EquatesWith (predicate : Predicate ν) (number : ℕ) (parameter : Parameter ν) : Prop :=
  ∃ queryField, .comparator .eq queryField parameter ∈ predicate.conjuncts ∧
    queryField.OfTable ∧ queryField.field.columnNumber = number

/-- A unique or primary index all of whose columns are equated with a value. -/
def IsEquated (predicate : Predicate ν) (indexHandler : DBIndexHandler) : Prop :=
  (indexHandler.dbIndex.isUnique = true ∨ indexHandler.dbIndex.isPrimaryKey = true) ∧
    ∀ number ∈ indexHandler.indexColumnNumbers, ∃ parameter, predicate.EquatesWith number parameter

/-- A row of the queried table, with what the fields of joined tables have next to it. -/
structure Row (W : Type) where
  column : ℕ → Option W
  joined : QueryField → Option W

/-- The columns of a row and the values of comparands. -/
def Row.interpretation {W : Type} (row : Row W) (compare : Comparator → W → W → Bool)
    (denote : JsValue V → Option W) (values : String → JsValue V) :
    Interpretation QueryField (Parameter (JsValue V)) W where
  column queryField :=
    if queryField.OfTable then row.column queryField.field.columnNumber else row.joined queryField
  value parameter := denote (parameter.valueIn values)
  compare := compare

/-- The predicate is true of the row. -/
def Row.selected {W : Type} (row : Row W) (compare : Comparator → W → W → Bool)
    (denote : JsValue V → Option W) (values : String → JsValue V)
    (predicate : Predicate (JsValue V)) : Bool :=
  predicate.eval (row.interpretation compare denote values) == some true

/-- The row has the key in the columns of the index. -/
def Row.hasKey {W : Type} (row : Row W) (compare : Comparator → W → W → Bool)
    (denote : JsValue V → Option W) (columnNumbers : List ℕ) (keys : List (Option (JsValue V))) :
    Bool :=
  (columnNumbers.zip keys).all fun (number, key) =>
    ((row.column number).bind fun left =>
      (key.bind denote).map (compare .eq left)) == some true

/-- A key lookup is chosen exactly if a unique index is equated, and then for such an index;
`getKeys` ends with values that the predicate requires of the key columns, so that a lookup
followed by the predicate finds the rows that the predicate selects. -/
structure SelectsAccessPath (toText : V → List Char) (dbTableHandler : DBTableHandler S)
    (predicate : Predicate (JsValue V)) : Prop where
  choice : (QueryHandler.create dbTableHandler (some predicate)).queryType < 2 ↔
    ∃ indexHandler ∈ dbTableHandler.dbIndexHandlers, IsEquated predicate indexHandler
  lookup : (QueryHandler.create dbTableHandler (some predicate)).queryType < 2 →
    ∃ indexHandler ∈ dbTableHandler.dbIndexHandlers,
      (QueryHandler.create dbTableHandler (some predicate)).dbIndexHandler = some indexHandler ∧
      (QueryHandler.create dbTableHandler (some predicate)).queryType =
        (if indexHandler.dbIndex.isPrimaryKey then 0 else 1) ∧
      IsEquated predicate indexHandler ∧
      ∀ values, ∃ keys,
        (∃ fuel, (QueryHandler.create dbTableHandler (some predicate)).getKeys toText values fuel =
          some keys) ∧
        List.Forall₂ (fun number key => ∃ parameter, predicate.EquatesWith number parameter ∧
          key = some (parameter.valueIn values)) indexHandler.indexColumnNumbers keys ∧
        ∀ (W : Type) (compare : Comparator → W → W → Bool) (denote : JsValue V → Option W)
          (rows : List (Row W)),
          (rows.filter fun row => row.hasKey compare denote indexHandler.indexColumnNumbers keys).filter
              (fun row => row.selected compare denote values predicate) =
            rows.filter fun row => row.selected compare denote values predicate

/-! ## When it does -/

/-- The predicate is one comparison of a field of the table with a named parameter. -/
def ComparesWithParameter (predicate : Predicate ν) : Prop :=
  ∃ queryField name, queryField.OfTable ∧ predicate = .comparator .eq queryField (.parameter name)

/-- Where a unique index is equated, it is by a single comparison with a named parameter; and
no single comparison of a joined field has the column number of a unique index. -/
structure SingleComparison (dbTableHandler : DBTableHandler S) (predicate : Predicate ν) : Prop where
  equated : ∀ indexHandler ∈ dbTableHandler.dbIndexHandlers, IsEquated predicate indexHandler →
    ComparesWithParameter predicate
  joined : ∀ queryField parameter, predicate = .comparator .eq queryField parameter →
    ¬ queryField.OfTable → ∀ indexHandler ∈ dbTableHandler.dbIndexHandlers,
      indexHandler.dbIndex.isUnique = true →
        indexHandler.indexColumnNumbers ≠ [queryField.field.columnNumber]

/-! ## The marks -/

theorem equalByOperands_eq (mask : BitMask) (operands : List (Predicate ν)) :
    equalByOperands mask operands = mask := by
  induction operands with
  | nil => rw [equalByOperands]
  | cons operand operands ih =>
      rw [equalByOperands, if_neg (by rw [MaskMarkerVisitor.operationCode]; exact nofun)]
      exact ih

/-- Only a single comparison has a mark. -/
theorem equalColumnMask_spec (predicate : Predicate ν) :
    predicate.equalColumnMask.Sound ∧
      ∀ number, number ∈ predicate.equalColumnMask.toFinset ↔
        ∃ queryField parameter, predicate = .comparator .eq queryField parameter ∧
          queryField.field.columnNumber = number := by
  have hnew : ∀ {predicate : Predicate ν}, predicate.equalColumnMask = BitMask.new →
      (∀ queryField parameter, predicate ≠ .comparator .eq queryField parameter) →
      predicate.equalColumnMask.Sound ∧
        ∀ number, number ∈ predicate.equalColumnMask.toFinset ↔
          ∃ queryField parameter, predicate = .comparator .eq queryField parameter ∧
            queryField.field.columnNumber = number := by
    intro predicate hmask hne
    rw [hmask]
    refine ⟨BitMask.sound_new _, fun number => ?_⟩
    rw [BitMask.toFinset_new]
    constructor
    · exact fun hmem => absurd hmem (Finset.notMem_empty _)
    · rintro ⟨queryField, parameter, heq, _⟩
      exact absurd heq (hne queryField parameter)
  cases predicate with
  | comparator comparator queryField parameter =>
      cases comparator with
      | eq =>
          rw [Predicate.equalColumnMask]
          refine ⟨(BitMask.sound_new _).set _, fun number => ?_⟩
          rw [(BitMask.sound_new _).toFinset_set, BitMask.toFinset_new, Finset.mem_insert]
          constructor
          · rintro (rfl | hmem)
            · exact ⟨queryField, parameter, rfl, rfl⟩
            · exact absurd hmem (Finset.notMem_empty _)
          · rintro ⟨other, _, heq, rfl⟩
            cases heq
            exact Or.inl rfl
      | ne => exact hnew (by rw [Predicate.equalColumnMask]; exact nofun) nofun
      | lt => exact hnew (by rw [Predicate.equalColumnMask]; exact nofun) nofun
      | le => exact hnew (by rw [Predicate.equalColumnMask]; exact nofun) nofun
      | gt => exact hnew (by rw [Predicate.equalColumnMask]; exact nofun) nofun
      | ge => exact hnew (by rw [Predicate.equalColumnMask]; exact nofun) nofun
  | between => exact hnew (by rw [Predicate.equalColumnMask]) nofun
  | unaryOperator => exact hnew (by rw [Predicate.equalColumnMask]) nofun
  | not => exact hnew (by rw [Predicate.equalColumnMask]) nofun
  | nary =>
      refine hnew ?_ nofun
      rw [Predicate.equalColumnMask, equalByOperands_eq, if_neg]
      rw [MaskMarkerVisitor.operationCode]
      exact nofun

/-! ## The conjuncts -/

theorem apply_and_eq_true {first second : Option Bool}
    (h : NaryOperator.and.apply first second = some true) :
    first = some true ∧ second = some true := by
  rcases first with _ | (_ | _) <;> rcases second with _ | (_ | _) <;> first | exact ⟨rfl, rfl⟩ | cases h

section
variable {W : Type} {interpretation : Interpretation QueryField (Parameter ν) W}

theorem evalOperands_and_eq_true {operands : List (Predicate ν)} {truth : Option Bool}
    (h : evalOperands interpretation .and truth operands = some true) :
    truth = some true ∧ ∀ operand ∈ operands, operand.eval interpretation = some true := by
  induction operands generalizing truth with
  | nil =>
      rw [evalOperands] at h
      exact ⟨h, nofun⟩
  | cons operand operands ih =>
      rw [evalOperands] at h
      obtain ⟨happly, hothers⟩ := ih h
      obtain ⟨htruth, hoperand⟩ := apply_and_eq_true happly
      exact ⟨htruth, List.forall_mem_cons.mpr ⟨hoperand, hothers⟩⟩

theorem mem_conjunctsOf {operands : List (Predicate ν)} {conjunct : Predicate ν} :
    conjunct ∈ conjunctsOf operands ↔ ∃ operand ∈ operands, conjunct ∈ operand.conjuncts := by
  induction operands with
  | nil => simp [conjunctsOf]
  | cons operand operands ih =>
      rw [conjunctsOf, List.mem_append, ih, List.exists_mem_cons_iff]

/-- Where a predicate is true, all its conjuncts are. -/
theorem eval_conjuncts (predicate : Predicate ν)
    (h : predicate.eval interpretation = some true) :
    ∀ conjunct ∈ predicate.conjuncts, conjunct.eval interpretation = some true := by
  induction predicate with
  | comparator comparator queryField parameter =>
      intro conjunct hmem
      rw [Predicate.conjuncts, List.mem_singleton] at hmem
      · exact hmem ▸ h
      · exact nofun
  | between queryField parameter1 parameter2 =>
      intro conjunct hmem
      rw [Predicate.conjuncts, List.mem_singleton] at hmem
      · exact hmem ▸ h
      · exact nofun
  | unaryOperator operator queryField =>
      intro conjunct hmem
      rw [Predicate.conjuncts, List.mem_singleton] at hmem
      · exact hmem ▸ h
      · exact nofun
  | not predicate ih =>
      intro conjunct hmem
      rw [Predicate.conjuncts, List.mem_singleton] at hmem
      · exact hmem ▸ h
      · exact nofun
  | nary operator first rest ihfirst ihrest =>
      intro conjunct hmem
      cases operator with
      | and =>
          rw [Predicate.eval] at h
          obtain ⟨hfirst, hrest⟩ := evalOperands_and_eq_true h
          rw [Predicate.conjuncts, List.mem_append, mem_conjunctsOf] at hmem
          rcases hmem with hmem | ⟨operand, hoperand, hmem⟩
          · exact ihfirst hfirst conjunct hmem
          · exact ihrest operand hoperand (hrest operand hoperand) conjunct hmem
      | or =>
          rw [Predicate.conjuncts, List.mem_singleton] at hmem
          · exact hmem ▸ h
          · exact nofun

end

/-- A row that the predicate selects has every key that the predicate requires. -/
theorem hasKey_of_selected {W : Type} {row : Row W} {compare : Comparator → W → W → Bool}
    {denote : JsValue V → Option W} {values : String → JsValue V}
    {predicate : Predicate (JsValue V)} (h : row.selected compare denote values predicate = true)
    {columnNumbers : List ℕ} {keys : List (Option (JsValue V))}
    (hkeys : List.Forall₂ (fun number key => ∃ parameter, predicate.EquatesWith number parameter ∧
      key = some (parameter.valueIn values)) columnNumbers keys) :
    row.hasKey compare denote columnNumbers keys = true := by
  rw [Row.hasKey, List.all_eq_true]
  rintro ⟨number, key⟩ hmem
  obtain ⟨parameter, ⟨queryField, hconjunct, htable, rfl⟩, rfl⟩ :=
    (List.forall₂_iff_zip.mp hkeys).2 hmem
  have heval := eval_conjuncts predicate (beq_iff_eq.mp h) _ hconjunct
  rw [Predicate.eval, Interpretation.comparison, Row.interpretation] at heval
  simp only [if_pos htable] at heval
  exact beq_iff_eq.mpr heval

theorem filter_hasKey_filter_selected {W : Type} {compare : Comparator → W → W → Bool}
    {denote : JsValue V → Option W} {values : String → JsValue V}
    {predicate : Predicate (JsValue V)} {columnNumbers : List ℕ} {keys : List (Option (JsValue V))}
    (hkeys : List.Forall₂ (fun number key => ∃ parameter, predicate.EquatesWith number parameter ∧
      key = some (parameter.valueIn values)) columnNumbers keys) (rows : List (Row W)) :
    (rows.filter fun row => row.hasKey compare denote columnNumbers keys).filter
        (fun row => row.selected compare denote values predicate) =
      rows.filter fun row => row.selected compare denote values predicate := by
  rw [List.filter_filter]
  apply List.filter_congr
  intro row _
  cases h : row.selected compare denote values predicate with
  | false => rfl
  | true => rw [hasKey_of_selected h hkeys, Bool.and_self]

/-! ## The choice -/

section
variable {dbTableHandler : DBTableHandler S}

theorem create_of_some {predicate : Predicate ν} {indexHandler : DBIndexHandler}
    (h : dbTableHandler.chooseUniqueIndexForPredicate predicate.masks = some indexHandler) :
    QueryHandler.create dbTableHandler (some predicate) =
      { predicate := some predicate, dbIndexHandler := some indexHandler
        queryType := if indexHandler.dbIndex.isPrimaryKey then 0 else 1 } := by
  rw [QueryHandler.create, Option.bind_some, h]

theorem two_le_queryType_of_none {predicate : Predicate ν}
    (h : dbTableHandler.chooseUniqueIndexForPredicate predicate.masks = none) :
    2 ≤ (QueryHandler.create dbTableHandler (some predicate)).queryType := by
  rw [QueryHandler.create, Option.bind_some, h]
  cases (some predicate).bind fun predicate =>
      dbTableHandler.chooseOrderedIndexForPredicate predicate.masks with
  | some indexHandler => exact le_rfl
  | none => exact Nat.le_succ 2

/-- A key lookup is chosen for a single comparison whose column number makes up a unique
index, and for nothing else. -/
theorem create_cases (hconsistent : dbTableHandler.Consistent) (predicate : Predicate ν) :
    (∃ indexHandler ∈ dbTableHandler.dbIndexHandlers, ∃ queryField parameter,
      predicate = .comparator .eq queryField parameter ∧
      indexHandler.dbIndex.isUnique = true ∧
      indexHandler.indexColumnNumbers = [queryField.field.columnNumber] ∧
      QueryHandler.create dbTableHandler (some predicate) =
        { predicate := some predicate, dbIndexHandler := some indexHandler
          queryType := if indexHandler.dbIndex.isPrimaryKey then 0 else 1 }) ∨
    2 ≤ (QueryHandler.create dbTableHandler (some predicate)).queryType ∧
      ∀ indexHandler ∈ dbTableHandler.dbIndexHandlers, indexHandler.dbIndex.isUnique = true →
        ∀ queryField parameter, predicate = .comparator .eq queryField parameter →
          indexHandler.indexColumnNumbers ≠ [queryField.field.columnNumber] := by
  obtain ⟨hsound, hequal⟩ := equalColumnMask_spec predicate
  have hspec := @chooseUniqueIndexForPredicate_spec S dbTableHandler hconsistent predicate.masks
    hsound _ hequal
  cases hchosen : dbTableHandler.chooseUniqueIndexForPredicate predicate.masks with
  | some indexHandler =>
      rw [hchosen] at hspec
      obtain ⟨hmem, hunique, hall⟩ := hspec
      obtain ⟨number, numbers, hnumbers⟩ :=
        List.exists_cons_of_ne_nil (hconsistent.ne_nil indexHandler hmem)
      obtain ⟨queryField, parameter, hpredicate, _⟩ :=
        hall number (hnumbers ▸ List.mem_cons_self)
      have hcolumns : indexHandler.indexColumnNumbers = [queryField.field.columnNumber] := by
        apply eq_singleton_of_forall_eq (hconsistent.nodup indexHandler hmem)
          (hconsistent.ne_nil indexHandler hmem)
        intro other hother
        obtain ⟨_, _, hsame, rfl⟩ := hall other hother
        rw [hpredicate] at hsame
        cases hsame
        rfl
      exact Or.inl ⟨indexHandler, hmem, queryField, parameter, hpredicate, hunique, hcolumns,
        create_of_some hchosen⟩
  | none =>
      rw [hchosen] at hspec
      refine Or.inr ⟨two_le_queryType_of_none hchosen, ?_⟩
      intro indexHandler hmem hunique queryField parameter hpredicate hcolumns
      obtain ⟨number, hnumber, hnot⟩ := hspec indexHandler hmem hunique
      rw [hcolumns, List.mem_singleton] at hnumber
      exact hnot ⟨queryField, parameter, hpredicate, hnumber.symm⟩

theorem conjuncts_comparator (queryField : QueryField) (parameter : Parameter ν) :
    (Predicate.comparator .eq queryField parameter).conjuncts =
      [.comparator .eq queryField parameter] := by
  rw [Predicate.conjuncts]
  exact nofun

/-- What a single comparison equates. -/
theorem equatesWith_comparator_iff {queryField : QueryField} {parameter other : Parameter ν}
    {number : ℕ} :
    (Predicate.comparator .eq queryField parameter).EquatesWith number other ↔
      other = parameter ∧ queryField.OfTable ∧ queryField.field.columnNumber = number := by
  rw [Predicate.EquatesWith, conjuncts_comparator]
  constructor
  · rintro ⟨field, hmem, htable, hnumber⟩
    cases List.mem_singleton.mp hmem
    exact ⟨rfl, htable, hnumber⟩
  · rintro ⟨rfl, htable, hnumber⟩
    exact ⟨queryField, List.mem_singleton_self _, htable, hnumber⟩

theorem isEquated_comparator {indexHandler : DBIndexHandler}
    (hunique : indexHandler.dbIndex.isUnique = true) {queryField : QueryField}
    (hcolumns : indexHandler.indexColumnNumbers = [queryField.field.columnNumber])
    (htable : queryField.OfTable) (parameter : Parameter ν) :
    IsEquated (.comparator .eq queryField parameter) indexHandler := by
  refine ⟨Or.inl hunique, fun number hnumber => ⟨parameter, ?_⟩⟩
  rw [hcolumns, List.mem_singleton] at hnumber
  exact equatesWith_comparator_iff.mpr ⟨rfl, htable, hnumber.symm⟩

/-- The text of a literal is not the literal. -/
theorem escaped_ne (toText : V → List Char) (value : JsValue V) : value.escaped toText ≠ value := by
  intro h
  cases value with
  | string text =>
      change JsValue.string ('\'' :: (text ++ ['\''])) = .string text at h
      have hlength := congrArg List.length (JsValue.string.inj h)
      rw [List.length_cons, List.length_append, List.length_singleton] at hlength
      omega
  | other value =>
      rw [JsValue.escaped] at h
      cases h

/-- `getKeys` takes the value of a single comparison. -/
theorem getKeys_comparator (toText : V → List Char) (values : String → JsValue V)
    {queryField : QueryField} {parameter : Parameter (JsValue V)} {indexHandler : DBIndexHandler}
    (hcolumns : indexHandler.indexColumnNumbers = [queryField.field.columnNumber])
    {queryHandler : QueryHandler (JsValue V)}
    (hpredicate : queryHandler.predicate = some (.comparator .eq queryField parameter))
    (hindex : queryHandler.dbIndexHandler = some indexHandler) {fuel : ℕ} (hfuel : 0 < fuel) :
    queryHandler.getKeys toText values fuel = some [some (parameter.keyValue toText values)] := by
  obtain ⟨fuel, rfl⟩ := Nat.exists_eq_succ_of_ne_zero hfuel.ne'
  have hbit : ((Predicate.comparator .eq queryField parameter).equalColumnMask.bitIsSet
      queryField.field.columnNumber).1 = true := by
    rw [BitMask.bitIsSet_fst, decide_eq_true_eq, (equalColumnMask_spec _).2]
    exact ⟨queryField, parameter, rfl, rfl⟩
  rw [QueryHandler.getKeys, hindex, hpredicate, Option.bind_eq_bind, Option.bind_some,
    Option.bind_eq_bind, Option.bind_some, hcolumns, List.mapM_cons, List.mapM_nil,
    getValueForColumn, if_pos hbit, if_pos rfl]
  rfl

theorem singleComparison_of_selectsAccessPath (hconsistent : dbTableHandler.Consistent)
    {toText : V → List Char} {predicate : Predicate (JsValue V)}
    (h : SelectsAccessPath toText dbTableHandler predicate) :
    SingleComparison dbTableHandler predicate := by
  have hcases := create_cases hconsistent predicate
  constructor
  · intro indexHandler hmem hequated
    have hchosen := h.choice.mpr ⟨indexHandler, hmem, hequated⟩
    rcases hcases with ⟨chosen, _, queryField, parameter, rfl, _, hcolumns, hcreate⟩ | ⟨hle, _⟩
    · obtain ⟨other, _, hother, _, hequated, hkeys⟩ := h.lookup hchosen
      rw [hcreate] at hother
      obtain rfl := Option.some.inj hother
      obtain ⟨_, hequates⟩ := hequated.2 queryField.field.columnNumber
        (hcolumns ▸ List.mem_singleton_self _)
      have htable := (equatesWith_comparator_iff.mp hequates).2.1
      cases parameter with
      | parameter name => exact ⟨queryField, name, htable, rfl⟩
      | literal value =>
          -- the key would be the text of the literal
          obtain ⟨keys, ⟨fuel, hfuel⟩, hrequired, _⟩ := hkeys fun _ => value
          have hpos : 0 < fuel := by
            by_contra hzero
            rw [Nat.eq_zero_of_not_pos hzero, hcreate, QueryHandler.getKeys] at hfuel
            simp [hcolumns, getValueForColumn] at hfuel
          rw [getKeys_comparator toText _ hcolumns (by rw [hcreate]) (by rw [hcreate]) hpos]
            at hfuel
          obtain rfl := Option.some.inj hfuel
          rw [hcolumns] at hrequired
          obtain ⟨⟨other, hother, hkey⟩, _⟩ := List.forall₂_cons.mp hrequired
          rw [(equatesWith_comparator_iff.mp hother).1] at hkey
          exact absurd (Option.some.inj hkey) (escaped_ne toText value)
    · exact absurd hchosen (not_lt.mpr hle)
  · intro queryField parameter hpredicate htable indexHandler hmem hunique hcolumns
    rcases hcases with ⟨chosen, hchosen, other, parameter, hsame, _, hnumbers, hcreate⟩ | ⟨_, hnone⟩
    · have hlt : (QueryHandler.create dbTableHandler (some predicate)).queryType < 2 := by
        rw [hcreate]
        dsimp only
        split_ifs <;> omega
      obtain ⟨lookedUp, _, hlookedUp, _, hequated, _⟩ := h.lookup hlt
      rw [hcreate] at hlookedUp
      obtain rfl := Option.some.inj hlookedUp
      rw [hpredicate] at hsame hequated
      cases hsame
      obtain ⟨_, hequates⟩ := hequated.2 queryField.field.columnNumber
        (hnumbers ▸ List.mem_singleton_self _)
      exact htable (equatesWith_comparator_iff.mp hequates).2.1
    · exact hnone indexHandler hmem hunique queryField parameter hpredicate hcolumns

theorem selectsAccessPath_of_singleComparison (hconsistent : dbTableHandler.Consistent)
    (toText : V → List Char) {predicate : Predicate (JsValue V)}
    (h : SingleComparison dbTableHandler predicate) :
    SelectsAccessPath toText dbTableHandler predicate := by
  rcases create_cases hconsistent predicate with ⟨chosen, hchosen, queryField, parameter, rfl, hunique, hcolumns, hcreate⟩ |
    ⟨hle, hnone⟩
  · have htable : queryField.OfTable := by
      by_contra hnot
      exact h.joined queryField parameter rfl hnot chosen hchosen hunique hcolumns
    have hequated := isEquated_comparator hunique hcolumns htable parameter
    obtain ⟨_, name, _, hsame⟩ := h.equated chosen hchosen hequated
    cases hsame
    refine ⟨⟨fun _ => ⟨chosen, hchosen, hequated⟩, fun _ => ?_⟩, fun _ =>
      ⟨chosen, hchosen, by rw [hcreate], by rw [hcreate], hequated, fun values => ?_⟩⟩
    · rw [hcreate]
      dsimp only
      split_ifs <;> omega
    · have hrequired : List.Forall₂ (fun number key => ∃ parameter,
          (Predicate.comparator .eq queryField (.parameter name)).EquatesWith number parameter ∧
            key = some (parameter.valueIn values)) chosen.indexColumnNumbers
          [some (values name)] := by
        rw [hcolumns]
        refine .cons ⟨.parameter name, ?_, rfl⟩ .nil
        exact equatesWith_comparator_iff.mpr ⟨rfl, htable, rfl⟩
      refine ⟨[some (values name)], ⟨1, ?_⟩, hrequired, ?_⟩
      · have hkeys : (QueryHandler.create dbTableHandler (some (.comparator .eq queryField
            (.parameter name)))).getKeys toText values 1 =
              some [some ((Parameter.parameter name).keyValue toText values)] := by
          rw [hcreate]
          exact getKeys_comparator toText values hcolumns rfl rfl Nat.one_pos
        exact hkeys
      · intro W compare denote rows
        exact filter_hasKey_filter_selected hrequired rows
  · refine ⟨⟨fun hlt => absurd hlt (not_lt.mpr hle), ?_⟩,
      fun hlt => absurd hlt (not_lt.mpr hle)⟩
    rintro ⟨indexHandler, hmem, hequated⟩
    obtain ⟨queryField, name, htable, rfl⟩ := h.equated indexHandler hmem hequated
    have hunique : indexHandler.dbIndex.isUnique = true :=
      hequated.1.elim id indexHandler.dbIndex.isUnique_of_isPrimaryKey
    have hcolumns : indexHandler.indexColumnNumbers = [queryField.field.columnNumber] := by
      apply eq_singleton_of_forall_eq (hconsistent.nodup indexHandler hmem)
        (hconsistent.ne_nil indexHandler hmem)
      intro number hnumber
      obtain ⟨parameter, hequates⟩ := hequated.2 number hnumber
      exact (equatesWith_comparator_iff.mp hequates).2.2.symm
    exact absurd hcolumns (hnone indexHandler hmem hunique queryField _ rfl)

end

/-- For every table, mapping and predicate, the access path is right exactly if unique indexes
are equated by single comparisons with named parameters only. -/
theorem selectsAccessPath_iff (toText : V → List Char) (jsonConverter : Converter S)
    (dbTable : TableMetadata S) (mapping : TableMapping S) (predicate : Predicate (JsValue V)) :
    SelectsAccessPath toText (.create jsonConverter dbTable mapping) predicate ↔
      SingleComparison (.create jsonConverter dbTable mapping) predicate := by
  have hconsistent := consistent_create jsonConverter dbTable mapping
  exact ⟨singleComparison_of_selectsAccessPath hconsistent,
    selectsAccessPath_of_singleComparison hconsistent toText⟩

/-! ## A key of two columns, and a literal -/

/-- A table with a primary key of two columns and a unique index on a third. -/
def lines : TableMetadata ℕ where
  database := "test"
  name := "lines"
  columns := [{ name := "order" }, { name := "line" }, { name := "code" }]
  indexes :=
    [{ name := "PRIMARY", columnNumbers := [0, 1], isPrimaryKey := true, isUnique := true },
      { name := "code", columnNumbers := [2], isUnique := true }]
  sparseContainer := none
  names_nodup := by decide
  columnNumbers_lt := by decide

def linesPrimaryKey : DBIndexHandler where
  dbIndex := { name := "PRIMARY", columnNumbers := [0, 1], isPrimaryKey := true, isUnique := true }
  indexColumnNumbers := [0, 1]

def linesCode : DBIndexHandler where
  dbIndex := { name := "code", columnNumbers := [2], isUnique := true }
  indexColumnNumbers := [2]

/-- A field of the table. -/
def lineField (columnName : List Char) (columnNumber : ℕ) : QueryField :=
  { tableAlias := [], field := { columnName, columnNumber } }

/-- Both columns of the primary key are equated with parameters. -/
def byPrimaryKey : Predicate (JsValue ℕ) :=
  .nary .and (.comparator .eq (lineField ['o', 'r', 'd', 'e', 'r'] 0) (.parameter "order"))
    [.comparator .eq (lineField ['l', 'i', 'n', 'e'] 1) (.parameter "line")]

/-- The column of the unique index is equated with a string. -/
def byCode : Predicate (JsValue ℕ) :=
  .comparator .eq (lineField ['c', 'o', 'd', 'e'] 2) (.literal (.string ['x']))

/-- The table is scanned although the whole primary key is given, and the key for the string is
its SQL text. -/
theorem not_selectsAccessPath_lines :
    ((QueryHandler.create (.create ⟨some, some⟩ lines {}) (some byPrimaryKey)).queryType = 3 ∧
      ¬ SelectsAccessPath (fun _ => []) (.create ⟨some, some⟩ lines {}) byPrimaryKey) ∧
    ((QueryHandler.create (.create ⟨some, some⟩ lines {}) (some byCode)).getKeys (fun _ => [])
        (fun _ => .other 0) 5 = some [some (.string ['\'', 'x', '\''])] ∧
      ¬ SelectsAccessPath (fun _ => []) (.create ⟨some, some⟩ lines {}) byCode) := by
  have hconsistent := consistent_create ⟨some, some⟩ lines {}
  refine ⟨⟨by decide +kernel, fun h => ?_⟩, by decide +kernel, fun h => ?_⟩
  · have hmem : linesPrimaryKey ∈ (DBTableHandler.create ⟨some, some⟩ lines {}).dbIndexHandlers := by
      decide +kernel
    obtain ⟨_, _, _, hsame⟩ := (singleComparison_of_selectsAccessPath hconsistent h).equated _ hmem
      ⟨Or.inl rfl, by
        intro number hnumber
        rcases List.mem_cons.mp hnumber with rfl | hnumber
        · exact ⟨_, _, List.mem_cons_self, Or.inl rfl, rfl⟩
        · obtain rfl := List.mem_singleton.mp hnumber
          exact ⟨_, _, List.mem_cons_of_mem _ List.mem_cons_self, Or.inl rfl, rfl⟩⟩
    exact nomatch hsame
  · have hmem : linesCode ∈ (DBTableHandler.create ⟨some, some⟩ lines {}).dbIndexHandlers := by
      decide +kernel
    obtain ⟨_, _, _, hsame⟩ := (singleComparison_of_selectsAccessPath hconsistent h).equated _ hmem
      (isEquated_comparator rfl rfl (Or.inl rfl) _)
    exact nomatch hsame

end DatabaseJones.Query
