import DatabaseJones.TableHandler.IndexMasks

/-!
# What reading leaves in a domain object

`getColumns` of table and index handlers.  A field that is split over several columns is
converted in the domain object itself when its first column is read, and converted back when
its last one is.  The object keeps an intermediate value if the reading stops in between, if
the handler has only one of the two columns or has them in the other order, and whatever the
converter makes of its own result otherwise.
-/

namespace DatabaseJones.TableHandler

variable {S : Type}

/-! ## Reading, with the object as it is left -/

namespace DBTColumn

/-- The first assignment of `getColumnValue_Partial`, if `toDB` does not throw. -/
def convertFirst (column : DBTColumn S) (domainObject : Properties S) : Option (Properties S) :=
  match column.isFirst, column.fieldConverter 0 with
  | true, some converter =>
      (converter.toDB (domainObject.get column.fieldName)).map (domainObject.set column.fieldName ·)
  | _, _ => some domainObject

/-- The second assignment, if `fromDB` does not throw. -/
def convertLast (column : DBTColumn S) (domainObject : Properties S) : Option (Properties S) :=
  match column.isLast, column.fieldConverter 0 with
  | true, some converter =>
      (converter.fromDB (domainObject.get column.fieldName)).map (domainObject.set column.fieldName ·)
  | _, _ => some domainObject

/-- What `getColumnValue_Partial` returns for the intermediate value; `typeof null` is
`'object'`. -/
def partialValue (column : DBTColumn S) : Value S → Option (Value S)
  | .null => none
  | .object properties => column.toDB (Properties.get properties column.columnName)
  | _ => some .undefined

/-- `getColumnValue(domainObject)`: the value, unless it throws, and in any case the domain
object afterwards. -/
def read (column : DBTColumn S) (domainObject : Properties S) : Option (Value S) × Properties S :=
  match column.shape with
  | .oneToOne => (column.getColumnValue1to1 domainObject, domainObject)
  | .partialField =>
      match column.convertFirst domainObject with
      | none => (none, domainObject)
      | some converted =>
          match column.convertLast converted with
          | none => (none, converted)
          | some restored => (column.partialValue (converted.get column.fieldName), restored)
  | .shared => (column.getColumnValueShared domainObject, domainObject)
  | .sparse => (column.getColumnValueSparse domainObject, domainObject)
  | .unmapped => (some .undefined, domainObject)

end DBTColumn

/-- `getColumns(obj)` over the columns of a handler: the values, unless a column throws, and the
domain object afterwards. -/
def readColumns : List (DBTColumn S) → Properties S → Option (List (Value S)) × Properties S
  | [], domainObject => (some [], domainObject)
  | column :: columns, domainObject =>
      match column.read domainObject with
      | (none, left) => (none, left)
      | (some value, left) =>
          ((readColumns columns left).1.map (value :: ·), (readColumns columns left).2)

/-- The columns of an index handler, which are those of its parent. -/
def DBIndexHandler.columns (indexHandler : DBIndexHandler) (parent : DBTableHandler S) :
    List (DBTColumn S) :=
  indexHandler.indexColumnNumbers.filterMap (parent.priv.columns[·]?)

/-- The columns of a table handler, or of one of its index handlers. -/
def DBTableHandler.columnsOf (dbTableHandler : DBTableHandler S) :
    Option DBIndexHandler → List (DBTColumn S)
  | none => dbTableHandler.priv.columns
  | some indexHandler => indexHandler.columns dbTableHandler

/-- `getColumns(obj)` and `get(obj, colNumber)` for any `obj`.  A number or string is the value
of every column. -/
def getColumns (columns : List (DBTColumn S)) : Keys S → Option (List (Value S)) × Keys S
  | .simple value => (some (columns.map fun _ => .scalar value), .simple value)
  | .object properties =>
      ((readColumns columns properties).1, .object (readColumns columns properties).2)

/-- The value of a field of the object. -/
def Keys.field (keys : Keys S) (name : String) : Value S :=
  match keys with
  | .simple _ => .undefined
  | .object properties => Properties.get properties name

/-- Reading the columns of a handler leaves every field of the object as it was. -/
def LeavesAlone (columns : List (DBTColumn S)) (domainObject : Keys S) : Prop :=
  ∀ name, (getColumns columns domainObject).2.field name = domainObject.field name

/-! ## When it does -/

/-- The conversions of a field that reading a column makes in the object. -/
def DBTColumn.conversions (column : DBTColumn S) (name : String) :
    List (Value S → Option (Value S)) :=
  if column.shape = .partialField ∧ column.fieldName = name then
    match column.fieldConverter 0 with
    | some converter =>
        (if column.isFirst then [converter.toDB] else []) ++
          (if column.isLast then [converter.fromDB] else [])
    | none => []
  else []

/-- Apply conversions one after the other, up to one that throws. -/
def applyConversions : List (Value S → Option (Value S)) → Value S → Value S
  | [], value => value
  | conversion :: conversions, value =>
      match conversion value with
      | some converted => applyConversions conversions converted
      | none => value

/-- The columns that are read until the end or until one throws. -/
def visited : List (DBTColumn S) → Properties S → List (DBTColumn S)
  | [], _ => []
  | column :: columns, domainObject =>
      match column.read domainObject with
      | (none, _) => [column]
      | (some _, left) => column :: visited columns left

/-- For every field, the conversions for its first and its last column, in the order in which
these columns are visited, give its value back. -/
def ConversionsUndone (columns : List (DBTColumn S)) (domainObject : Keys S) : Prop :=
  match domainObject with
  | .simple _ => True
  | .object properties => ∀ name,
      applyConversions ((visited columns properties).flatMap fun column => column.conversions name)
        (Properties.get properties name) = Properties.get properties name

/-! ## The same values as before -/

/-- Where `read` does not throw, it is `getColumnValue`. -/
theorem getColumnValue_eq_read (column : DBTColumn S) (domainObject : Properties S) :
    column.getColumnValue domainObject =
      (column.read domainObject).1.map fun value => (value, (column.read domainObject).2) := by
  rw [DBTColumn.getColumnValue, DBTColumn.read]
  cases hshape : column.shape with
  | oneToOne => rfl
  | shared => rfl
  | sparse => rfl
  | unmapped => rfl
  | partialField =>
      have hvalue : ∀ (intermediate : Value S) (left : Properties S),
          (match intermediate with
            | .null => none
            | .object properties => do
                let value ← column.toDB (Properties.get properties column.columnName)
                pure (value, left)
            | _ => pure (.undefined, left) : Option (Value S × Properties S)) =
          (column.partialValue intermediate).map fun value => (value, left) := by
        intro intermediate left
        cases intermediate with
        | undefined => rfl
        | null => rfl
        | scalar scalar => rfl
        | object properties =>
            rw [DBTColumn.partialValue, Option.map_eq_bind]
            rfl
      have hfirst : column.getColumnValuePartial domainObject =
          (column.convertFirst domainObject).bind fun converted =>
            (column.convertLast converted).bind fun restored =>
              (column.partialValue (converted.get column.fieldName)).map
                fun value => (value, restored) := by
        rw [DBTColumn.getColumnValuePartial, DBTColumn.convertFirst]
        simp only [DBTColumn.convertLast]
        cases hconverter : column.fieldConverter 0 with
        | none => cases column.isFirst <;> cases column.isLast <;> exact hvalue _ _
        | some converter =>
            have hlast : ∀ (converted : Properties S) (isLast : Bool),
                (match isLast, some converter with
                  | true, some converter => do
                      let value ← converter.fromDB (converted.get column.fieldName)
                      let restored ← pure (converted.set column.fieldName value)
                      match converted.get column.fieldName with
                      | .null => none
                      | .object properties => do
                          let value ← column.toDB (Properties.get properties column.columnName)
                          pure (value, restored)
                      | _ => pure (.undefined, restored)
                  | _, _ => do
                      let restored ← pure converted
                      match converted.get column.fieldName with
                      | .null => none
                      | .object properties => do
                          let value ← column.toDB (Properties.get properties column.columnName)
                          pure (value, restored)
                      | _ => pure (.undefined, restored) : Option (Value S × Properties S)) =
                  (match isLast, some converter with
                  | true, some converter =>
                      (converter.fromDB (converted.get column.fieldName)).map
                        (converted.set column.fieldName ·)
                  | _, _ => some converted).bind fun restored =>
                    (column.partialValue (converted.get column.fieldName)).map
                      fun value => (value, restored) := by
              intro converted isLast
              cases isLast with
              | false => exact hvalue _ _
              | true =>
                  cases hfrom : converter.fromDB (converted.get column.fieldName) with
                  | none => simp [hfrom]
                  | some value =>
                      simp only [hfrom]
                      exact hvalue _ _
            cases column.isFirst with
            | false => exact hlast domainObject _
            | true =>
                cases hto : converter.toDB (domainObject.get column.fieldName) with
                | none => simp [hto]
                | some value =>
                    simp only [hto]
                    exact hlast (domainObject.set column.fieldName value) _
      rw [hfirst]
      cases column.convertFirst domainObject with
      | none => rfl
      | some converted =>
          dsimp only [Option.bind_some]
          cases column.convertLast converted with
          | none => rfl
          | some restored => rfl

/-! ## One column -/

section
variable (column : DBTColumn S) (domainObject : Properties S) (name : String)

/-- An assignment of a conversion of the field. -/
theorem get_set_conversion {value : Value S} :
    (domainObject.set column.fieldName value).get name =
      if column.fieldName = name then value else domainObject.get name := by
  split_ifs with hname
  · subst hname
    exact Properties.get_set_self _ _ _
  · exact Properties.get_set_of_ne (Ne.symm hname) _ _

/-- What reading a column leaves in a field.  If it does not throw, none of the conversions has. -/
theorem get_read :
    (column.read domainObject).2.get name =
        applyConversions (column.conversions name) (domainObject.get name) ∧
      ((column.read domainObject).1.isSome → ∀ conversions,
        applyConversions (column.conversions name ++ conversions) (domainObject.get name) =
          applyConversions conversions ((column.read domainObject).2.get name)) := by
  rw [DBTColumn.read, DBTColumn.conversions]
  cases hshape : column.shape with
  | oneToOne => exact ⟨rfl, fun _ _ => rfl⟩
  | shared => exact ⟨rfl, fun _ _ => rfl⟩
  | sparse => exact ⟨rfl, fun _ _ => rfl⟩
  | unmapped => exact ⟨rfl, fun _ _ => rfl⟩
  | partialField =>
      dsimp only
      rw [DBTColumn.convertFirst]
      simp only [DBTColumn.convertLast]
      cases hconverter : column.fieldConverter 0 with
      | none => cases column.isFirst <;> cases column.isLast <;> simp [applyConversions]
      | some converter =>
          simp only [true_and]
          cases column.isFirst with
          | false =>
              cases column.isLast with
              | false => simp [applyConversions]
              | true =>
                  cases hfrom : converter.fromDB (domainObject.get column.fieldName) with
                  | none =>
                      by_cases hname : column.fieldName = name
                      · subst hname
                        simp [applyConversions, hfrom]
                      · simp [applyConversions, hfrom, hname]
                  | some value =>
                      by_cases hname : column.fieldName = name
                      · subst hname
                        simp [applyConversions, hfrom]
                      · simp [applyConversions, hfrom, get_set_conversion, hname]
          | true =>
              cases hto : converter.toDB (domainObject.get column.fieldName) with
              | none =>
                  by_cases hname : column.fieldName = name
                  · subst hname
                    simp [applyConversions, hto]
                  · simp [applyConversions, hto, hname]
              | some value =>
                  cases column.isLast with
                  | false =>
                      by_cases hname : column.fieldName = name
                      · subst hname
                        simp [applyConversions, hto]
                      · simp [applyConversions, hto, get_set_conversion, hname]
                  | true =>
                      cases hfrom : converter.fromDB value with
                      | none =>
                          by_cases hname : column.fieldName = name
                          · subst hname
                            simp [applyConversions, hto, hfrom]
                          · simp [applyConversions, hto, hfrom, get_set_conversion, hname]
                      | some restored =>
                          by_cases hname : column.fieldName = name
                          · subst hname
                            simp [applyConversions, hto, hfrom]
                          · simp [applyConversions, hto, hfrom, get_set_conversion, hname]

end

/-! ## All columns -/

/-- What reading the columns leaves in a field. -/
theorem get_readColumns (columns : List (DBTColumn S)) (domainObject : Properties S)
    (name : String) :
    (readColumns columns domainObject).2.get name =
      applyConversions
        ((visited columns domainObject).flatMap fun column => column.conversions name)
        (domainObject.get name) := by
  induction columns generalizing domainObject with
  | nil => rfl
  | cons column columns ih =>
      obtain ⟨hleft, hrest⟩ := get_read column domainObject name
      rw [readColumns, visited]
      cases hread : column.read domainObject with
      | mk value left =>
          rw [hread] at hleft hrest
          cases value with
          | none => simpa using hleft
          | some value =>
              change (readColumns columns left).2.get name = _
              rw [ih left, List.flatMap_cons, hrest rfl]

/-- A converter between a number and an object with its two parts. -/
def inParts : Converter ℕ where
  toDB
    | .scalar value => some (.object [("high", .scalar (value / 10)), ("low", .scalar (value % 10))])
    | _ => none
  fromDB
    | .object properties =>
        match Properties.get properties "high", Properties.get properties "low" with
        | .scalar high, .scalar low => some (.scalar (high * 10 + low))
        | _, _ => none
    | _ => none

theorem high_ne_nil : ([0] : List ℕ) ≠ [] := by decide

theorem high_nodup : ([0] : List ℕ).Nodup := by decide

theorem high_isUnique : false = true → false = true := id

/-- The index on the first of two columns. -/
abbrev byHigh : IndexMetadata where
  name := "high"
  columnNumbers := [0]
  isOrdered := true
  columnNumbers_ne_nil := high_ne_nil
  columnNumbers_nodup := high_nodup
  isUnique_of_isPrimaryKey := high_isUnique

/-- A table that stores a code in two columns and has an index on the first. -/
def codes : TableMetadata ℕ where
  database := "test"
  name := "codes"
  columns := [{ name := "high" }, { name := "low" }]
  indexes := [byHigh]
  sparseContainer := none
  names_nodup := by decide
  columnNumbers_lt := by decide

def codeMapping : TableMapping ℕ where
  mapAllColumns := false
  fields :=
    [{ fieldName := "code", toManyColumns := some ["high", "low"], converter := some inParts }]

def codesByHigh : DBIndexHandler where
  dbIndex := byHigh
  indexColumnNumbers := [0]

end DatabaseJones.TableHandler
