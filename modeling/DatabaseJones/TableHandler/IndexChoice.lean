import DatabaseJones.TableHandler.IndexMasks

/-!
# The index for a key

What `chooseIndex` returns for a key object: a unique index all of whose columns have a field
with a value, if there is one, and otherwise the ordered index with the best score.  For a
simple key it looks at the first column of the first usable index, which need not be that of
the primary key.
-/

namespace DatabaseJones.TableHandler

open DatabaseJones.Query

variable {S : Type}

/-! ## What is expected -/

/-- The keys have a value for a field that is mapped to the column, which may be `null`. -/
def DBTableHandler.IsUsed (dbTableHandler : DBTableHandler S) (properties : Properties S)
    (number : ℕ) : Prop :=
  ∃ property ∈ properties, property.2.isUndefined = false ∧ dbTableHandler.MapsTo property.1 number

/-- The keys have a value other than `null` for a field that is mapped to the column. -/
def DBTableHandler.IsCovered (dbTableHandler : DBTableHandler S) (properties : Properties S)
    (number : ℕ) : Prop :=
  ∃ property ∈ properties, property.2.isUndefined = false ∧ property.2.isNull = false ∧
    dbTableHandler.MapsTo property.1 number

/-- A unique or primary index all of whose columns have a value. -/
def DBTableHandler.Identifies (dbTableHandler : DBTableHandler S) (properties : Properties S)
    (indexHandler : DBIndexHandler) : Prop :=
  (indexHandler.dbIndex.isUnique = true ∨ indexHandler.dbIndex.isPrimaryKey = true) ∧
    ∀ number ∈ indexHandler.indexColumnNumbers, dbTableHandler.IsCovered properties number

open Classical in
/-- One point for each consecutive leading column that is used, and one more for those among
them that are compared for equality. -/
noncomputable def documentedScore (used equal : ℕ → Prop) (columnNumbers : List ℕ) : ℕ :=
  let leading := columnNumbers.takeWhile fun number => decide (used number)
  leading.length + (leading.filter fun number => decide (equal number)).length

/-- The score of an index for the fields of a key object. -/
noncomputable def DBTableHandler.scoreFor (dbTableHandler : DBTableHandler S)
    (properties : Properties S) (indexHandler : DBIndexHandler) : ℕ :=
  documentedScore (dbTableHandler.IsUsed properties) (dbTableHandler.IsCovered properties)
    indexHandler.indexColumnNumbers

/-- An index that identifies a row if there is one.  Otherwise, unless only unique indexes are
wanted, an ordered index with the best score; none only if no ordered index has its first
column used. -/
inductive DBTableHandler.ChoosesFor (dbTableHandler : DBTableHandler S) (properties : Properties S) :
    Bool → Option DBIndexHandler → Prop
  | unique (uniqueOnly : Bool) (indexHandler : DBIndexHandler) :
      indexHandler ∈ dbTableHandler.dbIndexHandlers →
      dbTableHandler.Identifies properties indexHandler →
      ChoosesFor dbTableHandler properties uniqueOnly (some indexHandler)
  | uniqueOnly :
      (∀ indexHandler ∈ dbTableHandler.dbIndexHandlers,
        ¬ dbTableHandler.Identifies properties indexHandler) →
      ChoosesFor dbTableHandler properties true none
  | ordered (indexHandler : DBIndexHandler) :
      (∀ other ∈ dbTableHandler.dbIndexHandlers, ¬ dbTableHandler.Identifies properties other) →
      indexHandler ∈ dbTableHandler.dbIndexHandlers →
      indexHandler.dbIndex.isOrdered = true →
      (∀ other ∈ dbTableHandler.dbIndexHandlers, other.dbIndex.isOrdered = true →
        dbTableHandler.scoreFor properties other ≤
          dbTableHandler.scoreFor properties indexHandler) →
      ChoosesFor dbTableHandler properties false (some indexHandler)
  | unused :
      (∀ other ∈ dbTableHandler.dbIndexHandlers, ¬ dbTableHandler.Identifies properties other) →
      (∀ other ∈ dbTableHandler.dbIndexHandlers, other.dbIndex.isOrdered = true →
        ∀ number ∈ other.indexColumnNumbers.head?, ¬ dbTableHandler.IsUsed properties number) →
      ChoosesFor dbTableHandler properties false none

/-- The number of the first column of the primary key, if the column is mapped. -/
def DBTableHandler.primaryKeyColumn (dbTableHandler : DBTableHandler S) : Option ℕ := do
  let primaryKey ← dbTableHandler.dbTable.indexes.find? IndexMetadata.isPrimaryKey
  let number ← primaryKey.columnNumbers.head?
  let column ← dbTableHandler.dbTable.columns[number]?
  dbTableHandler.priv.columnId column.name

/-- `chooseIndex` returns an index, or null, that is right for the keys.  The index for a
simple key has the first column of the primary key and no other. -/
def DBTableHandler.ChoosesIndex (dbTableHandler : DBTableHandler S) (keys : Keys S)
    (uniqueOnly : Bool) : Prop :=
  ∃ chosen, dbTableHandler.chooseIndex keys true (!uniqueOnly) = some chosen ∧
    match keys with
    | .object properties => dbTableHandler.ChoosesFor properties uniqueOnly chosen
    | .simple _ => ∀ indexHandler, chosen = some indexHandler →
        ∃ number, dbTableHandler.primaryKeyColumn = some number ∧
          indexHandler.indexColumnNumbers = [number]

/-! ## When it does -/

/-- No property has the name of an inherited one, unless its value is `undefined` and it is not
`hasOwnProperty`. -/
def PlainNames (properties : Properties S) : Prop :=
  "hasOwnProperty" ∉ properties.map Prod.fst ∧
    ∀ property ∈ properties, property.2.isUndefined = false → property.1 ∉ objectPrototypeNames

/-- For a simple key there is a usable index.  If a unique index has only the first column of
the first usable one, this is the first column of the primary key.  If not, and other indexes
are wanted too, the same holds of the first ordered index that starts with this column. -/
def DBTableHandler.PrimaryKeyLeads (dbTableHandler : DBTableHandler S) (uniqueOnly : Bool) : Prop :=
  ∃ first number, dbTableHandler.dbIndexHandlers.head? = some first ∧
    first.indexColumnNumbers.head? = some number ∧
    if ∃ indexHandler ∈ dbTableHandler.dbIndexHandlers,
        indexHandler.dbIndex.isUnique = true ∧ indexHandler.indexColumnNumbers = [number] then
      dbTableHandler.primaryKeyColumn = some number
    else
      uniqueOnly = true ∨
        ∀ indexHandler, (dbTableHandler.dbIndexHandlers.find? fun indexHandler =>
            indexHandler.dbIndex.isOrdered && indexHandler.indexColumnNumbers.head? == some number) =
              some indexHandler →
          dbTableHandler.primaryKeyColumn = some number ∧
            indexHandler.indexColumnNumbers = [number]

/-- The keys for which the choice is right. -/
def DBTableHandler.Choosable (dbTableHandler : DBTableHandler S) (uniqueOnly : Bool) :
    Keys S → Prop
  | .object properties => PlainNames properties
  | .simple _ => dbTableHandler.PrimaryKeyLeads uniqueOnly

/-! ## Masks with a meaning -/

/-- The masks have room for the columns and contain the used and the equal ones. -/
structure PredicateMasks.Marks (predicate : PredicateMasks) (ncol : ℕ) (used equal : ℕ → Prop) :
    Prop where
  fitsUsed : Fits ncol predicate.usedColumnMask
  fitsEqual : Fits ncol predicate.equalColumnMask
  used : ∀ number, number ∈ predicate.usedColumnMask.toFinset ↔ used number
  equal : ∀ number, number ∈ predicate.equalColumnMask.toFinset ↔ equal number

section
variable {ncol : ℕ} {used equal : ℕ → Prop} {predicate : PredicateMasks}

theorem marks_new (ncol : ℕ) :
    (PredicateMasks.new ncol).Marks ncol (fun _ => False) (fun _ => False) where
  fitsUsed := fits_new ncol
  fitsEqual := fits_new ncol
  used number := by simp [PredicateMasks.new, BitMask.toFinset_new]
  equal number := by simp [PredicateMasks.new, BitMask.toFinset_new]

/-- The score is the documented one. -/
theorem PredicateMasks.Marks.score_eq (h : predicate.Marks ncol used equal)
    (columnNumbers : List ℕ) :
    predicate.score columnNumbers = documentedScore used equal columnNumbers := by
  classical
  induction columnNumbers with
  | nil => rfl
  | cons number columnNumbers ih =>
      rw [PredicateMasks.score, BitMask.bitIsSet_fst, BitMask.bitIsSet_fst, documentedScore,
        List.takeWhile_cons]
      by_cases hused : used number
      · rw [if_pos (decide_eq_true ((h.used number).mpr hused)), if_pos (decide_eq_true hused), ih,
          documentedScore, List.length_cons, List.filter_cons]
        by_cases hequal : equal number
        · rw [if_pos (decide_eq_true ((h.equal number).mpr hequal)),
            if_pos (decide_eq_true hequal), List.length_cons]
          omega
        · rw [if_neg (by simpa [h.equal] using hequal), if_neg (by simpa using hequal)]
          omega
      · rw [if_neg (by simpa [h.used] using hused), if_neg (by simpa using hused)]
        rfl

/-- An index without any point does not have its first column used. -/
theorem not_used_of_documentedScore_eq_zero {columnNumbers : List ℕ}
    (h : documentedScore used equal columnNumbers = 0) :
    ∀ number ∈ columnNumbers.head?, ¬ used number := by
  intro number hnumber hused
  cases columnNumbers with
  | nil => exact nomatch hnumber
  | cons head columnNumbers =>
      obtain rfl := Option.some.inj hnumber
      simp [documentedScore, hused] at h

end

/-! ## The loop over the keys -/

section
variable {dbTableHandler : DBTableHandler S}

/-- A field that is no relationship has a mask with its columns. -/
theorem columnMaskOf_spec (hconsistent : dbTableHandler.Consistent) {name : String}
    {field : DBTField S} (hfield : dbTableHandler.priv.field? name = some field) :
    match dbTableHandler.columnMaskOf field with
    | some mask => mask.Sound ∧
        ∀ number, number ∈ mask.toFinset ↔ dbTableHandler.MapsTo name number
    | none => ∀ number, ¬ dbTableHandler.MapsTo name number := by
  rw [DBTableHandler.columnMaskOf]
  cases hrelationship : field.mapping.relationship with
  | true =>
      rintro number ⟨other, _, hother, hcolumn, _⟩
      rw [hfield] at hother
      rw [← Option.some.inj hother, hrelationship] at hcolumn
      exact nomatch hcolumn
  | false =>
      refine ⟨sound_maskOf _ _, fun number => ?_⟩
      rw [toFinset_maskOf, List.mem_toFinset]
      exact hconsistent.columnMask name field hfield number

variable {used equal : ℕ → Prop} {predicate : PredicateMasks}

/-- `orWith` on both masks. -/
theorem PredicateMasks.Marks.orWith {ncol : ℕ} (h : predicate.Marks ncol used equal)
    {mask : BitMask} (hmask : mask.Sound) {columns : ℕ → Prop}
    (hcolumns : ∀ number, number ∈ mask.toFinset ↔ columns number)
    (hlt : ∀ number, columns number → number < ncol) (isNull : Bool) :
    (predicate.orWith mask isNull).Marks ncol (fun number => used number ∨ columns number)
      (fun number => equal number ∨ isNull = false ∧ columns number) := by
  have hbounded : ∀ bit ∈ mask.toFinset, bit < ncol :=
    fun bit hbit => hlt bit ((hcolumns bit).mp hbit)
  have hused : ∀ number, number ∈ (predicate.usedColumnMask.orWith mask).toFinset ↔
      used number ∨ columns number := by
    intro number
    rw [h.fitsUsed.toFinset_orWith hmask hbounded, Finset.mem_union, h.used, hcolumns]
  cases isNull with
  | true =>
      refine ⟨h.fitsUsed.orWith hmask hbounded, h.fitsEqual, hused, fun number => ?_⟩
      simpa [PredicateMasks.orWith] using h.equal number
  | false =>
      refine ⟨h.fitsUsed.orWith hmask hbounded, h.fitsEqual.orWith hmask hbounded, hused,
        fun number => ?_⟩
      rw [PredicateMasks.orWith, if_neg Bool.false_ne_true,
        h.fitsEqual.toFinset_orWith hmask hbounded, Finset.mem_union, h.equal, hcolumns]
      simp

theorem PredicateMasks.Marks.congr {ncol : ℕ} (h : predicate.Marks ncol used equal)
    {used' equal' : ℕ → Prop} (hused : ∀ number, used number ↔ used' number)
    (hequal : ∀ number, equal number ↔ equal' number) : predicate.Marks ncol used' equal' where
  fitsUsed := h.fitsUsed
  fitsEqual := h.fitsEqual
  used number := (h.used number).trans (hused number)
  equal number := (h.equal number).trans (hequal number)

/-- What one property adds to the marks. -/
theorem PredicateMasks.Marks.addKey (hconsistent : dbTableHandler.Consistent)
    (h : predicate.Marks dbTableHandler.getNumberOfColumns used equal)
    {property : String × Value S}
    (hname : property.2.isUndefined = false → property.1 ∉ objectPrototypeNames) :
    ∃ later, dbTableHandler.addKey predicate property = some later ∧
      later.Marks dbTableHandler.getNumberOfColumns
        (fun number => used number ∨
          property.2.isUndefined = false ∧ dbTableHandler.MapsTo property.1 number)
        (fun number => equal number ∨ property.2.isUndefined = false ∧
          property.2.isNull = false ∧ dbTableHandler.MapsTo property.1 number) := by
  rw [DBTableHandler.addKey]
  cases hvalue : property.2.isUndefined with
  | true =>
      refine ⟨predicate, rfl, h.congr (fun number => ?_) (fun number => ?_)⟩
      · simp
      · simp
  | false =>
      -- a field without a mask is mapped to no column
      have hnone : (∀ number, ¬ dbTableHandler.MapsTo property.1 number) →
          predicate.Marks dbTableHandler.getNumberOfColumns
            (fun number => used number ∨ false = false ∧ dbTableHandler.MapsTo property.1 number)
            (fun number => equal number ∨ false = false ∧ property.2.isNull = false ∧
              dbTableHandler.MapsTo property.1 number) := by
        intro hunmapped
        refine h.congr (fun number => ?_) (fun number => ?_)
        · simp [hunmapped number]
        · simp [hunmapped number]
      rw [if_neg Bool.false_ne_true, DBTableHandler.getColumnMaskForField, if_neg (hname hvalue)]
      refine ⟨_, rfl, ?_⟩
      cases hfield : dbTableHandler.priv.field? property.1 with
      | none =>
          apply hnone
          rintro number ⟨field, _, hother, _⟩
          rw [hfield] at hother
          exact nomatch hother
      | some field =>
          have hspec := columnMaskOf_spec hconsistent hfield
          rw [Option.bind_some]
          cases hmask : dbTableHandler.columnMaskOf field with
          | none =>
              rw [hmask] at hspec
              exact hnone hspec
          | some mask =>
              rw [hmask] at hspec
              obtain ⟨hsound, hcolumns⟩ := hspec
              refine (h.orWith hsound hcolumns (fun _ hmaps => hmaps.lt)
                property.2.isNull).congr (fun number => ?_) (fun number => ?_)
              · simp
              · simp

/-- The loop throws for a name that every object has. -/
theorem addKey_eq_none {property : String × Value S} (hvalue : property.2.isUndefined = false)
    (hname : property.1 ∈ objectPrototypeNames) :
    dbTableHandler.addKey predicate property = none := by
  rw [DBTableHandler.addKey, hvalue, if_neg Bool.false_ne_true,
    DBTableHandler.getColumnMaskForField, if_pos hname]
  rfl

/-- The marks after all properties. -/
theorem PredicateMasks.Marks.foldlM_addKey (hconsistent : dbTableHandler.Consistent)
    (h : predicate.Marks dbTableHandler.getNumberOfColumns used equal) {properties : Properties S}
    (hnames : ∀ property ∈ properties, property.2.isUndefined = false →
      property.1 ∉ objectPrototypeNames) :
    ∃ later, properties.foldlM dbTableHandler.addKey predicate = some later ∧
      later.Marks dbTableHandler.getNumberOfColumns
        (fun number => used number ∨ dbTableHandler.IsUsed properties number)
        (fun number => equal number ∨ dbTableHandler.IsCovered properties number) := by
  induction properties generalizing predicate used equal with
  | nil =>
      refine ⟨predicate, rfl, h.congr (fun number => ?_) (fun number => ?_)⟩
      · simp [DBTableHandler.IsUsed]
      · simp [DBTableHandler.IsCovered]
  | cons property properties ih =>
      obtain ⟨hhead, htail⟩ := List.forall_mem_cons.mp hnames
      obtain ⟨next, hnext, hmarks⟩ := h.addKey hconsistent hhead
      obtain ⟨later, hlater, hmarks⟩ := ih hmarks htail
      refine ⟨later, ?_, hmarks.congr (fun number => ?_) (fun number => ?_)⟩
      · rw [List.foldlM_cons, hnext]
        exact hlater
      · rw [DBTableHandler.IsUsed, DBTableHandler.IsUsed, List.exists_mem_cons_iff, or_assoc]
      · rw [DBTableHandler.IsCovered, DBTableHandler.IsCovered, List.exists_mem_cons_iff, or_assoc]

theorem foldlM_addKey_eq_none {properties : Properties S}
    (hbad : ∃ property ∈ properties, property.2.isUndefined = false ∧
      property.1 ∈ objectPrototypeNames) (predicate : PredicateMasks) :
    properties.foldlM dbTableHandler.addKey predicate = none := by
  induction properties generalizing predicate with
  | nil => simp at hbad
  | cons property properties ih =>
      rw [List.foldlM_cons]
      rcases (List.exists_mem_cons_iff _ _ _).mp hbad with ⟨hvalue, hname⟩ | hbad
      · rw [addKey_eq_none hvalue hname]
        rfl
      · cases dbTableHandler.addKey predicate property with
        | none => rfl
        | some next => exact ih hbad next

/-! ## The two choices -/

/-- The loop keeps an index that has the best score of those it has seen, and none if no
ordered index has any point. -/
theorem foldl_considerIndex (predicate : PredicateMasks) (indexHandlers : List DBIndexHandler) :
    ∀ best : ℕ × Option DBIndexHandler,
      best.1 ≤ (indexHandlers.foldl (considerIndex predicate) best).1 ∧
      (∀ other ∈ indexHandlers, other.dbIndex.isOrdered = true →
        other.score predicate ≤ (indexHandlers.foldl (considerIndex predicate) best).1) ∧
      (indexHandlers.foldl (considerIndex predicate) best = best ∨
        ∃ indexHandler ∈ indexHandlers, indexHandler.dbIndex.isOrdered = true ∧
          indexHandlers.foldl (considerIndex predicate) best =
            (indexHandler.score predicate, some indexHandler)) := by
  induction indexHandlers with
  | nil => exact fun best => ⟨le_rfl, nofun, Or.inl rfl⟩
  | cons indexHandler indexHandlers ih =>
      intro best
      obtain ⟨hle, hall, hresult⟩ := ih (considerIndex predicate best indexHandler)
      have hstep : best.1 ≤ (considerIndex predicate best indexHandler).1 ∧
          (indexHandler.dbIndex.isOrdered = true →
            indexHandler.score predicate ≤ (considerIndex predicate best indexHandler).1) := by
        rw [considerIndex]
        split_ifs with hbetter
        · exact ⟨hbetter.2.le, fun _ => le_rfl⟩
        · exact ⟨le_rfl, fun hordered => not_lt.mp fun hlt => hbetter ⟨hordered, hlt⟩⟩
      refine ⟨hstep.1.trans hle, ?_, ?_⟩
      · intro other hother hordered
        rcases List.mem_cons.mp hother with rfl | hmem
        · exact (hstep.2 hordered).trans hle
        · exact hall other hmem hordered
      · rcases hresult with hsame | ⟨other, hmem, hother⟩
        · rw [List.foldl_cons, hsame, considerIndex]
          split_ifs with hbetter
          · exact Or.inr ⟨indexHandler, List.mem_cons_self, hbetter.1, rfl⟩
          · exact Or.inl rfl
        · exact Or.inr ⟨other, List.mem_cons_of_mem _ hmem, hother⟩

/-- The chosen ordered index has the best score, and there is one if any has a point. -/
theorem PredicateMasks.Marks.chooseOrdered
    (h : predicate.Marks dbTableHandler.getNumberOfColumns used equal) :
    match dbTableHandler.chooseOrderedIndexForPredicate predicate with
    | some indexHandler => indexHandler ∈ dbTableHandler.dbIndexHandlers ∧
        indexHandler.dbIndex.isOrdered = true ∧
        ∀ other ∈ dbTableHandler.dbIndexHandlers, other.dbIndex.isOrdered = true →
          documentedScore used equal other.indexColumnNumbers ≤
            documentedScore used equal indexHandler.indexColumnNumbers
    | none => ∀ other ∈ dbTableHandler.dbIndexHandlers, other.dbIndex.isOrdered = true →
        ∀ number ∈ other.indexColumnNumbers.head?, ¬ used number := by
  obtain ⟨_, hall, hresult⟩ :=
    foldl_considerIndex predicate dbTableHandler.dbIndexHandlers (0, none)
  rw [DBTableHandler.chooseOrderedIndexForPredicate]
  rcases hresult with hnone | ⟨indexHandler, hmem, hordered, hsome⟩
  · rw [hnone] at hall ⊢
    intro other hother hordered
    apply @not_used_of_documentedScore_eq_zero used equal
    rw [← h.score_eq]
    exact Nat.le_zero.mp (hall other hother hordered)
  · rw [hsome] at hall ⊢
    refine ⟨hmem, hordered, fun other hother hother' => ?_⟩
    rw [← h.score_eq, ← h.score_eq]
    exact hall other hother hother'

/-- For a key object the choice is right if the loop over the keys ends. -/
theorem choosesIndex_object (hconsistent : dbTableHandler.Consistent) (properties : Properties S)
    (uniqueOnly : Bool) :
    dbTableHandler.ChoosesIndex (.object properties) uniqueOnly ↔ PlainNames properties := by
  constructor
  · rintro ⟨chosen, hchosen, _⟩
    obtain ⟨predicate, hpredicate, _⟩ := Option.map_eq_some_iff.mp hchosen
    rw [DBTableHandler.predicateOf] at hpredicate
    split_ifs at hpredicate with hproperty
    refine ⟨hproperty, fun property hmem hvalue hname => ?_⟩
    rw [foldlM_addKey_eq_none ⟨property, hmem, hvalue, hname⟩] at hpredicate
    exact nomatch hpredicate
  · rintro ⟨hproperty, hnames⟩
    obtain ⟨predicate, hpredicate, hmarks⟩ :=
      (marks_new dbTableHandler.getNumberOfColumns).foldlM_addKey hconsistent hnames
    replace hmarks : predicate.Marks dbTableHandler.getNumberOfColumns
        (dbTableHandler.IsUsed properties) (dbTableHandler.IsCovered properties) :=
      hmarks.congr (fun _ => iff_of_eq (false_or _)) (fun _ => iff_of_eq (false_or _))
    have hmasks : dbTableHandler.predicateOf (.object properties) = some predicate := by
      rw [DBTableHandler.predicateOf, if_neg hproperty, hpredicate]
    have hunique := chooseUniqueIndexForPredicate_spec hconsistent hmarks.fitsEqual.sound
      hmarks.equal
    have hordered := hmarks.chooseOrdered
    refine ⟨_, by rw [DBTableHandler.chooseIndex, hmasks]; rfl, ?_⟩
    simp only [if_true]
    cases hchosen : dbTableHandler.chooseUniqueIndexForPredicate predicate with
    | some indexHandler =>
        rw [hchosen] at hunique
        rw [Option.isNone_some, if_neg (fun h => Bool.false_ne_true h.2)]
        exact .unique uniqueOnly indexHandler hunique.1 ⟨Or.inl hunique.2.1, hunique.2.2⟩
    | none =>
        rw [hchosen] at hunique
        have hnone : ∀ other ∈ dbTableHandler.dbIndexHandlers,
            ¬ dbTableHandler.Identifies properties other := by
          rintro other hother ⟨hkind, hcovered⟩
          have hisUnique : other.dbIndex.isUnique = true :=
            hkind.elim id other.dbIndex.isUnique_of_isPrimaryKey
          obtain ⟨number, hnumber, hnot⟩ := hunique other hother hisUnique
          exact hnot (hcovered number hnumber)
        cases uniqueOnly with
        | true => exact .uniqueOnly hnone
        | false =>
            change dbTableHandler.ChoosesFor properties false
              (dbTableHandler.chooseOrderedIndexForPredicate predicate)
            cases hbest : dbTableHandler.chooseOrderedIndexForPredicate predicate with
            | some indexHandler =>
                rw [hbest] at hordered
                exact .ordered indexHandler hnone hordered.1 hordered.2.1 hordered.2.2
            | none =>
                rw [hbest] at hordered
                exact .unused hnone hordered

/-! ## A simple key -/

/-- The masks of a simple key contain one column. -/
theorem marks_simple (hconsistent : dbTableHandler.Consistent) {first : DBIndexHandler}
    {number : ℕ} (hfirst : dbTableHandler.dbIndexHandlers.head? = some first)
    (hnumber : first.indexColumnNumbers.head? = some number) (value : S) :
    ∃ predicate, dbTableHandler.predicateOf (.simple value) = some predicate ∧
      predicate.Marks dbTableHandler.getNumberOfColumns (· = number) (· = number) := by
  have hlt : number < dbTableHandler.getNumberOfColumns :=
    hconsistent.lt first (List.mem_of_mem_head? hfirst) number (List.mem_of_mem_head? hnumber)
  have hfits := (fits_new dbTableHandler.getNumberOfColumns).set hlt
  have hset : ∀ other, other ∈ ((BitMask.new dbTableHandler.getNumberOfColumns).set number).toFinset ↔
      other = number := by
    intro other
    rw [(BitMask.sound_new _).toFinset_set, BitMask.toFinset_new, Finset.mem_insert]
    simp
  refine ⟨_, by rw [DBTableHandler.predicateOf, hfirst, Option.map_some, hnumber], ?_⟩
  exact ⟨hfits, hfits, hset, hset⟩

/-- Under the masks of a simple key an index has two points if it starts with the column, and
none otherwise. -/
theorem PredicateMasks.Marks.score_simple {ncol number : ℕ}
    (h : predicate.Marks ncol (· = number) (· = number)) {numbers : List ℕ}
    (hnodup : numbers.Nodup) :
    predicate.score numbers = if numbers.head? = some number then 2 else 0 := by
  have hbits : ∀ other, ((predicate.usedColumnMask.bitIsSet other).1 = true ↔ other = number) ∧
      ((predicate.equalColumnMask.bitIsSet other).1 = true ↔ other = number) := by
    intro other
    rw [BitMask.bitIsSet_fst, BitMask.bitIsSet_fst, decide_eq_true_eq, decide_eq_true_eq]
    exact ⟨h.used other, h.equal other⟩
  cases numbers with
  | nil => rfl
  | cons head tail =>
      rw [PredicateMasks.score, List.head?_cons]
      by_cases hhead : head = number
      · have htail : predicate.score tail = 0 := by
          cases tail with
          | nil => rfl
          | cons second tail =>
              have hne : second ≠ number := by
                rintro rfl
                exact (List.nodup_cons.mp hnodup).1 (hhead ▸ List.mem_cons_self)
              rw [PredicateMasks.score, if_neg (fun hset => hne ((hbits second).1.mp hset))]
        rw [if_pos ((hbits head).1.mpr hhead), if_pos ((hbits head).2.mpr hhead), htail,
          if_pos (congrArg some hhead)]
      · rw [if_neg (fun hset => hhead ((hbits head).1.mp hset)),
          if_neg (fun heq => hhead (Option.some.inj heq))]

/-- If all points are equal, the first ordered index with points is kept. -/
theorem foldl_considerIndex_of_two {predicate : PredicateMasks} {leads : DBIndexHandler → Bool}
    {indexHandlers : List DBIndexHandler}
    (hscore : ∀ indexHandler ∈ indexHandlers,
      indexHandler.score predicate = if leads indexHandler then 2 else 0) :
    (∀ kept, indexHandlers.foldl (considerIndex predicate) (2, kept) = (2, kept)) ∧
      (indexHandlers.foldl (considerIndex predicate) (0, none)).2 =
        indexHandlers.find? fun indexHandler =>
          indexHandler.dbIndex.isOrdered && leads indexHandler := by
  induction indexHandlers with
  | nil => exact ⟨fun _ => rfl, rfl⟩
  | cons indexHandler indexHandlers ih =>
      obtain ⟨hhead, htail⟩ := List.forall_mem_cons.mp hscore
      obtain ⟨hkept, hfirst⟩ := ih htail
      have hle : indexHandler.score predicate ≤ 2 := by
        rw [hhead]
        split_ifs <;> omega
      constructor
      · intro kept
        rw [List.foldl_cons, considerIndex, if_neg (fun h => not_lt.mpr hle h.2)]
        exact hkept kept
      · rw [List.foldl_cons, List.find?_cons, considerIndex, hhead]
        cases indexHandler.dbIndex.isOrdered with
        | false => simpa using hfirst
        | true =>
            cases leads indexHandler with
            | false => simpa using hfirst
            | true => simp [hkept]

/-- What `chooseIndex` returns once the masks are known. -/
theorem chooseIndex_eq {keys : Keys S} (hmasks : dbTableHandler.predicateOf keys = some predicate)
    (uniqueOnly : Bool) :
    dbTableHandler.chooseIndex keys true (!uniqueOnly) =
      some (match dbTableHandler.chooseUniqueIndexForPredicate predicate with
        | some indexHandler => some indexHandler
        | none => if uniqueOnly then none
            else dbTableHandler.chooseOrderedIndexForPredicate predicate) := by
  rw [DBTableHandler.chooseIndex, hmasks, Option.map_some]
  cases dbTableHandler.chooseUniqueIndexForPredicate predicate with
  | some indexHandler => simp
  | none => cases uniqueOnly <;> simp

/-- For a simple key the choice is right if the first usable index leads to the primary key. -/
theorem choosesIndex_simple (hconsistent : dbTableHandler.Consistent) (value : S)
    (uniqueOnly : Bool) :
    dbTableHandler.ChoosesIndex (.simple value) uniqueOnly ↔
      dbTableHandler.PrimaryKeyLeads uniqueOnly := by
  cases hfirst : dbTableHandler.dbIndexHandlers.head? with
  | none =>
      -- there is no first index, and reading its columns throws
      constructor
      · rintro ⟨_, hchosen, _⟩
        rw [DBTableHandler.chooseIndex, DBTableHandler.predicateOf, hfirst] at hchosen
        exact nomatch hchosen
      · rintro ⟨first, _, hsome, _⟩
        rw [hfirst] at hsome
        exact nomatch hsome
  | some first =>
      have hmem := List.mem_of_mem_head? hfirst
      obtain ⟨number, numbers, hnumbers⟩ :=
        List.exists_cons_of_ne_nil (hconsistent.ne_nil first hmem)
      have hnumber : first.indexColumnNumbers.head? = some number := by
        rw [hnumbers]
        rfl
      obtain ⟨predicate, hmasks, hmarks⟩ := marks_simple hconsistent hfirst hnumber value
      have hleads : dbTableHandler.PrimaryKeyLeads uniqueOnly ↔
          if ∃ indexHandler ∈ dbTableHandler.dbIndexHandlers,
              indexHandler.dbIndex.isUnique = true ∧
                indexHandler.indexColumnNumbers = [number] then
            dbTableHandler.primaryKeyColumn = some number
          else
            uniqueOnly = true ∨
              ∀ indexHandler, (dbTableHandler.dbIndexHandlers.find? fun indexHandler =>
                  indexHandler.dbIndex.isOrdered &&
                    indexHandler.indexColumnNumbers.head? == some number) = some indexHandler →
                dbTableHandler.primaryKeyColumn = some number ∧
                  indexHandler.indexColumnNumbers = [number] := by
        constructor
        · rintro ⟨other, otherNumber, hother, hotherNumber, hcondition⟩
          rw [hfirst] at hother
          obtain rfl := Option.some.inj hother
          rw [hnumber] at hotherNumber
          obtain rfl := Option.some.inj hotherNumber
          exact hcondition
        · exact fun hcondition => ⟨first, number, hfirst, hnumber, hcondition⟩
      have hunique := chooseUniqueIndexForPredicate_spec hconsistent hmarks.fitsEqual.sound
        hmarks.equal
      rw [hleads, DBTableHandler.ChoosesIndex, chooseIndex_eq hmasks]
      cases hchosen : dbTableHandler.chooseUniqueIndexForPredicate predicate with
      | some indexHandler =>
          rw [hchosen] at hunique
          obtain ⟨hmem, hisUnique, hall⟩ := hunique
          have hcolumns := eq_singleton_of_forall_eq (hconsistent.nodup _ hmem)
            (hconsistent.ne_nil _ hmem) hall
          have hexists : ∃ indexHandler ∈ dbTableHandler.dbIndexHandlers,
              indexHandler.dbIndex.isUnique = true ∧ indexHandler.indexColumnNumbers = [number] :=
            ⟨indexHandler, hmem, hisUnique, hcolumns⟩
          rw [if_pos hexists]
          constructor
          · rintro ⟨_, hsome, hsimple⟩
            obtain ⟨other, hprimary, hother⟩ := hsimple indexHandler (Option.some.inj hsome).symm
            rw [hcolumns, List.cons.injEq] at hother
            rw [hprimary, hother.1]
          · intro hprimary
            refine ⟨_, rfl, fun other hother => ⟨number, hprimary, ?_⟩⟩
            rw [← Option.some.inj hother, hcolumns]
      | none =>
          rw [hchosen] at hunique
          have hnone : ¬ ∃ indexHandler ∈ dbTableHandler.dbIndexHandlers,
              indexHandler.dbIndex.isUnique = true ∧
                indexHandler.indexColumnNumbers = [number] := by
            rintro ⟨indexHandler, hmem, hisUnique, hcolumns⟩
            obtain ⟨other, hother, hne⟩ := hunique indexHandler hmem hisUnique
            rw [hcolumns, List.mem_singleton] at hother
            exact hne hother
          rw [if_neg hnone]
          cases uniqueOnly with
          | true => exact ⟨fun _ => Or.inl rfl, fun _ => ⟨none, rfl, nofun⟩⟩
          | false =>
              have hordered : dbTableHandler.chooseOrderedIndexForPredicate predicate =
                  dbTableHandler.dbIndexHandlers.find? fun indexHandler =>
                    indexHandler.dbIndex.isOrdered &&
                      indexHandler.indexColumnNumbers.head? == some number := by
                refine (foldl_considerIndex_of_two ?_).2
                intro indexHandler hmem
                rw [DBIndexHandler.score, hmarks.score_simple (hconsistent.nodup _ hmem)]
                simp
              rw [← hordered]
              constructor
              · rintro ⟨_, hsome, hsimple⟩
                right
                intro indexHandler hfound
                obtain ⟨other, hprimary, hother⟩ :=
                  hsimple indexHandler ((Option.some.inj hsome).symm.trans hfound)
                rw [hordered] at hfound
                have hhead := List.find?_some hfound
                rw [Bool.and_eq_true, hother, List.head?_cons, beq_iff_eq] at hhead
                obtain rfl := Option.some.inj hhead.2
                exact ⟨hprimary, hother⟩
              · rintro (hfalse | hsimple)
                · exact absurd hfalse Bool.false_ne_true
                · exact ⟨_, rfl, fun indexHandler hfound => ⟨number, hsimple indexHandler hfound⟩⟩

end

theorem place_ne_nil : ([0, 1] : List ℕ) ≠ [] := by decide

theorem place_nodup : ([0, 1] : List ℕ).Nodup := by decide

theorem place_isUnique : true = true → true = true := id

theorem code_ne_nil : ([2] : List ℕ) ≠ [] := by decide

theorem code_nodup : ([2] : List ℕ).Nodup := by decide

theorem code_isUnique : false = true → true = true := fun _ => rfl

/-- A table with a primary key of two columns and a unique index on a third. -/
def places : TableMetadata ℕ where
  database := "test"
  name := "places"
  columns := [{ name := "country" }, { name := "number" }, { name := "code" }]
  indexes :=
    [{ name := "PRIMARY", columnNumbers := [0, 1], isPrimaryKey := true, isUnique := true,
        columnNumbers_ne_nil := place_ne_nil, columnNumbers_nodup := place_nodup,
        isUnique_of_isPrimaryKey := place_isUnique },
      { name := "code", columnNumbers := [2], isUnique := true,
        columnNumbers_ne_nil := code_ne_nil, columnNumbers_nodup := code_nodup,
        isUnique_of_isPrimaryKey := code_isUnique }]
  sparseContainer := none
  names_nodup := by decide
  columnNumbers_lt := by decide

/-- A mapping without the second column of the primary key. -/
def withoutNumber : TableMapping ℕ where
  mapAllColumns := false
  fields := [{ fieldName := "country" }, { fieldName := "code" }]

end DatabaseJones.TableHandler
