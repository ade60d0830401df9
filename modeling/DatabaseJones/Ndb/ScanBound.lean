import DatabaseJones.IndexBounds.Endpoint

/-!
# Scan bounds of the NDB adapter

`buildBoundHelpers` of `NdbOperation.js` turns the exported index bounds into the
bounds of an NDB index scan.  Infinities cannot be encoded, and neither can NULL
in a NOT NULL column, so an endpoint is cut at the first such part.  The cut
endpoint stands for all keys that start with the parts kept, but it keeps its
`inclusive` flag: a low end that excludes `(1, NULL)` becomes one that excludes
every key starting with `1`.

`scan_admits_iff` says exactly when the scan misses no key of the bound: when no
exclusive endpoint is cut behind a prefix that some key of the bound starts with.
-/

namespace DatabaseJones.Ndb

open DatabaseJones.Library DatabaseJones.IndexBounds

variable {α : Type*}

/-! ## Building the bounds -/

/-- What is written for one end of a bound: the buffer with the encoded parts (or
`null`), their number, and whether the end is inclusive. -/
structure PartialSpec (α : Type*) where
  key : Option (List (KeyPart α))
  keyCount : ℕ
  inclusive : Bool
deriving DecidableEq, Repr

/-- The record handed to NDB for one bound. -/
structure BoundHelperSpec (α : Type*) where
  low : PartialSpec α
  high : PartialSpec α
  rangeNo : ℕ
deriving DecidableEq, Repr

section
variable (looseInfinity : α → Bool) (isNullable : ℕ → Bool)

/-- The test that ends the count of finite parts.  It uses `==`, so it is also true
of values that JavaScript takes for an infinity, such as the string `Infinity`. -/
def endsKey (column : ℕ) : KeyPart α → Bool
  | .negInf => true
  | .posInf => true
  | .null => !isNullable column
  | .val value => looseInfinity value

/-- The loop that counts the finite key parts, from a column on. -/
def countParts (column : ℕ) : List (KeyPart α) → ℕ
  | [] => 0
  | part :: parts =>
      if endsKey looseInfinity isNullable column part then 0 else countParts (column + 1) parts + 1

/-- `buildPartialSpec(base, bound, ...)`. -/
def buildPartialSpec (bound : IndexBoundEndpoint α) : PartialSpec α :=
  let nparts := countParts looseInfinity isNullable 0 bound.key
  { key := if 0 < nparts then some (bound.key.take nparts) else none
    keyCount := nparts
    inclusive := bound.inclusive }

/-- `buildBoundHelpers(indexBounds)`. -/
def buildBoundHelpers (indexBounds : List (IndexBound α)) : List (BoundHelperSpec α) :=
  indexBounds.mapIdx fun i bound =>
    { low := buildPartialSpec looseInfinity isNullable bound.low
      high := buildPartialSpec looseInfinity isNullable bound.high
      rangeNo := i }

end

variable {looseInfinity : α → Bool} {isNullable : ℕ → Bool}

theorem countParts_le (column : ℕ) (parts : List (KeyPart α)) :
    countParts looseInfinity isNullable column parts ≤ parts.length := by
  induction parts generalizing column with
  | nil => exact le_refl _
  | cons part parts ih =>
      rw [countParts]
      split_ifs
      · exact Nat.zero_le _
      · exact Nat.succ_le_succ (ih (column + 1))

/-- The part that the count ends at is one that cannot be encoded. -/
theorem endsKey_countParts {column : ℕ} {parts : List (KeyPart α)} {part : KeyPart α}
    (hpart : parts[countParts looseInfinity isNullable column parts]? = some part) :
    endsKey looseInfinity isNullable (column + countParts looseInfinity isNullable column parts)
      part = true := by
  induction parts generalizing column with
  | nil => simp at hpart
  | cons first parts ih =>
      rw [countParts] at hpart ⊢
      split_ifs at hpart ⊢ with hends
      · rw [List.getElem?_cons_zero, Option.some.injEq] at hpart
        rwa [← hpart]
      · rw [List.getElem?_cons_succ] at hpart
        have hrest := ih hpart
        rwa [Nat.add_assoc, Nat.add_comm 1] at hrest

theorem buildPartialSpec_key (endpoint : IndexBoundEndpoint α) (kept : List (KeyPart α)) :
    kept ∈ (buildPartialSpec looseInfinity isNullable endpoint).key ↔
      0 < countParts looseInfinity isNullable 0 endpoint.key ∧
        endpoint.key.take (countParts looseInfinity isNullable 0 endpoint.key) = kept := by
  simp only [buildPartialSpec, Option.mem_def]
  split_ifs with hpositive
  · simp [hpositive]
  · simp [hpositive]

/-! ## What NDB does with them -/

variable [LinearOrder α]

/-- NDB compares a bound with as many parts of a key as the bound has; an end
without a buffer is no bound. -/
def PartialSpec.Admits (side : Ordering) (spec : PartialSpec α) (key : List (KeyPart α)) : Prop :=
  ∀ parts ∈ spec.key, Inside side (parts.take spec.keyCount) spec.inclusive key

/-- The keys that a scan with the bound returns. -/
def BoundHelperSpec.Admits (helper : BoundHelperSpec α) (key : List (Option α)) : Prop :=
  helper.low.Admits .lt (indexKey key) ∧ helper.high.Admits .gt (indexKey key)

/-- The keys of an index with the given number of columns: NULL is found in
nullable columns only. -/
def IsIndexKey (ncolumns : ℕ) (isNullable : ℕ → Bool) (key : List (Option α)) : Prop :=
  key.length = ncolumns ∧ ∀ column, key[column]? = some none → isNullable column = true

/-- An endpoint is exclusive and cut behind a first part, and a key agrees with the
parts kept. -/
def Excludes (looseInfinity : α → Bool) (isNullable : ℕ → Bool) (endpoint : IndexBoundEndpoint α)
    (key : List (KeyPart α)) : Prop :=
  endpoint.inclusive = false ∧ 0 < countParts looseInfinity isNullable 0 endpoint.key ∧
    countParts looseInfinity isNullable 0 endpoint.key < endpoint.key.length ∧
    comparePrefix (endpoint.key.take (countParts looseInfinity isNullable 0 endpoint.key)) key = .eq

/-- An exclusive endpoint is cut behind a first part, and some key of the bound
starts with the parts kept. -/
def LosesPrefix (looseInfinity : α → Bool) (isNullable : ℕ → Bool) (ncolumns : ℕ)
    (bound : IndexBound α) (endpoint : IndexBoundEndpoint α) : Prop :=
  ∃ key, IsIndexKey ncolumns isNullable key ∧ bound.Contains key ∧
    Excludes looseInfinity isNullable endpoint (indexKey key)

variable {ncolumns : ℕ} {bound : IndexBound α} {side : Ordering} {parts key : List (KeyPart α)}
  {inclusive : Bool}

/-! ## Cutting an endpoint -/

/-- The comparison with an endpoint is decided by the parts kept, or by the rest. -/
theorem comparePrefix_take (count : ℕ) (parts key : List (KeyPart α)) :
    comparePrefix parts key = (comparePrefix (parts.take count) key).then
      (comparePrefix (parts.drop count) (key.drop (parts.take count).length)) := by
  rw [← comparePrefix_append, List.take_append_drop]

/-- A key inside an end is inside the end cut behind `count` parts, or agrees with
the parts kept. -/
theorem inside_take (count : ℕ) (h : Inside side parts inclusive key) :
    comparePrefix (parts.take count) key = side ∨ comparePrefix (parts.take count) key = .eq := by
  rw [Inside, comparePrefix_take count] at h
  cases hkept : comparePrefix (parts.take count) key with
  | eq => exact .inr rfl
  | lt =>
      rw [hkept] at h
      exact h.imp id fun heq => absurd heq.1 nofun
  | gt =>
      rw [hkept] at h
      exact h.imp id fun heq => absurd heq.1 nofun

theorem admits_buildPartialSpec {endpoint : IndexBoundEndpoint α} :
    (buildPartialSpec looseInfinity isNullable endpoint).Admits side key ↔
      (0 < countParts looseInfinity isNullable 0 endpoint.key →
        Inside side (endpoint.key.take (countParts looseInfinity isNullable 0 endpoint.key))
          endpoint.inclusive key) := by
  simp only [PartialSpec.Admits, buildPartialSpec_key, and_imp]
  constructor
  · intro h hpositive
    have hinside := h _ hpositive rfl
    rwa [show (buildPartialSpec looseInfinity isNullable endpoint).keyCount =
      countParts looseInfinity isNullable 0 endpoint.key from rfl, List.take_take, min_self] at hinside
  · rintro h kept hpositive rfl
    rw [show (buildPartialSpec looseInfinity isNullable endpoint).keyCount =
      countParts looseInfinity isNullable 0 endpoint.key from rfl, List.take_take, min_self]
    exact h hpositive

/-- The end that is built admits the keys inside the endpoint that the cut does not
exclude. -/
theorem admits_iff {endpoint : IndexBoundEndpoint α} (hside : side ≠ .eq)
    (hinside : Inside side endpoint.key endpoint.inclusive key) :
    (buildPartialSpec looseInfinity isNullable endpoint).Admits side key ↔
      ¬ Excludes looseInfinity isNullable endpoint key := by
  rw [admits_buildPartialSpec, Excludes]
  have hle : countParts looseInfinity isNullable 0 endpoint.key ≤ _ := countParts_le 0 endpoint.key
  set count := countParts looseInfinity isNullable 0 endpoint.key with hcount
  constructor
  · rintro hbuilt ⟨hexclusive, hpositive, -, heq⟩
    rcases hbuilt hpositive with hstrict | ⟨-, hinclusive⟩
    · exact hside (hstrict.symm.trans heq)
    · exact absurd (hexclusive.symm.trans hinclusive) (by decide)
  · intro hkept hpositive
    rcases inside_take count hinside with hstrict | heq
    · exact .inl hstrict
    · refine .inr ⟨heq, ?_⟩
      by_contra hexclusive
      rw [Bool.not_eq_true] at hexclusive
      -- an exclusive endpoint that is not cut does not contain the keys that agree with it
      have hcut : count = endpoint.key.length := by
        by_contra hne
        exact hkept ⟨hexclusive, hpositive, by omega, heq⟩
      rw [hcut, List.take_length] at heq
      rcases hinside with hstrict | ⟨-, hinclusive⟩
      · exact hside (hstrict.symm.trans heq)
      · exact absurd (hexclusive.symm.trans hinclusive) (by decide)

/-! ## Which cuts lose nothing -/

/-- Where the parts kept agree with a key, the part behind them decides. -/
theorem comparePrefix_of_kept {count : ℕ} {part : KeyPart α} (hpart : parts[count]? = some part)
    (hagrees : comparePrefix (parts.take count) key = .eq) {column : KeyPart α}
    (hcolumn : key[count]? = some column) (hne : part ≠ column) :
    comparePrefix parts key = compare part column := by
  obtain ⟨hlength, rfl⟩ := List.getElem?_eq_some_iff.mp hpart
  obtain ⟨hkeyLength, rfl⟩ := List.getElem?_eq_some_iff.mp hcolumn
  rw [comparePrefix_take count, hagrees, List.length_take, min_eq_left hlength.le,
    List.drop_eq_getElem_cons hlength, List.drop_eq_getElem_cons hkeyLength, comparePrefix_cons]
  cases hcompare : compare parts[count] key[count] with
  | eq => exact absurd (compare_eq_iff_eq.mp hcompare) hne
  | lt => rfl
  | gt => rfl

omit [LinearOrder α] in
/-- An index key has a column behind the parts kept of an endpoint that was cut. -/
theorem exists_column {row : List (Option α)} (hrow : IsIndexKey ncolumns isNullable row)
    {endpoint : IndexBoundEndpoint α} (hlength : endpoint.key.length ≤ ncolumns) {count : ℕ}
    (hcount : count < endpoint.key.length) :
    ∃ value, (indexKey row)[count]? = some (.ofColumn value) ∧
      (value = none → isNullable count = true) := by
  obtain ⟨hcolumns, hnullable⟩ := hrow
  have hvalue : row[count]? = some row[count] := List.getElem?_eq_getElem (by omega)
  refine ⟨row[count], by simp [indexKey, hvalue], fun hnone => hnullable count ?_⟩
  rw [hvalue, hnone]

/-- An exclusive low end that is cut at `Infinity` loses no key. -/
theorem low_keeps_of_posInf (hlength : bound.low.key.length ≤ ncolumns)
    (hcut : bound.low.key[countParts looseInfinity isNullable 0 bound.low.key]? = some .posInf) :
    ¬ LosesPrefix looseInfinity isNullable ncolumns bound bound.low := by
  rintro ⟨row, hrow, ⟨hlow, -⟩, hexclusive, -, hcount, hagrees⟩
  obtain ⟨value, hvalue, -⟩ := exists_column hrow hlength hcount
  have hlt : KeyPart.ofColumn value < .posInf := by
    cases value <;> simp [KeyPart.ofColumn]
  have hcompare := comparePrefix_of_kept hcut hagrees hvalue hlt.ne'
  rw [compare_gt_iff_gt.mpr hlt] at hcompare
  simp [Inside, hcompare] at hlow

/-- An exclusive high end that is cut at `-Infinity`, or at NULL in a NOT NULL
column, loses no key. -/
theorem high_keeps_of_low_part (hlength : bound.high.key.length ≤ ncolumns)
    (hcut : bound.high.key[countParts looseInfinity isNullable 0 bound.high.key]? = some .negInf ∨
      bound.high.key[countParts looseInfinity isNullable 0 bound.high.key]? = some .null) :
    ¬ LosesPrefix looseInfinity isNullable ncolumns bound bound.high := by
  rintro ⟨row, hrow, ⟨-, hhigh⟩, hexclusive, -, hcount, hagrees⟩
  obtain ⟨value, hvalue, hnullable⟩ := exists_column hrow hlength hcount
  have hpart : ∃ part, bound.high.key[countParts looseInfinity isNullable 0 bound.high.key]? =
      some part ∧ part < KeyPart.ofColumn value := by
    rcases hcut with hcut | hcut
    · exact ⟨_, hcut, by cases value <;> simp [KeyPart.ofColumn]⟩
    · -- the count ends at NULL only in a NOT NULL column
      have hends := endsKey_countParts hcut
      rw [Nat.zero_add, endsKey, Bool.not_eq_true'] at hends
      refine ⟨_, hcut, ?_⟩
      cases value with
      | none => exact absurd (hnullable rfl) (by simp [hends])
      | some value => simp [KeyPart.ofColumn]
  obtain ⟨part, hpart, hlt⟩ := hpart
  have hcompare := comparePrefix_of_kept hpart hagrees hvalue hlt.ne
  rw [compare_lt_iff_lt.mpr hlt] at hcompare
  simp [Inside, hcompare] at hhigh

/-! ## The scan bounds of an index bound -/

/-- The scan misses no key of an index bound exactly if no exclusive endpoint is cut
behind a prefix that some key of the bound starts with. -/
theorem scan_admits_iff {looseInfinity : α → Bool} {isNullable : ℕ → Bool} {ncolumns : ℕ}
    {indexBounds : List (IndexBound α)} {i : ℕ} {bound : IndexBound α} {helper : BoundHelperSpec α}
    (hbound : indexBounds[i]? = some bound)
    (hhelper : (buildBoundHelpers looseInfinity isNullable indexBounds)[i]? = some helper) :
    (∀ key, IsIndexKey ncolumns isNullable key → bound.Contains key → helper.Admits key) ↔
      ¬ LosesPrefix looseInfinity isNullable ncolumns bound bound.low ∧
        ¬ LosesPrefix looseInfinity isNullable ncolumns bound bound.high := by
  rw [buildBoundHelpers, List.getElem?_mapIdx, hbound, Option.map_some, Option.some.injEq] at hhelper
  subst hhelper
  simp only [LosesPrefix, not_exists, not_and, BoundHelperSpec.Admits]
  rw [← forall_and]
  refine forall_congr' fun key => ?_
  constructor
  · intro h
    refine ⟨fun hkey hcontains => ?_, fun hkey hcontains => ?_⟩
    · exact (admits_iff (by decide) hcontains.1).mp (h hkey hcontains).1
    · exact (admits_iff (by decide) hcontains.2).mp (h hkey hcontains).2
  · rintro ⟨hlow, hhigh⟩ hkey hcontains
    exact ⟨(admits_iff (by decide) hcontains.1).mpr (hlow hkey hcontains),
      (admits_iff (by decide) hcontains.2).mpr (hhigh hkey hcontains)⟩

/-- Rows with `k1 = 1` and a value in `k2`, when both columns are nullable: the
bound from `(1, NULL)`, excluded, to `(1, Infinity]` is not cut at NULL. -/
theorem scan_admits_iff_nullable :
    buildBoundHelpers (fun _ : ℤ => false) (fun _ => true)
        [⟨⟨false, [.val 1, .null]⟩, ⟨true, [.val 1, .posInf]⟩⟩] =
      [⟨⟨some [.val 1, .null], 2, false⟩, ⟨some [.val 1], 1, true⟩, 0⟩] ∧
    ∀ key, IsIndexKey 2 (fun _ => true) key →
      IndexBound.Contains (α := ℤ) ⟨⟨false, [.val 1, .null]⟩, ⟨true, [.val 1, .posInf]⟩⟩ key →
        BoundHelperSpec.Admits ⟨⟨some [.val 1, .null], 2, false⟩, ⟨some [.val 1], 1, true⟩, 0⟩
          key :=
  ⟨rfl, (@scan_admits_iff ℤ _ (fun _ => false) (fun _ => true) 2
    [⟨⟨false, [.val 1, .null]⟩, ⟨true, [.val 1, .posInf]⟩⟩] 0 _ _ rfl rfl).mpr
    ⟨fun ⟨_, _, _, _, _, hcut, _⟩ => absurd hcut (by decide),
      fun ⟨_, _, _, hexclusive, _⟩ => absurd hexclusive (by decide)⟩⟩

/-- The same rows when both columns are NOT NULL: the low end becomes one that
excludes every key starting with `1`. -/
theorem not_scan_admits_of_not_null :
    ¬ ∀ (isNullable : ℕ → Bool) (ncolumns : ℕ) (indexBounds : List (IndexBound ℤ)) (i : ℕ)
      (bound : IndexBound ℤ) (helper : BoundHelperSpec ℤ), indexBounds[i]? = some bound →
      (buildBoundHelpers (fun _ => false) isNullable indexBounds)[i]? = some helper →
        ∀ key, IsIndexKey ncolumns isNullable key → bound.Contains key → helper.Admits key := by
  intro hclaim
  have hadmits := hclaim (fun _ => false) 2
    [⟨⟨false, [.val 1, .null]⟩, ⟨true, [.val 1, .posInf]⟩⟩] 0 _ _ rfl rfl [some 1, some 5]
    ⟨rfl, fun column => by rcases column with _ | _ | column <;> simp⟩ (by decide)
  exact absurd (hadmits.1 _ rfl) (by decide)

end DatabaseJones.Ndb
