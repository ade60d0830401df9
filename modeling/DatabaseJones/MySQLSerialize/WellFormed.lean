import DatabaseJones.Library.DistinctSort
import DatabaseJones.MySQLSerialize.ContainerRegions

/-!
# Which documents are well formed

Sizes, offsets and forms are right in whatever is serialized.  Keys are sorted as strings of
UTF-16 code units and stored as UTF-8, and the two orders differ: a key of one unit may take
three bytes, and lone surrogates all take the same three.
-/

namespace DatabaseJones.MySQLSerialize

open DatabaseJones.Library

/-! ## The order of keys -/

theorem sortKeys_neg_iff (a b : CodeUnits) :
    sortKeys a b < 0 ↔ a.length < b.length ∨ a.length = b.length ∧ a < b := by
  unfold sortKeys
  split
  · exact ⟨fun h => absurd h (by decide), fun h => by omega⟩
  · next hle =>
      split
      · next heq =>
          split
          · next hlt => exact ⟨fun _ => .inr ⟨heq, hlt⟩, fun _ => by decide⟩
          · next hnlt =>
              refine ⟨fun h => absurd h (by decide), fun h => ?_⟩
              rcases h with h | h
              · omega
              · exact absurd h.2 hnlt
      · exact ⟨fun _ => .inl (by omega), fun _ => by decide⟩

theorem sortKeys_trans (a b c : CodeUnits) (hab : sortKeys a b < 0) (hbc : sortKeys b c < 0) :
    sortKeys a c < 0 := by
  rw [sortKeys_neg_iff] at hab hbc ⊢
  rcases hab with hab | ⟨hab, hlt⟩
  · rcases hbc with hbc | ⟨hbc, -⟩ <;> exact .inl (by omega)
  · rcases hbc with hbc | ⟨hbc, hlt'⟩
    · exact .inl (by omega)
    · exact .inr ⟨by omega, List.lt_trans hlt hlt'⟩

theorem sortKeys_asymm (a b : CodeUnits) (hab : sortKeys a b < 0) : ¬sortKeys b a < 0 := by
  rw [sortKeys_neg_iff] at hab ⊢
  rcases hab with hab | ⟨hab, hlt⟩
  · omega
  · rintro (hba | ⟨-, hgt⟩)
    · omega
    · exact List.lt_asymm hlt hgt

theorem sortKeys_total (a b : CodeUnits) (hne : a ≠ b) : sortKeys a b < 0 ∨ sortKeys b a < 0 := by
  rw [sortKeys_neg_iff, sortKeys_neg_iff]
  rcases Nat.lt_trichotomy a.length b.length with hlt | heq | hgt
  · exact .inl (.inl hlt)
  · by_contra hnot
    have hle : b ≤ a := List.not_lt.mp fun hlt => hnot (.inl (.inr ⟨heq, hlt⟩))
    have hge : a ≤ b := List.not_lt.mp fun hlt => hnot (.inr (.inr ⟨heq.symm, hlt⟩))
    exact hne (List.le_antisymm hge hle)
  · exact .inr (.inl hgt)

/-- The keys of an object are sorted. -/
theorem pairwise_sortedKeys {keys : List CodeUnits} (hnodup : keys.Nodup) :
    (sortedKeys keys).Pairwise fun a b => decide (sortKeys a b < 0) = true := by
  refine pairwise_mergeSort_of_nodup (fun a b c hab hbc => ?_) (fun a b hne => ?_) hnodup
  · rw [decide_eq_true_eq] at hab hbc ⊢
    exact sortKeys_trans a b c hab hbc
  · rw [decide_eq_true_eq, decide_eq_true_eq]
    exact sortKeys_total a b hne

/-- The keys that have a value are stored in order exactly if their UTF-8 forms compare as the
keys do. -/
theorem pairwise_keys_iff {keys : List CodeUnits} (hnodup : keys.Nodup) (p : CodeUnits → Bool) :
    (((sortedKeys keys).filter p).map utf8).Pairwise KeyBefore ↔
      ∀ a ∈ keys, ∀ b ∈ keys, p a = true → p b = true → sortKeys a b < 0 →
        KeyBefore (utf8 a) (utf8 b) := by
  have hsorted := (pairwise_sortedKeys hnodup).filter p
  have hmem : ∀ {key}, key ∈ (sortedKeys keys).filter p ↔ key ∈ keys ∧ p key = true := by
    intro key
    rw [List.mem_filter, (sortedKeys_perm keys).mem_iff]
  rw [List.pairwise_map, pairwise_iff_of_pairwise hsorted fun a b hab => ?_]
  · constructor
    · intro h a ha b hb hpa hpb hab
      exact h a (hmem.mpr ⟨ha, hpa⟩) b (hmem.mpr ⟨hb, hpb⟩) (decide_eq_true hab)
    · intro h a ha b hb hab
      obtain ⟨ha, hpa⟩ := hmem.mp ha
      obtain ⟨hb, hpb⟩ := hmem.mp hb
      exact h a ha b hb hpa hpb (of_decide_eq_true hab)
  · exact decide_eq_false (sortKeys_asymm a b (of_decide_eq_true hab))

/-! ## Scalars -/

/-- A scalar of a fixed size. -/
theorem delimited_of_fixed {type : BinaryType} {width : ℕ} {buffer : List UInt8}
    (hextent : ∀ buffer, extent type buffer = some width) (hlength : buffer.length = width) :
    Binary.Delimited ⟨type, buffer⟩ := by
  intro rest
  rw [hextent, hlength]

theorem serializeInt_delimited {width : ℕ} {limit : ℤ} {signed unsigned : BinaryType} {value : ℤ}
    {binary : Binary} (hsigned : ∀ buffer, extent signed buffer = some width)
    (hunsigned : ∀ buffer, extent unsigned buffer = some width)
    (hscalar : signed.form? = none ∧ unsigned.form? = none)
    (h : serializeInt width limit signed unsigned value = some binary) :
    binary.Delimited ∧ binary.type.form? = none := by
  unfold serializeInt at h
  split at h
  · obtain ⟨bytes, hbytes, rfl⟩ := Option.map_eq_some_iff.mp h
    refine ⟨delimited_of_fixed hsigned ?_, hscalar.1⟩
    unfold writeIntLE at hbytes
    split at hbytes
    · rw [← Option.some.inj hbytes, length_littleEndian]
    · cases hbytes
  · obtain ⟨bytes, hbytes, rfl⟩ := Option.map_eq_some_iff.mp h
    refine ⟨delimited_of_fixed hunsigned ?_, hscalar.2⟩
    rw [(writeUIntLE_eq_some_iff.mp hbytes).2, length_littleEndian]

theorem serializeInteger_delimited {value : ℤ} {binary : Binary}
    (h : serializeInteger value = some binary) :
    binary.Delimited ∧ binary.type.form? = none := by
  have h16 : ∀ {binary}, serializeInt16 value = some binary →
      binary.Delimited ∧ binary.type.form? = none :=
    fun h => serializeInt_delimited (fun _ => rfl) (fun _ => rfl) ⟨rfl, rfl⟩ h
  have h32 : ∀ {binary}, serializeInt32 value = some binary →
      binary.Delimited ∧ binary.type.form? = none :=
    fun h => serializeInt_delimited (fun _ => rfl) (fun _ => rfl) ⟨rfl, rfl⟩ h
  have h64 : ∀ {binary}, serializeInt64 value = some binary →
      binary.Delimited ∧ binary.type.form? = none := by
    intro binary h
    unfold serializeInt64 at h
    split at h
    · cases h
    · obtain ⟨bytes, hbytes, rfl⟩ := Option.map_eq_some_iff.mp h
      refine ⟨@delimited_of_fixed .uint64 8 _ (fun _ => rfl) ?_, rfl⟩
      rw [(writeUIntLE_eq_some_iff.mp hbytes).2, List.length_append, length_littleEndian]
      rfl
  unfold serializeInteger at h
  split at h
  · split at h
    · exact h16 h
    · split at h
      · exact h32 h
      · exact h64 h
  · split at h
    · exact h16 h
    · split at h
      · exact h32 h
      · exact h64 h

theorem serializeNumber_delimited {value : JsNumber} {binary : Binary}
    (h : serializeNumber value = some binary) :
    binary.Delimited ∧ binary.type.form? = none := by
  have hdouble : (serializeDouble value).Delimited ∧ (serializeDouble value).type.form? = none :=
    ⟨@delimited_of_fixed .double 8 _ (fun _ => rfl) (length_littleEndian _ _), rfl⟩
  cases value with
  | integer value => exact serializeInteger_delimited h
  | negativeZero => exact serializeInteger_delimited h
  | fraction bits hfraction => exact Option.some.inj h ▸ hdouble
  | nan => exact Option.some.inj h ▸ hdouble
  | infinity negative => exact Option.some.inj h ▸ hdouble

theorem delimited_literal (byte : UInt8) : Binary.Delimited ⟨.literal, [byte]⟩ :=
  delimited_of_fixed (fun _ => rfl) rfl

/-- A string begins with its length. -/
theorem serializeString_delimited {jsString : CodeUnits} {binary : Binary}
    (h : serializeString jsString = some binary) :
    binary.Delimited ∧ binary.type.form? = none := by
  obtain ⟨hsize, rfl⟩ := serializeString_eq_some_iff.mp h
  have hlt : (utf8 jsString).length < 2 ^ 31 := by
    rw [stringSize, kMaxLength] at hsize
    omega
  refine ⟨fun rest => ?_, rfl⟩
  have hlength := parseLength_serializeLength hlt (utf8 jsString ++ rest)
  dsimp only
  rw [List.append_assoc, extent, hlength, List.length_append]
  simp

/-! ## Containers -/

theorem container_delimited {isObject isLarge : Bool} {type : BinaryType}
    {keys : List (List UInt8)} {binaries : List Binary}
    (hform : type.form? = some (isObject, isLarge))
    (hwell : ∀ binary ∈ binaries, binary.WellFormed)
    (hsize : containerSize isLarge keys binaries < 256 ^ offsetSize isLarge) :
    Binary.Delimited { type, buffer := containerBytes isLarge keys binaries } := by
  intro rest
  have hread := readUIntLE_append hsize (littleEndian (offsetSize isLarge) binaries.length)
    (keyEntries isLarge (dataStart isLarge keys.length binaries.length) 0 keys ++
      (valueEntries isLarge (dataStart isLarge keys.length binaries.length + keys.flatten.length) 0
          binaries ++
        (keys.flatten ++ binaries.flatMap Binary.buffer)) ++ rest)
  rw [length_littleEndian] at hread
  have hbytes : containerBytes isLarge keys binaries ++ rest =
      littleEndian (offsetSize isLarge) binaries.length ++
        (littleEndian (offsetSize isLarge) (containerSize isLarge keys binaries) ++
          (keyEntries isLarge (dataStart isLarge keys.length binaries.length) 0 keys ++
            (valueEntries isLarge
                (dataStart isLarge keys.length binaries.length + keys.flatten.length) 0 binaries ++
              (keys.flatten ++ binaries.flatMap Binary.buffer)) ++ rest)) := by
    unfold containerBytes headerBytes
    simp only [List.append_assoc]
  rw [← hbytes] at hread
  dsimp only
  rw [length_containerBytes hwell]
  cases type <;> simp only [BinaryType.form?, Option.some.injEq, Prod.mk.injEq, reduceCtorEq] at hform <;>
    obtain ⟨-, rfl⟩ := hform <;> exact hread

/-! ## Values -/

/-- In every object, keys that have a value compare as their UTF-8 forms do. -/
def JsValue.KeysInOrder : JsValue → Prop
  | .array length element => ∀ i < length, (element i).KeysInOrder
  | .object keys _ member =>
      (∀ a ∈ keys, ∀ b ∈ keys, (member a).isDefined = true → (member b).isDefined = true →
        sortKeys a b < 0 → KeyBefore (utf8 a) (utf8 b)) ∧
      ∀ key ∈ keys, (member key).KeysInOrder
  | _ => True

/-- What is known of a serialized value. -/
def Serialized (value : JsValue) (binary : Binary) : Prop :=
  binary.Delimited ∧ (binary.AllProper ↔ value.KeysInOrder)

theorem serialized_of_scalar {value : JsValue} {binary : Binary} (hdelimited : binary.Delimited)
    (hscalar : binary.type.form? = none) (hvalue : value.KeysInOrder) : Serialized value binary :=
  ⟨hdelimited, iff_of_true (Binary.allProper_of_scalar hscalar) hvalue⟩

theorem keysInOrder_of_undefined {value : JsValue} (h : value.isDefined = false) :
    value.KeysInOrder := by
  cases value <;> trivial

theorem serialized_elements {element : ℕ → JsValue} {indices : List ℕ} {binaries : List Binary}
    (hspec : ∀ i, ∀ {binary : Binary}, serialize (element i) = some (some binary) →
      Serialized (element i) binary)
    (h : indices.mapM (fun i => (serialize (element i)).map fun binary => binary.getD binaryNull) =
      some binaries) :
    (∀ binary ∈ binaries, binary.Delimited) ∧
      ((∀ binary ∈ binaries, binary.AllProper) ↔ ∀ i ∈ indices, (element i).KeysInOrder) := by
  have hall := mapM_eq_some_iff.mp h
  clear h
  induction hall with
  | nil => simp
  | @cons i binary indices binaries hfirst _ ih =>
      have hone : Serialized (element i) binary := by
        obtain ⟨binary?, hbinary, rfl⟩ := Option.map_eq_some_iff.mp hfirst
        cases binary? with
        | none =>
            exact serialized_of_scalar (delimited_literal 0x00) rfl
              (keysInOrder_of_undefined (isDefined_eq_false_of_serialize hbinary))
        | some binary => exact hspec i hbinary
      rw [List.forall_mem_cons, List.forall_mem_cons, List.forall_mem_cons, ih.2, hone.2]
      exact ⟨⟨hone.1, ih.1⟩, Iff.rfl⟩

/-- An array that fits into a buffer. -/
theorem serialized_array {length : ℕ} {element : ℕ → JsValue} {binaries : List Binary}
    {binary : Binary}
    (hbinaries : ((List.range length).filter fun i => !(element i).isHole).mapM (fun i =>
      (serialize (element i)).map fun binary => binary.getD binaryNull) = some binaries)
    (hspec : ∀ i, ∀ {binary : Binary}, serialize (element i) = some (some binary) →
      Serialized (element i) binary)
    (h : serializeArray binaries = some binary) : Serialized (.array length element) binary := by
  have hwell := wellFormed_of_elements (fun i => wellFormed_of_serialize) hbinaries
  obtain ⟨hsize, rfl⟩ := (serializeArray_eq_some_iff hwell).mp h
  obtain ⟨hdelimited, hproper⟩ := serialized_elements hspec hbinaries
  have hsizeOf : ∀ isLarge, arraySizeOf isLarge binaries.length
      (binaries.flatMap Binary.buffer).length = containerSize isLarge [] binaries := by
    intro isLarge
    unfold arraySizeOf containerSize dataStart
    simp only [List.length_nil, List.flatten_nil]
    omega
  have hlt := lt_of_arraySize hsize
  have hsmall : arrayIsLarge binaries.length (binaries.flatMap Binary.buffer).length = false ↔
      containerSize false [] binaries ≤ 65535 := by
    rw [arrayIsLarge, hsizeOf, decide_eq_false_iff_not, not_lt]
  generalize arrayIsLarge binaries.length (binaries.flatMap Binary.buffer).length = isLarge
    at hlt hsmall ⊢
  rw [hsizeOf] at hlt
  have hform : (if isLarge then BinaryType.largeArray else .smallArray).form? =
      some (false, isLarge) := by cases isLarge <;> rfl
  unfold arrayBinary
  rw [arrayBytes_eq]
  refine ⟨container_delimited hform hwell hlt, ?_⟩
  rw [allProper_container_iff hform rfl hwell hdelimited (by simp) hlt hsmall, hproper]
  constructor
  · rintro ⟨-, hall⟩ i hi
    by_cases hhole : (element i).isHole = true
    · cases hvalue : element i <;> simp_all [JsValue.isHole, JsValue.KeysInOrder]
    · exact hall i (List.mem_filter.mpr ⟨List.mem_range.mpr hi, by simpa using hhole⟩)
  · intro hall
    exact ⟨List.Pairwise.nil, fun i hi => hall i (List.mem_range.mp (List.mem_filter.mp hi).1)⟩

/-- An object that fits into a buffer. -/
theorem serialized_object {keys : List CodeUnits} {nodup : keys.Nodup}
    {member : CodeUnits → JsValue} {values : List (CodeUnits × Option Binary)} {binary : Binary}
    (hvalues : (sortedKeys keys).mapM (fun key =>
      (serialize (member key)).map fun binary => (key, binary)) = some values)
    (hspec : ∀ key, ∀ {binary : Binary}, serialize (member key) = some (some binary) →
      Serialized (member key) binary)
    (h : serializeObject (validMembers values) = some binary) :
    Serialized (.object keys nodup member) binary := by
  obtain ⟨hkeys, hentries⟩ := validMembers_of_mapM hvalues
  have hwell : ∀ entry ∈ validMembers values, entry.2.WellFormed :=
    fun entry hentry => wellFormed_of_serialize (hentries entry hentry)
  have hwell' := fun binary h => @wellFormed_of_mem_values (validMembers values) hwell binary h
  have hdelimited : ∀ binary ∈ (validMembers values).map Prod.snd, binary.Delimited := by
    intro binary hbinary
    obtain ⟨entry, hentry, rfl⟩ := List.mem_map.mp hbinary
    exact (hspec _ (hentries entry hentry)).1
  have hproper : (∀ binary ∈ (validMembers values).map Prod.snd, binary.AllProper) ↔
      ∀ key ∈ keys, (member key).KeysInOrder := by
    rw [List.forall_mem_map]
    constructor
    · intro hall key hkey
      cases hdefined : (member key).isDefined with
      | false => exact keysInOrder_of_undefined hdefined
      | true =>
          have hmem : key ∈ (validMembers values).map Prod.fst := by
            rw [hkeys]
            exact List.mem_filter.mpr ⟨(sortedKeys_perm keys).mem_iff.mpr hkey, by simpa using hdefined⟩
          obtain ⟨entry, hentry, rfl⟩ := List.mem_map.mp hmem
          exact (hspec _ (hentries entry hentry)).2.mp (hall entry hentry)
    · intro hall entry hentry
      have hmem : entry.1 ∈ (validMembers values).map Prod.fst := List.mem_map_of_mem hentry
      rw [hkeys] at hmem
      have hkey := (sortedKeys_perm keys).mem_iff.mp (List.mem_filter.mp hmem).1
      exact (hspec _ (hentries entry hentry)).2.mpr (hall entry.1 hkey)
  obtain ⟨hshort, hsize, rfl⟩ := (serializeObject_eq_some_iff hwell).mp h
  have hlt := lt_of_objectSize hsize
  generalize hmembers : validMembers values = members at *
  have hkeyBytes : ((members.map Prod.fst).map utf8).flatten = keyData members := by
    rw [keyData, List.flatMap_def]
  have hsizeOf : ∀ isLarge, objectSizeOf isLarge members.length (valueData members).length
      (keyData members).length =
        containerSize isLarge ((members.map Prod.fst).map utf8) (members.map Prod.snd) := by
    intro isLarge
    unfold objectSizeOf containerSize dataStart
    rw [hkeyBytes, ← valueData, List.length_map, List.length_map, List.length_map]
    omega
  have hsmall : objectIsLarge members.length (valueData members).length (keyData members).length =
      false ↔ containerSize false ((members.map Prod.fst).map utf8) (members.map Prod.snd) ≤
        65535 := by
    rw [objectIsLarge, hsizeOf, decide_eq_false_iff_not, not_lt]
  generalize objectIsLarge members.length (valueData members).length (keyData members).length =
    isLarge at hlt hsmall ⊢
  rw [hsizeOf] at hlt
  have hform : (if isLarge then BinaryType.largeObject else .smallObject).form? =
      some (true, isLarge) := by cases isLarge <;> rfl
  have hshort' : ∀ key ∈ (members.map Prod.fst).map utf8, key.length < 65536 := by
    intro key hkey
    obtain ⟨units, hunits, rfl⟩ := List.mem_map.mp hkey
    obtain ⟨entry, hentry, rfl⟩ := List.mem_map.mp hunits
    exact hshort entry hentry
  unfold objectBinary
  rw [objectBytes_eq]
  refine ⟨container_delimited hform hwell' hlt, ?_⟩
  rw [allProper_container_iff hform (by simp [keyCount]) hwell' hdelimited hshort' hlt hsmall,
    hproper, hkeys, pairwise_keys_iff nodup]
  exact Iff.rfl

/-- In whatever is serialized, all containers are proper exactly if all keys are in order. -/
theorem serialized_of_serialize {value : JsValue} :
    ∀ {binary : Binary}, serialize value = some (some binary) → Serialized value binary := by
  induction value with
  | undefined => exact fun h => (nomatch h)
  | hole => exact fun h => (nomatch h)
  | null =>
      intro binary h
      rw [← Option.some.inj (Option.some.inj h)]
      exact serialized_of_scalar (delimited_literal 0x00) rfl trivial
  | boolean value =>
      intro binary h
      rw [← Option.some.inj (Option.some.inj h)]
      cases value
      · exact serialized_of_scalar (delimited_literal 0x02) rfl trivial
      · exact serialized_of_scalar (delimited_literal 0x01) rfl trivial
  | number value =>
      intro binary h
      obtain ⟨other, hother, heq⟩ := Option.map_eq_some_iff.mp h
      rw [← Option.some.inj heq]
      obtain ⟨hdelimited, hscalar⟩ := serializeNumber_delimited hother
      exact serialized_of_scalar hdelimited hscalar trivial
  | string value =>
      intro binary h
      obtain ⟨other, hother, heq⟩ := Option.map_eq_some_iff.mp h
      rw [← Option.some.inj heq]
      obtain ⟨hdelimited, hscalar⟩ := serializeString_delimited hother
      exact serialized_of_scalar hdelimited hscalar trivial
  | array length element ih =>
      intro binary h
      obtain ⟨binaries, hbinaries, h⟩ := Option.bind_eq_some_iff.mp h
      obtain ⟨other, hother, heq⟩ := Option.map_eq_some_iff.mp h
      rw [← Option.some.inj heq]
      exact serialized_array hbinaries (fun i => ih i) hother
  | object keys nodup member ih =>
      intro binary h
      obtain ⟨values, hvalues, h⟩ := Option.bind_eq_some_iff.mp h
      obtain ⟨other, hother, heq⟩ := Option.map_eq_some_iff.mp h
      rw [← Option.some.inj heq]
      exact serialized_object hvalues (fun key => ih key) hother

/-- What is serialized is well formed exactly if the keys of its objects are in order. -/
theorem wellFormedDocument_iff {value : JsValue} {bytes : List UInt8}
    (h : publicSerialize value = some (some bytes)) :
    WellFormedDocument bytes ↔ value.KeysInOrder := by
  obtain ⟨binary?, hbinary, h⟩ := Option.bind_eq_some_iff.mp h
  cases binary? with
  | none => cases h
  | some binary =>
      obtain ⟨written, hwritten, heq⟩ := Option.map_eq_some_iff.mp h
      have hbytes := (write_eq_some_iff.mp hwritten).2
      rw [← Option.some.inj heq, hbytes, ← (serialized_of_serialize hbinary).2]
      constructor
      · rintro ⟨type, htype, hall⟩
        rw [ofCode?_code] at htype
        cases Option.mem_some_iff.mp htype
        exact hall
      · exact fun hall => ⟨binary.type, ofCode?_code _, hall⟩

/-- An object with an array and a literal. -/
def nested : JsValue :=
  .object [[0x62, 0x63], [0x61]] (by decide) fun key =>
    if key = [0x61] then .array 1 fun _ => .boolean true else .null

def nestedBytes : List UInt8 :=
  [0x00, 2, 0, 30, 0, 18, 0, 1, 0, 19, 0, 2, 0, 0x02, 21, 0, 0x04, 0, 0, 0x61, 0x62, 0x63,
    1, 0, 8, 0, 0x04, 1, 0, 1, 0]

theorem publicSerialize_nested : publicSerialize nested = some (some nestedBytes) := by
  have hsorted : sortedKeys [[0x62, 0x63], [0x61]] = [[0x61], [0x62, 0x63]] := by
    simp [sortedKeys, List.mergeSort, sortKeys]
  unfold publicSerialize nested
  rw [serialize, hsorted]
  decide +kernel

theorem wellFormedDocument_nested : publicSerialize nested = some (some nestedBytes) ∧
    (WellFormedDocument nestedBytes ↔ nested.KeysInOrder) :=
  ⟨publicSerialize_nested, wellFormedDocument_iff publicSerialize_nested⟩

/-- An object with a key of one character outside of ASCII and a key of two characters. -/
def accented : JsValue := .object [[0xE9], [0x7A, 0x7A]] (by decide) fun _ => .null

def accentedBytes : List UInt8 :=
  [0x00, 2, 0, 24, 0, 18, 0, 2, 0, 20, 0, 2, 0, 0x04, 0, 0, 0x04, 0, 0, 0xC3, 0xA9, 0x7A, 0x7A,
    0, 0]

theorem publicSerialize_accented : publicSerialize accented = some (some accentedBytes) := by
  have hsorted : sortedKeys [[0xE9], [0x7A, 0x7A]] = [[0xE9], [0x7A, 0x7A]] := by
    simp [sortedKeys, List.mergeSort, sortKeys]
  unfold publicSerialize accented
  rw [serialize, hsorted]
  decide +kernel

/-- Both keys take two bytes, and the shorter one comes first in UTF-16 only. -/
theorem not_wellFormedDocument_accented :
    ¬∀ value bytes, publicSerialize value = some (some bytes) → WellFormedDocument bytes := by
  intro h
  obtain ⟨type, htype, hall⟩ := h accented accentedBytes publicSerialize_accented
  have hobject : type = .smallObject := by
    rw [show BinaryType.ofCode? 0x00 = some .smallObject from rfl] at htype
    exact (Option.mem_some_iff.mp htype).symm
  subst hobject
  obtain ⟨container, hcontainer, hproper⟩ := (Binary.allProper_iff.mp hall).1 true false rfl
  have hread : readContainer true false accentedBytes.tail = some
      { elementCount := 2, size := 24, keys := [⟨18, 2⟩, ⟨20, 2⟩]
        values := [(.literal, none), (.literal, none)] } := by decide +kernel
  have hfound := Option.mem_some_iff.mp (hread ▸ hcontainer)
  have hordered := hproper.ordered
  rw [← hfound] at hordered
  have hfirst : KeyBefore [0xC3, 0xA9] [0x7A, 0x7A] :=
    (List.pairwise_cons.mp hordered).1 _ List.mem_cons_self
  unfold KeyBefore at hfirst
  revert hfirst
  decide

end DatabaseJones.MySQLSerialize
