import DatabaseJones.MySQLSerialize.Containers

/-!
# The round trip of binary JSON

Which values come back from binary JSON as they come back from JSON text.  Every value that
is made of numbers in the range of the parser, strings without lone surrogates, arrays
without gaps, and objects without the key `__proto__` or a key of more than 65535 bytes
comes back, if it fits into a buffer, and no other value does.
-/

namespace DatabaseJones.MySQLSerialize

open DatabaseJones.Library

/-! ## The values that can be stored -/

/-- Whether there is a text for a value. -/
def JsValue.isDefined : JsValue → Bool
  | .undefined => false
  | .hole => false
  | _ => true

/-- The values for which the format has a place.  A member that is `undefined` is left out
with its key. -/
def JsValue.Storable : JsValue → Prop
  | .undefined => True
  | .hole => False
  | .null => True
  | .boolean _ => True
  | .number value => value.Storable
  | .string value => Paired value
  | .array length element => ∀ i < length, (element i).Storable
  | .object keys _ member => ∀ key ∈ keys, (member key).isDefined = true →
      Paired key ∧ key ≠ protoKey ∧ (utf8 key).length < 65536 ∧ (member key).Storable

/-- The number of bytes that a value takes without its type. -/
def JsValue.size : JsValue → ℕ
  | .undefined => 1
  | .hole => 1
  | .null => 1
  | .boolean _ => 1
  | .number value => value.size
  | .string value => stringSize value
  | .array length element => arraySize length ((List.range length).map fun i => (element i).size).sum
  | .object keys _ member =>
      objectSize (keys.filter fun key => (member key).isDefined).length
        ((keys.filter fun key => (member key).isDefined).map fun key => (member key).size).sum
        ((keys.filter fun key => (member key).isDefined).map fun key => (utf8 key).length).sum

theorem throughJson_isSome (value : JsValue) : value.throughJson.isSome = value.isDefined := by
  cases value <;> rfl

theorem serialize_eq_some_none {value : JsValue} (h : value.isDefined = false) :
    serialize value = some none := by
  cases value <;> first
    | rfl
    | exact nomatch h

theorem isDefined_of_serialize {value : JsValue} {binary : Binary}
    (h : serialize value = some (some binary)) : value.isDefined = true := by
  cases value <;> first
    | rfl
    | exact nomatch h

theorem isDefined_eq_false_of_serialize {value : JsValue} (h : serialize value = some none) :
    value.isDefined = false := by
  cases value with
  | undefined => rfl
  | hole => rfl
  | null => exact nomatch h
  | boolean value => exact nomatch h
  | number value =>
      obtain ⟨_, _, h⟩ := Option.map_eq_some_iff.mp h
      exact nomatch h
  | string value =>
      obtain ⟨_, _, h⟩ := Option.map_eq_some_iff.mp h
      exact nomatch h
  | array length element =>
      obtain ⟨_, _, h⟩ := Option.bind_eq_some_iff.mp h
      obtain ⟨_, _, h⟩ := Option.map_eq_some_iff.mp h
      exact nomatch h
  | object keys nodup member =>
      obtain ⟨_, _, h⟩ := Option.bind_eq_some_iff.mp h
      obtain ⟨_, _, h⟩ := Option.map_eq_some_iff.mp h
      exact nomatch h

/-! ## Elements and members -/

/-- The serialized form of an element of an array. -/
def serializeElement (value : JsValue) : Option Binary :=
  (serialize value).map fun binary => binary.getD binaryNull

theorem length_of_forall₂ {β : Type} {size : β → ℕ} {items : List β} {binaries : List Binary}
    (h : List.Forall₂ (fun item binary => binary.buffer.length = size item) items binaries) :
    (binaries.flatMap Binary.buffer).length = (items.map size).sum := by
  induction h with
  | nil => rfl
  | cons hlength _ ih => rw [List.flatMap_cons, List.length_append, ih, hlength, List.map_cons,
      List.sum_cons]

theorem length_le_of_mem {binaries : List Binary} {binary : Binary} (h : binary ∈ binaries) :
    binary.buffer.length ≤ (binaries.flatMap Binary.buffer).length := by
  rw [List.length_flatMap]
  exact List.single_le_sum (fun _ _ => Nat.zero_le _) _ (List.mem_map_of_mem h)

theorem validMembers_none (key : CodeUnits) (values : List (CodeUnits × Option Binary)) :
    validMembers ((key, none) :: values) = validMembers values := rfl

theorem validMembers_some (key : CodeUnits) (binary : Binary)
    (values : List (CodeUnits × Option Binary)) :
    validMembers ((key, some binary) :: values) = (key, binary) :: validMembers values := rfl

/-- The members that are serialized are those with a value, in the order of the keys. -/
theorem validMembers_of_mapM {member : CodeUnits → JsValue} {keys : List CodeUnits} :
    ∀ {values : List (CodeUnits × Option Binary)},
      keys.mapM (fun key => (serialize (member key)).map fun binary => (key, binary)) = some values →
      (validMembers values).map Prod.fst = keys.filter (fun key => (member key).isDefined) ∧
        ∀ entry ∈ validMembers values, serialize (member entry.1) = some (some entry.2) := by
  induction keys with
  | nil =>
      intro values h
      rw [← Option.some.inj h]
      exact ⟨rfl, fun _ hentry => absurd hentry List.not_mem_nil⟩
  | cons key keys ih =>
      intro values h
      rw [List.mapM_cons] at h
      obtain ⟨first, hfirst, h⟩ := Option.bind_eq_some_iff.mp h
      obtain ⟨others, hothers, h⟩ := Option.bind_eq_some_iff.mp h
      obtain ⟨binary?, hbinary, rfl⟩ := Option.map_eq_some_iff.mp hfirst
      obtain ⟨hkeys, hentries⟩ := ih hothers
      rw [← Option.some.inj h]
      cases binary? with
      | none =>
          have hundefined := isDefined_eq_false_of_serialize hbinary
          rw [List.filter_cons_of_neg (by simp [hundefined]), validMembers_none]
          exact ⟨hkeys, hentries⟩
      | some binary =>
          have hdefined := isDefined_of_serialize hbinary
          rw [List.filter_cons_of_pos (by simpa using hdefined), validMembers_some, List.map_cons,
            hkeys]
          refine ⟨rfl, fun entry hentry => ?_⟩
          rcases List.mem_cons.mp hentry with rfl | hmem
          · exact hbinary
          · exact hentries entry hmem

theorem sortedKeys_perm (keys : List CodeUnits) : (sortedKeys keys).Perm keys :=
  List.mergeSort_perm keys _

/-- The elements of an array are well formed if their values are. -/
theorem wellFormed_of_elements {element : ℕ → JsValue} {indices : List ℕ} {binaries : List Binary}
    (hwell : ∀ i, ∀ {binary : Binary}, serialize (element i) = some (some binary) →
      binary.WellFormed)
    (h : indices.mapM (fun i => (serialize (element i)).map fun binary => binary.getD binaryNull) =
      some binaries) : ∀ binary ∈ binaries, binary.WellFormed := by
  have hall := mapM_eq_some_iff.mp h
  clear h
  induction hall with
  | nil => exact fun binary h => absurd h List.not_mem_nil
  | cons hfirst _ ih =>
      refine List.forall_mem_cons.mpr ⟨?_, ih⟩
      obtain ⟨binary?, hbinary, rfl⟩ := Option.map_eq_some_iff.mp hfirst
      cases binary? with
      | none => exact wellFormed_literal 0x00
      | some binary => exact hwell _ hbinary

/-- Whatever is serialized can be read from a larger buffer. -/
theorem wellFormed_of_serialize {value : JsValue} :
    ∀ {binary : Binary}, serialize value = some (some binary) → binary.WellFormed := by
  induction value with
  | undefined => exact fun h => (nomatch h)
  | hole => exact fun h => (nomatch h)
  | null =>
      intro binary h
      rw [← Option.some.inj (Option.some.inj h)]
      exact wellFormed_literal 0x00
  | boolean value =>
      intro binary h
      rw [← Option.some.inj (Option.some.inj h)]
      cases value
      · exact wellFormed_literal 0x02
      · exact wellFormed_literal 0x01
  | number value =>
      intro binary h
      obtain ⟨other, hother, heq⟩ := Option.map_eq_some_iff.mp h
      rw [← Option.some.inj heq]
      exact wellFormed_serializeNumber hother
  | string value =>
      intro binary h
      obtain ⟨other, hother, heq⟩ := Option.map_eq_some_iff.mp h
      rw [← Option.some.inj heq]
      exact wellFormed_serializeString hother
  | array length element ih =>
      intro binary h
      obtain ⟨binaries, hbinaries, h⟩ := Option.bind_eq_some_iff.mp h
      obtain ⟨other, hother, heq⟩ := Option.map_eq_some_iff.mp h
      have hwell := wellFormed_of_elements (fun i => ih i) hbinaries
      obtain ⟨hsize, rfl⟩ := (serializeArray_eq_some_iff hwell).mp hother
      rw [← Option.some.inj heq]
      exact wellFormed_arrayBinary hwell (lt_of_arraySize hsize)
  | object keys nodup member ih =>
      intro binary h
      obtain ⟨values, hvalues, h⟩ := Option.bind_eq_some_iff.mp h
      obtain ⟨other, hother, heq⟩ := Option.map_eq_some_iff.mp h
      have hwell : ∀ entry ∈ validMembers values, entry.2.WellFormed :=
        fun entry hentry => ih entry.1 ((validMembers_of_mapM hvalues).2 entry hentry)
      obtain ⟨hshort, hsize, rfl⟩ := (serializeObject_eq_some_iff hwell).mp hother
      rw [← Option.some.inj heq]
      exact wellFormed_objectBinary hwell hshort (lt_of_objectSize hsize)

/-! ## Members of the parsed object -/

/-- A member of the parsed object is one of those that were set. -/
theorem mem_of_foldl_setMember {key : CodeUnits} {json : Json} (members : List (CodeUnits × Json)) :
    ∀ result : CodeUnits → Option Json, members.foldl setMember result key = some json →
      result key = some json ∨ (key, json) ∈ members ∧ key ≠ protoKey := by
  induction members with
  | nil => exact fun _ h => Or.inl h
  | cons member members ih =>
      intro result h
      rcases ih _ h with h | ⟨hmem, hproto⟩
      · rw [setMember] at h
        split_ifs at h with hproto
        · exact Or.inl h
        · by_cases hkey : key = member.1
          · subst hkey
            rw [Function.update_self] at h
            rw [← Option.some.inj h]
            exact Or.inr ⟨List.mem_cons_self, hproto⟩
          · rw [Function.update_of_ne hkey] at h
            exact Or.inl h
      · exact Or.inr ⟨List.mem_cons_of_mem _ hmem, hproto⟩

theorem foldl_setMember_of_notMem {key : CodeUnits} (members : List (CodeUnits × Json)) :
    ∀ result : CodeUnits → Option Json, key ∉ members.map Prod.fst →
      members.foldl setMember result key = result key := by
  induction members with
  | nil => exact fun _ _ => rfl
  | cons member members ih =>
      intro result h
      rw [List.map_cons, List.mem_cons, not_or] at h
      rw [List.foldl_cons, ih _ h.2, setMember]
      split_ifs
      · rfl
      · exact Function.update_of_ne h.1 _ _

/-- With different keys, every member that is set is a member of the result. -/
theorem foldl_setMember_of_mem {key : CodeUnits} {json : Json} (hproto : key ≠ protoKey)
    (members : List (CodeUnits × Json)) :
    ∀ result : CodeUnits → Option Json, (members.map Prod.fst).Nodup → (key, json) ∈ members →
      members.foldl setMember result key = some json := by
  induction members with
  | nil => exact fun _ _ h => absurd h List.not_mem_nil
  | cons member members ih =>
      intro result hnodup hmem
      rw [List.map_cons, List.nodup_cons] at hnodup
      rw [List.foldl_cons]
      rcases List.mem_cons.mp hmem with rfl | hmem
      · rw [foldl_setMember_of_notMem _ _ hnodup.1, setMember, if_neg hproto, Function.update_self]
      · exact ih _ hnodup.2 hmem

/-! ## What can be stored comes back -/

/-- A binary value of the given size that is parsed as a JSON value. -/
structure Stores (json : Json) (size : ℕ) (binary : Binary) : Prop where
  wellFormed : binary.WellFormed
  length : binary.buffer.length = size
  parse : ∀ depth, size < depth → parse depth binary = some json

theorem mapM_parse_of_stores {β : Type} {json : β → Json} {size : β → ℕ} {items : List β}
    {binaries : List Binary}
    (h : List.Forall₂ (fun item binary => Stores (json item) (size item) binary) items binaries)
    {depth : ℕ} (hdepth : (binaries.flatMap Binary.buffer).length < depth) :
    binaries.mapM (parse depth) = some (items.map json) := by
  rw [mapM_eq_some_iff, List.forall₂_map_right_iff]
  induction h with
  | nil => exact .nil
  | cons hstores _ ih =>
      rw [List.flatMap_cons, List.length_append] at hdepth
      refine .cons (hstores.parse depth ?_) (ih (by omega))
      rw [← hstores.length]
      omega

theorem length_of_stores {β : Type} {json : β → Json} {size : β → ℕ} {items : List β}
    {binaries : List Binary}
    (h : List.Forall₂ (fun item binary => Stores (json item) (size item) binary) items binaries) :
    (binaries.flatMap Binary.buffer).length = (items.map size).sum :=
  length_of_forall₂ (h.imp fun _ _ hstores => hstores.length)

theorem wellFormed_of_stores {β : Type} {json : β → Json} {size : β → ℕ} {items : List β}
    {binaries : List Binary}
    (h : List.Forall₂ (fun item binary => Stores (json item) (size item) binary) items binaries) :
    ∀ binary ∈ binaries, binary.WellFormed := by
  induction h with
  | nil => exact fun _ h => absurd h List.not_mem_nil
  | cons hstores _ ih => exact List.forall_mem_cons.mpr ⟨hstores.wellFormed, ih⟩

/-- An array whose elements can be stored. -/
theorem stores_array {length : ℕ} {element : ℕ → JsValue}
    (helements : ∀ i < length, (element i).isHole = false ∧
      ∃ binary, (serialize (element i)).map (fun binary => binary.getD binaryNull) = some binary ∧
        Stores ((element i).throughJson.getD .null) (element i).size binary)
    (hsize : (JsValue.array length element).size ≤ kMaxLength) :
    ∃ binary, serialize (.array length element) = some (some binary) ∧
      Stores (.array ((List.range length).map fun i => (element i).throughJson.getD .null))
        (JsValue.array length element).size binary := by
  obtain ⟨binaries, hbinaries, hstores⟩ := @exists_mapM_forall₂ _ _
    (fun i => (serialize (element i)).map fun binary => binary.getD binaryNull)
    (fun i binary => Stores ((element i).throughJson.getD .null) (element i).size binary)
    (List.range length) (fun i hi => (helements i (List.mem_range.mp hi)).2)
  have hwell := wellFormed_of_stores hstores
  have hlength := length_of_stores hstores
  have hcount : binaries.length = length := by
    rw [← hstores.length_eq, List.length_range]
  have hsize' : arraySize binaries.length (binaries.flatMap Binary.buffer).length ≤ kMaxLength := by
    rw [hcount, hlength]
    exact hsize
  have hserialized := (serializeArray_eq_some_iff hwell).mpr ⟨hsize', rfl⟩
  have hfilter : (List.range length).filter (fun i => !(element i).isHole) = List.range length := by
    rw [List.filter_eq_self]
    intro i hi
    rw [(helements i (List.mem_range.mp hi)).1]
    rfl
  refine ⟨_, ?_, wellFormed_arrayBinary hwell (lt_of_arraySize hsize'), ?_, ?_⟩
  · rw [serialize, hfilter]
    refine Option.bind_eq_some_iff.mpr ⟨binaries, hbinaries, ?_⟩
    rw [hserialized, Option.map_some]
  · rw [arrayBinary, length_arrayBytes hwell, JsValue.size, hlength, hcount]
    rfl
  · intro depth hdepth
    rw [JsValue.size, ← hlength, ← hcount] at hdepth
    cases depth with
    | zero => exact absurd hdepth (Nat.not_lt_zero _)
    | succ depth =>
        have hparse := parse_arrayBinary hwell (lt_of_arraySize hsize') depth []
        rw [List.append_nil] at hparse
        rw [arraySize, arraySizeOf] at hdepth
        have hdata : (binaries.flatMap Binary.buffer).length < depth := by
          have : 0 < headerSize
              (arrayIsLarge binaries.length (binaries.flatMap Binary.buffer).length) := by
            cases arrayIsLarge binaries.length (binaries.flatMap Binary.buffer).length <;> decide
          omega
        refine hparse.trans ?_
        rw [mapM_parse_of_stores hstores hdata, Option.map_some]

/-- The keys of the members that are serialized are those with a value, in another order. -/
theorem validMembers_perm {member : CodeUnits → JsValue} {keys : List CodeUnits}
    {values : List (CodeUnits × Option Binary)}
    (hvalues : (sortedKeys keys).mapM (fun key =>
      (serialize (member key)).map fun binary => (key, binary)) = some values) :
    ((validMembers values).map Prod.fst).Perm (keys.filter fun key => (member key).isDefined) := by
  rw [(validMembers_of_mapM hvalues).1]
  exact (sortedKeys_perm keys).filter _

theorem length_keyData {members : List (CodeUnits × Binary)} {keys : List CodeUnits}
    (hperm : (members.map Prod.fst).Perm keys) :
    (keyData members).length = (keys.map fun key => (utf8 key).length).sum := by
  rw [keyData, List.length_flatMap]
  exact (hperm.map _).sum_eq

theorem length_valueData {members : List (CodeUnits × Binary)} {keys : List CodeUnits}
    {size : CodeUnits → ℕ} (hperm : (members.map Prod.fst).Perm keys)
    (hlength : ∀ entry ∈ members, entry.2.buffer.length = size entry.1) :
    (valueData members).length = (keys.map size).sum := by
  have hall : List.Forall₂ (fun (entry : CodeUnits × Binary) binary =>
      binary.buffer.length = size entry.1) members (members.map Prod.snd) := by
    rw [List.forall₂_map_right_iff, List.forall₂_same]
    exact hlength
  rw [valueData, length_of_forall₂ hall, ← (hperm.map size).sum_eq, List.map_map]
  rfl

/-- Reading back members with paired keys gives the same members, whatever their order. -/
theorem foldl_setMember_eq {members : List (CodeUnits × Json)} {expected : CodeUnits → Option Json}
    (hnodup : (members.map Prod.fst).Nodup)
    (hproto : ∀ entry ∈ members, entry.1 ≠ protoKey)
    (hmem : ∀ entry ∈ members, expected entry.1 = some entry.2)
    (hother : ∀ key, key ∉ members.map Prod.fst → expected key = none) :
    members.foldl setMember (fun _ => none) = expected := by
  funext key
  by_cases hkey : key ∈ members.map Prod.fst
  · obtain ⟨entry, hentry, rfl⟩ := List.mem_map.mp hkey
    rw [foldl_setMember_of_mem (hproto entry hentry) members _ hnodup hentry, hmem entry hentry]
  · rw [foldl_setMember_of_notMem _ _ hkey, hother key hkey]

/-- An object whose members can be stored. -/
theorem stores_object {keys : List CodeUnits} (nodup : keys.Nodup) {member : CodeUnits → JsValue}
    (hmembers : ∀ key ∈ keys, (member key).isDefined = true →
      Paired key ∧ key ≠ protoKey ∧ (utf8 key).length < 65536 ∧
        ∃ binary json, serialize (member key) = some (some binary) ∧
          (member key).throughJson = some json ∧ Stores json (member key).size binary)
    (hsize : (JsValue.object keys nodup member).size ≤ kMaxLength) :
    ∃ binary, serialize (.object keys nodup member) = some (some binary) ∧
      Stores (.object fun key => if key ∈ keys then (member key).throughJson else none)
        (JsValue.object keys nodup member).size binary := by
  obtain ⟨values, hvalues⟩ := @exists_mapM_eq_some _ _ (fun key =>
    (serialize (member key)).map fun binary => (key, binary)) (sortedKeys keys) (by
      intro key hkey
      rw [Option.isSome_map]
      cases hdefined : (member key).isDefined with
      | false => rw [serialize_eq_some_none hdefined]; rfl
      | true =>
          obtain ⟨_, _, _, binary, json, hbinary, _⟩ :=
            hmembers key ((sortedKeys_perm keys).mem_iff.mp hkey) hdefined
          rw [hbinary]
          rfl)
  have hperm := validMembers_perm hvalues
  have hentries := (validMembers_of_mapM hvalues).2
  have hkey : ∀ entry ∈ validMembers values, entry.1 ∈ keys ∧ (member entry.1).isDefined = true := by
    intro entry hentry
    have hmem := hperm.mem_iff.mp (List.mem_map_of_mem hentry)
    simpa using List.mem_filter.mp hmem
  -- what is known of a member holds of the entry that it was serialized to
  have hstores : ∀ entry ∈ validMembers values, Paired entry.1 ∧ entry.1 ≠ protoKey ∧
      (utf8 entry.1).length < 65536 ∧ ∃ json, (member entry.1).throughJson = some json ∧
        Stores json (member entry.1).size entry.2 := by
    intro entry hentry
    obtain ⟨hkeys, hdefined⟩ := hkey entry hentry
    obtain ⟨hpaired, hproto, hshort, binary, json, hbinary, hjson, hstore⟩ :=
      hmembers entry.1 hkeys hdefined
    rw [hentries entry hentry] at hbinary
    rw [← Option.some.inj (Option.some.inj hbinary)] at hstore
    exact ⟨hpaired, hproto, hshort, json, hjson, hstore⟩
  have hall : List.Forall₂ (fun (entry : CodeUnits × Binary) binary =>
      Stores ((member entry.1).throughJson.getD .null) (member entry.1).size binary)
      (validMembers values) ((validMembers values).map Prod.snd) := by
    rw [List.forall₂_map_right_iff, List.forall₂_same]
    intro entry hentry
    obtain ⟨_, _, _, json, hjson, hstore⟩ := hstores entry hentry
    rw [hjson]
    exact hstore
  have hwell : ∀ entry ∈ validMembers values, entry.2.WellFormed :=
    fun entry hentry => wellFormed_of_serialize (hentries entry hentry)
  have hshort : ∀ entry ∈ validMembers values, (utf8 entry.1).length < 65536 :=
    fun entry hentry => (hstores entry hentry).2.2.1
  have hcount : (validMembers values).length =
      (keys.filter fun key => (member key).isDefined).length := by
    rw [← hperm.length_eq, List.length_map]
  have hkeyLength := length_keyData hperm
  have hvalueLength := @length_valueData _ _ (fun key => (member key).size) hperm
    fun entry hentry => by
      obtain ⟨_, _, _, _, _, hstore⟩ := hstores entry hentry
      exact hstore.length
  have hsize' : objectSize (validMembers values).length (valueData (validMembers values)).length
      (keyData (validMembers values)).length ≤ kMaxLength := by
    rw [hcount, hkeyLength, hvalueLength]
    exact hsize
  have hserialized := (serializeObject_eq_some_iff hwell).mpr ⟨hshort, hsize', rfl⟩
  refine ⟨_, ?_, wellFormed_objectBinary hwell hshort (lt_of_objectSize hsize'), ?_, ?_⟩
  · rw [serialize]
    refine Option.bind_eq_some_iff.mpr ⟨values, hvalues, ?_⟩
    rw [hserialized, Option.map_some]
  · rw [objectBinary, length_objectBytes hwell, JsValue.size, hcount, hkeyLength, hvalueLength]
    rfl
  · intro depth hdepth
    rw [JsValue.size, ← hvalueLength, ← hkeyLength, ← hcount] at hdepth
    cases depth with
    | zero => exact absurd hdepth (Nat.not_lt_zero _)
    | succ depth =>
        have hparse := parse_objectBinary hwell hshort (lt_of_objectSize hsize') depth []
        rw [List.append_nil] at hparse
        have hdata : (valueData (validMembers values)).length < depth := by
          rw [objectSize, objectSizeOf] at hdepth
          have : 0 < headerSize (objectIsLarge (validMembers values).length
              (valueData (validMembers values)).length (keyData (validMembers values)).length) := by
            cases objectIsLarge (validMembers values).length
              (valueData (validMembers values)).length (keyData (validMembers values)).length <;> decide
          omega
        have hplain : ((validMembers values).map Prod.fst).map
            (fun key => unitsOfChars (charsOfUnits key)) = (validMembers values).map Prod.fst := by
          rw [List.map_map]
          refine List.map_congr_left fun entry hentry => ?_
          exact (unitsOfChars_charsOfUnits_iff entry.1).mpr (hstores entry hentry).1
        refine hparse.trans ?_
        rw [mapM_parse_of_stores hall hdata, Option.map_some, hplain, List.zip_map', parsedObject]
        congr 2
        apply foldl_setMember_eq
        · rw [List.map_map]
          exact hperm.nodup_iff.mpr (nodup.filter _)
        · intro entry hentry
          obtain ⟨source, hsource, rfl⟩ := List.mem_map.mp hentry
          exact (hstores source hsource).2.1
        · intro entry hentry
          obtain ⟨source, hsource, rfl⟩ := List.mem_map.mp hentry
          obtain ⟨_, _, _, json, hjson, _⟩ := hstores source hsource
          rw [if_pos (hkey source hsource).1, hjson]
          rfl
        · intro key hnot
          rw [List.map_map] at hnot
          split_ifs with hkeys
          · have hundefined : (member key).isDefined = false := by
              by_contra hdefined
              refine hnot (hperm.mem_iff.mpr (List.mem_filter.mpr ⟨hkeys, ?_⟩))
              simpa using hdefined
            rw [← Option.not_isSome_iff_eq_none, throughJson_isSome, hundefined]
            exact Bool.false_ne_true
          · rfl

/-- The parts of a value fit into a buffer if the value does. -/
theorem size_element_le {length : ℕ} {element : ℕ → JsValue} {i : ℕ} (hi : i < length) :
    (element i).size ≤ (JsValue.array length element).size := by
  have hle : (element i).size ≤ ((List.range length).map fun i => (element i).size).sum :=
    List.single_le_sum (fun _ _ => Nat.zero_le _) _
      (List.mem_map_of_mem (List.mem_range.mpr hi))
  rw [JsValue.size, arraySize, arraySizeOf]
  omega

theorem size_member_le {keys : List CodeUnits} {nodup : keys.Nodup} {member : CodeUnits → JsValue}
    {key : CodeUnits} (hkey : key ∈ keys) (hdefined : (member key).isDefined = true) :
    (member key).size ≤ (JsValue.object keys nodup member).size := by
  have hle : (member key).size ≤
      ((keys.filter fun key => (member key).isDefined).map fun key => (member key).size).sum :=
    List.single_le_sum (fun _ _ => Nat.zero_le _) _
      (List.mem_map_of_mem (List.mem_filter.mpr ⟨hkey, hdefined⟩))
  rw [JsValue.size, objectSize, objectSizeOf]
  omega

/-- A value that can be stored and fits into a buffer comes back as from JSON text. -/
theorem stores_of_storable {value : JsValue} :
    value.Storable → value.size ≤ kMaxLength → ∀ {json}, value.throughJson = some json →
      ∃ binary, serialize value = some (some binary) ∧ Stores json value.size binary := by
  induction value with
  | undefined =>
      intro _ _ json hjson
      cases hjson
  | hole =>
      intro _ _ json hjson
      cases hjson
  | null =>
      intro _ _ json hjson
      rw [← Option.some.inj hjson]
      exact ⟨binaryNull, rfl, wellFormed_literal 0x00, rfl, fun depth _ => parse_literal 0x00 depth⟩
  | boolean value =>
      intro _ _ json hjson
      rw [← Option.some.inj hjson]
      cases value
      · exact ⟨binaryFalse, rfl, wellFormed_literal 0x02, rfl, fun depth _ => parse_literal 0x02 depth⟩
      · exact ⟨binaryTrue, rfl, wellFormed_literal 0x01, rfl, fun depth _ => parse_literal 0x01 depth⟩
  | number value =>
      intro hstorable _ json hjson
      rw [← Option.some.inj hjson]
      obtain ⟨binary, hbinary, hlength, hparse⟩ := serializeNumber_of_storable hstorable
      refine ⟨binary, ?_, wellFormed_serializeNumber hbinary, hlength, fun depth _ => hparse depth⟩
      rw [serialize, hbinary, Option.map_some]
  | string value =>
      intro hpaired hsize json hjson
      rw [← Option.some.inj hjson]
      have hbinary := serializeString_eq_some_iff.mpr ⟨hsize, rfl⟩
      refine ⟨_, ?_, wellFormed_serializeString hbinary, ?_, fun depth _ => ?_⟩
      · rw [serialize, hbinary, Option.map_some]
      · rw [List.length_append, length_serializeLength, JsValue.size, stringSize]
      · have hparse := parse_string hsize depth []
        rw [List.append_nil, (unitsOfChars_charsOfUnits_iff value).mpr hpaired] at hparse
        exact hparse
  | array length element ih =>
      intro hstorable hsize json hjson
      rw [← Option.some.inj hjson]
      refine stores_array (fun i hi => ?_) hsize
      have helement := hstorable i hi
      have hle := (size_element_le hi).trans hsize
      have hhole : (element i).isHole = false := by
        cases hvalue : element i <;> first
          | rfl
          | exact (hvalue ▸ helement : JsValue.hole.Storable).elim
      refine ⟨hhole, ?_⟩
      cases hjson : (element i).throughJson with
      | some json =>
          obtain ⟨binary, hbinary, hstores⟩ := ih i helement hle hjson
          exact ⟨binary, by rw [hbinary]; rfl, hstores⟩
      | none =>
          have hundefined : (element i).isDefined = false := by
            rw [← throughJson_isSome, hjson]
            rfl
          refine ⟨binaryNull, by rw [serialize_eq_some_none hundefined]; rfl,
            wellFormed_literal 0x00, ?_, fun depth _ => parse_literal 0x00 depth⟩
          cases hvalue : element i <;> first
            | rfl
            | rw [hvalue] at hundefined
              cases hundefined
  | object keys nodup member ih =>
      intro hstorable hsize json hjson
      rw [← Option.some.inj hjson]
      refine stores_object nodup (fun key hkey hdefined => ?_) hsize
      obtain ⟨hpaired, hproto, hshort, hmember⟩ := hstorable key hkey hdefined
      rw [← throughJson_isSome] at hdefined
      obtain ⟨json, hjson⟩ := Option.isSome_iff_exists.mp hdefined
      rw [throughJson_isSome] at hdefined
      obtain ⟨binary, hbinary, hstores⟩ :=
        ih key hmember ((size_member_le hkey hdefined).trans hsize) hjson
      exact ⟨hpaired, hproto, hshort, binary, json, hbinary, hjson, hstores⟩

/-! ## What comes back can be stored -/

/-- The elements of an array that comes back: none was skipped, and each comes back. -/
theorem elements_of_parse {length : ℕ} {element : ℕ → JsValue} {binaries : List Binary} {depth : ℕ}
    (hbinaries : ((List.range length).filter fun i => !(element i).isHole).mapM
      (fun i => (serialize (element i)).map fun binary => binary.getD binaryNull) = some binaries)
    (hparse : binaries.mapM (parse depth) =
      some ((List.range length).map fun i => (element i).throughJson.getD .null)) :
    (∀ i < length, (element i).isHole = false) ∧
      List.Forall₂ (fun i binary =>
        (serialize (element i)).map (fun binary => binary.getD binaryNull) = some binary ∧
          parse depth binary = some ((element i).throughJson.getD .null))
        (List.range length) binaries := by
  have hserialized := mapM_eq_some_iff.mp hbinaries
  have hparsed := mapM_eq_some_iff.mp hparse
  rw [List.forall₂_map_right_iff] at hparsed
  have hlength : ((List.range length).filter fun i => !(element i).isHole).length =
      (List.range length).length := hserialized.length_eq.trans hparsed.length_eq
  have hall := List.length_filter_eq_length_iff.mp hlength
  have hfilter := List.filter_eq_self.mpr hall
  rw [hfilter] at hserialized
  refine ⟨fun i hi => by simpa using hall i (List.mem_range.mpr hi), ?_⟩
  exact List.Forall₂.mp (fun i binary h h' => ⟨h, h'⟩) hserialized hparsed.flip

theorem storable_array {length : ℕ} {element : ℕ → JsValue}
    (ih : ∀ i {binary : Binary} {depth : ℕ} {json : Json}, serialize (element i) = some (some binary) →
      parse depth binary = some json → (element i).throughJson = some json →
      (element i).Storable ∧ binary.buffer.length = (element i).size)
    {binary : Binary} {depth : ℕ} (hserialize : serialize (.array length element) = some (some binary))
    (hparse : parse depth binary = some
      (.array ((List.range length).map fun i => (element i).throughJson.getD .null))) :
    (JsValue.array length element).Storable ∧
      binary.buffer.length = (JsValue.array length element).size := by
  obtain ⟨binaries, hbinaries, h⟩ := Option.bind_eq_some_iff.mp hserialize
  obtain ⟨other, hother, heq⟩ := Option.map_eq_some_iff.mp h
  rw [Option.some.inj heq] at hother
  have hwell := wellFormed_of_elements (fun i => wellFormed_of_serialize) hbinaries
  obtain ⟨hsize, rfl⟩ := (serializeArray_eq_some_iff hwell).mp hother
  cases depth with
  | zero =>
      exfalso
      revert hparse
      rw [arrayBinary]
      cases arrayIsLarge binaries.length (binaries.flatMap Binary.buffer).length <;>
        exact fun h => (nomatch h)
  | succ depth =>
      have hlayout := parse_arrayBinary hwell (lt_of_arraySize hsize) depth []
      rw [List.append_nil] at hlayout
      obtain ⟨elements, helements, hjson⟩ := Option.map_eq_some_iff.mp (hlayout.symm.trans hparse)
      rw [Json.array.inj hjson] at helements
      obtain ⟨hholes, hall⟩ := elements_of_parse hbinaries helements
      have heach : List.Forall₂ (fun i binary => (element i).isHole = false → (element i).Storable ∧
          binary.buffer.length = (element i).size) (List.range length) binaries := by
        refine hall.imp fun i binary h hhole => ?_
        obtain ⟨binary?, hbinary, hgetD⟩ := Option.map_eq_some_iff.mp h.1
        cases binary? with
        | some stored =>
            have hdefined := isDefined_of_serialize hbinary
            rw [← throughJson_isSome] at hdefined
            obtain ⟨json, hjson⟩ := Option.isSome_iff_exists.mp hdefined
            have hparsed := h.2
            rw [hjson, ← hgetD] at hparsed
            rw [← hgetD]
            exact ih i hbinary hparsed hjson
        | none =>
            have hundefined := isDefined_eq_false_of_serialize hbinary
            rw [← hgetD]
            revert hhole hundefined
            cases element i with
            | undefined => exact fun _ _ => ⟨trivial, rfl⟩
            | hole => exact fun h => (nomatch h)
            | _ => exact fun _ h => (nomatch h)
      have hstorable : List.Forall₂ (fun i binary => (element i).Storable ∧
          binary.buffer.length = (element i).size) (List.range length) binaries := by
        rw [List.forall₂_iff_zip] at heach ⊢
        refine ⟨heach.1, fun {i binary} hmem => heach.2 hmem (hholes i ?_)⟩
        exact List.mem_range.mp (List.of_mem_zip hmem).1
      rw [List.forall₂_and_left] at hstorable
      refine ⟨fun i hi => hstorable.1 i (List.mem_range.mpr hi), ?_⟩
      have hcount : binaries.length = length := by
        rw [← hall.length_eq, List.length_range]
      rw [arrayBinary, length_arrayBytes hwell, JsValue.size,
        @length_of_forall₂ _ (fun i => (element i).size) _ _ hstorable.2, hcount]
      rfl

theorem storable_object {keys : List CodeUnits} (nodup : keys.Nodup) {member : CodeUnits → JsValue}
    (ih : ∀ key {binary : Binary} {depth : ℕ} {json : Json},
      serialize (member key) = some (some binary) → parse depth binary = some json →
      (member key).throughJson = some json →
      (member key).Storable ∧ binary.buffer.length = (member key).size)
    {binary : Binary} {depth : ℕ}
    (hserialize : serialize (.object keys nodup member) = some (some binary))
    (hparse : parse depth binary = some
      (.object fun key => if key ∈ keys then (member key).throughJson else none)) :
    (JsValue.object keys nodup member).Storable ∧
      binary.buffer.length = (JsValue.object keys nodup member).size := by
  obtain ⟨values, hvalues, h⟩ := Option.bind_eq_some_iff.mp hserialize
  obtain ⟨other, hother, heq⟩ := Option.map_eq_some_iff.mp h
  rw [Option.some.inj heq] at hother
  have hperm := validMembers_perm hvalues
  have hentries := (validMembers_of_mapM hvalues).2
  have hwell : ∀ entry ∈ validMembers values, entry.2.WellFormed :=
    fun entry hentry => wellFormed_of_serialize (hentries entry hentry)
  obtain ⟨hshort, hsize, rfl⟩ := (serializeObject_eq_some_iff hwell).mp hother
  cases depth with
  | zero =>
      exfalso
      revert hparse
      rw [objectBinary]
      cases objectIsLarge (validMembers values).length (valueData (validMembers values)).length
        (keyData (validMembers values)).length <;> exact fun h => (nomatch h)
  | succ depth =>
      have hlayout := parse_objectBinary hwell hshort (lt_of_objectSize hsize) depth []
      rw [List.append_nil] at hlayout
      obtain ⟨jsons, hjsons, hobject⟩ := Option.map_eq_some_iff.mp (hlayout.symm.trans hparse)
      have hmembers := Json.object.inj hobject
      have hkey : ∀ entry ∈ validMembers values,
          entry.1 ∈ keys ∧ ∃ json, (member entry.1).throughJson = some json := by
        intro entry hentry
        have hmem := List.mem_filter.mp (hperm.mem_iff.mp (List.mem_map_of_mem hentry))
        refine ⟨hmem.1, Option.isSome_iff_exists.mp ?_⟩
        rw [throughJson_isSome]
        exact hmem.2
      -- a key that is read has no lone surrogates, and every key with a value is read
      have hgood : ∀ entry ∈ validMembers values, Paired entry.1 ∧ entry.1 ≠ protoKey := by
        intro entry hentry
        obtain ⟨hkeys, json, hjson⟩ := hkey entry hentry
        have hread := congrFun hmembers entry.1
        rw [if_pos hkeys, hjson] at hread
        rcases mem_of_foldl_setMember _ _ hread with h | ⟨hmem, hproto⟩
        · exact nomatch h
        · obtain ⟨key, _, hunits⟩ := List.mem_map.mp (List.of_mem_zip hmem).1
          exact ⟨hunits ▸ paired_unitsOfChars _, hproto⟩
      have hplain : ((validMembers values).map Prod.fst).map
          (fun key => unitsOfChars (charsOfUnits key)) = (validMembers values).map Prod.fst := by
        rw [List.map_map]
        refine List.map_congr_left fun entry hentry => ?_
        exact (unitsOfChars_charsOfUnits_iff entry.1).mpr (hgood entry hentry).1
      rw [hplain] at hmembers
      have hparsed := mapM_eq_some_iff.mp hjsons
      rw [List.forall₂_map_left_iff] at hparsed
      have hnodup : ((validMembers values).map Prod.fst).Nodup := hperm.nodup_iff.mpr (nodup.filter _)
      have hfirst : (((validMembers values).map Prod.fst).zip jsons).map Prod.fst =
          (validMembers values).map Prod.fst := by
        refine List.map_fst_zip ?_
        rw [List.length_map, hparsed.length_eq]
      have heach : ∀ entry ∈ validMembers values, (member entry.1).Storable ∧
          entry.2.buffer.length = (member entry.1).size := by
        intro entry hentry
        obtain ⟨hkeys, json, hjson⟩ := hkey entry hentry
        obtain ⟨parsed, hentryParsed, hzip⟩ := @exists_zip_of_forall₂ _ _ _ _ Prod.fst _ _ hparsed _ hentry
        have hset := foldl_setMember_of_mem (hgood entry hentry).2 _ (fun _ => none)
          (hfirst.symm ▸ hnodup) hzip
        have hexpected := congrFun hmembers entry.1
        rw [if_pos hkeys, hset] at hexpected
        exact ih entry.1 (hentries entry hentry) hentryParsed hexpected.symm
      have hvalueLength := @length_valueData _ _ (fun key => (member key).size) hperm
        fun entry hentry => (heach entry hentry).2
      have hcount := hperm.length_eq
      rw [List.length_map] at hcount
      refine ⟨fun key hkeys hdefined => ?_, ?_⟩
      · have hmem := hperm.mem_iff.mpr (List.mem_filter.mpr ⟨hkeys, hdefined⟩)
        obtain ⟨entry, hentry, rfl⟩ := List.mem_map.mp hmem
        exact ⟨(hgood entry hentry).1, (hgood entry hentry).2, hshort entry hentry,
          (heach entry hentry).1⟩
      · rw [objectBinary, length_objectBytes hwell, hcount, hvalueLength, length_keyData hperm]
        rfl

/-- A value that comes back as from JSON text can be stored. -/
theorem storable_of_parse {value : JsValue} :
    ∀ {binary : Binary} {depth : ℕ} {json : Json}, serialize value = some (some binary) →
      parse depth binary = some json → value.throughJson = some json →
      value.Storable ∧ binary.buffer.length = value.size := by
  induction value with
  | undefined => exact fun h => (nomatch h)
  | hole => exact fun h => (nomatch h)
  | null =>
      intro binary depth json hserialize _ _
      rw [← Option.some.inj (Option.some.inj hserialize)]
      exact ⟨trivial, rfl⟩
  | boolean value =>
      intro binary depth json hserialize _ _
      rw [← Option.some.inj (Option.some.inj hserialize)]
      cases value <;> exact ⟨trivial, rfl⟩
  | number value =>
      intro binary depth json hserialize hparse hjson
      obtain ⟨other, hother, heq⟩ := Option.map_eq_some_iff.mp hserialize
      rw [Option.some.inj heq] at hother
      rw [← Option.some.inj hjson] at hparse
      have hstorable := storable_of_parse_number hother hparse
      obtain ⟨stored, hstored, hlength, _⟩ := serializeNumber_of_storable hstorable
      rw [hother] at hstored
      rw [Option.some.inj hstored]
      exact ⟨hstorable, hlength⟩
  | string value =>
      intro binary depth json hserialize hparse hjson
      obtain ⟨other, hother, heq⟩ := Option.map_eq_some_iff.mp hserialize
      rw [Option.some.inj heq] at hother
      obtain ⟨hsize, rfl⟩ := serializeString_eq_some_iff.mp hother
      have hread := parse_string hsize depth []
      rw [List.append_nil, hparse, ← Option.some.inj hjson] at hread
      refine ⟨(unitsOfChars_charsOfUnits_iff value).mp (Json.string.inj (Option.some.inj hread)).symm, ?_⟩
      rw [List.length_append, length_serializeLength, JsValue.size, stringSize]
  | array length element ih =>
      intro binary depth json hserialize hparse hjson
      rw [← Option.some.inj hjson] at hparse
      exact storable_array ih hserialize hparse
  | object keys nodup member ih =>
      intro binary depth json hserialize hparse hjson
      rw [← Option.some.inj hjson] at hparse
      exact storable_object nodup ih hserialize hparse

/-! ## The exported functions -/

theorem size_pos {value : JsValue} : 0 < value.size := by
  cases value with
  | number value =>
      rw [JsValue.size]
      cases value with
      | integer value =>
          rw [JsNumber.size]
          split_ifs <;> decide
      | _ => exact Nat.succ_pos _
  | string value =>
      rw [JsValue.size, stringSize]
      omega
  | array length element =>
      rw [JsValue.size, arraySize, arraySizeOf]
      have : 0 < headerSize (arrayIsLarge length
          ((List.range length).map fun i => (element i).size).sum) := by
        cases arrayIsLarge length ((List.range length).map fun i => (element i).size).sum <;> decide
      omega
  | object keys nodup member =>
      rw [JsValue.size, objectSize, objectSizeOf]
      generalize objectIsLarge _ _ _ = isLarge
      have : 0 < headerSize isLarge := by cases isLarge <;> decide
      omega
  | _ => exact Nat.one_pos

theorem write_eq_some_iff {binary : Binary} {bytes : List UInt8} :
    binary.write = some bytes ↔
      binary.buffer.length < kMaxLength ∧ bytes = binary.type.code :: binary.buffer := by
  have hflatten : [[binary.type.code], binary.buffer].flatten = binary.type.code :: binary.buffer := by
    simp
  rw [Binary.write, concat_eq_some_iff, hflatten, List.length_cons, Nat.succ_le_iff]

/-- What is read from the bytes of a binary value that is not empty. -/
theorem publicParse_write {binary : Binary} (h : 0 < binary.buffer.length) :
    publicParse (some (binary.type.code :: binary.buffer)) =
      (parse (binary.buffer.length + 1) binary).map some := by
  obtain ⟨type, buffer⟩ := binary
  cases buffer with
  | nil => exact absurd h (Nat.lt_irrefl _)
  | cons byte buffer =>
      rw [publicParse]
      dsimp only
      rw [ofCode?_code, Option.bind_some, List.length_cons]

/-- A value that has a text comes back from binary JSON as it comes back from the text,
exactly if it can be stored and fits into a buffer together with its type. -/
theorem publicParse_publicSerialize_iff {value : JsValue} {json : Json}
    (h : value.throughJson = some json) :
    (publicSerialize value).bind publicParse = some (some json) ↔
      value.Storable ∧ value.size < kMaxLength := by
  constructor
  · intro hround
    obtain ⟨bytes?, hbytes, hparse⟩ := Option.bind_eq_some_iff.mp hround
    obtain ⟨binary?, hserialize, hwrite⟩ := Option.bind_eq_some_iff.mp hbytes
    cases binary? with
    | none =>
        have hundefined := isDefined_eq_false_of_serialize hserialize
        rw [← throughJson_isSome, h] at hundefined
        exact nomatch hundefined
    | some binary =>
        obtain ⟨bytes, hwritten, rfl⟩ := Option.map_eq_some_iff.mp hwrite
        obtain ⟨hfits, rfl⟩ := write_eq_some_iff.mp hwritten
        have hpos : 0 < binary.buffer.length := by
          by_contra hempty
          have hnil := List.length_eq_zero_iff.mp (Nat.eq_zero_of_not_pos hempty)
          rw [hnil] at hparse
          exact nomatch hparse
        rw [publicParse_write hpos] at hparse
        obtain ⟨parsed, hparsed, heq⟩ := Option.map_eq_some_iff.mp hparse
        rw [Option.some.inj heq] at hparsed
        obtain ⟨hstorable, hlength⟩ := storable_of_parse hserialize hparsed h
        exact ⟨hstorable, hlength ▸ hfits⟩
  · rintro ⟨hstorable, hfits⟩
    obtain ⟨binary, hserialize, hstores⟩ := stores_of_storable hstorable hfits.le h
    have hwrite := write_eq_some_iff.mpr ⟨(hstores.length ▸ hfits : binary.buffer.length < _), rfl⟩
    have hpos : 0 < binary.buffer.length := hstores.length ▸ size_pos
    rw [publicSerialize, hserialize, Option.bind_some]
    dsimp only
    rw [hwrite, Option.map_some, Option.bind_some, publicParse_write hpos,
      hstores.parse _ (hstores.length ▸ Nat.lt_succ_self _), Option.map_some]

theorem publicParse_publicSerialize_true :
    (publicSerialize (.boolean true)).bind publicParse = some (some (.boolean true)) ↔
      JsValue.Storable (.boolean true) ∧ JsValue.size (.boolean true) < kMaxLength :=
  publicParse_publicSerialize_iff rfl

/-- There is no parser for the type that an integer of more than 32 bits is written with. -/
theorem publicParse_publicSerialize_uint64 :
    (JsValue.number (.integer 4294967296)).throughJson = some (.number (.integer 4294967296)) ∧
      (publicSerialize (.number (.integer 4294967296))).isSome ∧
      (publicSerialize (.number (.integer 4294967296))).bind publicParse = none :=
  ⟨rfl, rfl, rfl⟩

end DatabaseJones.MySQLSerialize
