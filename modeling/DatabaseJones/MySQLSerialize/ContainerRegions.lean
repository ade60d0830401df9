import DatabaseJones.Library.Memory
import DatabaseJones.MySQLSerialize.RoundTrip

/-!
# The containers in a binary document

What a reader finds in the bytes of an object or array: its element count and size, the regions
of its keys and values, and in these the containers that it holds.  A document is well formed if
all of its containers are.
-/

namespace DatabaseJones.MySQLSerialize

open DatabaseJones.Library

/-! ## Reading -/

/-- The number of bytes that a value takes at the beginning of a buffer. -/
def extent (type : BinaryType) (buffer : List UInt8) : Option ℕ :=
  match type with
  | .smallObject | .smallArray => readUIntLE 2 buffer 2
  | .largeObject | .largeArray => readUIntLE 4 buffer 4
  | .literal => some 1
  | .int16 | .uint16 => some 2
  | .int32 | .uint32 => some 4
  | .int64 | .uint64 | .double => some 8
  | .string =>
      let (length, nBytes) := parseLength buffer
      some (nBytes + length.toNat)

/-- The region of a key, from its entry. -/
def readKeyRegion (isLarge : Bool) (buffer : List UInt8) (cursor : ℕ) : Option Region := do
  let offset ← readUIntLE (offsetSize isLarge) buffer cursor
  let length ← readUIntLE 2 buffer (cursor + offsetSize isLarge)
  pure { offset, length }

/-- The type of a value, and its region if it is not inline. -/
def readValueRegion (isLarge : Bool) (buffer : List UInt8) (cursor : ℕ) :
    Option (BinaryType × Option Region) := do
  let code ← buffer[cursor]?
  let type ← BinaryType.ofCode? code
  match inlineSize isLarge type with
  | some _ => pure (type, none)
  | none =>
      let offset ← readUIntLE (offsetSize isLarge) buffer (cursor + 1)
      let length ← extent type (buffer.drop offset)
      pure (type, some { offset, length })

/-- What stands in the header and in the entries of a container. -/
structure Container where
  elementCount : ℕ
  size : ℕ
  keys : List Region
  values : List (BinaryType × Option Region)
deriving DecidableEq

/-- The number of keys. -/
def keyCount (isObject : Bool) (elementCount : ℕ) : ℕ := if isObject then elementCount else 0

/-- The size of a container without its data. -/
def entriesEnd (isObject isLarge : Bool) (elementCount : ℕ) : ℕ :=
  headerSize isLarge + keyEntrySize isLarge * keyCount isObject elementCount +
    valueEntrySize isLarge * elementCount

def readContainer (isObject isLarge : Bool) (buffer : List UInt8) : Option Container := do
  let elementCount ← readUIntLE (offsetSize isLarge) buffer 0
  let size ← readUIntLE (offsetSize isLarge) buffer (offsetSize isLarge)
  let keys ← readEntries (readKeyRegion isLarge) (keyEntrySize isLarge) buffer
    (headerSize isLarge) (keyCount isObject elementCount)
  let values ← readEntries (readValueRegion isLarge) (valueEntrySize isLarge) buffer
    (headerSize isLarge + keyEntrySize isLarge * keyCount isObject elementCount) elementCount
  pure { elementCount, size, keys, values }

/-! ## Well-formedness -/

/-- The regions of the keys and of the values that are not inline. -/
def Container.regions (container : Container) : List Region :=
  container.keys ++ container.values.filterMap Prod.snd

/-- The order of keys: shorter ones first, and by bytes those of the same length. -/
def KeyBefore (key key' : List UInt8) : Prop :=
  key.length < key'.length ∨ key.length = key'.length ∧ key < key'

/-- The container occupies the buffer.  Its regions lie behind the entries and do not overlap,
it is small exactly if the small form of it has at most 65535 bytes, and its keys are in order. -/
structure Container.Proper (isObject isLarge : Bool) (buffer : List UInt8)
    (container : Container) : Prop where
  size_eq : container.size = buffer.length
  within : ∀ region ∈ container.regions,
    region.Within (entriesEnd isObject isLarge container.elementCount) container.size
  disjoint : container.regions.Pairwise fun region region' =>
    region.Before region' ∨ region'.Before region
  small_iff : isLarge = false ↔ container.size - entriesEnd isObject isLarge container.elementCount +
    entriesEnd isObject false container.elementCount ≤ 65535
  ordered : (container.keys.map fun region => region.slice buffer).Pairwise KeyBefore

/-- The form of a container: an object or an array, large or small. -/
def BinaryType.form? : BinaryType → Option (Bool × Bool)
  | .smallObject => some (true, false)
  | .largeObject => some (true, true)
  | .smallArray => some (false, false)
  | .largeArray => some (false, true)
  | _ => none

/-- A scalar, or a container with a proper layout. -/
def Binary.Proper (binary : Binary) : Prop :=
  ∀ isObject isLarge, binary.type.form? = some (isObject, isLarge) →
    ∃ container ∈ readContainer isObject isLarge binary.buffer,
      container.Proper isObject isLarge binary.buffer

/-- The value has a region of its own in the container. -/
def Binary.Holds (binary value : Binary) : Prop :=
  ∃ isObject isLarge, binary.type.form? = some (isObject, isLarge) ∧
    ∃ container ∈ readContainer isObject isLarge binary.buffer, ∃ region,
      (value.type, some region) ∈ container.values ∧ value.buffer = region.slice binary.buffer

/-- All containers in a value have a proper layout. -/
def Binary.AllProper (binary : Binary) : Prop :=
  ∀ value, Relation.ReflTransGen Binary.Holds binary value → value.Proper

/-- A document is the code of a type and a value. -/
def WellFormedDocument : List UInt8 → Prop
  | [] => False
  | code :: buffer => ∃ type ∈ BinaryType.ofCode? code, Binary.AllProper { type, buffer }

theorem Binary.allProper_iff {binary : Binary} : binary.AllProper ↔
    binary.Proper ∧ ∀ value, binary.Holds value → value.AllProper := by
  constructor
  · intro h
    exact ⟨h binary .refl, fun value hvalue other hother => h other (.head hvalue hother)⟩
  · rintro ⟨hproper, hall⟩ value hvalue
    rcases Relation.ReflTransGen.cases_head hvalue with rfl | ⟨next, hnext, hrest⟩
    · exact hproper
    · exact hall next hnext value hrest

/-- There is nothing to say of a scalar. -/
theorem Binary.allProper_of_scalar {binary : Binary} (h : binary.type.form? = none) :
    binary.AllProper := by
  refine Binary.allProper_iff.mpr ⟨fun isObject isLarge hform => ?_, ?_⟩
  · rw [h] at hform
    cases hform
  · rintro value ⟨isObject, isLarge, hform, -⟩
    rw [h] at hform
    cases hform

/-! ## The entries of a list -/

section
variable {α β : Type} {bufferOf : α → List UInt8}

/-- Where the data of an item stand. -/
theorem exists_data_of_mem_entriesFrom {items : List α} {offset : ℕ} {entry : α × ℕ}
    (h : entry ∈ entriesFrom bufferOf offset items) :
    ∃ before after, items.flatMap bufferOf = before ++ (bufferOf entry.1 ++ after) ∧
      entry.2 = offset + before.length := by
  induction items generalizing offset with
  | nil => exact absurd h List.not_mem_nil
  | cons item items ih =>
      rcases List.mem_cons.mp h with rfl | h
      · exact ⟨[], items.flatMap bufferOf, by simp, by simp⟩
      · obtain ⟨before, after, hdata, hoffset⟩ := ih h
        refine ⟨bufferOf item ++ before, after, ?_, ?_⟩
        · rw [List.flatMap_cons, hdata, List.append_assoc]
        · rw [hoffset, List.length_append]
          omega

/-- The regions of the items of a list. -/
theorem map_entriesFrom (start : ℕ) (items : List α) (offset : ℕ) :
    (entriesFrom bufferOf offset items).map
        (fun entry => (⟨start + entry.2, (bufferOf entry.1).length⟩ : Region)) =
      consecutive (fun item => (bufferOf item).length) (start + offset) items := by
  induction items generalizing offset with
  | nil => rfl
  | cons item items ih => rw [entriesFrom, List.map_cons, ih, consecutive, Nat.add_assoc]

/-- Entries are read one by one. -/
theorem readEntries_flatMap {readEntry : List UInt8 → ℕ → Option β} {entrySize : ℕ}
    {entryOf : α → List UInt8} {result : α → β} {buffer after : List UInt8} (items : List α)
    (hlength : ∀ item ∈ items, (entryOf item).length = entrySize)
    (hread : ∀ item ∈ items, ∀ before after, before ++ (entryOf item ++ after) = buffer →
      readEntry buffer before.length = some (result item)) :
    ∀ before : List UInt8, before ++ (items.flatMap entryOf ++ after) = buffer →
      readEntries readEntry entrySize buffer before.length items.length =
        some (items.map result) := by
  induction items with
  | nil => exact fun _ _ => rfl
  | cons item items ih =>
      intro before hbuffer
      rw [List.flatMap_cons, List.append_assoc] at hbuffer
      have hfirst := hread item List.mem_cons_self before _ hbuffer
      have hrest := ih (fun other hother => hlength other (List.mem_cons_of_mem _ hother))
        (fun other hother => hread other (List.mem_cons_of_mem _ hother)) (before ++ entryOf item)
        (by rw [List.append_assoc]; exact hbuffer)
      rw [List.length_append, hlength item List.mem_cons_self] at hrest
      rw [List.length_cons, readEntries_succ, hfirst, Option.bind_some, hrest]
      rfl

end

end DatabaseJones.MySQLSerialize

/-!
## The layout of serialized containers

The regions that are read in the bytes of a serialized object or array are those of the data of
its keys and values, one behind another, so that a container is proper exactly if its keys are in
order.
-/

namespace DatabaseJones.MySQLSerialize

open DatabaseJones.Library

/-- The extent of a value is found whatever follows it. -/
def Binary.Delimited (binary : Binary) : Prop :=
  ∀ rest, extent binary.type (binary.buffer ++ rest) = some binary.buffer.length

/-! ## Entries -/

theorem readKeyRegion_keyEntry {isLarge : Bool} {key : List UInt8} (hkey : key.length < 65536)
    {position : ℕ} (hposition : position < 256 ^ offsetSize isLarge)
    {buffer before after : List UInt8}
    (hentry : before ++ (keyEntry isLarge key position ++ after) = buffer) :
    readKeyRegion isLarge buffer before.length = some ⟨position, key.length⟩ := by
  rw [keyEntry, List.append_assoc] at hentry
  have hoffset := readUIntLE_append hposition before (littleEndian 2 key.length ++ after)
  rw [hentry] at hoffset
  have hlength := @readUIntLE_append 2 key.length (by omega)
    (before ++ littleEndian (offsetSize isLarge) position) after
  rw [List.append_assoc, hentry, List.length_append, length_littleEndian] at hlength
  rw [readKeyRegion, hoffset, hlength]
  rfl

/-- What is read of the entry of a value. -/
def valueRegion (isLarge : Bool) (binary : Binary) (position : ℕ) : BinaryType × Option Region :=
  (binary.type,
    if (inlineSize isLarge binary.type).isSome then none
    else some ⟨position, binary.buffer.length⟩)

theorem readValueRegion_valueEntry {isLarge : Bool} {binary : Binary}
    (hdelimited : binary.Delimited) {position : ℕ}
    (hposition : position < 256 ^ offsetSize isLarge) {buffer before after rest : List UInt8}
    (hentry : before ++ (valueEntry isLarge binary position ++ after) = buffer)
    (hdata : buffer.drop position = binary.buffer ++ rest) :
    readValueRegion isLarge buffer before.length =
      some (valueRegion isLarge binary position) := by
  have hcode : buffer[before.length]? = some binary.type.code := by
    rw [← hentry, List.getElem?_append_right (le_refl _), Nat.sub_self, valueEntry]
    cases inlineSize isLarge binary.type <;> rfl
  rw [readValueRegion, hcode]
  simp only [Option.bind_eq_bind, Option.bind_some, ofCode?_code]
  cases hinline : inlineSize isLarge binary.type with
  | some size =>
      unfold valueRegion
      rw [hinline]
      rfl
  | none =>
      rw [valueEntry, hinline] at hentry
      have hoffset := readUIntLE_append hposition (before ++ [binary.type.code]) after
      rw [List.append_assoc, List.singleton_append, ← List.cons_append, hentry, List.length_append,
        List.length_singleton] at hoffset
      simp only [hoffset, Option.bind_some, hdata, hdelimited rest]
      unfold valueRegion
      rw [hinline]
      rfl

/-! ## Containers -/

/-- Where the data of a container start. -/
def dataStart (isLarge : Bool) (keyNumber valueNumber : ℕ) : ℕ :=
  headerSize isLarge + keyEntrySize isLarge * keyNumber + valueEntrySize isLarge * valueNumber

/-- The size of a container. -/
def containerSize (isLarge : Bool) (keys : List (List UInt8)) (binaries : List Binary) : ℕ :=
  dataStart isLarge keys.length binaries.length + keys.flatten.length +
    (binaries.flatMap Binary.buffer).length

/-- The bytes of an object, or of an array if there are no keys. -/
def containerBytes (isLarge : Bool) (keys : List (List UInt8)) (binaries : List Binary) :
    List UInt8 :=
  headerBytes isLarge binaries.length (containerSize isLarge keys binaries) ++
    (keyEntries isLarge (dataStart isLarge keys.length binaries.length) 0 keys ++
      (valueEntries isLarge (dataStart isLarge keys.length binaries.length + keys.flatten.length) 0
          binaries ++
        (keys.flatten ++ binaries.flatMap Binary.buffer)))

theorem arrayBytes_eq (isLarge : Bool) (binaries : List Binary) :
    arrayBytes isLarge binaries = containerBytes isLarge [] binaries := by
  have hsize : arraySizeOf isLarge binaries.length (binaries.flatMap Binary.buffer).length =
      containerSize isLarge [] binaries := by
    unfold arraySizeOf containerSize dataStart
    simp only [List.length_nil, List.flatten_nil]
    omega
  unfold arrayBytes containerBytes
  rw [hsize]
  rfl

theorem objectBytes_eq (isLarge : Bool) (members : List (CodeUnits × Binary)) :
    objectBytes isLarge members =
      containerBytes isLarge ((members.map Prod.fst).map utf8) (members.map Prod.snd) := by
  have hkeys : ((members.map Prod.fst).map utf8).flatten = keyData members := by
    rw [keyData, List.flatMap_def]
  have hsize : objectSizeOf isLarge members.length (valueData members).length
      (keyData members).length =
        containerSize isLarge ((members.map Prod.fst).map utf8) (members.map Prod.snd) := by
    unfold objectSizeOf containerSize dataStart
    rw [hkeys, ← valueData, List.length_map, List.length_map, List.length_map]
    omega
  unfold objectBytes containerBytes
  rw [hsize, hkeys]
  simp only [List.length_map]
  rfl

section
variable {isLarge : Bool} {keys : List (List UInt8)} {binaries : List Binary}

theorem length_containerBytes (hwell : ∀ binary ∈ binaries, binary.WellFormed) :
    (containerBytes isLarge keys binaries).length = containerSize isLarge keys binaries := by
  unfold containerBytes containerSize
  simp only [List.length_append]
  rw [length_headerBytes, length_keyEntries, length_valueEntries _ _ _ _ hwell]
  unfold dataStart
  omega

/-- What is read of a serialized container. -/
def containerOf (isLarge : Bool) (keys : List (List UInt8)) (binaries : List Binary) :
    Container where
  elementCount := binaries.length
  size := containerSize isLarge keys binaries
  keys := consecutive List.length (dataStart isLarge keys.length binaries.length) keys
  values := (entriesFrom Binary.buffer 0 binaries).map fun entry => valueRegion isLarge entry.1
    (dataStart isLarge keys.length binaries.length + keys.flatten.length + entry.2)

/-- The entries of a serialized container are read. -/
theorem readContainer_containerBytes {isObject : Bool}
    (hcount : keys.length = keyCount isObject binaries.length)
    (hwell : ∀ binary ∈ binaries, binary.WellFormed)
    (hdelimited : ∀ binary ∈ binaries, binary.Delimited)
    (hshort : ∀ key ∈ keys, key.length < 65536)
    (hsize : containerSize isLarge keys binaries < 256 ^ offsetSize isLarge) :
    readContainer isObject isLarge (containerBytes isLarge keys binaries) =
      some (containerOf isLarge keys binaries) := by
  let start := dataStart isLarge keys.length binaries.length
  let header := headerBytes isLarge binaries.length (containerSize isLarge keys binaries)
  let keyPart := keyEntries isLarge start 0 keys
  let valuePart := valueEntries isLarge (start + keys.flatten.length) 0 binaries
  let data := keys.flatten ++ binaries.flatMap Binary.buffer
  let buffer := containerBytes isLarge keys binaries
  have hbuffer : buffer = header ++ (keyPart ++ (valuePart ++ data)) := rfl
  have hbound : start + keys.flatten.length + (binaries.flatMap Binary.buffer).length <
      256 ^ offsetSize isLarge := hsize
  have hcountLt : binaries.length < 256 ^ offsetSize isLarge := by
    have hle : binaries.length ≤ valueEntrySize isLarge * binaries.length :=
      Nat.le_mul_of_pos_left _ (by cases isLarge <;> decide)
    have hstart : valueEntrySize isLarge * binaries.length ≤ start := Nat.le_add_left _ _
    omega
  have hheader : header.length = headerSize isLarge := length_headerBytes _ _ _
  have hkeyPart : keyPart.length = keyEntrySize isLarge * keys.length := length_keyEntries _ _ _ _
  have hvaluePart : valuePart.length = valueEntrySize isLarge * binaries.length :=
    length_valueEntries _ _ _ _ hwell
  have hfront : (header ++ (keyPart ++ valuePart)).length = start := by
    rw [List.length_append, List.length_append, hheader, hkeyPart, hvaluePart]
    exact (Nat.add_assoc _ _ _).symm
  have hbuffer' : buffer = header ++ (keyPart ++ valuePart) ++ data := by
    rw [hbuffer]
    simp only [List.append_assoc]
  -- the header
  have hreadCount : readUIntLE (offsetSize isLarge) buffer 0 = some binaries.length := by
    rw [hbuffer]
    unfold header headerBytes
    rw [List.append_assoc]
    exact readUIntLE_littleEndian hcountLt _
  have hreadSize : readUIntLE (offsetSize isLarge) buffer (offsetSize isLarge) =
      some (containerSize isLarge keys binaries) := by
    have hread := readUIntLE_append hsize (littleEndian (offsetSize isLarge) binaries.length)
      (keyPart ++ (valuePart ++ data))
    rw [length_littleEndian, ← List.append_assoc] at hread
    exact hread
  -- the keys
  have hreadKeys : readEntries (readKeyRegion isLarge) (keyEntrySize isLarge) buffer
      (headerSize isLarge) keys.length =
        some (consecutive List.length start keys) := by
    have hread := @readEntries_flatMap _ _ (readKeyRegion isLarge) (keyEntrySize isLarge)
      (fun entry : List UInt8 × ℕ => keyEntry isLarge entry.1 (start + entry.2))
      (fun entry : List UInt8 × ℕ => (⟨start + entry.2, (id entry.1).length⟩ : Region)) buffer (valuePart ++ data)
      (entriesFrom id 0 keys) (fun entry _ => length_keyEntry _ _ _)
      (fun entry hentry before after hbefore => by
        obtain ⟨hmem, hoffset⟩ := offset_le_of_mem_entriesFrom hentry
        rw [List.flatMap_id] at hoffset
        exact readKeyRegion_keyEntry (hshort _ hmem) (by omega) hbefore)
      header hbuffer.symm
    rw [length_entriesFrom, hheader, map_entriesFrom] at hread
    exact hread
  -- the values
  have hreadValues : readEntries (readValueRegion isLarge) (valueEntrySize isLarge) buffer
      (headerSize isLarge + keyEntrySize isLarge * keys.length) binaries.length =
        some ((entriesFrom Binary.buffer 0 binaries).map fun entry => valueRegion isLarge entry.1
          (start + keys.flatten.length + entry.2)) := by
    have hread := @readEntries_flatMap _ _ (readValueRegion isLarge) (valueEntrySize isLarge)
      (fun entry : Binary × ℕ =>
        valueEntry isLarge entry.1 (start + keys.flatten.length + entry.2))
      (fun entry : Binary × ℕ => valueRegion isLarge entry.1 (start + keys.flatten.length + entry.2)) buffer data
      (entriesFrom Binary.buffer 0 binaries)
      (fun entry hentry => length_valueEntry
        (hwell _ (offset_le_of_mem_entriesFrom hentry).1) _ _)
      (fun entry hentry before after hbefore => by
        obtain ⟨hmem, hoffset⟩ := offset_le_of_mem_entriesFrom hentry
        obtain ⟨dataBefore, dataAfter, hdata, hposition⟩ := exists_data_of_mem_entriesFrom hentry
        have hdrop : buffer.drop (start + keys.flatten.length + entry.2) =
            entry.1.buffer ++ dataAfter := by
          have hsplit : buffer = (header ++ (keyPart ++ valuePart) ++ (keys.flatten ++ dataBefore)) ++
              (entry.1.buffer ++ dataAfter) := by
            rw [hbuffer']
            unfold data
            rw [hdata]
            simp only [List.append_assoc]
          rw [hsplit]
          refine List.drop_left' ?_
          rw [List.length_append, hfront, List.length_append]
          omega
        exact readValueRegion_valueEntry (hdelimited _ hmem) (by omega) hbefore hdrop)
      (header ++ keyPart) (by rw [hbuffer, List.append_assoc]; rfl)
    rw [length_entriesFrom, List.length_append, hheader, hkeyPart] at hread
    exact hread
  unfold readContainer
  change (readUIntLE (offsetSize isLarge) buffer 0).bind _ = _
  rw [hreadCount, Option.bind_some]
  change (readUIntLE (offsetSize isLarge) buffer (offsetSize isLarge)).bind _ = _
  rw [hreadSize, Option.bind_some, ← hcount]
  change (readEntries (readKeyRegion isLarge) (keyEntrySize isLarge) buffer
    (headerSize isLarge) keys.length).bind _ = _
  rw [hreadKeys, Option.bind_some]
  change (readEntries (readValueRegion isLarge) (valueEntrySize isLarge) buffer
    (headerSize isLarge + keyEntrySize isLarge * keys.length) binaries.length).bind _ = _
  rw [hreadValues, Option.bind_some]
  rfl

/-! ## Layout -/

theorem filterMap_valueRegion_sublist (isLarge : Bool) (start : ℕ) (entries : List (Binary × ℕ)) :
    ((entries.map fun entry => valueRegion isLarge entry.1 (start + entry.2)).filterMap
        Prod.snd).Sublist
      (entries.map fun entry => ⟨start + entry.2, entry.1.buffer.length⟩) := by
  induction entries with
  | nil => exact List.Sublist.slnil
  | cons entry entries ih =>
      rw [List.map_cons, List.map_cons]
      by_cases hinline : (inlineSize isLarge entry.1.type).isSome
      · have hnone : (valueRegion isLarge entry.1 (start + entry.2)).2 = none := if_pos hinline
        rw [List.filterMap_cons_none hnone]
        exact ih.cons _
      · have hsome : (valueRegion isLarge entry.1 (start + entry.2)).2 =
            some ⟨start + entry.2, entry.1.buffer.length⟩ := if_neg hinline
        rw [List.filterMap_cons_some hsome]
        exact ih.cons_cons _

/-- The keys stand in their regions. -/
theorem map_slice_consecutive (keys : List (List UInt8)) (after : List UInt8) :
    ∀ before : List UInt8, (consecutive List.length before.length keys).map
      (fun region => region.slice (before ++ (keys.flatten ++ after))) = keys := by
  induction keys with
  | nil => exact fun _ => rfl
  | cons key keys ih =>
      intro before
      have hrest := ih (before ++ key)
      rw [List.length_append, List.append_assoc] at hrest
      rw [consecutive, List.map_cons, List.flatten_cons, List.append_assoc, hrest,
        Region.slice_append]

/-- The bytes before the data. -/
theorem exists_front (hwell : ∀ binary ∈ binaries, binary.WellFormed) :
    ∃ front, front.length = dataStart isLarge keys.length binaries.length ∧
      containerBytes isLarge keys binaries =
        front ++ (keys.flatten ++ binaries.flatMap Binary.buffer) := by
  refine ⟨headerBytes isLarge binaries.length (containerSize isLarge keys binaries) ++
    (keyEntries isLarge (dataStart isLarge keys.length binaries.length) 0 keys ++
      valueEntries isLarge (dataStart isLarge keys.length binaries.length + keys.flatten.length) 0
        binaries), ?_, ?_⟩
  · rw [List.length_append, List.length_append, length_headerBytes, length_keyEntries,
      length_valueEntries _ _ _ _ hwell, dataStart]
    omega
  · unfold containerBytes
    simp only [List.append_assoc]

theorem slice_value (hwell : ∀ binary ∈ binaries, binary.WellFormed) {entry : Binary × ℕ}
    (hentry : entry ∈ entriesFrom Binary.buffer 0 binaries) :
    (⟨dataStart isLarge keys.length binaries.length + keys.flatten.length + entry.2,
      entry.1.buffer.length⟩ : Region).slice (containerBytes isLarge keys binaries) =
      entry.1.buffer := by
  obtain ⟨front, hfront, hbytes⟩ := @exists_front isLarge keys binaries hwell
  obtain ⟨before, after, hdata, hoffset⟩ := exists_data_of_mem_entriesFrom hentry
  have hsplit : containerBytes isLarge keys binaries =
      (front ++ (keys.flatten ++ before)) ++ (entry.1.buffer ++ after) := by
    rw [hbytes, hdata]
    simp only [List.append_assoc]
  have hposition : dataStart isLarge keys.length binaries.length + keys.flatten.length + entry.2 =
      (front ++ (keys.flatten ++ before)).length := by
    rw [List.length_append, List.length_append, hfront]
    omega
  rw [hposition, hsplit]
  exact Region.slice_append _ _ _

/-- A serialized container has a proper layout exactly if its keys are in order. -/
theorem proper_containerOf_iff {isObject : Bool}
    (hcount : keys.length = keyCount isObject binaries.length)
    (hwell : ∀ binary ∈ binaries, binary.WellFormed)
    (hsmall : isLarge = false ↔ containerSize false keys binaries ≤ 65535) :
    (containerOf isLarge keys binaries).Proper isObject isLarge
      (containerBytes isLarge keys binaries) ↔ keys.Pairwise KeyBefore := by
  obtain ⟨front, hfront, hbytes⟩ := @exists_front isLarge keys binaries hwell
  let start := dataStart isLarge keys.length binaries.length
  have hend : ∀ form, entriesEnd isObject form binaries.length =
      dataStart form keys.length binaries.length := by
    intro form
    unfold entriesEnd dataStart
    rw [hcount]
  have hkeys : (containerOf isLarge keys binaries).keys.map
      (fun region => region.slice (containerBytes isLarge keys binaries)) = keys := by
    have hslices := map_slice_consecutive keys (binaries.flatMap Binary.buffer) front
    rw [hfront, ← hbytes] at hslices
    exact hslices
  have hsublist := filterMap_valueRegion_sublist isLarge (start + keys.flatten.length)
    (entriesFrom Binary.buffer 0 binaries)
  rw [map_entriesFrom] at hsublist
  have hkeyWithin : ∀ region ∈ (containerOf isLarge keys binaries).keys,
      region.Within start (start + keys.flatten.length) := by
    intro region hregion
    rw [List.length_flatten]
    exact within_of_mem_consecutive hregion
  have hvalueWithin : ∀ region ∈ (containerOf isLarge keys binaries).values.filterMap Prod.snd,
      region.Within (start + keys.flatten.length) (containerSize isLarge keys binaries) := by
    intro region hregion
    have hwithin := within_of_mem_consecutive (hsublist.subset hregion)
    rw [← List.length_flatMap] at hwithin
    exact hwithin
  constructor
  · intro h
    have hordered := h.ordered
    rw [hkeys] at hordered
    exact hordered
  · intro hordered
    refine ⟨(length_containerBytes hwell).symm, fun region hregion => ?_, ?_, ?_, ?_⟩
    · rw [show (containerOf isLarge keys binaries).elementCount = binaries.length from rfl, hend]
      rcases List.mem_append.mp hregion with hregion | hregion
      · exact (hkeyWithin region hregion).mono (le_refl _) (Nat.le_add_right _ _)
      · exact (hvalueWithin region hregion).mono (Nat.le_add_right _ _) (le_refl _)
    · refine List.pairwise_append.mpr ⟨?_, ?_, fun region hregion region' hregion' => ?_⟩
      · exact (pairwise_consecutive keys start).imp Or.inl
      · exact ((pairwise_consecutive binaries _).sublist hsublist).imp Or.inl
      · exact .inl ((hkeyWithin region hregion).before (hvalueWithin region' hregion'))
    · have hsize : containerSize isLarge keys binaries -
          dataStart isLarge keys.length binaries.length +
            dataStart false keys.length binaries.length = containerSize false keys binaries := by
        unfold containerSize
        omega
      rw [show (containerOf isLarge keys binaries).elementCount = binaries.length from rfl, hend,
        hend, show (containerOf isLarge keys binaries).size = containerSize isLarge keys binaries
          from rfl, hsize]
      exact hsmall
    · rw [hkeys]
      exact hordered

/-- An inline value is a scalar. -/
theorem form?_of_inline {type : BinaryType} (h : (inlineSize isLarge type).isSome) :
    type.form? = none := by
  cases type <;> simp_all [inlineSize, inlineBufsize, BinaryType.form?]

/-- The containers in a serialized container are those of its values. -/
theorem allProper_container_iff {isObject : Bool} {type : BinaryType}
    (hform : type.form? = some (isObject, isLarge))
    (hcount : keys.length = keyCount isObject binaries.length)
    (hwell : ∀ binary ∈ binaries, binary.WellFormed)
    (hdelimited : ∀ binary ∈ binaries, binary.Delimited)
    (hshort : ∀ key ∈ keys, key.length < 65536)
    (hsize : containerSize isLarge keys binaries < 256 ^ offsetSize isLarge)
    (hsmall : isLarge = false ↔ containerSize false keys binaries ≤ 65535) :
    Binary.AllProper { type, buffer := containerBytes isLarge keys binaries } ↔
      keys.Pairwise KeyBefore ∧ ∀ binary ∈ binaries, binary.AllProper := by
  have hread := readContainer_containerBytes hcount hwell hdelimited hshort hsize
  rw [Binary.allProper_iff, ← proper_containerOf_iff hcount hwell hsmall]
  refine and_congr ⟨fun h => ?_, fun h isObject' isLarge' hform' => ?_⟩ ⟨fun h => ?_, fun h => ?_⟩
  · obtain ⟨container, hcontainer, hproper⟩ := h isObject isLarge hform
    dsimp only at hcontainer
    rw [hread] at hcontainer
    cases Option.mem_some_iff.mp hcontainer
    exact hproper
  · cases hform.symm.trans hform'
    exact ⟨_, hread, h⟩
  · intro binary hbinary
    by_cases hinline : (inlineSize isLarge binary.type).isSome
    · exact Binary.allProper_of_scalar (form?_of_inline hinline)
    · obtain ⟨entry, hentry, rfl⟩ := @exists_mem_entriesFrom _ Binary.buffer _ _ 0 hbinary
      refine h entry.1 ⟨isObject, isLarge, hform, _, hread, _, List.mem_map.mpr ⟨entry, hentry, ?_⟩,
        (slice_value hwell hentry).symm⟩
      unfold valueRegion
      rw [if_neg hinline]
  · rintro value ⟨isObject', isLarge', hform', container, hcontainer, region, hregion, hbuffer⟩
    cases hform.symm.trans hform'
    dsimp only at hcontainer hbuffer
    rw [hread] at hcontainer
    cases Option.mem_some_iff.mp hcontainer
    obtain ⟨entry, hentry, heq⟩ := List.mem_map.mp hregion
    have hvalue : value = entry.1 := by
      unfold valueRegion at heq
      obtain ⟨htype, hregionEq⟩ := Prod.mk.inj heq
      split at hregionEq
      · cases hregionEq
      · have hslice := @slice_value isLarge keys binaries hwell entry hentry
        rw [← Option.some.inj hregionEq, hslice] at hbuffer
        obtain ⟨valueType, valueBuffer⟩ := value
        dsimp only at htype hbuffer
        rw [← htype, hbuffer]
    rw [hvalue]
    exact h _ (offset_le_of_mem_entriesFrom hentry).1

end

end DatabaseJones.MySQLSerialize
