import DatabaseJones.MySQLSerialize.Layout

/-!
# Arrays and objects in binary JSON

Arrays and objects are serialized if they fit into a buffer and their keys are not too
long.  Parsing them parses the values that they were made of.
-/

namespace DatabaseJones.MySQLSerialize

open DatabaseJones.Library

variable {α : Type}

/-! ## Reading entries -/

theorem readEntries_succ (readEntry : List UInt8 → ℕ → Option α) (entrySize : ℕ)
    (buffer : List UInt8) (offset count : ℕ) :
    readEntries readEntry entrySize buffer offset (count + 1) =
      (readEntry buffer offset).bind fun entry =>
        (readEntries readEntry entrySize buffer (offset + entrySize) count).map (entry :: ·) := by
  have hshift : (fun index => readEntry buffer (offset + index * entrySize)) ∘ Nat.succ =
      fun index => readEntry buffer (offset + entrySize + index * entrySize) := by
    funext index
    rw [Function.comp_apply, Nat.succ_mul]
    congr 1
    omega
  rw [readEntries, List.range_succ_eq_map, List.mapM_cons, Nat.zero_mul, Nat.add_zero,
    List.mapM_map, hshift, readEntries]
  cases readEntry buffer offset with
  | none => rfl
  | some entry =>
      cases (List.range count).mapM fun index =>
          readEntry buffer (offset + entrySize + index * entrySize) <;> rfl

/-- The bytes of the entries for values whose data start at `start`. -/
def valueEntries (isLarge : Bool) (start offset : ℕ) (binaries : List Binary) : List UInt8 :=
  (entriesFrom Binary.buffer offset binaries).flatMap fun entry =>
    valueEntry isLarge entry.1 (start + entry.2)

/-- The bytes of the entries for keys. -/
def keyEntries (isLarge : Bool) (start offset : ℕ) (keys : List (List UInt8)) : List UInt8 :=
  (entriesFrom id offset keys).flatMap fun entry => keyEntry isLarge entry.1 (start + entry.2)

/-- The entries of values are read one by one, and lead to the values. -/
theorem readEntries_values {isLarge : Bool} {buffer after : List UInt8} {start : ℕ}
    (binaries : List Binary) :
    ∀ (offset : ℕ) (before : List UInt8), (∀ binary ∈ binaries, binary.WellFormed) →
      before ++ (valueEntries isLarge start offset binaries ++ after) = buffer →
      buffer.drop (start + offset) = binaries.flatMap Binary.buffer →
      start + offset + (binaries.flatMap Binary.buffer).length < 256 ^ offsetSize isLarge →
      ∃ results, readEntries (readValueEntry isLarge) (valueEntrySize isLarge) buffer before.length
          binaries.length = some results ∧
        ∀ depth, results.mapM (parse depth) = binaries.mapM (parse depth) := by
  induction binaries with
  | nil => exact fun _ _ _ _ _ _ => ⟨[], rfl, fun _ => rfl⟩
  | cons binary binaries ih =>
      intro offset before hwell hentries hdata hfits
      have hfirst := hwell binary List.mem_cons_self
      rw [valueEntries, entriesFrom, List.flatMap_cons, List.append_assoc] at hentries
      rw [List.flatMap_cons] at hdata hfits
      rw [List.length_append] at hfits
      have hposition : start + offset < 256 ^ offsetSize isLarge := by omega
      obtain ⟨more, hread⟩ := readValueEntry_valueEntry hfirst hposition hentries hdata
      have hnext : buffer.drop (start + (offset + binary.buffer.length)) =
          binaries.flatMap Binary.buffer := by
        rw [← Nat.add_assoc, ← List.drop_drop, hdata, List.drop_left]
      obtain ⟨results, hresults, hparse⟩ := ih (offset + binary.buffer.length)
        (before ++ valueEntry isLarge binary (start + offset))
        (fun other hother => hwell other (List.mem_cons_of_mem _ hother))
        (by rw [List.append_assoc]; exact hentries) hnext (by omega)
      rw [List.length_append, length_valueEntry hfirst] at hresults
      refine ⟨{ binary with buffer := binary.buffer ++ more } :: results, ?_, fun depth => ?_⟩
      · rw [List.length_cons, readEntries_succ, hread, Option.bind_some, hresults]
        rfl
      · rw [List.mapM_cons, List.mapM_cons, hfirst.delimited, hparse]

/-- The entries of keys lead to their characters. -/
theorem readEntries_keys {isLarge : Bool} {buffer after rest : List UInt8} {start : ℕ}
    (keys : List CodeUnits) :
    ∀ (offset : ℕ) (before front : List UInt8), (∀ key ∈ keys, (utf8 key).length < 65536) →
      before ++ (keyEntries isLarge start offset (keys.map utf8) ++ after) = buffer →
      front.length = start + offset → front ++ (keys.flatMap utf8 ++ rest) = buffer →
      start + offset + (keys.flatMap utf8).length < 256 ^ offsetSize isLarge →
      readEntries (readKeyEntry isLarge) (keyEntrySize isLarge) buffer before.length keys.length =
        some (keys.map fun key => unitsOfChars (charsOfUnits key)) := by
  induction keys with
  | nil => exact fun _ _ _ _ _ _ _ _ => rfl
  | cons key keys ih =>
      intro offset before front hshort hentries hfront hdata hfits
      rw [List.map_cons, keyEntries, entriesFrom, List.flatMap_cons, List.append_assoc, id_eq,
        ← hfront] at hentries
      rw [List.flatMap_cons] at hdata hfits
      rw [List.append_assoc] at hdata
      rw [List.length_append] at hfits
      have hread := readKeyEntry_keyEntry (hshort key List.mem_cons_self)
        (show front.length < 256 ^ offsetSize isLarge by omega) hentries hdata
      have hresults := ih (offset + (utf8 key).length)
        (before ++ keyEntry isLarge (utf8 key) front.length) (front ++ utf8 key)
        (fun other hother => hshort other (List.mem_cons_of_mem _ hother))
        (by rw [List.append_assoc]; exact hentries)
        (by rw [List.length_append]; omega) (by rw [List.append_assoc]; exact hdata) (by omega)
      rw [List.length_append, length_keyEntry] at hresults
      rw [List.length_cons, readEntries_succ, hread, Option.bind_some, hresults]
      rfl

theorem length_valueEntries (isLarge : Bool) (start : ℕ) (binaries : List Binary) :
    ∀ offset, (∀ binary ∈ binaries, binary.WellFormed) →
      (valueEntries isLarge start offset binaries).length =
        valueEntrySize isLarge * binaries.length := by
  induction binaries with
  | nil => exact fun _ _ => rfl
  | cons binary binaries ih =>
      intro offset hwell
      have hrest := ih (offset + binary.buffer.length)
        fun other hother => hwell other (List.mem_cons_of_mem _ hother)
      rw [valueEntries] at hrest
      rw [valueEntries, entriesFrom, List.flatMap_cons, List.length_append, hrest,
        length_valueEntry (hwell binary List.mem_cons_self), List.length_cons, Nat.mul_succ]
      omega

theorem length_keyEntries (isLarge : Bool) (start : ℕ) (keys : List (List UInt8)) :
    ∀ offset, (keyEntries isLarge start offset keys).length = keyEntrySize isLarge * keys.length := by
  induction keys with
  | nil => exact fun _ => rfl
  | cons key keys ih =>
      intro offset
      have hrest := ih (offset + (id key).length)
      rw [keyEntries] at hrest
      rw [keyEntries, entriesFrom, List.flatMap_cons, List.length_append, hrest, length_keyEntry,
        List.length_cons, Nat.mul_succ]
      omega

/-! ## Writing entries -/

/-- The entries that `writeEntries` writes, if it succeeds. -/
theorem eq_of_writeEntries {writeEntry : α → ℕ → Option (List UInt8)}
    {entryOf : α → ℕ → List UInt8}
    (hwrite : ∀ item position bytes, writeEntry item position = some bytes →
      bytes = entryOf item position)
    {start : ℕ} {list : EntryList α} {bytes : List UInt8}
    (h : list.writeEntries writeEntry start = some bytes) :
    bytes = list.entries.flatMap (fun entry => entryOf entry.1 (start + entry.2)) ∧
      ∀ entry ∈ list.entries, writeEntry entry.1 (start + entry.2) =
        some (entryOf entry.1 (start + entry.2)) := by
  rw [EntryList.writeEntries] at h
  obtain ⟨entries, hentries, h⟩ := Option.bind_eq_some_iff.mp h
  obtain ⟨rfl, hall⟩ := eq_map_of_mapM_eq_some hentries
    fun entry bytes hbytes => hwrite entry.1 (start + entry.2) bytes hbytes
  refine ⟨(concat_eq_some_iff.mp h).2.trans ?_, hall⟩
  rw [List.flatMap_def]

theorem writeEntries_eq {writeEntry : α → ℕ → Option (List UInt8)}
    {entryOf : α → ℕ → List UInt8} {start : ℕ} {list : EntryList α}
    (hall : ∀ entry ∈ list.entries, writeEntry entry.1 (start + entry.2) =
      some (entryOf entry.1 (start + entry.2)))
    (hfits : (list.entries.flatMap fun entry => entryOf entry.1 (start + entry.2)).length ≤
      kMaxLength) :
    list.writeEntries writeEntry start =
      some (list.entries.flatMap fun entry => entryOf entry.1 (start + entry.2)) := by
  have hentries := mapM_eq_some_map hall
  rw [EntryList.writeEntries]
  refine Option.bind_eq_some_iff.mpr ⟨_, hentries, concat_eq_some_iff.mpr ⟨?_, ?_⟩⟩
  · rw [List.flatMap_def] at hfits
    exact hfits
  · rw [List.flatMap_def]

/-! ## Headers -/

theorem writeHeader_eq_some_iff {isLarge : Bool} {count size : ℕ} {bytes : List UInt8} :
    writeHeader isLarge count size = some bytes ↔ count < 256 ^ offsetSize isLarge ∧
      size < 256 ^ offsetSize isLarge ∧
      bytes = littleEndian (offsetSize isLarge) count ++ littleEndian (offsetSize isLarge) size := by
  rw [writeHeader]
  constructor
  · intro h
    obtain ⟨countBytes, hcount, h⟩ := Option.bind_eq_some_iff.mp h
    obtain ⟨sizeBytes, hsize, h⟩ := Option.bind_eq_some_iff.mp h
    obtain ⟨hcountLt, rfl⟩ := writeUIntLE_eq_some_iff.mp hcount
    obtain ⟨hsizeLt, rfl⟩ := writeUIntLE_eq_some_iff.mp hsize
    exact ⟨hcountLt, hsizeLt, (Option.some.inj h).symm⟩
  · rintro ⟨hcount, hsize, rfl⟩
    rw [writeUIntLE_eq_some_iff.mpr ⟨hcount, rfl⟩, writeUIntLE_eq_some_iff.mpr ⟨hsize, rfl⟩]
    rfl

/-- The header of a container. -/
def headerBytes (isLarge : Bool) (count size : ℕ) : List UInt8 :=
  littleEndian (offsetSize isLarge) count ++ littleEndian (offsetSize isLarge) size

theorem length_headerBytes (isLarge : Bool) (count size : ℕ) :
    (headerBytes isLarge count size).length = headerSize isLarge := by
  rw [headerBytes, List.length_append, length_littleEndian, length_littleEndian]
  cases isLarge <;> rfl

/-- The header gives the number of elements, and where the container ends. -/
theorem readHeader_headerBytes {isLarge : Bool} {count size : ℕ} {body : List UInt8}
    (hcount : count < 256 ^ offsetSize isLarge) (hsize : size < 256 ^ offsetSize isLarge)
    (hlength : (headerBytes isLarge count size ++ body).length = size) (rest : List UInt8) :
    readHeader isLarge (headerBytes isLarge count size ++ body ++ rest) =
      some (count, headerBytes isLarge count size ++ body) := by
  have hreadCount := readUIntLE_littleEndian hcount
    (littleEndian (offsetSize isLarge) size ++ (body ++ rest))
  have hreadSize := readUIntLE_append hsize (littleEndian (offsetSize isLarge) count) (body ++ rest)
  have hbuffer : littleEndian (offsetSize isLarge) count ++
      (littleEndian (offsetSize isLarge) size ++ (body ++ rest)) =
        headerBytes isLarge count size ++ body ++ rest := by
    rw [headerBytes]
    simp only [List.append_assoc]
  rw [hbuffer] at hreadCount hreadSize
  rw [length_littleEndian] at hreadSize
  have htake := @List.take_left' _ (headerBytes isLarge count size ++ body) rest size hlength
  simp only [readHeader, hreadCount, hreadSize, htake, Option.bind_eq_bind, Option.bind_some,
    Option.pure_def]

/-! ## Arrays -/

/-- The size of an array in the small or large form. -/
def arraySizeOf (isLarge : Bool) (count dataLength : ℕ) : ℕ :=
  headerSize isLarge + (valueEntrySize isLarge * count + dataLength)

/-- An array takes the large form if it does not fit into the small one. -/
def arrayIsLarge (count dataLength : ℕ) : Bool := 65535 < arraySizeOf false count dataLength

def arraySize (count dataLength : ℕ) : ℕ :=
  arraySizeOf (arrayIsLarge count dataLength) count dataLength

/-- What the sizes of a form can hold. -/
theorem lt_of_form {isLarge : Bool} {size : ℕ} (hsmall : isLarge = false → size ≤ 65535)
    (hsize : size ≤ kMaxLength) : size < 256 ^ offsetSize isLarge := by
  rw [kMaxLength] at hsize
  cases isLarge with
  | false =>
      have := hsmall rfl
      rw [offsetSize, if_neg Bool.false_ne_true]
      omega
  | true =>
      rw [offsetSize, if_pos rfl]
      omega

theorem lt_of_arraySize {count dataLength : ℕ} (h : arraySize count dataLength ≤ kMaxLength) :
    arraySizeOf (arrayIsLarge count dataLength) count dataLength <
      256 ^ offsetSize (arrayIsLarge count dataLength) := by
  refine lt_of_form (fun hsmall => ?_) h
  rw [hsmall]
  rw [arrayIsLarge] at hsmall
  simpa using hsmall

/-- The bytes of an array. -/
def arrayBytes (isLarge : Bool) (binaries : List Binary) : List UInt8 :=
  headerBytes isLarge binaries.length
      (arraySizeOf isLarge binaries.length (binaries.flatMap Binary.buffer).length) ++
    (valueEntries isLarge (headerSize isLarge + valueEntrySize isLarge * binaries.length) 0 binaries ++
      binaries.flatMap Binary.buffer)

/-- A serialized array. -/
def arrayBinary (isLarge : Bool) (binaries : List Binary) : Binary :=
  { type := if isLarge then .largeArray else .smallArray
    buffer := arrayBytes isLarge binaries }

section
variable {binaries : List Binary} (hwell : ∀ binary ∈ binaries, binary.WellFormed)
include hwell

theorem length_arrayBytes (isLarge : Bool) :
    (arrayBytes isLarge binaries).length =
      arraySizeOf isLarge binaries.length (binaries.flatMap Binary.buffer).length := by
  rw [arrayBytes, List.length_append, List.length_append, length_headerBytes,
    length_valueEntries _ _ _ _ hwell, arraySizeOf]

/-- Parsing an array parses its elements. -/
theorem parse_arrayBinary {isLarge : Bool}
    (hsize : arraySizeOf isLarge binaries.length (binaries.flatMap Binary.buffer).length <
      256 ^ offsetSize isLarge) (depth : ℕ) (rest : List UInt8) :
    parse (depth + 1) { arrayBinary isLarge binaries with
        buffer := (arrayBinary isLarge binaries).buffer ++ rest } =
      (binaries.mapM (parse depth)).map .array := by
  have hlength := length_arrayBytes hwell isLarge
  have hcount : binaries.length < 256 ^ offsetSize isLarge := by
    rw [arraySizeOf] at hsize
    have : binaries.length ≤ valueEntrySize isLarge * binaries.length :=
      Nat.le_mul_of_pos_left _ (by cases isLarge <;> decide)
    omega
  have hheader := readHeader_headerBytes hcount hsize hlength rest
  obtain ⟨results, hresults, hparse⟩ := @readEntries_values isLarge (arrayBytes isLarge binaries)
    (binaries.flatMap Binary.buffer) (headerSize isLarge + valueEntrySize isLarge * binaries.length)
    binaries 0 (headerBytes isLarge binaries.length
      (arraySizeOf isLarge binaries.length (binaries.flatMap Binary.buffer).length))
    hwell rfl
    (by
      rw [arrayBytes, ← List.append_assoc, Nat.add_zero]
      refine List.drop_left' ?_
      rw [List.length_append, length_headerBytes, length_valueEntries _ _ _ _ hwell])
    (by rw [arraySizeOf] at hsize; omega)
  rw [length_headerBytes] at hresults
  have harray : parseArray (parse depth) isLarge (arrayBytes isLarge binaries ++ rest) =
      (binaries.mapM (parse depth)).map .array := by
    rw [parseArray, arrayBytes, hheader]
    simp only [Option.bind_eq_bind, Option.bind_some]
    rw [← arrayBytes, hresults]
    simp only [Option.bind_some, hparse, Option.pure_def, Option.map_eq_bind, Function.comp_def]
  cases isLarge <;> exact harray

theorem wellFormed_arrayBinary {isLarge : Bool}
    (hsize : arraySizeOf isLarge binaries.length (binaries.flatMap Binary.buffer).length <
      256 ^ offsetSize isLarge) : (arrayBinary isLarge binaries).WellFormed := by
  refine ⟨fun depth rest => ?_, fun size h => ?_⟩
  · cases depth with
    | zero => cases isLarge <;> rfl
    | succ depth =>
        have hplain := parse_arrayBinary hwell hsize depth []
        rw [List.append_nil] at hplain
        rw [parse_arrayBinary hwell hsize depth rest]
        exact hplain.symm
  · cases isLarge <;> exact nomatch h

/-- An array is serialized if it fits into a buffer. -/
theorem serializeArray_eq_some_iff {binary : Binary} :
    serializeArray binaries = some binary ↔
      arraySize binaries.length (binaries.flatMap Binary.buffer).length ≤ kMaxLength ∧
        binary = arrayBinary
          (arrayIsLarge binaries.length (binaries.flatMap Binary.buffer).length) binaries := by
  have htotal : ∀ isLarge, headerSize isLarge + EntryList.totalSize (valueEntrySize isLarge)
      { entries := entriesFrom Binary.buffer 0 binaries
        data := binaries.flatMap Binary.buffer } =
        arraySizeOf isLarge binaries.length (binaries.flatMap Binary.buffer).length := by
    intro isLarge
    rw [EntryList.totalSize, EntryList.sizeOfEntries, length_entriesFrom, arraySizeOf]
  have hflatten : ∀ isLarge, [headerBytes isLarge binaries.length
        (arraySizeOf isLarge binaries.length (binaries.flatMap Binary.buffer).length),
      valueEntries isLarge (headerSize isLarge + valueEntrySize isLarge * binaries.length) 0 binaries,
      binaries.flatMap Binary.buffer].flatten = arrayBytes isLarge binaries := by
    intro isLarge
    simp [arrayBytes]
  rw [serializeArray]
  constructor
  · intro h
    obtain ⟨valueList, hlist, h⟩ := Option.bind_eq_some_iff.mp h
    obtain ⟨_, rfl⟩ := (ofItems_eq_some_iff _ _ _).mp hlist
    simp only [htotal] at h
    obtain ⟨header, hheader, h⟩ := Option.bind_eq_some_iff.mp h
    obtain ⟨entries, hentries, h⟩ := Option.bind_eq_some_iff.mp h
    obtain ⟨buffer, hbuffer, h⟩ := Option.bind_eq_some_iff.mp h
    have hheaderEq := (writeHeader_eq_some_iff.mp hheader).2.2
    have hentriesEq := (eq_of_writeEntries (fun _ _ _ => eq_valueEntry_of_write) hentries).1
    simp only [EntryList.sizeOfEntries, length_entriesFrom] at hheaderEq hentriesEq
    obtain ⟨hfits, hbufferEq⟩ := concat_eq_some_iff.mp hbuffer
    rw [hheaderEq, hentriesEq] at hfits hbufferEq
    have hbytes := hbufferEq.trans (hflatten _)
    have hsize := hfits
    rw [← hbufferEq, hbytes, length_arrayBytes hwell] at hsize
    refine ⟨hsize, ?_⟩
    rw [← Option.some.inj h, hbytes]
    rfl
  · rintro ⟨hsize, rfl⟩
    have hform := lt_of_arraySize hsize
    set isLarge := arrayIsLarge binaries.length (binaries.flatMap Binary.buffer).length
    have hcount : binaries.length < 256 ^ offsetSize isLarge := by
      rw [arraySizeOf] at hform
      have : binaries.length ≤ valueEntrySize isLarge * binaries.length :=
        Nat.le_mul_of_pos_left _ (by cases isLarge <;> decide)
      omega
    have hbound : arraySizeOf isLarge binaries.length (binaries.flatMap Binary.buffer).length ≤
      kMaxLength := hsize
    have hdata : (binaries.flatMap Binary.buffer).length ≤ kMaxLength := by
      rw [arraySizeOf] at hbound
      omega
    have hheader := (@writeHeader_eq_some_iff isLarge binaries.length _ _).mpr ⟨hcount, hform, rfl⟩
    have hentries := @writeEntries_eq _ (writeValueEntry isLarge) (valueEntry isLarge)
      (headerSize isLarge + valueEntrySize isLarge * binaries.length)
      { entries := entriesFrom Binary.buffer 0 binaries, data := binaries.flatMap Binary.buffer }
      (fun entry hentry => writeValueEntry_eq (by
        have hle := (offset_le_of_mem_entriesFrom hentry).2
        rw [arraySizeOf] at hform
        omega) entry.1)
      (by
        have hlength := length_valueEntries isLarge
          (headerSize isLarge + valueEntrySize isLarge * binaries.length) binaries 0 hwell
        rw [valueEntries] at hlength
        rw [hlength]
        rw [arraySizeOf] at hbound
        omega)
    have hconcat := concat_eq_some_iff.mpr ⟨(by
      rw [hflatten, length_arrayBytes hwell]
      exact hbound), (hflatten isLarge).symm⟩
    refine Option.bind_eq_some_iff.mpr ⟨_, (ofItems_eq_some_iff _ _ _).mpr ⟨hdata, rfl⟩, ?_⟩
    simp only [htotal, length_entriesFrom, EntryList.sizeOfEntries]
    refine Option.bind_eq_some_iff.mpr ⟨_, hheader, ?_⟩
    refine Option.bind_eq_some_iff.mpr ⟨_, hentries, ?_⟩
    exact Option.bind_eq_some_iff.mpr ⟨_, hconcat, rfl⟩

end

/-! ## Objects -/

/-- The size of an object in the small or large form. -/
def objectSizeOf (isLarge : Bool) (count valueLength keyLength : ℕ) : ℕ :=
  headerSize isLarge + (valueEntrySize isLarge * count + valueLength) +
    (keyEntrySize isLarge * count + keyLength)

/-- An object takes the large form if it does not fit into the small one. -/
def objectIsLarge (count valueLength keyLength : ℕ) : Bool :=
  65535 < objectSizeOf false count valueLength keyLength

def objectSize (count valueLength keyLength : ℕ) : ℕ :=
  objectSizeOf (objectIsLarge count valueLength keyLength) count valueLength keyLength

theorem lt_of_objectSize {count valueLength keyLength : ℕ}
    (h : objectSize count valueLength keyLength ≤ kMaxLength) :
    objectSizeOf (objectIsLarge count valueLength keyLength) count valueLength keyLength <
      256 ^ offsetSize (objectIsLarge count valueLength keyLength) := by
  refine lt_of_form (fun hsmall => ?_) h
  rw [hsmall]
  rw [objectIsLarge] at hsmall
  simpa using hsmall

/-- The data of the values of an object. -/
def valueData (members : List (CodeUnits × Binary)) : List UInt8 :=
  (members.map Prod.snd).flatMap Binary.buffer

/-- The data of the keys of an object. -/
def keyData (members : List (CodeUnits × Binary)) : List UInt8 :=
  (members.map Prod.fst).flatMap utf8

/-- Where the data of the keys start. -/
def keyDataStart (isLarge : Bool) (members : List (CodeUnits × Binary)) : ℕ :=
  headerSize isLarge + keyEntrySize isLarge * members.length + valueEntrySize isLarge * members.length

/-- The bytes of an object. -/
def objectBytes (isLarge : Bool) (members : List (CodeUnits × Binary)) : List UInt8 :=
  headerBytes isLarge members.length
      (objectSizeOf isLarge members.length (valueData members).length (keyData members).length) ++
    (keyEntries isLarge (keyDataStart isLarge members) 0 ((members.map Prod.fst).map utf8) ++
      (valueEntries isLarge (keyDataStart isLarge members + (keyData members).length) 0
          (members.map Prod.snd) ++
        (keyData members ++ valueData members)))

/-- A serialized object. -/
def objectBinary (isLarge : Bool) (members : List (CodeUnits × Binary)) : Binary :=
  { type := if isLarge then .largeObject else .smallObject
    buffer := objectBytes isLarge members }

/-- What the parser makes of the members of an object. -/
def parsedObject (members : List (CodeUnits × Json)) : Json :=
  .object (members.foldl setMember fun _ => none)

section
variable {members : List (CodeUnits × Binary)}
  (hwell : ∀ member ∈ members, member.2.WellFormed)
include hwell

theorem wellFormed_of_mem_values {binary : Binary} (h : binary ∈ members.map Prod.snd) :
    binary.WellFormed := by
  obtain ⟨member, hmember, rfl⟩ := List.mem_map.mp h
  exact hwell member hmember

theorem length_objectBytes (isLarge : Bool) :
    (objectBytes isLarge members).length =
      objectSizeOf isLarge members.length (valueData members).length (keyData members).length := by
  rw [objectBytes, List.length_append, List.length_append, List.length_append, List.length_append,
    length_headerBytes, length_keyEntries,
    length_valueEntries _ _ _ _ fun _ h => wellFormed_of_mem_values hwell h, List.length_map,
    List.length_map, List.length_map, objectSizeOf]
  omega

/-- Parsing an object parses the values of its members. -/
theorem parse_objectBinary {isLarge : Bool}
    (hshort : ∀ member ∈ members, (utf8 member.1).length < 65536)
    (hsize : objectSizeOf isLarge members.length (valueData members).length
      (keyData members).length < 256 ^ offsetSize isLarge) (depth : ℕ) (rest : List UInt8) :
    parse (depth + 1) { objectBinary isLarge members with
        buffer := (objectBinary isLarge members).buffer ++ rest } =
      ((members.map Prod.snd).mapM (parse depth)).map fun values =>
        parsedObject
          (((members.map Prod.fst).map fun key => unitsOfChars (charsOfUnits key)).zip values) := by
  have hlength := length_objectBytes hwell isLarge
  have hvalues := fun binary h => @wellFormed_of_mem_values members hwell binary h
  have hcount : members.length < 256 ^ offsetSize isLarge := by
    rw [objectSizeOf] at hsize
    have : members.length ≤ valueEntrySize isLarge * members.length :=
      Nat.le_mul_of_pos_left _ (by cases isLarge <;> decide)
    omega
  have hheader := readHeader_headerBytes hcount hsize hlength rest
  have hkeys := @readEntries_keys isLarge (objectBytes isLarge members)
    (valueEntries isLarge (keyDataStart isLarge members + (keyData members).length) 0
      (members.map Prod.snd) ++ (keyData members ++ valueData members))
    (valueData members) (keyDataStart isLarge members) (members.map Prod.fst) 0
    (headerBytes isLarge members.length
      (objectSizeOf isLarge members.length (valueData members).length (keyData members).length))
    (headerBytes isLarge members.length
      (objectSizeOf isLarge members.length (valueData members).length (keyData members).length) ++
      (keyEntries isLarge (keyDataStart isLarge members) 0 ((members.map Prod.fst).map utf8) ++
        valueEntries isLarge (keyDataStart isLarge members + (keyData members).length) 0
          (members.map Prod.snd)))
    (fun key hkey => by
      obtain ⟨member, hmember, rfl⟩ := List.mem_map.mp hkey
      exact hshort member hmember)
    rfl
    (by
      rw [List.length_append, List.length_append, length_headerBytes, length_keyEntries,
        length_valueEntries _ _ _ _ hvalues, keyDataStart, List.length_map, List.length_map,
        List.length_map]
      omega)
    (by simp only [objectBytes, keyData, List.append_assoc])
    (by
      rw [objectSizeOf] at hsize
      rw [keyDataStart, ← keyData]
      omega)
  obtain ⟨results, hresults, hparse⟩ := @readEntries_values isLarge (objectBytes isLarge members)
    (keyData members ++ valueData members)
    (keyDataStart isLarge members + (keyData members).length) (members.map Prod.snd) 0
    (headerBytes isLarge members.length
      (objectSizeOf isLarge members.length (valueData members).length (keyData members).length) ++
      keyEntries isLarge (keyDataStart isLarge members) 0 ((members.map Prod.fst).map utf8))
    hvalues (by simp only [objectBytes, List.append_assoc])
    (by
      rw [objectBytes, ← List.append_assoc, ← List.append_assoc, ← List.append_assoc, Nat.add_zero,
        ← valueData]
      refine List.drop_left' ?_
      rw [List.length_append, List.length_append, List.length_append, length_headerBytes,
        length_keyEntries, length_valueEntries _ _ _ _ hvalues, keyDataStart, List.length_map,
        List.length_map, List.length_map])
    (by
      rw [objectSizeOf] at hsize
      rw [keyDataStart, ← valueData]
      omega)
  rw [length_headerBytes, List.length_map] at hkeys
  rw [List.length_append, length_headerBytes, length_keyEntries, List.length_map, List.length_map,
    List.length_map] at hresults
  have hobject : parseObject (parse depth) isLarge (objectBytes isLarge members ++ rest) =
      ((members.map Prod.snd).mapM (parse depth)).map fun values =>
        parsedObject
          (((members.map Prod.fst).map fun key => unitsOfChars (charsOfUnits key)).zip values) := by
    rw [parseObject, objectBytes, hheader]
    simp only [Option.bind_eq_bind, Option.bind_some]
    rw [← objectBytes, hkeys, Option.bind_some, hresults]
    simp only [Option.bind_some, hparse, Option.pure_def, Option.map_eq_bind, Function.comp_def,
      parsedObject]
  cases isLarge <;> exact hobject

theorem wellFormed_objectBinary {isLarge : Bool}
    (hshort : ∀ member ∈ members, (utf8 member.1).length < 65536)
    (hsize : objectSizeOf isLarge members.length (valueData members).length
      (keyData members).length < 256 ^ offsetSize isLarge) :
    (objectBinary isLarge members).WellFormed := by
  refine ⟨fun depth rest => ?_, fun size h => ?_⟩
  · cases depth with
    | zero => cases isLarge <;> rfl
    | succ depth =>
        have hplain := parse_objectBinary hwell hshort hsize depth []
        rw [List.append_nil] at hplain
        rw [parse_objectBinary hwell hshort hsize depth rest]
        exact hplain.symm
  · cases isLarge <;> exact nomatch h

/-- An object is serialized if its keys are not too long and it fits into a buffer. -/
theorem serializeObject_eq_some_iff {binary : Binary} :
    serializeObject members = some binary ↔
      (∀ member ∈ members, (utf8 member.1).length < 65536) ∧
        objectSize members.length (valueData members).length (keyData members).length ≤ kMaxLength ∧
        binary = objectBinary
          (objectIsLarge members.length (valueData members).length (keyData members).length)
          members := by
  have hvalues := fun binary h => @wellFormed_of_mem_values members hwell binary h
  have hkeyData : ((members.map Prod.fst).map utf8).flatMap id = keyData members := by
    rw [keyData, List.flatMap_map]
    rfl
  have htotal : ∀ isLarge, headerSize isLarge + EntryList.totalSize (valueEntrySize isLarge)
        { entries := entriesFrom Binary.buffer 0 (members.map Prod.snd)
          data := (members.map Prod.snd).flatMap Binary.buffer } +
      EntryList.totalSize (keyEntrySize isLarge)
        { entries := entriesFrom id 0 ((members.map Prod.fst).map utf8)
          data := ((members.map Prod.fst).map utf8).flatMap id } =
        objectSizeOf isLarge members.length (valueData members).length (keyData members).length := by
    intro isLarge
    rw [EntryList.totalSize, EntryList.totalSize, EntryList.sizeOfEntries, EntryList.sizeOfEntries,
      length_entriesFrom, length_entriesFrom, List.length_map, List.length_map, List.length_map,
      hkeyData, objectSizeOf, valueData]
  have hflatten : ∀ isLarge, [headerBytes isLarge members.length
        (objectSizeOf isLarge members.length (valueData members).length (keyData members).length),
      keyEntries isLarge (keyDataStart isLarge members) 0 ((members.map Prod.fst).map utf8),
      valueEntries isLarge (keyDataStart isLarge members + (keyData members).length) 0
        (members.map Prod.snd),
      keyData members, valueData members].flatten = objectBytes isLarge members := by
    intro isLarge
    simp [objectBytes]
  rw [serializeObject]
  constructor
  · intro h
    obtain ⟨valueList, hlist, h⟩ := Option.bind_eq_some_iff.mp h
    obtain ⟨_, rfl⟩ := (ofItems_eq_some_iff _ _ _).mp hlist
    obtain ⟨keys, hkeys, h⟩ := Option.bind_eq_some_iff.mp h
    obtain ⟨rfl, _⟩ := @eq_map_of_mapM_eq_some _ _ _ (fun member => utf8 member.1) _ _ hkeys
      fun member bytes hbytes => by
        rw [(concat_eq_some_iff.mp hbytes).2, List.flatten_singleton]
    have hmap : members.map (fun member => utf8 member.1) = (members.map Prod.fst).map utf8 := by
      rw [List.map_map]
      rfl
    rw [hmap] at h
    obtain ⟨keyList, hkeyList, h⟩ := Option.bind_eq_some_iff.mp h
    obtain ⟨_, rfl⟩ := (ofItems_eq_some_iff _ _ _).mp hkeyList
    simp only [htotal] at h
    obtain ⟨header, hheader, h⟩ := Option.bind_eq_some_iff.mp h
    obtain ⟨keyBytes, hkeyBytes, h⟩ := Option.bind_eq_some_iff.mp h
    obtain ⟨valueBytes, hvalueBytes, h⟩ := Option.bind_eq_some_iff.mp h
    obtain ⟨buffer, hbuffer, h⟩ := Option.bind_eq_some_iff.mp h
    have hheaderEq := (writeHeader_eq_some_iff.mp hheader).2.2
    obtain ⟨hkeyEq, hkeyWritten⟩ := eq_of_writeEntries
      (fun _ _ _ h => (writeKeyEntry_eq_some_iff.mp h).2.2) hkeyBytes
    have hvalueEq := (eq_of_writeEntries (fun _ _ _ => eq_valueEntry_of_write) hvalueBytes).1
    simp only [EntryList.sizeOfEntries, length_entriesFrom, List.length_map,
      hkeyData] at hheaderEq hkeyEq hvalueEq
    obtain ⟨hfits, hbufferEq⟩ := concat_eq_some_iff.mp hbuffer
    rw [hheaderEq, hkeyEq, hvalueEq, hkeyData] at hfits hbufferEq
    have hbytes := hbufferEq.trans (hflatten _)
    have hsize := hfits
    rw [← hbufferEq, hbytes, length_objectBytes hwell] at hsize
    refine ⟨fun member hmember => ?_, hsize, ?_⟩
    · obtain ⟨entry, hentry, heq⟩ := exists_mem_entriesFrom 0
        (List.mem_map_of_mem (List.mem_map_of_mem hmember))
      have hwritten := (writeKeyEntry_eq_some_iff.mp (hkeyWritten entry hentry)).2.1
      rwa [heq] at hwritten
    · have hbinary := (Option.ite_none_right_eq_some.mp h).2
      rw [← Option.some.inj hbinary, hbytes]
      rfl
  · rintro ⟨hshort, hsize, rfl⟩
    have hform := lt_of_objectSize hsize
    set isLarge := objectIsLarge members.length (valueData members).length (keyData members).length
    have hbound : objectSizeOf isLarge members.length (valueData members).length
      (keyData members).length ≤ kMaxLength := hsize
    have hlt : keyDataStart isLarge members + (keyData members).length +
        (valueData members).length < 256 ^ offsetSize isLarge := by
      rw [objectSizeOf] at hform
      rw [keyDataStart]
      omega
    have hle : keyDataStart isLarge members + (keyData members).length +
        (valueData members).length ≤ kMaxLength := by
      rw [objectSizeOf] at hbound
      rw [keyDataStart]
      omega
    have hcount : members.length < 256 ^ offsetSize isLarge := by
      have : members.length ≤ valueEntrySize isLarge * members.length :=
        Nat.le_mul_of_pos_left _ (by cases isLarge <;> decide)
      rw [keyDataStart] at hlt
      omega
    have hkeys : members.mapM (fun member => serializeKey member.1) =
        some ((members.map Prod.fst).map utf8) := by
      rw [List.map_map]
      refine mapM_eq_some_map fun member hmember => concat_eq_some_iff.mpr ⟨?_, ?_⟩
      · have := hshort member hmember
        rw [List.flatten_singleton, kMaxLength]
        omega
      · rw [List.flatten_singleton]
        rfl
    have hheader := (@writeHeader_eq_some_iff isLarge members.length _ _).mpr ⟨hcount, hform, rfl⟩
    have hkeyEntries := @writeEntries_eq _ (writeKeyEntry isLarge) (keyEntry isLarge)
      (keyDataStart isLarge members)
      { entries := entriesFrom id 0 ((members.map Prod.fst).map utf8), data := keyData members }
      (fun entry hentry => by
        obtain ⟨hmem, hoffset⟩ := offset_le_of_mem_entriesFrom hentry
        rw [hkeyData] at hoffset
        obtain ⟨key, hkey, hentryKey⟩ := List.mem_map.mp hmem
        obtain ⟨member, hmember, rfl⟩ := List.mem_map.mp hkey
        refine writeKeyEntry_eq_some_iff.mpr ⟨by omega, ?_, rfl⟩
        rw [← hentryKey]
        exact hshort member hmember)
      (by
        have hlength := length_keyEntries isLarge (keyDataStart isLarge members)
          ((members.map Prod.fst).map utf8) 0
        rw [keyEntries] at hlength
        rw [hlength, List.length_map, List.length_map]
        rw [keyDataStart] at hle
        omega)
    have hvalueEntries := @writeEntries_eq _ (writeValueEntry isLarge) (valueEntry isLarge)
      (keyDataStart isLarge members + (keyData members).length)
      { entries := entriesFrom Binary.buffer 0 (members.map Prod.snd), data := valueData members }
      (fun entry hentry => writeValueEntry_eq (by
        have hoffset := (offset_le_of_mem_entriesFrom hentry).2
        rw [← valueData] at hoffset
        omega) entry.1)
      (by
        have hlength := length_valueEntries isLarge
          (keyDataStart isLarge members + (keyData members).length) (members.map Prod.snd) 0 hvalues
        rw [valueEntries] at hlength
        rw [hlength, List.length_map]
        rw [keyDataStart] at hle
        omega)
    have hconcat := concat_eq_some_iff.mpr ⟨(by
      rw [hflatten, length_objectBytes hwell]
      exact hbound), (hflatten isLarge).symm⟩
    refine Option.bind_eq_some_iff.mpr
      ⟨_, (ofItems_eq_some_iff _ _ _).mpr ⟨by rw [← valueData]; omega, rfl⟩, ?_⟩
    refine Option.bind_eq_some_iff.mpr ⟨_, hkeys, ?_⟩
    refine Option.bind_eq_some_iff.mpr
      ⟨_, (ofItems_eq_some_iff _ _ _).mpr ⟨by rw [hkeyData]; omega, rfl⟩, ?_⟩
    simp only [htotal]
    simp only [length_entriesFrom, EntryList.sizeOfEntries, List.length_map, hkeyData]
    refine Option.bind_eq_some_iff.mpr ⟨_, hheader, ?_⟩
    refine Option.bind_eq_some_iff.mpr ⟨_, hkeyEntries, ?_⟩
    refine Option.bind_eq_some_iff.mpr ⟨_, hvalueEntries, ?_⟩
    refine Option.bind_eq_some_iff.mpr ⟨_, hconcat, ?_⟩
    exact if_pos (length_objectBytes hwell isLarge)

end

end DatabaseJones.MySQLSerialize
