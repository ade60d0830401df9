import DatabaseJones.Library.OptionLists
import DatabaseJones.MySQLSerialize.Scalars

/-!
# The layout of containers

A container is its header, the entries of its keys and values, and their data.  The
positions in the entries lead to the data, so that parsing a container parses its
values one by one, and its size bounds what is read of the buffer.
-/

namespace DatabaseJones.MySQLSerialize

open DatabaseJones.Library

variable {α : Type}

/-! ## Lists -/

/-- The items with the positions of their data, the first of which is `offset`. -/
def entriesFrom (bufferOf : α → List UInt8) : ℕ → List α → List (α × ℕ)
  | _, [] => []
  | offset, item :: items =>
      (item, offset) :: entriesFrom bufferOf (offset + (bufferOf item).length) items

@[simp] theorem length_entriesFrom (bufferOf : α → List UInt8) (items : List α) :
    ∀ offset, (entriesFrom bufferOf offset items).length = items.length := by
  induction items with
  | nil => intro offset; rfl
  | cons item items ih => intro offset; rw [entriesFrom, List.length_cons, ih, List.length_cons]

/-- The data of an item lies between its offset and the end of all data. -/
theorem offset_le_of_mem_entriesFrom {bufferOf : α → List UInt8} {items : List α} :
    ∀ {offset : ℕ} {entry : α × ℕ}, entry ∈ entriesFrom bufferOf offset items →
      entry.1 ∈ items ∧ entry.2 ≤ offset + (items.flatMap bufferOf).length := by
  induction items with
  | nil => intro offset entry h; exact absurd h List.not_mem_nil
  | cons item items ih =>
      intro offset entry h
      rw [List.flatMap_cons, List.length_append]
      rcases List.mem_cons.mp h with rfl | h
      · exact ⟨List.mem_cons_self, by simp⟩
      · obtain ⟨hitem, hle⟩ := ih h
        exact ⟨List.mem_cons_of_mem _ hitem, by omega⟩

theorem exists_mem_entriesFrom {bufferOf : α → List UInt8} {items : List α} {item : α} :
    ∀ offset : ℕ, item ∈ items → ∃ entry ∈ entriesFrom bufferOf offset items, entry.1 = item := by
  induction items with
  | nil => exact fun _ h => absurd h List.not_mem_nil
  | cons head items ih =>
      intro offset h
      rcases List.mem_cons.mp h with rfl | h
      · exact ⟨_, List.mem_cons_self, rfl⟩
      · obtain ⟨entry, hentry, heq⟩ := ih (offset + (bufferOf head).length) h
        exact ⟨entry, List.mem_cons_of_mem _ hentry, heq⟩

theorem foldlM_push (bufferOf : α → List UInt8) (items : List α) :
    ∀ list : EntryList α, list.data.length ≤ kMaxLength →
      items.foldlM (EntryList.push bufferOf) list =
        if (list.data ++ items.flatMap bufferOf).length ≤ kMaxLength then
          some
            { entries := list.entries ++ entriesFrom bufferOf list.data.length items
              data := list.data ++ items.flatMap bufferOf }
        else none := by
  induction items with
  | nil =>
      intro list hlist
      rw [List.foldlM_nil, List.flatMap_nil, List.append_nil, if_pos hlist, entriesFrom,
        List.append_nil]
      rfl
  | cons item items ih =>
      intro list hlist
      have hflatten : [list.data, bufferOf item].flatten = list.data ++ bufferOf item := by simp
      rw [List.foldlM_cons, EntryList.push, concat, hflatten, List.flatMap_cons, ← List.append_assoc]
      by_cases hfits : (list.data ++ bufferOf item).length ≤ kMaxLength
      · rw [if_pos hfits, Option.bind_eq_bind, Option.bind_eq_bind, Option.bind_some,
          Option.pure_def, Option.bind_some, ih _ hfits]
        simp only [entriesFrom, List.length_append, List.append_assoc, List.singleton_append]
      · rw [if_neg hfits, if_neg]
        · rfl
        · rw [List.length_append]
          omega

/-- The entries and data of a list, if the data fit into a buffer. -/
theorem ofItems_eq_some_iff (bufferOf : α → List UInt8) (items : List α) (list : EntryList α) :
    EntryList.ofItems bufferOf items = some list ↔
      (items.flatMap bufferOf).length ≤ kMaxLength ∧
        list = { entries := entriesFrom bufferOf 0 items, data := items.flatMap bufferOf } := by
  rw [EntryList.ofItems, foldlM_push bufferOf items {} (Nat.zero_le _)]
  split_ifs with hfits
  · exact ⟨fun h => ⟨hfits, (Option.some.inj h).symm⟩, fun h => congrArg some h.2.symm⟩
  · exact ⟨fun h => (nomatch h), fun h => absurd h.1 hfits⟩

theorem concat_eq_some_iff {buffers : List (List UInt8)} {buffer : List UInt8} :
    concat buffers = some buffer ↔ buffers.flatten.length ≤ kMaxLength ∧ buffer = buffers.flatten := by
  rw [concat]
  split_ifs with hfits
  · exact ⟨fun h => ⟨hfits, (Option.some.inj h).symm⟩, fun h => congrArg some h.2.symm⟩
  · exact ⟨fun h => (by cases h), fun h => absurd h.1 hfits⟩

theorem writeUIntLE_eq_some_iff {width value : ℕ} {bytes : List UInt8} :
    writeUIntLE width value = some bytes ↔ value < 256 ^ width ∧ bytes = littleEndian width value := by
  rw [writeUIntLE]
  split_ifs with hfits
  · exact ⟨fun h => ⟨hfits, (Option.some.inj h).symm⟩, fun h => congrArg some h.2.symm⟩
  · exact ⟨fun h => (by cases h), fun h => absurd h.1 hfits⟩

/-! ## Entries -/

/-- The bytes of an entry for a value. -/
def valueEntry (isLarge : Bool) (binary : Binary) (position : ℕ) : List UInt8 :=
  match inlineSize isLarge binary.type with
  | some _ =>
      binary.type.code :: binary.buffer ++ List.replicate (offsetSize isLarge - binary.buffer.length) 0
  | none => binary.type.code :: littleEndian (offsetSize isLarge) position

/-- The bytes of an entry for a key. -/
def keyEntry (isLarge : Bool) (key : List UInt8) (position : ℕ) : List UInt8 :=
  littleEndian (offsetSize isLarge) position ++ littleEndian 2 key.length

theorem eq_valueEntry_of_write {isLarge : Bool} {binary : Binary} {position : ℕ}
    {bytes : List UInt8} (h : writeValueEntry isLarge binary position = some bytes) :
    bytes = valueEntry isLarge binary position := by
  rw [writeValueEntry] at h
  rw [valueEntry]
  cases hinline : inlineSize isLarge binary.type with
  | some size =>
      rw [hinline] at h
      exact (Option.some.inj h).symm
  | none =>
      rw [hinline] at h
      obtain ⟨bytes', hbytes, rfl⟩ := Option.map_eq_some_iff.mp h
      rw [(writeUIntLE_eq_some_iff.mp hbytes).2]

theorem writeValueEntry_eq {isLarge : Bool} {position : ℕ}
    (hposition : position < 256 ^ offsetSize isLarge) (binary : Binary) :
    writeValueEntry isLarge binary position = some (valueEntry isLarge binary position) := by
  rw [writeValueEntry, valueEntry]
  cases inlineSize isLarge binary.type with
  | some size => rfl
  | none => rw [writeUIntLE_eq_some_iff.mpr ⟨hposition, rfl⟩]; rfl

theorem writeKeyEntry_eq_some_iff {isLarge : Bool} {key : List UInt8} {position : ℕ}
    {bytes : List UInt8} :
    writeKeyEntry isLarge key position = some bytes ↔ position < 256 ^ offsetSize isLarge ∧
      key.length < 65536 ∧ bytes = keyEntry isLarge key position := by
  rw [writeKeyEntry]
  constructor
  · intro h
    obtain ⟨positionBytes, hposition, h⟩ := Option.bind_eq_some_iff.mp h
    obtain ⟨lengthBytes, hlength, h⟩ := Option.bind_eq_some_iff.mp h
    obtain ⟨hpositionLt, rfl⟩ := writeUIntLE_eq_some_iff.mp hposition
    obtain ⟨hlengthLt, rfl⟩ := writeUIntLE_eq_some_iff.mp hlength
    exact ⟨hpositionLt, hlengthLt, (Option.some.inj h).symm⟩
  · rintro ⟨hposition, hlength, rfl⟩
    rw [writeUIntLE_eq_some_iff.mpr ⟨hposition, rfl⟩, writeUIntLE_eq_some_iff.mpr ⟨hlength, rfl⟩]
    rfl

theorem length_keyEntry (isLarge : Bool) (key : List UInt8) (position : ℕ) :
    (keyEntry isLarge key position).length = keyEntrySize isLarge := by
  rw [keyEntry, List.length_append, length_littleEndian, length_littleEndian]
  cases isLarge <;> rfl

/-- An inline value fits into its entry. -/
theorem inline_fits {isLarge : Bool} {type : BinaryType} {size : ℕ}
    (h : inlineSize isLarge type = some size) :
    inlineBufsize type = some size ∧ size ≤ offsetSize isLarge := by
  rw [inlineSize, Option.filter_eq_some_iff] at h
  refine ⟨h.1, ?_⟩
  obtain ⟨htype, hsize⟩ := h
  cases type <;> simp only [inlineBufsize, Option.some.injEq, reduceCtorEq] at htype <;>
    subst htype <;> cases isLarge <;> simp_all [offsetSize]

theorem length_valueEntry {binary : Binary} (hwell : binary.WellFormed) (isLarge : Bool)
    (position : ℕ) : (valueEntry isLarge binary position).length = valueEntrySize isLarge := by
  have hentry : valueEntrySize isLarge = offsetSize isLarge + 1 := by cases isLarge <;> rfl
  rw [valueEntry, hentry]
  cases hinline : inlineSize isLarge binary.type with
  | some size =>
      obtain ⟨htype, hle⟩ := inline_fits hinline
      have hlength := hwell.inline size htype
      simp only [List.cons_append, List.length_cons, List.length_append, List.length_replicate]
      omega
  | none => rw [List.length_cons, length_littleEndian]

theorem ofCode?_code (type : BinaryType) : BinaryType.ofCode? type.code = some type := by
  cases type <;> rfl

/-- The entry of a value leads to its data, with whatever follows. -/
theorem readValueEntry_valueEntry {isLarge : Bool} {binary : Binary} (hwell : binary.WellFormed)
    {position : ℕ} (hposition : position < 256 ^ offsetSize isLarge)
    {buffer before after rest : List UInt8}
    (hentry : before ++ (valueEntry isLarge binary position ++ after) = buffer)
    (hdata : buffer.drop position = binary.buffer ++ rest) :
    ∃ more, readValueEntry isLarge buffer before.length =
      some { binary with buffer := binary.buffer ++ more } := by
  have hcode : buffer[before.length]? = some binary.type.code := by
    rw [← hentry, List.getElem?_append_right (le_refl _), Nat.sub_self, valueEntry]
    cases inlineSize isLarge binary.type <;> rfl
  rw [readValueEntry, hcode]
  simp only [Option.bind_eq_bind, Option.bind_some, ofCode?_code]
  cases hinline : inlineSize isLarge binary.type with
  | some size =>
      refine ⟨[], ?_⟩
      have hlength := hwell.inline size (inline_fits hinline).1
      have hdrop : buffer.drop (before.length + 1) = binary.buffer ++
          (List.replicate (offsetSize isLarge - binary.buffer.length) 0 ++ after) := by
        rw [← hentry, ← List.drop_drop, List.drop_left, valueEntry, hinline]
        simp
      dsimp only
      rw [hdrop, List.append_nil, ← hlength, List.take_left]
      rfl
  | none =>
      refine ⟨rest, ?_⟩
      have hread := readUIntLE_append hposition (before ++ [binary.type.code]) after
      rw [valueEntry, hinline] at hentry
      have hbuffer : before ++ [binary.type.code] ++
          (littleEndian (offsetSize isLarge) position ++ after) = buffer := by
        rw [← hentry]
        simp
      rw [hbuffer, List.length_append, List.length_singleton] at hread
      dsimp only
      rw [hread, Option.bind_some, hdata]
      rfl

/-- The entry of a key leads to its characters. -/
theorem readKeyEntry_keyEntry {isLarge : Bool} {key : CodeUnits} (hkey : (utf8 key).length < 65536)
    {buffer front before after rest : List UInt8}
    (hposition : front.length < 256 ^ offsetSize isLarge)
    (hentry : before ++ (keyEntry isLarge (utf8 key) front.length ++ after) = buffer)
    (hdata : front ++ (utf8 key ++ rest) = buffer) :
    readKeyEntry isLarge buffer before.length = some (unitsOfChars (charsOfUnits key)) := by
  have hoffset := readUIntLE_append hposition before (littleEndian 2 (utf8 key).length ++ after)
  have hlength := @readUIntLE_append 2 _ hkey
    (before ++ littleEndian (offsetSize isLarge) front.length) after
  have hbuffer : before ++ (littleEndian (offsetSize isLarge) front.length ++
      (littleEndian 2 (utf8 key).length ++ after)) = buffer := by
    rw [← hentry, keyEntry, List.append_assoc]
  have hbuffer' : before ++ littleEndian (offsetSize isLarge) front.length ++
      (littleEndian 2 (utf8 key).length ++ after) = buffer := by
    rw [← hbuffer, List.append_assoc]
  rw [hbuffer] at hoffset
  rw [hbuffer', List.length_append, length_littleEndian] at hlength
  rw [readKeyEntry, hoffset]
  simp only [Option.bind_eq_bind, Option.bind_some, hlength]
  have hstop : ((front.length : ℤ) + ((utf8 key).length : ℤ)).toNat = (front ++ utf8 key).length := by
    rw [List.length_append]
    omega
  rw [bufferToString, hstop, Int.toNat_natCast, ← hdata, ← List.append_assoc, List.take_left,
    List.drop_left, utf8Text_utf8]

end DatabaseJones.MySQLSerialize
