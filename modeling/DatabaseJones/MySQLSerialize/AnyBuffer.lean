import DatabaseJones.MySQLSerialize.Parse

/-!
# The parser of binary JSON on any buffer

`parse` of `MySQLSerialize.js` with everything that it throws, for buffers that nobody has
written as binary JSON.  The parser calls itself for the entries of a container, and the depth
to which it may go is a parameter: where it is used up there is no outcome.

`MySQLSerialize.parse` of `Parse.lean` has results only; `parse_of_parse` says that they are
results of this parser.
-/

namespace DatabaseJones.MySQLSerialize.AnyBuffer

open DatabaseJones.Library

/-- What the parser throws. -/
inductive ParseError
  | indexOutOfRange
  | noSuchType
  | badlyFormedLiteral
  | notImplemented (type : UInt8)
deriving DecidableEq, Repr

/-- An outcome is a value or what has been thrown; there is none if the depth was used up. -/
abbrev Outcome := ExceptT ParseError Option

/-- A `Binary` that is read from a buffer. -/
structure Source where
  type : UInt8
  buffer : List UInt8
deriving DecidableEq, Repr

/-- The result of a read that throws where there is none. -/
def orThrow {α : Type} (error : ParseError) : Option α → Except ParseError α
  | none => .error error
  | some value => .ok value

/-- `new Binary(type)`, which asserts that there is such a type.  The type of keys is among
them. -/
def newBinary (type : UInt8) (buffer : List UInt8) : Except ParseError Source :=
  if type ≤ 0x0C ∨ type = 99 then .ok { type, buffer } else .error .noSuchType

/-! ## Scalars -/

def parseLiteral (buffer : List UInt8) : Except ParseError Json :=
  orThrow .badlyFormedLiteral (MySQLSerialize.parseLiteral buffer)

/-- `parse16()` and `parse32()`. -/
def parseInteger (signed : Bool) (width : ℕ) (buffer : List UInt8) : Except ParseError Json :=
  orThrow .indexOutOfRange (if signed then parseInt width buffer else parseUInt width buffer)

def parseDouble (buffer : List UInt8) : Except ParseError Json :=
  orThrow .indexOutOfRange (MySQLSerialize.parseDouble buffer)

section
-- `toString('utf8')` of a buffer, which replaces what is not UTF-8
variable (toString : List UInt8 → CodeUnits)

/-- `buffer.toString('utf8', start, end)`. -/
def slicedString (buffer : List UInt8) (start stop : ℤ) : CodeUnits :=
  toString ((buffer.take stop.toNat).drop start.toNat)

def parseString (buffer : List UInt8) : Json :=
  let (length, nBytes) := parseLength buffer
  .string (slicedString toString buffer nBytes (nBytes + length))

/-- `parse()` of a scalar. -/
def parseScalar (binary : Source) : Except ParseError Json :=
  match BinaryType.ofCode? binary.type with
  | some .literal => parseLiteral binary.buffer
  | some .int16 => parseInteger true 2 binary.buffer
  | some .uint16 => parseInteger false 2 binary.buffer
  | some .int32 => parseInteger true 4 binary.buffer
  | some .uint32 => parseInteger false 4 binary.buffer
  | some .double => parseDouble binary.buffer
  | some .string => .ok (parseString toString binary.buffer)
  | _ => .error (.notImplemented binary.type)

/-! ## Containers -/

/-- `readHeader()`: the number of elements, and the buffer of the container. -/
def readHeader (isLarge : Bool) (buffer : List UInt8) :
    Except ParseError (ℕ × List UInt8) := do
  let elementCount ← orThrow .indexOutOfRange (readUIntLE (offsetSize isLarge) buffer 0)
  let recSize ← orThrow .indexOutOfRange
    (readUIntLE (offsetSize isLarge) buffer (offsetSize isLarge))
  pure (elementCount, buffer.take recSize)

/-- `read` of a `ValueEntry`. -/
def readValueEntry (isLarge : Bool) (buffer : List UInt8) (cursor : ℕ) :
    Except ParseError Source := do
  -- a byte behind the end of the buffer is not a type either
  let type ← orThrow .noSuchType buffer[cursor]?
  let binary ← newBinary type []
  match (BinaryType.ofCode? type).bind (inlineSize isLarge) with
  | some size => pure { binary with buffer := (buffer.drop (cursor + 1)).take size }
  | none => do
      let offset ← orThrow .indexOutOfRange
        (readUIntLE (offsetSize isLarge) buffer (cursor + 1))
      pure { binary with buffer := buffer.drop offset }

/-- `read` of a `KeyEntry`. -/
def readKeyEntry (isLarge : Bool) (buffer : List UInt8) (cursor : ℕ) :
    Except ParseError CodeUnits := do
  let offset ← orThrow .indexOutOfRange (readUIntLE (offsetSize isLarge) buffer cursor)
  let length ← orThrow .indexOutOfRange (readUIntLE 2 buffer (cursor + offsetSize isLarge))
  pure (slicedString toString buffer offset (offset + length))

/-- `readEntries(offset, count)`. -/
def readEntries {α : Type} (readEntry : List UInt8 → ℕ → Except ParseError α) (entrySize : ℕ)
    (buffer : List UInt8) (offset count : ℕ) : Except ParseError (List α) :=
  (List.range count).mapM fun index => readEntry buffer (offset + index * entrySize)

/-- What `parseArray()` reads before it parses the elements. -/
def readArray (isLarge : Bool) (buffer : List UInt8) : Except ParseError (List Source) := do
  let (elementCount, buffer) ← readHeader isLarge buffer
  readEntries (readValueEntry isLarge) (valueEntrySize isLarge) buffer (headerSize isLarge)
    elementCount

/-- What `parseObject()` reads before it parses the values: the keys and the values. -/
def readObject (isLarge : Bool) (buffer : List UInt8) :
    Except ParseError (List CodeUnits × List Source) := do
  let (elementCount, buffer) ← readHeader isLarge buffer
  let keys ← readEntries (readKeyEntry toString isLarge) (keyEntrySize isLarge) buffer
    (headerSize isLarge) elementCount
  let values ← readEntries (readValueEntry isLarge) (valueEntrySize isLarge) buffer
    (headerSize isLarge + keyEntrySize isLarge * elementCount) elementCount
  pure (keys, values)

variable (parseValue : Source → Outcome Json)

/-- `parseArray()`. -/
def parseArray (isLarge : Bool) (buffer : List UInt8) : Outcome Json := do
  let elements ← (readArray isLarge buffer : Outcome (List Source))
  let values ← elements.mapM parseValue
  pure (.array values)

/-- `parseObject()`. -/
def parseObject (isLarge : Bool) (buffer : List UInt8) : Outcome Json := do
  let (keys, entries) ← (readObject toString isLarge buffer : Outcome _)
  let values ← entries.mapM parseValue
  pure (.object ((keys.zip values).foldl setMember fun _ => none))

end

/-- `parse()` of a binary value. -/
def parse (toString : List UInt8 → CodeUnits) : ℕ → Source → Outcome Json
  | 0, _ => ExceptT.mk none
  | depth + 1, binary =>
      match BinaryType.ofCode? binary.type with
      | some .smallArray => parseArray (parse toString depth) false binary.buffer
      | some .largeArray => parseArray (parse toString depth) true binary.buffer
      | some .smallObject => parseObject toString (parse toString depth) false binary.buffer
      | some .largeObject => parseObject toString (parse toString depth) true binary.buffer
      | _ => (parseScalar toString binary : Outcome Json)

/-- `exports.parse(sourceBuffer)` of a buffer; the result is `undefined` if the buffer has at
most one byte. -/
def publicParse (toString : List UInt8 → CodeUnits) (depth : ℕ) :
    List UInt8 → Outcome (Option Json)
  | type :: byte :: buffer => do
      let binary ← (newBinary type (byte :: buffer) : Outcome Source)
      let json ← parse toString depth binary
      pure (some json)
  | _ => pure none

/-! ## The results of the other parser -/

/-- A binary value with its type code. -/
def Source.ofBinary (binary : Binary) : Source :=
  { type := binary.type.code, buffer := binary.buffer }

theorem ofCode?_ofBinary (binary : Binary) :
    BinaryType.ofCode? (Source.ofBinary binary).type = some binary.type := by
  unfold Source.ofBinary
  cases binary.type <;> rfl

theorem newBinary_code (type : BinaryType) (buffer : List UInt8) :
    newBinary type.code buffer = .ok { type := type.code, buffer } := by
  unfold newBinary
  cases type <;> rfl

theorem code_of_ofCode? {code : UInt8} {type : BinaryType}
    (h : BinaryType.ofCode? code = some type) : type.code = code := by
  have := List.find?_some h
  simpa using this

/-- Reading one thing after the other gives the results one after the other. -/
theorem mapM_ok_of_mapM {α β γ : Type} {f : α → Option β} {g : α → Except ParseError γ}
    {convert : β → γ} (h : ∀ a b, f a = some b → g a = .ok (convert b)) {items : List α} :
    ∀ {results : List β}, items.mapM f = some results →
      items.mapM g = .ok (results.map convert) := by
  induction items with
  | nil =>
      intro results hresults
      cases hresults
      rfl
  | cons item items ih =>
      intro results hresults
      simp only [List.mapM_cons, Option.bind_eq_bind, Option.bind_eq_some_iff, Option.pure_def,
        Option.some.injEq] at hresults
      obtain ⟨result, hresult, rest, hrest, rfl⟩ := hresults
      rw [List.mapM_cons, h item result hresult, ih hrest]
      rfl

/-- Parsing one thing after the other gives the values one after the other. -/
theorem mapM_pure_of_mapM {α β γ : Type} {f : α → Option β} {g : γ → Outcome β}
    {convert : α → γ} {items : List α}
    (h : ∀ a ∈ items, ∀ b, f a = some b → g (convert a) = pure b) :
    ∀ {results : List β}, items.mapM f = some results →
      (items.map convert).mapM g = pure results := by
  induction items with
  | nil =>
      intro results hresults
      cases hresults
      rfl
  | cons item items ih =>
      intro results hresults
      simp only [List.mapM_cons, Option.bind_eq_bind, Option.bind_eq_some_iff, Option.pure_def,
        Option.some.injEq] at hresults
      obtain ⟨result, hresult, rest, hrest, rfl⟩ := hresults
      rw [List.map_cons, List.mapM_cons, h item (by simp) result hresult,
        ih (fun a ha => h a (by simp [ha])) hrest]
      rfl

theorem readHeader_of_readHeader {isLarge : Bool} {buffer : List UInt8}
    {result : ℕ × List UInt8} (h : MySQLSerialize.readHeader isLarge buffer = some result) :
    readHeader isLarge buffer = .ok result := by
  simp only [MySQLSerialize.readHeader, Option.bind_eq_bind, Option.bind_eq_some_iff,
    Option.pure_def, Option.some.injEq] at h
  obtain ⟨elementCount, hcount, recSize, hsize, rfl⟩ := h
  unfold readHeader
  rw [hcount, hsize]
  rfl

theorem readValueEntry_of_readValueEntry {isLarge : Bool} {buffer : List UInt8} {cursor : ℕ}
    {binary : Binary} (h : MySQLSerialize.readValueEntry isLarge buffer cursor = some binary) :
    readValueEntry isLarge buffer cursor = .ok (Source.ofBinary binary) := by
  simp only [MySQLSerialize.readValueEntry, Option.bind_eq_bind, Option.bind_eq_some_iff] at h
  obtain ⟨code, hcode, type, htype, h⟩ := h
  have hcode' := code_of_ofCode? htype
  unfold readValueEntry
  rw [hcode]
  simp only [orThrow, bind, Except.bind]
  rw [← hcode', newBinary_code, hcode', htype]
  simp only [Option.bind_some]
  cases hsize : inlineSize isLarge type with
  | some size =>
      rw [hsize] at h
      simp only [Option.pure_def, Option.some.injEq] at h
      subst h
      simp [Source.ofBinary, hcode', pure, Except.pure]
  | none =>
      rw [hsize] at h
      simp only [Option.pure_def, Option.bind_eq_some_iff, Option.some.injEq] at h
      obtain ⟨offset, hoffset, rfl⟩ := h
      rw [hoffset]
      simp [Source.ofBinary, hcode', pure, Except.pure]

theorem parseArray_of_parseArray {parseBinary : Binary → Option Json}
    {parseValue : Source → Outcome Json}
    (hvalue : ∀ binary json, parseBinary binary = some json →
      parseValue (Source.ofBinary binary) = pure json)
    {isLarge : Bool} {buffer : List UInt8} {json : Json}
    (h : MySQLSerialize.parseArray parseBinary isLarge buffer = some json) :
    parseArray parseValue isLarge buffer = pure json := by
  simp only [MySQLSerialize.parseArray, Option.bind_eq_bind, Option.bind_eq_some_iff,
    Option.pure_def, Option.some.injEq] at h
  obtain ⟨header, hheader, entries, hentries, elements, helements, rfl⟩ := h
  have hread : readArray isLarge buffer = .ok (entries.map Source.ofBinary) := by
    unfold readArray
    rw [readHeader_of_readHeader hheader]
    exact mapM_ok_of_mapM (fun _ _ => readValueEntry_of_readValueEntry) hentries
  unfold parseArray
  rw [hread]
  change ((entries.map Source.ofBinary).mapM parseValue >>= _) = _
  rw [mapM_pure_of_mapM (fun binary _ => hvalue binary) helements]
  rfl

section
variable {toString : List UInt8 → CodeUnits}
  (htoString : ∀ bytes text, utf8Text bytes = some text → toString bytes = text)
include htoString

theorem slicedString_of_bufferToString {buffer : List UInt8} {start stop : ℤ}
    {text : CodeUnits} (h : bufferToString buffer start stop = some text) :
    slicedString toString buffer start stop = text := htoString _ _ h

theorem readKeyEntry_of_readKeyEntry {isLarge : Bool} {buffer : List UInt8} {cursor : ℕ}
    {key : CodeUnits} (h : MySQLSerialize.readKeyEntry isLarge buffer cursor = some key) :
    readKeyEntry toString isLarge buffer cursor = .ok key := by
  simp only [MySQLSerialize.readKeyEntry, Option.bind_eq_bind, Option.bind_eq_some_iff] at h
  obtain ⟨offset, hoffset, length, hlength, h⟩ := h
  unfold readKeyEntry
  rw [hoffset, hlength]
  simp only [orThrow, bind, Except.bind]
  rw [slicedString_of_bufferToString htoString h]
  rfl

theorem parseScalar_of_parseScalar {binary : Binary} {json : Json}
    (h : MySQLSerialize.parseScalar binary = some json) :
    parseScalar toString (Source.ofBinary binary) = .ok json := by
  unfold parseScalar
  rw [ofCode?_ofBinary]
  unfold MySQLSerialize.parseScalar at h
  split at h
  all_goals rename_i htype
  case h_7 =>
    rw [htype]
    simp only [MySQLSerialize.parseString, Option.map_eq_some_iff] at h
    obtain ⟨text, htext, rfl⟩ := h
    simp only [parseString, Source.ofBinary]
    rw [slicedString_of_bufferToString htoString htext]
  case h_8 => cases h
  all_goals
    rw [htype]
    simp [parseLiteral, parseInteger, parseDouble, Source.ofBinary, h, orThrow]

theorem parseObject_of_parseObject {parseBinary : Binary → Option Json}
    {parseValue : Source → Outcome Json}
    (hvalue : ∀ binary json, parseBinary binary = some json →
      parseValue (Source.ofBinary binary) = pure json)
    {isLarge : Bool} {buffer : List UInt8} {json : Json}
    (h : MySQLSerialize.parseObject parseBinary isLarge buffer = some json) :
    parseObject toString parseValue isLarge buffer = pure json := by
  simp only [MySQLSerialize.parseObject, Option.bind_eq_bind, Option.bind_eq_some_iff,
    Option.pure_def, Option.some.injEq] at h
  obtain ⟨header, hheader, keys, hkeys, entries, hentries, values, hvalues, rfl⟩ := h
  have hread : readObject toString isLarge buffer =
      .ok (keys, entries.map Source.ofBinary) := by
    unfold readObject
    rw [readHeader_of_readHeader hheader]
    have hkeys' : (List.range header.1).mapM (fun index => readKeyEntry toString isLarge header.2
        (headerSize isLarge + index * keyEntrySize isLarge)) = .ok (keys.map id) :=
      mapM_ok_of_mapM (fun _ _ => readKeyEntry_of_readKeyEntry htoString) hkeys
    have hentries' := mapM_ok_of_mapM (fun _ _ => readValueEntry_of_readValueEntry) hentries
    simp only [bind, Except.bind, readEntries]
    rw [hkeys']
    dsimp only
    rw [hentries']
    simp [pure, Except.pure]
  unfold parseObject
  rw [hread]
  change ((entries.map Source.ofBinary).mapM parseValue >>= _) = _
  rw [mapM_pure_of_mapM (fun binary _ => hvalue binary) hvalues]
  rfl

/-- A result of the parser that has results only is the outcome of this one. -/
theorem parse_of_parse {depth : ℕ} : ∀ {binary : Binary} {json : Json},
    MySQLSerialize.parse depth binary = some json →
      parse toString (depth + 1) (Source.ofBinary binary) = pure json := by
  induction depth with
  | zero =>
      intro binary json h
      unfold parse
      rw [ofCode?_ofBinary]
      have hscalar := parseScalar_of_parseScalar htoString h
      unfold MySQLSerialize.parse MySQLSerialize.parseScalar at h
      cases htype : binary.type <;> rw [htype] at h <;> first | cases h | (simp only; rw [hscalar]; rfl)
  | succ depth ih =>
      intro binary json h
      have hvalue : ∀ binary json, MySQLSerialize.parse depth binary = some json →
          parse toString (depth + 1) (Source.ofBinary binary) = pure json := fun _ _ => ih
      unfold parse
      rw [ofCode?_ofBinary]
      unfold MySQLSerialize.parse at h
      cases htype : binary.type <;> rw [htype] at h
      case smallArray => exact parseArray_of_parseArray hvalue h
      case largeArray => exact parseArray_of_parseArray hvalue h
      case smallObject => exact parseObject_of_parseObject htoString hvalue h
      case largeObject => exact parseObject_of_parseObject htoString hvalue h
      all_goals
        have hscalar := parseScalar_of_parseScalar htoString h
        simp only
        rw [hscalar]
        rfl

/-- `exports.parse` has the results of the other model of it. -/
theorem publicParse_of_publicParse {sourceBuffer : List UInt8} {result : Option Json}
    (h : MySQLSerialize.publicParse (some sourceBuffer) = some result) :
    publicParse toString (sourceBuffer.length + 1) sourceBuffer = pure result := by
  match sourceBuffer with
  | [] =>
      cases h
      rfl
  | [_] =>
      cases h
      rfl
  | code :: byte :: buffer =>
      simp only [MySQLSerialize.publicParse, Option.bind_eq_some_iff, Option.map_eq_some_iff] at h
      obtain ⟨type, htype, json, hjson, rfl⟩ := h
      have hcode := code_of_ofCode? htype
      subst hcode
      have hparse := parse_of_parse htoString hjson
      simp only [publicParse]
      rw [newBinary_code]
      change (parse toString _ (Source.ofBinary ⟨type, byte :: buffer⟩) >>= _) = _
      rw [List.length_cons, List.length_cons, hparse]
      rfl

end

end DatabaseJones.MySQLSerialize.AnyBuffer
