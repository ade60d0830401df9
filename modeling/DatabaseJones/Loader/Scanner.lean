import DatabaseJones.Loader.Tokenizer

/-!
# The scanners of data files

`Scanner` walks through a text by index; at the end of the text `advance` stays at the last
index and makes `c` the empty string.  `LineScanner.scan` finds the next line of a buffer,
`TextFieldScanner.scan` cuts it into values, and `FileDataSource.run` calls the one and the
other until the buffer is at its end.  All loops run with one fuel; without an end there is
no fuel that is enough.
-/

namespace DatabaseJones.Loader

open Library

/-- The options of a data source that the scanners read; without a `commentStart` there are
no comments. -/
structure ScannerOptions where
  commentStart : CodeUnits
  fieldSep : UInt16
  fieldSepOnWhitespace : Bool
  fieldQuoteStart : UInt16
  fieldQuoteEnd : UInt16
  fieldQuoteEsc : UInt16
  lineStartString : CodeUnits
  lineEndString : CodeUnits

/-- The index and the character there, or none for the empty string. -/
structure Scanner where
  i : ℕ
  c : Option UInt16
deriving DecidableEq

namespace Scanner

variable (source : CodeUnits) (options : ScannerOptions)

/-- `new Scanner(source, start, options)` -/
def new (start : ℕ) : Scanner := ⟨start, source[start]?⟩

/-- One turn of the loop of `advance`. -/
def next (scanner : Scanner) : Scanner :=
  if source.length ≤ scanner.i + 1 then ⟨source.length - 1, none⟩
  else ⟨scanner.i + 1, source[scanner.i + 1]?⟩

/-- `advance(n)`; the loop is left at the end of the text. -/
def advance : ℕ → Scanner → Scanner
  | 0, scanner => scanner
  | n + 1, scanner =>
      if source.length ≤ scanner.i + 1 then scanner.next source
      else advance n (scanner.next source)

/-- `peek(chars)`; `chars || 1` makes 1 of 0. -/
def peek (chars : ℕ) (scanner : Scanner) : Option UInt16 :=
  source[scanner.i + if chars = 0 then 1 else chars]?

def isQuote (scanner : Scanner) : Bool :=
  scanner.c = some options.fieldQuoteStart || scanner.c = some options.fieldQuoteEnd

def isEsc (scanner : Scanner) : Bool := scanner.c = some options.fieldQuoteEsc

def isStartQuote (scanner : Scanner) : Bool := scanner.c = some options.fieldQuoteStart

/-- `isWhitespace()` for a character. -/
def isWhitespace (char : UInt16) : Bool :=
  if char = code '\n' || char = code '\r' then true
  else if options.fieldSepOnWhitespace then false
  else char ≤ code ' ' && char ≠ options.fieldSep

/-- `isFieldSeparator()`; the scanner itself has no property `fieldSepOnWhitespace`. -/
def isFieldSeparator (scanner : Scanner) : Bool := scanner.c = some options.fieldSep

/-- `isEndOfLine()`; a longer terminator is compared with one character. -/
def isEndOfLine (scanner : Scanner) : Bool :=
  if 1 < options.lineEndString.length then scanner.c.toList = options.lineEndString
  else (source.drop scanner.i).take options.lineEndString.length = options.lineEndString

def isAtEnd (scanner : Scanner) : Bool := source.length ≤ 1 + scanner.i

def whitespaceStep (scanner : Scanner) : Scanner ⊕ Scanner :=
  if scanner.c.any (isWhitespace options) then .inl (scanner.advance source 1)
  else .inr scanner

def skipWhitespace (fuel : ℕ) (scanner : Scanner) : Option Scanner :=
  loop (whitespaceStep source options) fuel scanner

/-- The end of a turn in which the quote was not closed. -/
def whileInQuote (value : CodeUnits) (scanner : Scanner) :
    CodeUnits × Scanner ⊕ CodeUnits × Scanner :=
  if scanner.c.isSome then .inl (value, scanner) else .inr (value, scanner)

/-- One turn of the loop of `handleQuotedString`. -/
def quotedStep (state : CodeUnits × Scanner) : CodeUnits × Scanner ⊕ CodeUnits × Scanner :=
  let value := state.1
  let scanner := state.2.advance source 1
  if scanner.isQuote options && scanner.c = scanner.peek source 1 then
    whileInQuote (value ++ scanner.c.toList) (scanner.advance source 2)
  else if scanner.c = some options.fieldQuoteEnd then .inr (value, scanner)
  else if scanner.isEsc options then
    let quote := scanner.advance source 1
    if quote.isQuote options then
      whileInQuote (value ++ quote.c.toList) (quote.advance source 1)
    else whileInQuote value quote
  else whileInQuote (value ++ scanner.c.toList) scanner

/-- `handleQuotedString(true)`, from the quote at the start. -/
def handleQuotedString (fuel : ℕ) (scanner : Scanner) : Option (CodeUnits × Scanner) :=
  loop (quotedStep source options) fuel ([], scanner)

def endOfLineStep (scanner : Scanner) : Scanner ⊕ Scanner :=
  if scanner.c.isSome then
    if scanner.isEndOfLine source options then
      .inr (scanner.advance source options.lineEndString.length)
    else .inl (scanner.advance source 1)
  else .inr scanner

def skipToEndOfLine (fuel : ℕ) (scanner : Scanner) : Option Scanner :=
  loop (endOfLineStep source options) fuel scanner

def isInlineComment (scanner : Scanner) : Bool :=
  options.commentStart ≠ [] &&
    (List.range options.commentStart.length).all fun i =>
      scanner.peek source i = options.commentStart[i]?

/-- `source.indexOf(text, from)` -/
def indexOf (text : CodeUnits) (start : ℕ) : Option ℕ :=
  (List.range (source.length + 1)).find? fun i =>
    start ≤ i && text.isPrefixOf (source.drop i)

def skipLinePrefix (fuel : ℕ) (scanner : Scanner) : Option Scanner :=
  if options.lineStartString = [] then some scanner
  else
    match indexOf source options.lineStartString scanner.i with
    | none => some scanner
    | some idx =>
        if idx = 0 then some scanner
        else
          skipWhitespace source options fuel
            (new source (idx + options.lineStartString.length))

/-- One turn of the loop over an unquoted value. -/
def unquotedStep (state : CodeUnits × Scanner) : CodeUnits × Scanner ⊕ CodeUnits × Scanner :=
  if state.2.isFieldSeparator options || state.2.isEndOfLine source options then .inr state
  else .inl (state.1 ++ state.2.c.toList, state.2.advance source 1)

def getValueForDelimitedField (fuel : ℕ) (scanner : Scanner) : Option (CodeUnits × Scanner) :=
  if scanner.isStartQuote options then handleQuotedString source options fuel scanner
  else loop (unquotedStep source options) fuel ([], scanner)

end Scanner

/-! ## Lines -/

/-- The marks of a line in the buffer. -/
structure BufferDescriptor where
  lineStart : ℕ
  lineEnd : ℕ
  lineHasFields : Bool
  atEnd : Bool
deriving DecidableEq

/-- `new BufferDescriptor(buffer)` -/
def BufferDescriptor.new : BufferDescriptor := ⟨0, 0, false, false⟩

namespace LineScanner

variable (source : CodeUnits) (options : ScannerOptions)

/-- One turn of the loop that looks for the start of a line, as long as it gets on. -/
def startStep (fuel : ℕ) (scanner : Scanner) : Option (Scanner ⊕ Scanner) :=
  (scanner.skipWhitespace source options fuel).bind fun skipped =>
    (if skipped.isInlineComment source options then
      skipped.skipToEndOfLine source options fuel else some skipped).map fun after =>
      if scanner.i < after.i then .inl after else .inr after

/-- One turn of the loop that looks for the end of a line; the first character is always
passed. -/
def endStep (fuel : ℕ) (state : Bool × Scanner) : Option (Bool × Scanner ⊕ Bool × Scanner) :=
  (if state.2.isFieldSeparator options then some (true, state.2)
    else if state.2.isStartQuote options then
      (state.2.handleQuotedString source options fuel).map fun quoted => (state.1, quoted.2)
    else some state).map fun seen =>
    let scanner := seen.2.advance source 1
    if scanner.c.isSome && !scanner.isEndOfLine source options then .inl (seen.1, scanner)
    else .inr (seen.1, scanner)

/-- `LineScanner.scan(spec)` -/
def scan (fuel : ℕ) (spec : BufferDescriptor) : Option BufferDescriptor :=
  (loopM (startStep source options fuel) fuel (.new source spec.lineStart)).bind fun start =>
    (start.skipLinePrefix source options fuel).bind fun start =>
      (loopM (endStep source options fuel) fuel (false, start)).map fun found =>
        { lineStart := start.i
          lineEnd :=
            if found.2.isEndOfLine source options then found.2.i else spec.lineEnd
          lineHasFields := found.1
          atEnd := found.2.isAtEnd source }

end LineScanner

/-! ## Fields -/

namespace TextFieldScanner

variable (source : CodeUnits) (options : ScannerOptions)

def scanStep (fuel : ℕ) (state : List CodeUnits × Scanner) :
    Option (List CodeUnits × Scanner ⊕ List CodeUnits) :=
  if state.2.isEndOfLine source options then some (.inr state.1)
  else if state.2.isFieldSeparator options then
    some (.inl (state.1, state.2.advance source 1))
  else
    (state.2.getValueForDelimitedField source options fuel).map fun read =>
      .inl (state.1 ++ [read.1], read.2)

/-- `TextFieldScanner.scan(spec)` -/
def scan (fuel : ℕ) (spec : BufferDescriptor) : Option (List CodeUnits) :=
  loopM (scanStep source options fuel) fuel ([], .new source spec.lineStart)

end TextFieldScanner

namespace FileDataSource

variable (source : CodeUnits) (options : ScannerOptions)

def runStep (fuel : ℕ) (state : List (List CodeUnits) × BufferDescriptor) :
    Option (List (List CodeUnits) × BufferDescriptor ⊕ List (List CodeUnits)) :=
  if state.2.atEnd then some (.inr state.1)
  else
    (LineScanner.scan source options fuel state.2).bind fun desc =>
      (if desc.lineHasFields then
        (TextFieldScanner.scan source options fuel desc).map fun fields => state.1 ++ [fields]
      else some state.1).map fun records =>
        .inl (records, { desc with lineStart := desc.lineEnd + 1 })

/-- `run()` over one buffer: the fields of each line that has fields. -/
def run (fuel : ℕ) : Option (List (List CodeUnits)) :=
  loopM (runStep source options fuel) fuel ([], .new)

end FileDataSource

end DatabaseJones.Loader

/-!
## Records as text

Records are printed field by field, with a separator between fields and a terminator
between records.  A field is printed as it is, if it has no special character, or between
quotes, where quotes are escaped or doubled and escape characters are escaped.
-/

namespace DatabaseJones.Loader

open Library

/-- The characters of a text format. -/
structure TextFormat where
  fieldSep : UInt16
  quoteStart : UInt16
  quoteEnd : UInt16
  quoteEsc : UInt16
  lineEnd : CodeUnits

namespace TextFormat

variable (format : TextFormat)

/-- The options of the format; the others have their defaults. -/
def options : ScannerOptions where
  commentStart := []
  fieldSep := format.fieldSep
  fieldSepOnWhitespace := false
  fieldQuoteStart := format.quoteStart
  fieldQuoteEnd := format.quoteEnd
  fieldQuoteEsc := format.quoteEsc
  lineStartString := []
  lineEndString := format.lineEnd

/-- A terminator of its own, and a separator that is no quote and no escape. -/
structure IsValid : Prop where
  lineEnd : format.lineEnd ≠ []
  fieldSep : format.fieldSep ∉
    [format.quoteStart, format.quoteEnd, format.quoteEsc] ++ format.lineEnd
  quotes : ∀ char ∈ [format.quoteStart, format.quoteEnd, format.quoteEsc],
    char ∉ format.lineEnd

/-- The characters that fields without quotes cannot have. -/
def IsSpecial (char : UInt16) : Prop :=
  char ∈ [format.fieldSep, format.quoteStart, format.quoteEnd, format.quoteEsc] ++ format.lineEnd

end TextFormat

/-- A field and how it is printed: as it is, or between quotes, with a choice between
doubling and escaping for each of its characters that is a quote. -/
inductive PrintedField
  | plain (value : CodeUnits)
  | quoted (value : List (UInt16 × Bool))

namespace PrintedField

variable (format : TextFormat)

def value : PrintedField → CodeUnits
  | .plain value => value
  | .quoted value => value.map Prod.fst

def quotedChar (char : UInt16) (isDoubled : Bool) : CodeUnits :=
  if char = format.quoteStart ∨ char = format.quoteEnd then
    if isDoubled then [char, char] else [format.quoteEsc, char]
  else if char = format.quoteEsc then [format.quoteEsc, char]
  else [char]

def text : PrintedField → CodeUnits
  | .plain value => value
  | .quoted value =>
      format.quoteStart :: (value.flatMap fun char => quotedChar format char.1 char.2) ++
        [format.quoteEnd]

/-- A field that needs quotes has them. -/
def IsPrintable : PrintedField → Prop
  | .plain value => ∀ char ∈ value, ¬format.IsSpecial char
  | .quoted _ => True

instance (field : PrintedField) : Decidable (field.IsPrintable format) :=
  match field with
  | .plain value => inferInstanceAs (Decidable (∀ char ∈ value, ¬(char ∈ _)))
  | .quoted _ => isTrue trivial

end PrintedField

namespace TextFormat

variable (format : TextFormat)

def lineText (record : List PrintedField) : CodeUnits :=
  [format.fieldSep].intercalate (record.map (PrintedField.text format))

/-- The text of the records, with or without a terminator after the last one. -/
def recordsText (records : List (List PrintedField)) (isTerminated : Bool) : CodeUnits :=
  if isTerminated then records.flatMap fun record => format.lineText record ++ format.lineEnd
  else format.lineEnd.intercalate (records.map format.lineText)

/-- Scanning the text of the records ends and gives their values. -/
def Recovers (records : List (List PrintedField)) (isTerminated : Bool) : Prop :=
  ∃ fuel, FileDataSource.run (format.recordsText records isTerminated) format.options fuel =
    some (records.map (List.map PrintedField.value))

/-- A record of two fields or more, none of them empty or in quotes, and no white space at
the start. -/
structure KeepsRecord (record : List PrintedField) : Prop where
  length : 2 ≤ record.length
  fields : ∀ field ∈ record, ∃ value, field = .plain value ∧ value ≠ []
  start : ∀ field ∈ record.head?, ∀ char ∈ field.value.head?,
    Scanner.isWhitespace format.options char = false

/-- Records that are found again: with one character and a last one as terminators. -/
structure KeepsRecords (records : List (List PrintedField)) (isTerminated : Bool) : Prop where
  terminated : isTerminated = true
  lineEnd : format.lineEnd.length = 1
  records : ∀ record ∈ records, format.KeepsRecord record

end TextFormat

end DatabaseJones.Loader
