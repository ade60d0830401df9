import DatabaseJones.Loader.Scanner

/-!
# Reading text fields

Within the text a scanner at an index is `Scanner.new source i`, and what it sees is the
text from there.  A line without quotes is walked through by one loop for its end and by
one for its values; both stop at the terminator, which is one character.  So records that
are printed without quotes and without empty fields come back line by line.
-/

namespace DatabaseJones.Loader

open Library

variable {source : CodeUnits} {options : ScannerOptions} {i fuel : ℕ}
  {char other terminator : UInt16} {rest text : CodeUnits}

/-! ## Positions -/

namespace Scanner

theorem new_c (h : source.drop i = char :: rest) : (new source i).c = some char := by
  change source[i]? = _
  rw [← List.head?_drop, h]
  rfl

theorem drop_succ (h : source.drop i = char :: rest) : source.drop (i + 1) = rest := by
  rw [← List.drop_drop, h]
  rfl

theorem drop_add (h : source.drop i = text ++ rest) : source.drop (i + text.length) = rest := by
  rw [← List.drop_drop, h, List.drop_left]

theorem length_of_drop (h : source.drop i = char :: rest) :
    source.length = i + (rest.length + 1) := by
  have hlength := congrArg List.length h
  rw [List.length_drop, List.length_cons] at hlength
  omega

/-- Before the last character `advance` gets on by one. -/
theorem advance_new (h : source.drop i = char :: other :: rest) :
    (new source i).advance source 1 = new source (i + 1) := by
  have hlength := length_of_drop h
  have hnot : ¬source.length ≤ (new source i).i + 1 := by
    change ¬source.length ≤ i + 1
    rw [hlength, List.length_cons]
    omega
  rw [advance, if_neg hnot]
  change (new source i).next source = _
  rw [next, if_neg hnot]
  rfl

theorem isEndOfLine_new (hend : options.lineEndString = [terminator])
    (h : source.drop i = char :: rest) :
    (new source i).isEndOfLine source options = decide (char = terminator) := by
  unfold isEndOfLine
  rw [hend, if_neg (by simp)]
  change decide ((source.drop i).take 1 = [terminator]) = _
  rw [h]
  simp

theorem isFieldSeparator_new (h : source.drop i = char :: rest) :
    (new source i).isFieldSeparator options = decide (char = options.fieldSep) := by
  unfold isFieldSeparator
  rw [new_c h]
  simp

theorem isStartQuote_new (h : source.drop i = char :: rest) :
    (new source i).isStartQuote options = decide (char = options.fieldQuoteStart) := by
  unfold isStartQuote
  rw [new_c h]
  simp

/-! ## The value of a field -/

/-- An unquoted value goes up to the separator or the terminator. -/
theorem loop_unquotedStep (hend : options.lineEndString = [terminator]) (value : CodeUnits)
    (htext : ∀ char ∈ text, char ≠ terminator ∧ char ≠ options.fieldSep)
    (hother : other = options.fieldSep ∨ other = terminator)
    (h : source.drop i = text ++ other :: rest) (hfuel : text.length < fuel) :
    loop (unquotedStep source options) fuel (value, new source i) =
      some (value ++ text, new source (i + text.length)) := by
  induction text generalizing i value fuel with
  | nil =>
      obtain ⟨fuel, rfl⟩ : ∃ less, fuel = less + 1 := ⟨fuel - 1, by simp at hfuel; omega⟩
      have hstop : unquotedStep source options (value, new source i) =
          .inr (value, new source i) := by
        unfold unquotedStep
        rw [isFieldSeparator_new h, isEndOfLine_new hend h, if_pos]
        simpa using hother
      rw [loop_succ_of_inr hstop, List.append_nil, List.length_nil, Nat.add_zero]
  | cons char text ih =>
      obtain ⟨fuel, rfl⟩ : ∃ less, fuel = less + 1 := ⟨fuel - 1, by simp at hfuel; omega⟩
      obtain ⟨hchar, hsep⟩ := htext char List.mem_cons_self
      have hnext : (new source i).advance source 1 = new source (i + 1) := by
        cases text with
        | nil => exact advance_new h
        | cons first text => exact advance_new h
      have hstep : unquotedStep source options (value, new source i) =
          .inl (value ++ [char], new source (i + 1)) := by
        unfold unquotedStep
        rw [isFieldSeparator_new h, isEndOfLine_new hend h, if_neg (by simp [hchar, hsep])]
        change Sum.inl (value ++ (new source i).c.toList, (new source i).advance source 1) = _
        rw [new_c h, hnext]
        rfl
      rw [loop_succ_of_inl hstep,
        ih (value ++ [char]) (fun other hother => htext other (List.mem_cons_of_mem _ hother))
          (drop_succ h) (by simp at hfuel; omega)]
      simp only [List.append_assoc, List.singleton_append, List.length_cons]
      rw [Nat.add_right_comm, ← Nat.add_assoc]

end Scanner

/-! ## The end of a line -/

namespace LineScanner

open Scanner

/-- A character that is no quote is passed; the loop ends before the terminator. -/
theorem endStep_of_next (hend : options.lineEndString = [terminator]) (more : ℕ) (seen : Bool)
    (hchar : char ≠ options.fieldQuoteStart) (h : source.drop i = char :: other :: rest) :
    endStep source options more (seen, new source i) =
      some (if other = terminator then .inr (seen || char = options.fieldSep, new source (i + 1))
        else .inl (seen || char = options.fieldSep, new source (i + 1))) := by
  unfold endStep
  rw [isFieldSeparator_new h, isStartQuote_new h]
  have hseen : (if decide (char = options.fieldSep) = true then some (true, new source i)
      else if decide (char = options.fieldQuoteStart) = true then
        ((new source i).handleQuotedString source options more).map fun quoted => (seen, quoted.2)
      else some (seen, new source i)) =
      some (seen || char = options.fieldSep, new source i) := by
    by_cases hsep : char = options.fieldSep
    · simp [hsep]
    · simp [hsep, hchar]
  rw [hseen]
  simp only [Option.map_some, advance_new h, new_c (drop_succ h), Option.isSome_some,
    Bool.true_and, isEndOfLine_new hend (drop_succ h)]
  by_cases hother : other = terminator <;> simp [hother]

/-- The end of a line without quotes: the next terminator after the first character. -/
theorem loopM_endStep (hend : options.lineEndString = [terminator]) (more : ℕ) (seen : Bool)
    (hchar : char ≠ options.fieldQuoteStart)
    (htext : ∀ char ∈ text, char ≠ terminator ∧ char ≠ options.fieldQuoteStart)
    (h : source.drop i = char :: (text ++ terminator :: rest)) (hfuel : text.length < fuel) :
    loopM (endStep source options more) fuel (seen, new source i) =
      some (seen || (char :: text).contains options.fieldSep,
        new source (i + (text.length + 1))) := by
  induction text generalizing i char seen fuel with
  | nil =>
      obtain ⟨fuel, rfl⟩ : ∃ less, fuel = less + 1 := ⟨fuel - 1, by simp at hfuel; omega⟩
      have hstep := endStep_of_next hend more seen hchar h
      rw [if_pos rfl] at hstep
      rw [loopM_of_inr hstep]
      simp [eq_comm]
  | cons other text ih =>
      obtain ⟨fuel, rfl⟩ : ∃ less, fuel = less + 1 := ⟨fuel - 1, by simp at hfuel; omega⟩
      obtain ⟨hother, hquote⟩ := htext other List.mem_cons_self
      have hstep := endStep_of_next hend more seen hchar h
      rw [if_neg hother] at hstep
      rw [loopM_of_inl hstep, ih _ hquote
        (fun next hnext => htext next (List.mem_cons_of_mem _ hnext)) (drop_succ h)
        (by simp at hfuel; omega)]
      simp only [List.contains_cons, List.length_cons, Bool.or_assoc]
      rw [show (options.fieldSep == char) = decide (char = options.fieldSep) from ?_]
      · congr 3
        omega
      · simp [beq_eq_decide, eq_comm]

/-- No white space, no comment: the line starts where it is looked for. -/
theorem loopM_startStep (hcomment : options.commentStart = [])
    (hchar : isWhitespace options char = false) (h : source.drop i = char :: rest) (more : ℕ) :
    loopM (startStep source options (more + 1)) (fuel + 1) (new source i) = some (new source i) := by
  have hskip : (new source i).skipWhitespace source options (more + 1) = some (new source i) := by
    apply loop_succ_of_inr
    unfold whitespaceStep
    rw [new_c h, if_neg (by simp [hchar])]
  have hstep : startStep source options (more + 1) (new source i) =
      some (.inr (new source i)) := by
    unfold startStep isInlineComment
    rw [hskip, hcomment]
    simp
  exact loopM_of_inr hstep fuel

/-- The marks of a line that starts with no white space. -/
theorem scan_line (hcomment : options.commentStart = []) (hstart : options.lineStartString = [])
    (hend : options.lineEndString = [terminator]) (spec : BufferDescriptor)
    (hchar : isWhitespace options char = false) (hquote : char ≠ options.fieldQuoteStart)
    (htext : ∀ char ∈ text, char ≠ terminator ∧ char ≠ options.fieldQuoteStart)
    (h : source.drop spec.lineStart = char :: (text ++ terminator :: rest))
    (hfuel : text.length < fuel) :
    scan source options fuel spec =
      some
        { lineStart := spec.lineStart
          lineEnd := spec.lineStart + (text.length + 1)
          lineHasFields := (char :: text).contains options.fieldSep
          atEnd := decide (rest = []) } := by
  obtain ⟨fuel, rfl⟩ : ∃ less, fuel = less + 1 := ⟨fuel - 1, by omega⟩
  have hlineEnd : source.drop (spec.lineStart + (text.length + 1)) = terminator :: rest := by
    have hadd : source.drop (spec.lineStart + (char :: text).length) = terminator :: rest :=
      drop_add h
    exact hadd
  unfold scan
  rw [loopM_startStep hcomment hchar h, Option.bind_some]
  rw [skipLinePrefix, if_pos hstart, Option.bind_some,
    loopM_endStep hend (fuel + 1) false hquote htext h hfuel, Option.map_some]
  have hlength := length_of_drop hlineEnd
  simp only [isEndOfLine_new hend hlineEnd, decide_true, if_true, Bool.false_or]
  congr 2
  unfold isAtEnd
  change decide (source.length ≤ 1 + (spec.lineStart + (text.length + 1))) = _
  rw [decide_eq_decide, hlength]
  cases rest with
  | nil => simp
  | cons other rest => simp; omega

end LineScanner

/-! ## The values of a line -/

namespace TextFieldScanner

open Scanner

/-- A value that is read without quotes is never empty. -/
structure IsValue (options : ScannerOptions) (terminator : UInt16) (value : CodeUnits) : Prop where
  nonempty : value ≠ []
  chars : ∀ char ∈ value, (char ≠ terminator ∧ char ≠ options.fieldSep) ∧
    char ≠ options.fieldQuoteStart

theorem scanStep_value {value : CodeUnits} (hend : options.lineEndString = [terminator])
    (hvalue : IsValue options terminator value) (hother : other = options.fieldSep ∨ other = terminator)
    (h : source.drop i = value ++ other :: rest) (hfuel : value.length < fuel)
    (read : List CodeUnits) :
    scanStep source options fuel (read, new source i) =
      some (.inl (read ++ [value], new source (i + value.length))) := by
  obtain ⟨char, text, rfl⟩ := List.exists_cons_of_ne_nil hvalue.nonempty
  obtain ⟨⟨hline, hsep⟩, hquote⟩ := hvalue.chars char List.mem_cons_self
  have hloop := loop_unquotedStep hend [] (fun next hnext => (hvalue.chars next hnext).1) hother h
    hfuel
  unfold scanStep getValueForDelimitedField
  rw [isEndOfLine_new hend h, isFieldSeparator_new h, isStartQuote_new h]
  simp only [hline, hsep, hquote, decide_false, Bool.false_eq_true, if_false, hloop,
    Option.map_some, List.nil_append]

/-- The values of a line, from the start of the first one. -/
theorem loopM_scanStep {more : ℕ} (hend : options.lineEndString = [terminator])
    (hsep : options.fieldSep ≠ terminator) (value : CodeUnits) (values : List CodeUnits)
    (hvalues : ∀ other ∈ value :: values, IsValue options terminator other)
    (h : source.drop i = value ++ ((values.flatMap fun other => options.fieldSep :: other) ++
      terminator :: rest))
    (hmore : source.length < more) (hfuel : 2 * values.length + 1 < fuel)
    (read : List CodeUnits) :
    loopM (scanStep source options more) fuel (read, new source i) =
      some (read ++ value :: values) := by
  have hvalue := hvalues value List.mem_cons_self
  have hlength : value.length < more := by
    have hdrop := congrArg List.length h
    rw [List.length_drop, List.length_append] at hdrop
    omega
  induction values generalizing i value read fuel with
  | nil =>
      obtain ⟨fuel, rfl⟩ : ∃ less, fuel = less + 1 + 1 := ⟨fuel - 2, by simp at hfuel; omega⟩
      rw [loopM_of_inl (scanStep_value hend hvalue (Or.inr rfl) h hlength read)]
      apply loopM_of_inr
      unfold scanStep
      rw [isEndOfLine_new hend (drop_add h)]
      simp
  | cons next values ih =>
      obtain ⟨fuel, rfl⟩ : ∃ less, fuel = less + 1 + 1 := ⟨fuel - 2, by simp at hfuel; omega⟩
      rw [loopM_of_inl (scanStep_value hend hvalue (Or.inl rfl) h hlength read)]
      have hsepAt := drop_add h
      have hnext := hvalues next (List.mem_cons_of_mem _ List.mem_cons_self)
      have hstep : scanStep source options more (read ++ [value], new source (i + value.length)) =
          some (.inl (read ++ [value], new source (i + value.length + 1))) := by
        have hadvance : (new source (i + value.length)).advance source 1 =
            new source (i + value.length + 1) := by
          obtain ⟨char, text, hchar⟩ := List.exists_cons_of_ne_nil hnext.nonempty
          rw [hchar] at hsepAt
          exact advance_new hsepAt
        unfold scanStep
        rw [isEndOfLine_new hend hsepAt, isFieldSeparator_new hsepAt]
        simp [hsep, hadvance]
      have hnextAt : source.drop (i + value.length + 1) = next ++
          ((values.flatMap fun other => options.fieldSep :: other) ++ terminator :: rest) :=
        (drop_succ hsepAt).trans (List.append_assoc next _ _)
      have hnextLength : next.length < more := by
        have hdrop := congrArg List.length hnextAt
        rw [List.length_drop, List.length_append] at hdrop
        omega
      rw [loopM_of_inl hstep, ih next
        (fun other hother => hvalues other (List.mem_cons_of_mem _ hother)) hnextAt
        (by simp at hfuel; omega) _ hnext hnextLength]
      simp

end TextFieldScanner

/-! ## Whole buffers -/

namespace FileDataSource

open Scanner TextFieldScanner

/-- The text of a line of which the values are found again. -/
def lineOf (options : ScannerOptions) (value : CodeUnits) (values : List CodeUnits) : CodeUnits :=
  value ++ values.flatMap fun other => options.fieldSep :: other

/-- A line that is found again: two values or more and no white space at the start. -/
structure IsLine (options : ScannerOptions) (terminator : UInt16) (value : CodeUnits)
    (values : List CodeUnits) : Prop where
  others : values ≠ []
  values : ∀ other ∈ value :: values, IsValue options terminator other
  start : ∀ char ∈ value.head?, isWhitespace options char = false

theorem IsLine.chars {value : CodeUnits} {values : List CodeUnits}
    (hline : IsLine options terminator value values)
    (hsep : options.fieldSep ≠ terminator ∧ options.fieldSep ≠ options.fieldQuoteStart) :
    ∀ char ∈ lineOf options value values, char ≠ terminator ∧ char ≠ options.fieldQuoteStart := by
  intro char hchar
  have hvalue : ∀ other ∈ value :: values, char ∈ other →
      char ≠ terminator ∧ char ≠ options.fieldQuoteStart := by
    intro other hother hmem
    obtain ⟨⟨hend, -⟩, hquote⟩ := (hline.values other hother).chars char hmem
    exact ⟨hend, hquote⟩
  obtain h | h := List.mem_append.mp hchar
  · exact hvalue value List.mem_cons_self h
  · obtain ⟨other, hother, hmem⟩ := List.mem_flatMap.mp h
    obtain rfl | hmem := List.mem_cons.mp hmem
    · exact hsep
    · exact hvalue other (List.mem_cons_of_mem _ hother) hmem

theorem IsLine.two_mul_length_le {value : CodeUnits} {values : List CodeUnits}
    (hline : IsLine options terminator value values) :
    2 * values.length ≤ (lineOf options value values).length := by
  have hflat : ∀ others : List CodeUnits, (∀ other ∈ others, other ≠ []) →
      2 * others.length ≤ (others.flatMap fun other => options.fieldSep :: other).length := by
    intro others hothers
    induction others with
    | nil => exact le_rfl
    | cons other others ih =>
        have hrest := ih fun next hnext => hothers next (List.mem_cons_of_mem _ hnext)
        have hother := List.length_pos_iff.mpr (hothers other List.mem_cons_self)
        rw [List.flatMap_cons, List.length_append, List.length_cons, List.length_cons]
        omega
  have hvalues := hflat values fun other hother =>
    (hline.values other (List.mem_cons_of_mem _ hother)).nonempty
  rw [lineOf, List.length_append]
  omega

/-- One line gives its values, and the next line starts after the terminator. -/
theorem runStep_line {value : CodeUnits} {values : List CodeUnits}
    (hcomment : options.commentStart = []) (hstart : options.lineStartString = [])
    (hend : options.lineEndString = [terminator])
    (hsep : options.fieldSep ≠ terminator ∧ options.fieldSep ≠ options.fieldQuoteStart)
    (hline : IsLine options terminator value values) {spec : BufferDescriptor}
    (hspec : spec.atEnd = false)
    (h : source.drop spec.lineStart = lineOf options value values ++ terminator :: rest)
    (hfuel : source.length + 2 < fuel) (records : List (List CodeUnits)) :
    runStep source options fuel (records, spec) =
      some (.inl (records ++ [value :: values],
        { lineStart := spec.lineStart + (lineOf options value values).length + 1
          lineEnd := spec.lineStart + (lineOf options value values).length
          lineHasFields := true
          atEnd := decide (rest = []) })) := by
  obtain ⟨char, text, rfl⟩ :=
    List.exists_cons_of_ne_nil (hline.values value List.mem_cons_self).nonempty
  have hchars := hline.chars hsep
  have hlength : (lineOf options (char :: text) values).length + (rest.length + 1) ≤
      source.length := by
    have hdrop := congrArg List.length h
    rw [List.length_drop, List.length_append, List.length_cons] at hdrop
    omega
  have hcount := hline.two_mul_length_le
  have hscan := LineScanner.scan_line hcomment hstart hend spec
    (hline.start char rfl) (hchars char List.mem_cons_self).2
    (fun other hother => hchars other (List.mem_cons_of_mem _ hother)) h
    (show (text ++ values.flatMap fun other => options.fieldSep :: other).length < fuel by
      simp [lineOf] at hlength ⊢
      omega)
  have hfields : TextFieldScanner.scan source options fuel
      { lineStart := spec.lineStart
        lineEnd := spec.lineStart + (lineOf options (char :: text) values).length
        lineHasFields := true
        atEnd := decide (rest = []) } = some ((char :: text) :: values) :=
    loopM_scanStep hend hsep.1 (char :: text) values hline.values
      (h.trans (List.append_assoc _ _ _)) (by omega) (by omega) []
  have hhas : (char :: (text ++ values.flatMap fun other => options.fieldSep :: other)).contains
      options.fieldSep = true := by
    obtain ⟨other, others, rfl⟩ := List.exists_cons_of_ne_nil hline.others
    simp
  have hmarks : LineScanner.scan source options fuel spec = some
      { lineStart := spec.lineStart
        lineEnd := spec.lineStart + (lineOf options (char :: text) values).length
        lineHasFields := true
        atEnd := decide (rest = []) } := by
    rw [← hhas]
    exact hscan
  unfold runStep
  rw [if_neg (by simp [hspec])]
  change (LineScanner.scan source options fuel spec).bind _ = _
  rw [hmarks, Option.bind_some]
  change ((if true = true then (TextFieldScanner.scan source options fuel _).map _ else _).map _) = _
  rw [if_pos rfl, hfields]
  rfl

/-- The text of records that are found again. -/
def textOf (options : ScannerOptions) (terminator : UInt16)
    (lines : List (CodeUnits × List CodeUnits)) : CodeUnits :=
  lines.flatMap fun line => lineOf options line.1 line.2 ++ [terminator]

theorem loopM_runStep (hcomment : options.commentStart = []) (hstart : options.lineStartString = [])
    (hend : options.lineEndString = [terminator])
    (hsep : options.fieldSep ≠ terminator ∧ options.fieldSep ≠ options.fieldQuoteStart)
    (lines : List (CodeUnits × List CodeUnits))
    (hlines : ∀ line ∈ lines, IsLine options terminator line.1 line.2) {more : ℕ}
    (hmore : source.length + 2 < more) (spec : BufferDescriptor)
    (hspec : spec.atEnd = decide (lines = []))
    (h : source.drop spec.lineStart = textOf options terminator lines)
    (hfuel : lines.length < fuel) (records : List (List CodeUnits)) :
    loopM (runStep source options more) fuel (records, spec) =
      some (records ++ lines.map fun line => line.1 :: line.2) := by
  induction lines generalizing spec fuel records with
  | nil =>
      obtain ⟨fuel, rfl⟩ : ∃ less, fuel = less + 1 := ⟨fuel - 1, by simp at hfuel; omega⟩
      have hstop : runStep source options more (records, spec) = some (.inr records) := by
        unfold runStep
        rw [if_pos (by simpa using hspec)]
      rw [loopM_of_inr hstop, List.map_nil, List.append_nil]
  | cons line lines ih =>
      obtain ⟨fuel, rfl⟩ : ∃ less, fuel = less + 1 := ⟨fuel - 1, by simp at hfuel; omega⟩
      have hline := hlines line List.mem_cons_self
      have hrest : source.drop spec.lineStart =
          lineOf options line.1 line.2 ++ terminator :: textOf options terminator lines := by
        rw [h]
        simp [textOf]
      have hnil : (textOf options terminator lines = []) ↔ (lines = []) := by
        cases lines <;> simp [textOf]
      rw [loopM_of_inl (runStep_line hcomment hstart hend hsep hline (by simpa using hspec) hrest
        hmore records), ih (fun other hother => hlines other (List.mem_cons_of_mem _ hother))]
      · simp
      · exact decide_eq_decide.mpr hnil
      · exact drop_succ (drop_add hrest)
      · simp at hfuel
        omega

end FileDataSource

/-! ## Records -/

theorem lineText_plain (format : TextFormat) (value : CodeUnits) (values : List CodeUnits) :
    [format.fieldSep].intercalate (value :: values) =
      FileDataSource.lineOf format.options value values := by
  induction values generalizing value with
  | nil => simp [FileDataSource.lineOf]
  | cons other values ih =>
      rw [List.intercalate_cons_cons, ih other]
      simp [FileDataSource.lineOf, TextFormat.options]

namespace TextFormat

variable {format : TextFormat}

/-- A record that is kept, as a line. -/
theorem KeepsRecord.exists_line {record : List PrintedField} {terminator : UInt16}
    (hvalid : format.IsValid) (hend : format.lineEnd = [terminator])
    (hprintable : ∀ field ∈ record, field.IsPrintable format) (h : format.KeepsRecord record) :
    ∃ value values, record.map PrintedField.value = value :: values ∧
      format.lineText record = FileDataSource.lineOf format.options value values ∧
      FileDataSource.IsLine format.options terminator value values := by
  have htexts : record.map (PrintedField.text format) = record.map PrintedField.value := by
    apply List.map_congr_left
    intro field hfield
    obtain ⟨value, rfl, -⟩ := h.fields field hfield
    rfl
  have hvalues : ∀ value ∈ record.map PrintedField.value,
      TextFieldScanner.IsValue format.options terminator value := by
    intro value hvalue
    obtain ⟨field, hfield, rfl⟩ := List.mem_map.mp hvalue
    obtain ⟨value, rfl, hne⟩ := h.fields field hfield
    refine ⟨hne, fun char hchar => ?_⟩
    have hspecial := hprintable _ hfield char hchar
    unfold TextFormat.IsSpecial at hspecial
    rw [hend] at hspecial
    simp only [List.cons_append, List.nil_append, List.mem_cons, List.not_mem_nil, or_false,
      not_or] at hspecial
    obtain ⟨hsep, hstart, -, -, hline⟩ := hspecial
    exact ⟨⟨hline, hsep⟩, hstart⟩
  obtain ⟨field, fields, rfl⟩ : ∃ field fields, record = field :: fields :=
    List.exists_cons_of_ne_nil (by rintro rfl; exact absurd h.length (by decide))
  refine ⟨field.value, fields.map PrintedField.value, rfl, ?_, ?_, hvalues, h.start field rfl⟩
  · rw [TextFormat.lineText, htexts, List.map_cons, lineText_plain]
  · have hlength := h.length
    rintro hnil
    rw [List.map_eq_nil_iff] at hnil
    rw [hnil] at hlength
    exact absurd hlength (by simp)

theorem exists_lines {terminator : UInt16} (hvalid : format.IsValid)
    (hend : format.lineEnd = [terminator]) (records : List (List PrintedField))
    (hprintable : ∀ record ∈ records, ∀ field ∈ record, field.IsPrintable format)
    (h : ∀ record ∈ records, format.KeepsRecord record) :
    ∃ lines : List (CodeUnits × List CodeUnits),
      records.map (List.map PrintedField.value) = lines.map (fun line => line.1 :: line.2) ∧
      format.recordsText records true = FileDataSource.textOf format.options terminator lines ∧
      ∀ line ∈ lines, FileDataSource.IsLine format.options terminator line.1 line.2 := by
  induction records with
  | nil => exact ⟨[], rfl, rfl, nofun⟩
  | cons record records ih =>
      obtain ⟨lines, hvalues, htext, hlines⟩ :=
        ih (fun other hother => hprintable other (List.mem_cons_of_mem _ hother))
          fun other hother => h other (List.mem_cons_of_mem _ hother)
      obtain ⟨value, values, hrecord, hline, hkept⟩ :=
        (h record List.mem_cons_self).exists_line hvalid hend (hprintable record List.mem_cons_self)
      refine ⟨(value, values) :: lines, ?_, ?_, ?_⟩
      · rw [List.map_cons, List.map_cons, hrecord, hvalues]
      · have hcons : format.recordsText (record :: records) true =
            format.lineText record ++ format.lineEnd ++ format.recordsText records true := rfl
        rw [hcons, htext, hline, hend]
        rfl
      · exact List.forall_mem_cons.mpr ⟨hkept, hlines⟩

/-- Commas and double quotes. -/
def commaFormat : TextFormat where
  fieldSep := code ','
  quoteStart := 0x22
  quoteEnd := 0x22
  quoteEsc := 0x5C
  lineEnd := codes "\n"

theorem isValid_commaFormat : commaFormat.IsValid := ⟨by decide, by decide, by decide⟩

end TextFormat

end DatabaseJones.Loader
