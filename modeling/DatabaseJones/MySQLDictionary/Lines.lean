import DatabaseJones.MySQLDictionary.Clauses

/-!
# The lines of a definition

What one line adds to the variables of the loop: a column, the primary key, a key, or a
foreign key, unless the blanks of its lists cut its columns apart.  The tokens of a line have
no line breaks and no comma at their end, so the comma after a line is the one that the
server writes there.
-/

namespace DatabaseJones.MySQLDictionary

open DatabaseJones.Library

/-! ## Tokens -/

/-- A token of a line. -/
structure IsToken (token : Text) : Prop where
  lineBreak : '\n' ∉ token
  closed : ∃ char, token.getLast? = some char ∧ char ≠ ','

theorem isToken_of_notMem {token : Text} (hne : token ≠ []) (hcomma : ',' ∉ token)
    (hbreak : '\n' ∉ token) : IsToken token := by
  refine ⟨hbreak, token.getLast hne, List.getLast?_eq_some_getLast hne, ?_⟩
  intro heq
  exact hcomma (heq ▸ List.getLast_mem hne)

theorem isToken_concat {text : Text} {last : Char} (hbreak : '\n' ∉ text) (hlast : last ≠ '\n')
    (hcomma : last ≠ ',') : IsToken (text ++ [last]) := by
  refine ⟨?_, last, List.getLast?_concat, hcomma⟩
  simp [hbreak, hlast.symm]

theorem IsWord.isToken {word : Text} (h : IsWord word) : IsToken word :=
  isToken_of_notMem h.nonempty (fun hmem => h.chars _ hmem (by decide))
    fun hmem => h.chars _ hmem (by decide)

theorem isToken_clauseWords {token : Text} (h : token ∈ clauseWords) : IsToken token := by
  have hne : ∀ word ∈ clauseWords, word ≠ [] := by decide
  exact isToken_of_notMem (hne token h) (notMem_of_clauseWords (by decide) (by decide) h)
    (notMem_of_clauseWords (by decide) (by decide) h)

theorem isToken_quoteName {name : Text} (h : IsPlainName name) : IsToken (quoteName name) := by
  have hbreak : '\n' ∉ Char.ofNat 0x60 :: name := by
    have hquote : '\n' ≠ Char.ofNat 0x60 := by decide
    simp [h.lineBreak, hquote]
  rw [quoteName_of_plain h.quote, ← List.cons_append]
  exact isToken_concat hbreak (by decide) (by decide)

theorem ColumnType.isToken (type : ColumnType) : IsToken type.token := by
  have hbreak := type.notMem_token (show '\n'.isLower = false by decide) (by decide) (by decide)
  refine ⟨hbreak, ?_⟩
  unfold ColumnType.token
  cases type.size with
  | none =>
      have hne : type.word ≠ [] := by
        unfold ColumnType.word
        cases type with
        | integer size width => cases size <;> exact List.cons_ne_nil _ _
        | _ => exact List.cons_ne_nil _ _
      have hcomma := type.notMem_word (show ','.isLower = false by decide)
      have := isToken_of_notMem hne hcomma (type.notMem_word (by decide))
      simpa using this.closed
  | some size =>
      refine ⟨')', ?_, by decide⟩
      change (type.word ++ ('(' :: size ++ [')'])).getLast? = _
      rw [← List.append_assoc]
      exact List.getLast?_concat

theorem lineBreak_escape (value : Text) : '\n' ∉ value.flatMap escapeChar := by
  intro hmem
  obtain ⟨char, -, hin⟩ := List.mem_flatMap.mp hmem
  unfold escapeChar at hin
  split_ifs at hin with hslash hquote hbreak hreturn hnull
  · subst hslash
    exact absurd hin (by decide)
  · subst hquote
    exact absurd hin (by decide)
  · exact absurd hin (by decide)
  · exact absurd hin (by decide)
  · exact absurd hin (by decide)
  · exact hbreak (List.mem_singleton.mp hin).symm

theorem isToken_quoteText (value : Text) : IsToken (quoteText value) := by
  have hbreak : '\n' ∉ Char.ofNat 0x27 :: value.flatMap escapeChar := by
    have hquote : '\n' ≠ Char.ofNat 0x27 := by decide
    simp only [List.mem_cons, hquote, lineBreak_escape value, or_self, not_false_eq_true]
  exact isToken_concat hbreak (by decide) (by decide)

theorem Default.isToken (default : Default) : IsToken default.token := by
  cases default with
  | null => exact isToken_of_notMem (by decide) (by decide) (by decide)
  | text value => exact isToken_quoteText value
  | integer value => exact isToken_quoteText _
  | bits value =>
      obtain ⟨hbreak, char, hlast, hcomma⟩ := isToken_quoteText (Nat.toDigits 2 value)
      refine ⟨?_, char, ?_, hcomma⟩
      · change '\n' ∉ 'b' :: quoteText (Nat.toDigits 2 value)
        have hb : '\n' ≠ 'b' := by decide
        simp only [List.mem_cons, hb, hbreak, or_self, not_false_eq_true]
      · change ('b' :: quoteText (Nat.toDigits 2 value)).getLast? = _
        rw [List.getLast?_cons, hlast]
        rfl
  | currentTimestamp => exact isToken_of_notMem (by decide) (by decide) (by decide)

theorem ColumnDefinition.isToken {column : ColumnDefinition} (h : column.IsSupported)
    (hplain : IsPlainName column.name) : ∀ token ∈ column.tokens, IsToken token := by
  intro token htoken
  obtain rfl | htoken := List.mem_cons.mp htoken
  · exact isToken_quoteName hplain
  obtain rfl | htoken := List.mem_cons.mp htoken
  · exact column.type.isToken
  obtain htoken | htoken := List.mem_append.mp htoken
  · have hword : "unsigned".toList ∈ clauseWords := by decide
    rw [List.mem_singleton.mp (mem_flag htoken)]
    exact isToken_clauseWords hword
  have hwords : ∀ {words : List String}, (∀ word ∈ words.map String.toList, word ∈ clauseWords) →
      token ∈ words.map String.toList → IsToken token :=
    fun hin hmem => isToken_clauseWords (hin token hmem)
  simp only [ColumnDefinition.clauses, List.mem_append] at htoken
  obtain htoken | htoken | htoken | htoken | htoken | htoken := htoken
  · obtain hmem | hmem := mem_clause htoken
    · exact hwords (by decide) hmem
    · exact (h.characterSet token hmem).isToken
  · obtain hmem | hmem := mem_clause htoken
    · exact hwords (by decide) hmem
    · exact (h.collation token hmem).isToken
  · exact hwords (by decide) (mem_flag htoken)
  · exact hwords (by decide) (mem_flag htoken)
  · obtain hmem | hmem := mem_clause htoken
    · exact hwords (by decide) hmem
    · obtain ⟨default, -, rfl⟩ := Option.map_eq_some_iff.mp hmem
      exact default.isToken
  · exact hwords (by decide) (mem_flag htoken)

theorem notMem_nameList {char : Char} {separator : Text} {names : List Text}
    (hplain : ∀ name ∈ names, IsPlainName name) (hnames : ∀ name ∈ names, char ∉ name)
    (hseparator : char ∉ separator) (hchar : char ∉ ['(', ')', Char.ofNat 0x60]) :
    char ∉ nameList separator names := by
  have hjoined : char ∉ separator.intercalate (names.map quoteName) := by
    induction names with
    | nil => exact List.not_mem_nil
    | cons name names ih =>
        have hname : char ∉ quoteName name :=
          notMem_quoteName (hplain name List.mem_cons_self) (hnames name List.mem_cons_self)
            fun heq => hchar (by simp [heq])
        have hrest := ih (fun other hother => hplain other (List.mem_cons_of_mem _ hother))
          fun other hother => hnames other (List.mem_cons_of_mem _ hother)
        cases names with
        | nil => simpa using hname
        | cons next names =>
            rw [List.map_cons, List.map_cons, List.intercalate_cons_cons]
            simp only [List.mem_append, hname, hseparator, or_self, false_or]
            exact hrest
  simp only [List.mem_cons, List.not_mem_nil, or_false, not_or] at hchar
  unfold nameList
  simp [hjoined, hchar]

theorem isToken_nameList {separator : Text} {names : List Text}
    (hplain : ∀ name ∈ names, IsPlainName name) (hseparator : '\n' ∉ separator) :
    IsToken (nameList separator names) := by
  have hbreak : '\n' ∉ nameList separator names :=
    notMem_nameList hplain (fun name hname => (hplain name hname).lineBreak) hseparator (by decide)
  exact ⟨hbreak, ')', List.getLast?_concat, by decide⟩

theorem isToken_method {method : Option IndexMethod} {token : Text}
    (h : token ∈ methodTokens method) : IsToken token ∧ ' ' ∉ token := by
  have hall : ∀ method : Option IndexMethod, ∀ token ∈ methodTokens method,
      token ≠ [] ∧ ',' ∉ token ∧ '\n' ∉ token ∧ ' ' ∉ token := by
    intro method
    cases method with
    | none => exact nofun
    | some method => cases method <;> decide
  obtain ⟨hne, hcomma, hbreak, hblank⟩ := hall method token h
  exact ⟨isToken_of_notMem hne hcomma hbreak, hblank⟩

theorem nameList_blank {names : List Text} (hplain : ∀ name ∈ names, IsPlainName name) :
    ' ' ∉ nameList [','] names :=
  notMem_nameList hplain (fun name hname => (hplain name hname).blank) (by decide) (by decide)

/-- A list of names without blanks in it. -/
structure KeyDefinition.HasPlainNames (key : KeyDefinition) : Prop where
  name : IsPlainName key.name
  columns : ∀ name ∈ key.columns, IsPlainName name

theorem PrimaryKey.isToken {key : PrimaryKey} (hplain : ∀ name ∈ key.columns, IsPlainName name) :
    ∀ token ∈ key.tokens, IsToken token := by
  intro token htoken
  obtain rfl | htoken := List.mem_cons.mp htoken
  · exact isToken_of_notMem (by decide) (by decide) (by decide)
  obtain rfl | htoken := List.mem_cons.mp htoken
  · exact isToken_of_notMem (by decide) (by decide) (by decide)
  obtain rfl | htoken := List.mem_cons.mp htoken
  · exact isToken_nameList hplain (by decide)
  exact (isToken_method htoken).1

theorem KeyDefinition.isToken {key : KeyDefinition} (h : key.HasPlainNames) :
    ∀ token ∈ key.tokens, IsToken token := by
  intro token htoken
  obtain htoken | htoken := List.mem_append.mp htoken
  · rw [List.mem_singleton.mp (mem_flag htoken)]
    exact isToken_of_notMem (by decide) (by decide) (by decide)
  obtain rfl | htoken := List.mem_cons.mp htoken
  · exact isToken_of_notMem (by decide) (by decide) (by decide)
  obtain rfl | htoken := List.mem_cons.mp htoken
  · exact isToken_quoteName h.name
  obtain rfl | htoken := List.mem_cons.mp htoken
  · exact isToken_nameList h.columns (by decide)
  exact (isToken_method htoken).1

/-- The names of a foreign key; those of its target have no point in them. -/
structure ForeignKeyDefinition.HasPlainNames (key : ForeignKeyDefinition) : Prop where
  name : IsPlainName key.name
  columns : ∀ name ∈ key.columns, IsPlainName name
  targetDatabase : ∀ name ∈ key.targetDatabase, IsPlainName name ∧ '.' ∉ name
  targetTable : IsPlainName key.targetTable ∧ '.' ∉ key.targetTable
  targetColumns : ∀ name ∈ key.targetColumns, IsPlainName name

theorem ForeignKeyDefinition.notMem_separator (key : ForeignKeyDefinition) {char : Char}
    (hchar : char ∉ [',', ' ']) : char ∉ key.separator := by
  unfold ForeignKeyDefinition.separator
  split
  · exact hchar
  · intro hmem
    rw [List.mem_singleton.mp hmem] at hchar
    exact hchar List.mem_cons_self

theorem ForeignKeyDefinition.isToken_target {key : ForeignKeyDefinition} (h : key.HasPlainNames) :
    IsToken key.target ∧ ' ' ∉ key.target := by
  have htable := quoteName_of_plain h.targetTable.1.quote
  have hbefore : ∀ char : Char, char ∉ ['.', Char.ofNat 0x60] →
      (∀ name ∈ key.targetDatabase, char ∉ name) →
      char ∉ (key.targetDatabase.map fun database => quoteName database ++ ['.']).getD [] := by
    intro char hchar hnames
    simp only [List.mem_cons, List.not_mem_nil, or_false, not_or] at hchar
    cases hdatabase : key.targetDatabase with
    | none => exact List.not_mem_nil
    | some database =>
        have hname := notMem_quoteName (h.targetDatabase database hdatabase).1
          (hnames database hdatabase) hchar.2
        intro hmem
        obtain hmem | hmem := List.mem_append.mp hmem
        · exact hname hmem
        · exact hchar.1 (List.mem_singleton.mp hmem)
  have hbreak := hbefore '\n' (by decide) fun name hname => (h.targetDatabase name hname).1.lineBreak
  have hblank := hbefore ' ' (by decide) fun name hname => (h.targetDatabase name hname).1.blank
  have htableBreak := notMem_quoteName h.targetTable.1 h.targetTable.1.lineBreak (by decide)
  have htableBlank := notMem_quoteName h.targetTable.1 h.targetTable.1.blank (by decide)
  refine ⟨⟨?_, Char.ofNat 0x60, ?_, by decide⟩, ?_⟩
  · exact fun hmem => (List.mem_append.mp hmem).elim hbreak htableBreak
  · unfold ForeignKeyDefinition.target
    rw [htable, ← List.cons_append, ← List.append_assoc]
    exact List.getLast?_concat
  · exact fun hmem => (List.mem_append.mp hmem).elim hblank htableBlank

theorem ForeignKeyDefinition.isToken {key : ForeignKeyDefinition} (h : key.HasPlainNames)
    (hactions : ∀ action ∈ key.actions, IsWord action) : ∀ token ∈ key.tokens, IsToken token := by
  intro token htoken
  have hword : ∀ word ∈ ["CONSTRAINT", "FOREIGN", "KEY", "REFERENCES"].map String.toList,
      word ≠ [] ∧ ',' ∉ word ∧ '\n' ∉ word := by decide
  have hkeyword : token ∈ ["CONSTRAINT", "FOREIGN", "KEY", "REFERENCES"].map String.toList →
      IsToken token := fun hmem =>
    isToken_of_notMem (hword token hmem).1 (hword token hmem).2.1 (hword token hmem).2.2
  have hseparator : '\n' ∉ key.separator := key.notMem_separator (by decide)
  obtain rfl | htoken := List.mem_cons.mp htoken
  · exact hkeyword (by decide)
  obtain rfl | htoken := List.mem_cons.mp htoken
  · exact isToken_quoteName h.name
  obtain rfl | htoken := List.mem_cons.mp htoken
  · exact hkeyword (by decide)
  obtain rfl | htoken := List.mem_cons.mp htoken
  · exact hkeyword (by decide)
  obtain rfl | htoken := List.mem_cons.mp htoken
  · exact isToken_nameList h.columns hseparator
  obtain rfl | htoken := List.mem_cons.mp htoken
  · exact hkeyword (by decide)
  obtain rfl | htoken := List.mem_cons.mp htoken
  · exact (isToken_target h).1
  obtain rfl | htoken := List.mem_cons.mp htoken
  · exact isToken_nameList h.targetColumns hseparator
  exact (hactions token htoken).isToken

/-! ## The comma after a line -/

theorem withoutComma_concat (line : Text) : withoutComma (line ++ [',']) = line := by
  unfold withoutComma
  rw [if_pos List.getLast?_concat, List.dropLast_concat]

theorem withoutComma_lineOf {tokens : List Text} (hne : tokens ≠ [])
    (h : ∀ token ∈ tokens, IsToken token) : withoutComma (lineOf tokens) = lineOf tokens := by
  obtain ⟨init, last, rfl⟩ : ∃ init last, tokens = init ++ [last] :=
    ⟨tokens.dropLast, tokens.getLast hne, (List.dropLast_append_getLast hne).symm⟩
  obtain ⟨char, hchar, hcomma⟩ := (h last (by simp)).closed
  have hlast : (lineOf (init ++ [last])).getLast? = some char := by
    rw [lineOf_concat, List.getLast?_append, List.getLast?_cons, hchar]
    rfl
  unfold withoutComma
  rw [if_neg]
  rw [hlast]
  exact fun heq => hcomma (Option.some.inj heq)

/-- A line is parsed as its tokens, cut at their blanks. -/
theorem parseLine_lineOf {first : Text} {tokens : List Text}
    (h : ∀ token ∈ first :: tokens, IsToken token) (hblank : ' ' ∉ first) (databaseName : Text)
    (state : State) :
    parseLine databaseName state (lineOf (first :: tokens)) =
      parseTokens databaseName state (lineOf (first :: tokens))
        (first :: tokens.flatMap fun token => token.splitOn ' ') := by
  have hne : first ≠ [] := by
    rintro rfl
    obtain ⟨char, hchar, -⟩ := (h [] List.mem_cons_self).closed
    exact absurd hchar (by simp)
  unfold parseLine
  rw [withoutComma_lineOf (List.cons_ne_nil _ _) h, tokens_lineOf tokens first hblank hne]

/-! ## Columns -/

/-- The state after the line of a column. -/
def State.addColumn (state : State) (column : ColumnDefinition) : State :=
  { state with
    columns := state.columns ++ [column.parsed state.columnNumber]
    sparseContainer :=
      if column.name = "SPARSE_FIELDS".toList then some column.name else state.sparseContainer
    columnNumber := state.columnNumber + 1
    columnSize := column.type.size.or state.columnSize }

theorem quoteName_ne (name : Text) {word : Text} (h : word.head? ≠ some (Char.ofNat 0x60)) :
    quoteName name ≠ word :=
  fun heq => h (heq ▸ rfl)

theorem headIn_clause {rest : List Text} {heads : List Text} (h : HeadIn rest heads)
    (value : Option Text) (word : String) (words : List String) :
    HeadIn (clause (word :: words) value ++ rest) (word.toList :: heads) := by
  apply h.append
  cases value with
  | none => exact fun head hhead => absurd hhead (by simp [clause])
  | some token => exact fun head hhead => (Option.some.inj hhead).symm

theorem not_unsigned (column : ColumnDefinition) :
    column.clausePieces.head? ≠ some "unsigned".toList := by
  have hcollation := headIn_clause (headIn_notNullPieces column) column.collation "COLLATE" []
  have hcharset := headIn_clause hcollation column.characterSet "CHARACTER" ["SET"]
  exact hcharset.head?_ne (by decide)

theorem parseColumn_tokens {column : ColumnDefinition} (h : column.type.IsSupported) (state : State) :
    parseColumn (lineOf column.tokens) state column.name
      (column.type.token :: (flag column.isUnsigned ["unsigned"] ++ column.clausePieces)) =
      some (state.addColumn column) := by
  have hunsigned : decide ((flag column.isUnsigned ["unsigned"] ++ column.clausePieces).head? =
      some "unsigned".toList) = column.isUnsigned := by
    cases column.isUnsigned with
    | false => exact decide_eq_false (not_unsigned column)
    | true => rfl
  have hrest : (if column.isUnsigned = true then
        (flag column.isUnsigned ["unsigned"] ++ column.clausePieces).tail
      else flag column.isUnsigned ["unsigned"] ++ column.clausePieces) = column.clausePieces := by
    cases column.isUnsigned with
    | false => rfl
    | true => rfl
  unfold parseColumn
  dsimp only
  rw [hunsigned, hrest, piece_token_word, sizeOf_token, Option.getD_some, typeMetadata_word h]
  rfl

theorem parseLine_column {column : ColumnDefinition} (h : column.IsSupported)
    (hplain : IsPlainName column.name) (databaseName : Text) (state : State) :
    parseLine databaseName state (lineOf column.tokens) = some (state.addColumn column) := by
  have htype : ' ' ∉ column.type.token := column.type.notMem_token (by decide) (by decide) (by decide)
  have hname : ' ' ∉ quoteName column.name := notMem_quoteName hplain hplain.blank (by decide)
  have hflag : (flag column.isUnsigned ["unsigned"]).flatMap (fun token => token.splitOn ' ') =
      flag column.isUnsigned ["unsigned"] := by
    apply flatMap_splitOn_eq_self
    intro token htoken
    rw [List.mem_singleton.mp (mem_flag htoken)]
    exact by decide
  have hline := parseLine_lineOf (ColumnDefinition.isToken h hplain) hname databaseName state
  rw [List.flatMap_cons, List.flatMap_append, hflag, clauses_flatMap h,
    List.splitOn_eq_singleton htype, List.singleton_append] at hline
  have hcolumn := parseColumn_tokens h.type state
  change parseLine databaseName state (lineOf (quoteName column.name :: column.type.token ::
    (flag column.isUnsigned ["unsigned"] ++ column.clauses))) = _
  rw [hline]
  unfold parseTokens
  dsimp only
  rw [if_neg (quoteName_ne _ (by decide)), if_neg (quoteName_ne _ (by decide)),
    if_neg (quoteName_ne _ (by decide)), if_neg (quoteName_ne _ (by decide)),
    if_neg (quoteName_ne _ (by decide)), piece_quoteName hplain]
  exact hcolumn

/-! ## Keys -/

/-- The state after the line of the primary key; its method is not looked at. -/
def State.addPrimary (state : State) (key : PrimaryKey) : State :=
  { state with
    columns := markPrimary state.columns (convertColumnNamesToNumbers key.columns state.columns)
    indexes := state.indexes.set 0
      ⟨some "PRIMARY".toList, true, true, true,
        some (convertColumnNamesToNumbers key.columns state.columns)⟩
    columnNumber :=
      (convertColumnNamesToNumbers key.columns state.columns).getLast?.getD state.columnNumber }

/-- The state after the line of a key. -/
def State.addKey (state : State) (key : KeyDefinition) : State :=
  { state with
    indexes := state.indexes ++
      [⟨some key.name, false, key.isUnique, key.isOrdered,
        some (convertColumnNamesToNumbers key.columns state.columns)⟩] }

theorem decode_names {names : List Text} (hplain : ∀ name ∈ names, IsPlainName name)
    (separator : Text) (hseparator : Char.ofNat 0x60 ∉ separator) :
    decodeIndexColumnNames (nameList separator names) = names :=
  decode_nameList hseparator names fun name hname => (hplain name hname).quote

theorem parseLine_primary {key : PrimaryKey} (hplain : ∀ name ∈ key.columns, IsPlainName name)
    (databaseName : Text) (state : State) :
    parseLine databaseName state (lineOf key.tokens) = some (state.addPrimary key) := by
  have hline := parseLine_lineOf (PrimaryKey.isToken hplain) (by decide) databaseName state
  have hnames := decode_names hplain [','] (by decide)
  change parseLine databaseName state (lineOf ("PRIMARY".toList :: "KEY".toList ::
    nameList [','] key.columns :: methodTokens key.method)) = _
  rw [hline, List.flatMap_cons, List.flatMap_cons, List.splitOn_eq_singleton (nameList_blank hplain)]
  change parsePrimary state ("KEY".toList :: nameList [','] key.columns ::
    (methodTokens key.method).flatMap fun token => token.splitOn ' ') = _
  unfold parsePrimary
  dsimp only [List.getElem?_cons_succ, List.getElem?_cons_zero, Option.map_some]
  rw [hnames]
  rfl

/-- Only the method `HASH` is a hash. -/
theorem usesHash_method (method : Option IndexMethod) :
    usesHash (methodTokens method) = some (decide (method = some .hash)) := by
  cases method with
  | none => rfl
  | some method => cases method <;> decide

theorem parseKey_tokens {key : KeyDefinition} (h : key.HasPlainNames) (state : State) :
    parseKey key.isUnique state
      (quoteName key.name :: nameList [','] key.columns :: methodTokens key.method) =
      some (state.addKey key) := by
  have hnames := decode_names h.columns [','] (by decide)
  unfold parseKey
  dsimp only
  rw [usesHash_method, Option.map_some, piece_quoteName h.name, hnames]
  have hordered : (!decide (key.method = some .hash)) = key.isOrdered :=
    decide_not.symm
  rw [hordered]
  rfl

theorem parseLine_key {key : KeyDefinition} (h : key.HasPlainNames) (databaseName : Text)
    (state : State) :
    parseLine databaseName state (lineOf key.tokens) = some (state.addKey key) := by
  have hname : ' ' ∉ quoteName key.name := notMem_quoteName h.name h.name.blank (by decide)
  have hrest : (quoteName key.name :: nameList [','] key.columns :: methodTokens key.method).flatMap
      (fun token => token.splitOn ' ') =
      quoteName key.name :: nameList [','] key.columns :: methodTokens key.method := by
    apply flatMap_splitOn_eq_self
    intro token htoken
    obtain rfl | htoken := List.mem_cons.mp htoken
    · exact hname
    obtain rfl | htoken := List.mem_cons.mp htoken
    · exact nameList_blank h.columns
    exact (isToken_method htoken).2
  have hkey := parseKey_tokens h state
  have htokens := KeyDefinition.isToken h
  unfold KeyDefinition.tokens at htokens ⊢
  cases hunique : key.isUnique with
  | false =>
      rw [hunique] at hkey htokens
      have hline := parseLine_lineOf htokens (by decide) databaseName state
      rw [hrest] at hline
      exact hline.trans hkey
  | true =>
      rw [hunique] at hkey htokens
      have hline := parseLine_lineOf htokens (by decide) databaseName state
      change _ = parseTokens databaseName state _ ("UNIQUE".toList :: ("KEY".toList.splitOn ' ' ++
        (quoteName key.name :: nameList [','] key.columns :: methodTokens key.method).flatMap
          fun token => token.splitOn ' ')) at hline
      rw [hrest, List.splitOn_eq_singleton (by decide)] at hline
      exact hline.trans hkey

/-! ## Foreign keys -/

/-- A list of several columns that has blanks in it. -/
def ForeignKeyDefinition.IsCut (key : ForeignKeyDefinition) : Prop :=
  key.hasBlanks = true ∧ 2 ≤ key.columns.length

instance (key : ForeignKeyDefinition) : Decidable key.IsCut := inferInstanceAs (Decidable (_ ∧ _))

/-- The state after the line of a foreign key: one whose columns are cut apart is left out. -/
def State.addForeignKey (databaseName : Text) (state : State) (key : ForeignKeyDefinition) : State :=
  if key.IsCut then state
  else { state with foreignKeys := state.foreignKeys ++ [key.metadata databaseName] }

/-- A list in one piece. -/
theorem nameList_whole {key : ForeignKeyDefinition} (hcut : ¬ key.IsCut) {names : List Text}
    (hplain : ∀ name ∈ names, IsPlainName name) (hlength : names.length = key.columns.length) :
    ' ' ∉ nameList key.separator names := by
  unfold ForeignKeyDefinition.separator
  split
  · next hblanks =>
    have hshort : names.length < 2 := by
      rw [hlength]
      exact Nat.lt_of_not_le fun hle => hcut ⟨hblanks, hle⟩
    match names, hshort with
    | [], _ => decide
    | [name], _ =>
        -- a single name has no separator beside it
        have hone : ' ' ∉ nameList [] [name] :=
          notMem_nameList hplain (fun name hname => (hplain name hname).blank) List.not_mem_nil
            (by decide)
        exact hone
  · exact nameList_blank hplain

/-- A list with blanks is cut behind its first name. -/
theorem nameList_pieces {first : Text} (second : Text) (names : List Text) (hfirst : IsPlainName first) :
    ∃ head word words, (nameList [',', ' '] (first :: second :: names)).splitOn ' ' =
      head :: (Char.ofNat 0x60 :: word) :: words := by
  have hblank : ' ' ∉ '(' :: quoteName first ++ [','] := by
    have hopening : ' ' ≠ '(' := by decide
    have hcomma : ' ' ∉ [','] := by decide
    have hname := notMem_quoteName hfirst hfirst.blank (by decide)
    simp only [List.mem_append, List.mem_cons, hopening, hname, or_self, not_false_eq_true, hcomma]
  obtain ⟨rest, hrest⟩ : ∃ rest, [',', ' '].intercalate ((second :: names).map quoteName) ++ [')'] =
      Char.ofNat 0x60 :: rest := by
    cases names with
    | nil => exact ⟨_, rfl⟩
    | cons next names => exact ⟨_, rfl⟩
  have htext : nameList [',', ' '] (first :: second :: names) =
      ('(' :: quoteName first ++ [',']) ++ ' ' :: (Char.ofNat 0x60 :: rest) := by
    rw [← hrest]
    unfold nameList
    rw [List.map_cons, List.map_cons, List.intercalate_cons_cons, ← List.map_cons]
    simp
  obtain ⟨word, words, hwords⟩ := splitOn_first (show Char.ofNat 0x60 ≠ ' ' by decide) rest
  refine ⟨'(' :: quoteName first ++ [','], word, words, ?_⟩
  rw [htext, List.splitOn_append_cons_self_of_not_mem hblank, hwords]

theorem parseTarget_target {key : ForeignKeyDefinition} (h : key.HasPlainNames)
    (databaseName : Text) :
    parseTarget databaseName key.target =
      (some (key.targetDatabase.getD databaseName), some key.targetTable) := by
  have htable : '.' ∉ quoteName key.targetTable :=
    notMem_quoteName h.targetTable.1 h.targetTable.2 (by decide)
  unfold parseTarget ForeignKeyDefinition.target
  cases hdatabase : key.targetDatabase with
  | none =>
      rw [Option.map_none, Option.getD_none, List.nil_append, List.splitOn_eq_singleton htable]
      exact Prod.ext rfl (piece_quoteName h.targetTable.1)
  | some database =>
      obtain ⟨hplain, hpoint⟩ := h.targetDatabase database hdatabase
      have hname : '.' ∉ quoteName database := notMem_quoteName hplain hpoint (by decide)
      rw [Option.map_some, Option.getD_some, List.append_assoc, List.singleton_append,
        List.splitOn_append_cons_self_of_not_mem hname, List.splitOn_eq_singleton htable]
      exact Prod.ext (piece_quoteName hplain) (piece_quoteName h.targetTable.1)

theorem parseForeignKey_whole {key : ForeignKeyDefinition} (h : key.HasPlainNames)
    (databaseName : Text) (state : State) (tokens : List Text) :
    parseForeignKey databaseName (some key.name) state
      (nameList key.separator key.columns :: "REFERENCES".toList :: key.target ::
        nameList key.separator key.targetColumns :: tokens) =
      some { state with foreignKeys := state.foreignKeys ++ [key.metadata databaseName] } := by
  have hseparator : Char.ofNat 0x60 ∉ key.separator := key.notMem_separator (by decide)
  have hcolumns := decode_names h.columns _ hseparator
  have htargets := decode_names h.targetColumns _ hseparator
  have hhead : ("REFERENCES".toList :: key.target ::
      nameList key.separator key.targetColumns :: tokens).head? = some "REFERENCES".toList := rfl
  unfold parseForeignKey
  dsimp only
  rw [if_pos hhead]
  dsimp only [List.tail_cons]
  rw [hcolumns, htargets, parseTarget_target h]
  rfl

/-- The word after a cut list is not `REFERENCES`. -/
theorem parseForeignKey_cut (databaseName : Text) (name : Option Text) (state : State)
    (head word : Text) (tokens : List Text) :
    parseForeignKey databaseName name state (head :: (Char.ofNat 0x60 :: word) :: tokens) =
      some state := by
  have hne : ((Char.ofNat 0x60 :: word) :: tokens).head? ≠ some "REFERENCES".toList := by
    intro heq
    exact absurd (congrArg List.head? (Option.some.inj heq)) (by simp)
  unfold parseForeignKey
  dsimp only
  rw [if_neg hne]

theorem parseLine_foreignKey {key : ForeignKeyDefinition} (h : key.HasPlainNames)
    (hactions : ∀ action ∈ key.actions, IsWord action)
    (hlength : key.targetColumns.length = key.columns.length) (databaseName : Text)
    (state : State) :
    parseLine databaseName state (lineOf key.tokens) =
      some (state.addForeignKey databaseName key) := by
  have hline := parseLine_lineOf (ForeignKeyDefinition.isToken h hactions) (by decide) databaseName
    state
  have hname : ' ' ∉ quoteName key.name := notMem_quoteName h.name h.name.blank (by decide)
  have hwords : ∀ word ∈ ["FOREIGN", "KEY", "REFERENCES"].map String.toList, ' ' ∉ word := by decide
  have hforeign := List.splitOn_eq_singleton (hwords "FOREIGN".toList (by decide))
  have hkeyword := List.splitOn_eq_singleton (hwords "KEY".toList (by decide))
  have hreferences := List.splitOn_eq_singleton (hwords "REFERENCES".toList (by decide))
  refine hline.trans ?_
  simp only [List.flatMap_cons]
  rw [List.splitOn_eq_singleton hname, hforeign, hkeyword, hreferences,
    List.splitOn_eq_singleton (ForeignKeyDefinition.isToken_target h).2]
  -- the words `CONSTRAINT`, the name, and `FOREIGN KEY` are taken off
  change parseForeignKey databaseName (piece (Char.ofNat 0x60) 1 (quoteName key.name)) state
    ((nameList key.separator key.columns).splitOn ' ' ++ ("REFERENCES".toList :: key.target ::
      ((nameList key.separator key.targetColumns).splitOn ' ' ++
        key.actions.flatMap fun token => token.splitOn ' '))) = _
  rw [piece_quoteName h.name]
  unfold State.addForeignKey
  by_cases hcut : key.IsCut
  · rw [if_pos hcut]
    obtain ⟨hblanks, hlong⟩ := hcut
    obtain ⟨first, second, names, hnames⟩ : ∃ first second names,
        key.columns = first :: second :: names := by
      match hcolumns : key.columns, hlong with
      | first :: second :: names, _ => exact ⟨first, second, names, rfl⟩
    have hfirst : IsPlainName first := h.columns first (by simp [hnames])
    obtain ⟨head, word, words, hpieces⟩ := nameList_pieces second names hfirst
    have hseparator : key.separator = [',', ' '] := by
      rw [ForeignKeyDefinition.separator, if_pos hblanks]
    rw [hnames, hseparator, hpieces]
    exact parseForeignKey_cut databaseName _ state head word _
  · rw [if_neg hcut, List.splitOn_eq_singleton (nameList_whole hcut h.columns rfl),
      List.splitOn_eq_singleton (nameList_whole hcut h.targetColumns hlength)]
    exact parseForeignKey_whole h databaseName state _

end DatabaseJones.MySQLDictionary
