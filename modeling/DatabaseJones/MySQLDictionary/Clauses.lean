import DatabaseJones.MySQLDictionary.Columns

/-!
# The clauses of a column

The clauses are looked for one after the other.  They are found when a collation comes with
its character set, when no `NULL` of a time stamp stands before the default, and when the
default is printed as it is: `ColumnDefinition.IsKept`.  `parsed_of_kept` and
`kept_of_parsed` say that these are the columns that are read back.
-/

namespace DatabaseJones.MySQLDictionary

open DatabaseJones.Library

/-! ## Columns that are supported, and those that are kept -/

/-- A default is one for the type. -/
def Default.Fits : Default → ColumnType → Prop
  | .null, _ => True
  | .text _, type => type.isIntegral = false
  | .integer _, .integer _ _ => True
  | .bits _, .bit _ => True
  | .currentTimestamp, .datetime _ => True
  | .currentTimestamp, .timestamp _ => True
  | _, _ => False

/-- What the server prints for a column. -/
structure ColumnDefinition.IsSupported (column : ColumnDefinition) : Prop where
  type : column.type.IsSupported
  characterSet : ∀ word ∈ column.characterSet, IsWord word
  collation : ∀ word ∈ column.collation, IsWord word
  default : ∀ default ∈ column.default, default.Fits column.type
  autoIncrement : column.isAutoIncrement = true →
    column.default = none ∧ column.type.isTimestamp = false

/-- A default that is printed as it is, in one piece, as a number that a double has. -/
def Default.IsKept : Default → Prop
  | .null => True
  | .text value => (∀ char ∈ value, escapeChar char = [char]) ∧
      piece ' ' 1 (quoteText value) ≠ some "AUTO_INCREMENT".toList
  | .integer value => toNumber value = some value
  | .bits value => value ≤ 1
  | .currentTimestamp => False

/-- The first quoted text of the line is the default. -/
def ColumnDefinition.QuotesDefault (column : ColumnDefinition) : Prop :=
  Char.ofNat 0x27 ∉ column.name ∨ column.default = none ∨ column.default = some .null

structure ColumnDefinition.IsKept (column : ColumnDefinition) : Prop where
  collation : column.characterSet = none → column.collation = none
  timestamp : column.type.isTimestamp = true → column.isNullable = true → column.default = none
  default : ∀ default ∈ column.default, default.IsKept
  quotes : column.QuotesDefault

/-! ## Pieces -/

def ColumnDefinition.defaultPieces (column : ColumnDefinition) : List Text :=
  (column.default.map fun default => "DEFAULT".toList :: default.token.splitOn ' ').getD [] ++
    flag column.isAutoIncrement ["AUTO_INCREMENT"]

def ColumnDefinition.nullPieces (column : ColumnDefinition) : List Text :=
  flag (column.isNullable && column.type.isTimestamp) ["NULL"] ++ column.defaultPieces

def ColumnDefinition.notNullPieces (column : ColumnDefinition) : List Text :=
  flag (!column.isNullable) ["NOT", "NULL"] ++ column.nullPieces

/-- The clauses, cut at their blanks. -/
def ColumnDefinition.clausePieces (column : ColumnDefinition) : List Text :=
  clause ["CHARACTER", "SET"] column.characterSet ++
    (clause ["COLLATE"] column.collation ++ column.notNullPieces)

/-- The clauses before the default. -/
def ColumnDefinition.beforeDefault (column : ColumnDefinition) : List Text :=
  clause ["CHARACTER", "SET"] column.characterSet ++
    (clause ["COLLATE"] column.collation ++
    (flag (!column.isNullable) ["NOT", "NULL"] ++
    flag (column.isNullable && column.type.isTimestamp) ["NULL"]))

theorem ColumnDefinition.clauses_eq (column : ColumnDefinition) :
    column.clauses = column.beforeDefault ++
      (clause ["DEFAULT"] (column.default.map Default.token) ++
        flag column.isAutoIncrement ["AUTO_INCREMENT"]) := by
  simp only [clauses, beforeDefault, List.append_assoc]

theorem ColumnDefinition.clausePieces_eq (column : ColumnDefinition) :
    column.clausePieces = column.beforeDefault ++ column.defaultPieces := by
  simp only [clausePieces, notNullPieces, nullPieces, beforeDefault, List.append_assoc]

theorem flatMap_splitOn_eq_self {tokens : List Text} (h : ∀ token ∈ tokens, ' ' ∉ token) :
    tokens.flatMap (fun token => token.splitOn ' ') = tokens := by
  induction tokens with
  | nil => rfl
  | cons token tokens ih =>
      rw [List.flatMap_cons, List.splitOn_eq_singleton (h token List.mem_cons_self),
        ih fun other hother => h other (List.mem_cons_of_mem _ hother)]
      rfl

theorem mem_clause {words : List String} {value : Option Text} {token : Text}
    (h : token ∈ clause words value) : token ∈ words.map String.toList ∨ token ∈ value := by
  cases value with
  | none => exact absurd h List.not_mem_nil
  | some word =>
      obtain h | h := List.mem_append.mp h
      · exact Or.inl h
      · exact Or.inr (by rw [List.mem_singleton.mp h]; rfl)

theorem mem_flag {isSet : Bool} {words : List String} {token : Text}
    (h : token ∈ flag isSet words) : token ∈ words.map String.toList := by
  cases isSet with
  | false => exact absurd h List.not_mem_nil
  | true => exact h

/-- The words of the clauses that are not values. -/
def clauseWords : List Text :=
  ["CHARACTER", "SET", "COLLATE", "NOT", "NULL", "DEFAULT", "AUTO_INCREMENT", "unsigned"].map
    String.toList

theorem notMem_of_clauseWords {char : Char} (hchar : char.isAlpha = false) (hdash : char ≠ '_')
    {token : Text} (h : token ∈ clauseWords) : char ∉ token := by
  have hword : ∀ word ∈ clauseWords, word.all (fun char => char.isAlpha || char = '_') = true := by
    decide
  intro hmem
  have := List.all_eq_true.mp (hword token h) char hmem
  simp [hchar, hdash] at this

variable {column : ColumnDefinition}

/-- The tokens before the default have nothing but words. -/
theorem notMem_before (h : column.IsSupported) {char : Char} (hchar : char.isAlpha = false)
    (hmark : char ∈ [' ', ',', '\n', Char.ofNat 0x27, Char.ofNat 0x60]) {token : Text}
    (htoken : token ∈ column.beforeDefault) : char ∉ token := by
  have hdash : char ≠ '_' := by
    rintro rfl
    exact absurd hmark (by decide)
  have hwords : ∀ {words : List String}, (∀ word ∈ words.map String.toList, word ∈ clauseWords) →
      token ∈ words.map String.toList → char ∉ token :=
    fun hin hmem => notMem_of_clauseWords hchar hdash (hin token hmem)
  simp only [ColumnDefinition.beforeDefault, List.mem_append] at htoken
  obtain htoken | htoken | htoken | htoken := htoken
  · obtain hmem | hmem := mem_clause htoken
    · exact hwords (by decide) hmem
    · exact fun hin => (h.characterSet token hmem).chars char hin hmark
  · obtain hmem | hmem := mem_clause htoken
    · exact hwords (by decide) hmem
    · exact fun hin => (h.collation token hmem).chars char hin hmark
  · exact hwords (by decide) (mem_flag htoken)
  · exact hwords (by decide) (mem_flag htoken)

theorem notMem_autoIncrement {char : Char} (hchar : char.isAlpha = false) (hdash : char ≠ '_')
    {token : Text} (htoken : token ∈ flag column.isAutoIncrement ["AUTO_INCREMENT"]) :
    char ∉ token := by
  have hword : "AUTO_INCREMENT".toList ∈ clauseWords := by decide
  rw [List.mem_singleton.mp (mem_flag htoken)]
  exact notMem_of_clauseWords hchar hdash hword

/-- Only a default has blanks in it. -/
theorem clauses_flatMap (h : column.IsSupported) :
    column.clauses.flatMap (fun token => token.splitOn ' ') = column.clausePieces := by
  have hbefore : column.beforeDefault.flatMap (fun token => token.splitOn ' ') =
      column.beforeDefault :=
    flatMap_splitOn_eq_self fun token => notMem_before h (by decide) (by decide)
  have hauto : (flag column.isAutoIncrement ["AUTO_INCREMENT"]).flatMap
      (fun token => token.splitOn ' ') = flag column.isAutoIncrement ["AUTO_INCREMENT"] :=
    flatMap_splitOn_eq_self fun token => notMem_autoIncrement (by decide) (by decide)
  have hdefault : (clause ["DEFAULT"] (column.default.map Default.token)).flatMap
      (fun token => token.splitOn ' ') =
      (column.default.map fun default => "DEFAULT".toList :: default.token.splitOn ' ').getD [] := by
    cases column.default with
    | none => rfl
    | some default =>
        change "DEFAULT".toList.splitOn ' ' ++ (default.token.splitOn ' ' ++ []) = _
        rw [List.append_nil, List.splitOn_eq_singleton (by decide)]
        rfl
  rw [column.clauses_eq, column.clausePieces_eq, List.flatMap_append, List.flatMap_append, hbefore,
    hauto, hdefault]
  rfl

/-! ## The clauses one after the other -/

theorem headIn_defaultPieces (column : ColumnDefinition) :
    HeadIn column.defaultPieces ["DEFAULT".toList, "AUTO_INCREMENT".toList] := by
  unfold ColumnDefinition.defaultPieces
  have hauto : HeadIn (flag column.isAutoIncrement ["AUTO_INCREMENT"]) ["AUTO_INCREMENT".toList] := by
    cases column.isAutoIncrement with
    | false => exact headIn_nil
    | true => exact fun head hhead => by simpa [flag] using hhead.symm
  apply hauto.append
  cases column.default with
  | none => exact fun head hhead => absurd hhead (by simp)
  | some default => exact fun head hhead => (Option.some.inj hhead).symm

theorem headIn_flag {rest : List Text} {heads : List Text} (h : HeadIn rest heads) (isSet : Bool)
    (word : String) (words : List String) :
    HeadIn (flag isSet (word :: words) ++ rest) (word.toList :: heads) := by
  apply h.append
  cases isSet with
  | false => exact fun head hhead => absurd hhead (by simp [flag])
  | true => exact fun head hhead => (Option.some.inj hhead).symm

theorem headIn_nullPieces (column : ColumnDefinition) :
    HeadIn column.nullPieces
      ["NULL".toList, "DEFAULT".toList, "AUTO_INCREMENT".toList] :=
  headIn_flag (headIn_defaultPieces column) _ "NULL" []

theorem headIn_notNullPieces (column : ColumnDefinition) :
    HeadIn column.notNullPieces
      ["NOT".toList, "NULL".toList, "DEFAULT".toList, "AUTO_INCREMENT".toList] :=
  headIn_flag (headIn_nullPieces column) _ "NOT" ["NULL"]

/-- A collation that comes with its character set. -/
theorem parseCharset_clausePieces (h : column.characterSet = none → column.collation = none)
    {base : Column} (hcharset : base.charsetName = none) (hcollation : base.collationName = none) :
    parseCharset base column.clausePieces =
      ({ base with charsetName := column.characterSet, collationName := column.collation },
        column.notNullPieces) := by
  have hhead := headIn_notNullPieces column
  unfold ColumnDefinition.clausePieces
  cases hset : column.characterSet with
  | none =>
      rw [h hset]
      have hne : column.notNullPieces.head? ≠ some "CHARACTER".toList := hhead.head?_ne (by decide)
      change parseCharset base column.notNullPieces = _
      have hbase : { base with charsetName := none, collationName := none } = base := by
        cases base
        simp_all
      rw [parseCharset, if_neg hne, hbase]
  | some set =>
      cases column.collation with
      | none =>
          have hne : column.notNullPieces.head? ≠ some "COLLATE".toList := hhead.head?_ne (by decide)
          change parseCharset base ("CHARACTER".toList :: "SET".toList :: set :: column.notNullPieces) = _
          rw [parseCharset, if_pos (by rfl)]
          change (if column.notNullPieces.head? = some "COLLATE".toList then _ else _) = _
          have hbase : { base with charsetName := some set, collationName := none } =
              { base with charsetName := some set } := by
            cases base
            simp_all
          rw [if_neg hne, hbase]
          rfl
      | some collation => rfl

/-- A collation without a character set hides the clauses after it. -/
theorem parseClauses_collation {collation : Text} (hset : column.characterSet = none)
    (hcollation : column.collation = some collation) (line : Text) (base : Column) :
    (parseClauses line base column.clausePieces).collationName = base.collationName := by
  unfold ColumnDefinition.clausePieces
  rw [hset, hcollation]
  rfl

theorem parseNotNull_notNullPieces (base : Column) :
    parseNotNull base column.notNullPieces =
      ({ base with isNullable := column.isNullable }, column.nullPieces) := by
  unfold ColumnDefinition.notNullPieces
  cases column.isNullable with
  | false => rfl
  | true =>
      have hne : column.nullPieces.head? ≠ some "NOT".toList :=
        (headIn_nullPieces column).head?_ne (by decide)
      change parseNotNull base column.nullPieces = _
      rw [parseNotNull, if_neg hne]

/-! ## Defaults -/

theorem splitOn_first {separator first : Char} (h : first ≠ separator) (text : Text) :
    ∃ word words, (first :: text).splitOn separator = (first :: word) :: words := by
  rw [List.splitOn_cons_eq_if_modifyHead, if_neg (by simpa using h)]
  cases hpieces : text.splitOn separator with
  | nil => exact absurd hpieces (List.splitOn_ne_nil _ _)
  | cons word words => exact ⟨word, words, rfl⟩

theorem escapeChar_length (char : Char) : 1 ≤ (escapeChar char).length := by
  unfold escapeChar
  split_ifs <;> simp

theorem le_length_escape (value : Text) : value.length ≤ (value.flatMap escapeChar).length := by
  induction value with
  | nil => exact Nat.le_refl 0
  | cons char value ih =>
      have := escapeChar_length char
      rw [List.flatMap_cons, List.length_append, List.length_cons]
      omega

/-- A text is printed as it is when each character is. -/
theorem flatMap_escapeChar_eq_self_iff (value : Text) :
    value.flatMap escapeChar = value ↔ ∀ char ∈ value, escapeChar char = [char] := by
  induction value with
  | nil => exact ⟨fun _ => nofun, fun _ => rfl⟩
  | cons char value ih =>
      rw [List.flatMap_cons, List.forall_mem_cons, ← ih]
      constructor
      · intro h
        have hlength := congrArg List.length h
        have hle := le_length_escape value
        rw [List.length_append, List.length_cons] at hlength
        have hone : (escapeChar char).length = 1 :=
          Nat.le_antisymm (by omega) (escapeChar_length char)
        obtain ⟨first, hfirst⟩ := List.length_eq_one_iff.mp hone
        rw [hfirst] at h ⊢
        obtain ⟨rfl, hrest⟩ := List.cons.inj h
        exact ⟨rfl, hrest⟩
      · rintro ⟨hchar, hvalue⟩
        rw [hchar, hvalue]
        rfl

theorem notMem_escape {value : Text} (h : Char.ofNat 0x27 ∉ value) :
    Char.ofNat 0x27 ∉ value.flatMap escapeChar := by
  intro hmem
  obtain ⟨char, hchar, hin⟩ := List.mem_flatMap.mp hmem
  have hne : char ≠ Char.ofNat 0x27 := fun heq => h (heq ▸ hchar)
  unfold escapeChar at hin
  split_ifs at hin with hslash hbreak hreturn hnull
  · subst hslash
    exact absurd hin (by decide)
  · exact absurd hin (by decide)
  · exact absurd hin (by decide)
  · exact absurd hin (by decide)
  · exact hne (List.mem_singleton.mp hin).symm

/-- A quoted text after a text without quotes is read as its value, when that is printed as
it is. -/
theorem piece_quoteText_iff {before value : Text} (hbefore : Char.ofNat 0x27 ∉ before) :
    piece (Char.ofNat 0x27) 1 (before ++ quoteText value) = some value ↔
      ∀ char ∈ value, escapeChar char = [char] := by
  have hread : Char.ofNat 0x27 ∉ value →
      piece (Char.ofNat 0x27) 1 (before ++ quoteText value) = some (value.flatMap escapeChar) :=
    fun hquote => piece_one hbefore (notMem_escape hquote) []
  rw [← flatMap_escapeChar_eq_self_iff]
  constructor
  · intro h
    have hquote := (piece_mem h).1
    rw [hread hquote] at h
    exact Option.some.inj h
  · intro h
    have hquote : Char.ofNat 0x27 ∉ value := fun hmem => by
      have := (flatMap_escapeChar_eq_self_iff value).mp h _ hmem
      exact absurd this (by decide)
    rw [hread hquote, h]

theorem integer_chars (value : ℤ) :
    ∀ char ∈ (toString value).toList, char.isDigit = true ∨ char = '-' := by
  intro char hchar
  cases value with
  | ofNat n =>
      change char ∈ digits n at hchar
      exact Or.inl (isDigit_of_mem_digits hchar)
  | negSucc n =>
      have htext : (toString (Int.negSucc n)).toList = '-' :: digits (n + 1) := by
        change ("-" ++ toString (n + 1)).toList = _
        simp [digits]
      rw [htext] at hchar
      obtain rfl | hchar := List.mem_cons.mp hchar
      · exact Or.inr rfl
      · exact Or.inl (isDigit_of_mem_digits hchar)

/-- Digits and signs are no characters that are escaped or cut at. -/
theorem notMem_of_number {text : Text} (h : ∀ char ∈ text, char.isDigit = true ∨ char = '-')
    {char : Char} (hdigit : char.isDigit = false) (hdash : char ≠ '-') : char ∉ text := by
  intro hmem
  obtain hmem | hmem := h char hmem
  · rw [hdigit] at hmem
    exact absurd hmem (by decide)
  · exact hdash hmem

theorem escapeChar_number {text : Text} (h : ∀ char ∈ text, char.isDigit = true ∨ char = '-') :
    ∀ char ∈ text, escapeChar char = [char] := by
  intro char hchar
  have hne : ∀ {other : Char}, other.isDigit = false → other ≠ '-' → char ≠ other := by
    rintro other hdigit hdash rfl
    exact notMem_of_number h hdigit hdash hchar
  unfold escapeChar
  rw [if_neg (hne (by decide) (by decide)), if_neg (hne (by decide) (by decide)),
    if_neg (hne (by decide) (by decide)), if_neg (hne (by decide) (by decide)),
    if_neg (hne (by decide) (by decide))]

theorem splitOn_quoted_number {text : Text} (h : ∀ char ∈ text, char.isDigit = true ∨ char = '-') :
    (quoteText text).splitOn ' ' = [quoteText text] := by
  apply List.splitOn_eq_singleton
  have hblank : ' ' ∉ text := notMem_of_number h (by decide) (by decide)
  rw [quoteText, (flatMap_escapeChar_eq_self_iff text).mpr (escapeChar_number h)]
  simp [hblank]

theorem bits_chars (value : ℕ) :
    ∀ char ∈ Nat.toDigits 2 value, char.isDigit = true ∨ char = '-' :=
  fun _ hchar => Or.inl (isDigit_of_mem_bits hchar)

/-- A default that is looked for in its line, after a text without quotes. -/
theorem literalDefault_iff {default : Default} {type : ColumnType} (hfits : default.Fits type)
    (hnull : default ≠ .null) {base : Column} (hbase : base.isIntegral = type.isIntegral)
    {before : Text} (hbefore : Char.ofNat 0x27 ∉ before) :
    (literalDefault base (before ++ default.token) = some default.value ∧
      (default.token.splitOn ' ')[1]? ≠ some "AUTO_INCREMENT".toList) ↔ default.IsKept := by
  unfold literalDefault
  rw [hbase]
  cases default with
  | null => exact absurd rfl hnull
  | text value =>
      have htype : type.isIntegral = false := by
        unfold Default.Fits at hfits
        exact hfits
      rw [htype]
      apply and_congr_left'
      rw [← piece_quoteText_iff hbefore]
      cases hpiece : piece (Char.ofNat 0x27) 1 (before ++ (Default.text value).token) with
      | none =>
          have : piece (Char.ofNat 0x27) 1 (before ++ quoteText value) = none := hpiece
          simp [this]
      | some raw =>
          have : piece (Char.ofNat 0x27) 1 (before ++ quoteText value) = some raw := hpiece
          simp [this, Default.value]
  | integer value =>
      have htype : type.isIntegral = true := by
        cases type with
        | integer size width => rfl
        | _ => exact absurd hfits id
      have hraw := (piece_quoteText_iff hbefore).mpr (escapeChar_number (integer_chars value))
      rw [htype]
      change (some (DefaultValue.number ((piece (Char.ofNat 0x27) 1 (before ++
        quoteText (toString value).toList)).bind parseInt)) = some (.number (some value)) ∧
        ((quoteText (toString value).toList).splitOn ' ')[1]? ≠ _) ↔ toNumber value = some value
      rw [hraw, splitOn_quoted_number (integer_chars value), Option.bind_some, parseInt_integer]
      simp
  | bits value =>
      have htype : type.isIntegral = true := by
        cases type with
        | bit length => rfl
        | _ => exact absurd hfits id
      have hquote : Char.ofNat 0x27 ∉ before ++ ['b'] := by
        have hb : Char.ofNat 0x27 ∉ ['b'] := by decide
        simp [hbefore, hb]
      have hraw := (piece_quoteText_iff hquote).mpr (escapeChar_number (bits_chars value))
      have hsingle : ('b' :: quoteText (Nat.toDigits 2 value)).splitOn ' ' =
          ['b' :: quoteText (Nat.toDigits 2 value)] := by
        rw [List.splitOn_cons_eq_if_modifyHead, splitOn_quoted_number (bits_chars value)]
        rfl
      rw [List.append_assoc, List.singleton_append] at hraw
      rw [htype]
      change (some (DefaultValue.number ((piece (Char.ofNat 0x27) 1 (before ++
        'b' :: quoteText (Nat.toDigits 2 value))).bind parseInt)) =
        some (.number (some (value : ℤ))) ∧
        (('b' :: quoteText (Nat.toDigits 2 value)).splitOn ' ')[1]? ≠ _) ↔ value ≤ 1
      rw [hraw, hsingle, Option.bind_some, ← parseInt_bits_iff]
      simp
  | currentTimestamp =>
      have htype : type.isIntegral = false := by
        cases type with
        | datetime fsp => rfl
        | timestamp fsp => rfl
        | _ => exact absurd hfits id
      have hword : Char.ofNat 0x27 ∉ Default.currentTimestamp.token := by decide
      have hall : Char.ofNat 0x27 ∉ before ++ Default.currentTimestamp.token := by
        simp only [List.mem_append, hbefore, hword, or_self, not_false_eq_true]
      have hpiece : piece (Char.ofNat 0x27) 1 (before ++ Default.currentTimestamp.token) = none := by
        rw [piece, List.splitOn_eq_singleton hall]
        rfl
      rw [htype, hpiece]
      simp [Default.IsKept]

/-! ## The column that is parsed -/

/-- The column before its clauses. -/
def ColumnDefinition.base (column : ColumnDefinition) (columnNumber : ℕ) : Column :=
  column.type.addTo (.new columnNumber column.name column.type.word column.isUnsigned)

/-- The column that its line is parsed to. -/
def ColumnDefinition.parsed (column : ColumnDefinition) (columnNumber : ℕ) : Column :=
  parseClauses (lineOf column.tokens) (column.base columnNumber) column.clausePieces

/-- The column with this default and this sign of an automatic increment. -/
def ColumnDefinition.readAs (column : ColumnDefinition) (columnNumber : ℕ)
    (defaultValue : Option DefaultValue) (isAutoincrement : Bool) : Column :=
  { column.base columnNumber with
    charsetName := column.characterSet
    collationName := column.collation
    isNullable := column.isNullable
    defaultValue
    isAutoincrement }

theorem ColumnDefinition.metadata_eq (column : ColumnDefinition) (columnNumber : ℕ) :
    column.metadata columnNumber false =
      column.readAs columnNumber (column.default.map Default.value) column.isAutoIncrement := rfl

theorem ColumnDefinition.readAs_inj {columnNumber : ℕ} {value other : Option DefaultValue}
    {isSet isOther : Bool} :
    column.readAs columnNumber value isSet = column.readAs columnNumber other isOther ↔
      value = other ∧ isSet = isOther := by
  constructor
  · intro h
    exact ⟨congrArg Column.defaultValue h, congrArg Column.isAutoincrement h⟩
  · rintro ⟨rfl, rfl⟩
    rfl

/-- The clauses after a character set and its collation. -/
theorem parsed_eq (h : column.characterSet = none → column.collation = none) (columnNumber : ℕ) :
    column.parsed columnNumber =
      parseAutoIncrement
        (parseDefault (lineOf column.tokens)
          (column.readAs columnNumber none false) column.nullPieces).1
        (parseDefault (lineOf column.tokens)
          (column.readAs columnNumber none false) column.nullPieces).2 := by
  unfold ColumnDefinition.parsed parseClauses
  rw [parseCharset_clausePieces h rfl rfl]
  change parseAutoIncrement (parseDefault _ (parseNotNull _ column.notNullPieces).1
    (parseNotNull _ column.notNullPieces).2).1 _ = _
  rw [parseNotNull_notNullPieces]
  rfl

/-- `NULL` is not looked for, so nothing after it is found. -/
theorem parsed_timestamp (h : column.characterSet = none → column.collation = none)
    (hnull : (column.isNullable && column.type.isTimestamp) = true) (columnNumber : ℕ) :
    column.parsed columnNumber = column.readAs columnNumber none false := by
  rw [parsed_eq h]
  unfold ColumnDefinition.nullPieces
  rw [hnull]
  rfl

theorem nullPieces_eq (hnull : (column.isNullable && column.type.isTimestamp) = false) :
    column.nullPieces = column.defaultPieces := by
  unfold ColumnDefinition.nullPieces
  rw [hnull]
  rfl

theorem parsed_noDefault (h : column.characterSet = none → column.collation = none)
    (hnull : (column.isNullable && column.type.isTimestamp) = false)
    (hdefault : column.default = none) (columnNumber : ℕ) :
    column.parsed columnNumber = column.readAs columnNumber none column.isAutoIncrement := by
  rw [parsed_eq h, nullPieces_eq hnull]
  unfold ColumnDefinition.defaultPieces
  rw [hdefault]
  cases column.isAutoIncrement with
  | false => rfl
  | true => rfl

theorem parseDefault_word (line : Text) (base : Column) (word : Text) (words : List Text) :
    parseDefault line base ("DEFAULT".toList :: word :: words) =
      ({ base with
          defaultValue :=
            if word = "NULL".toList then some .null else literalDefault base line }, words) := by
  have hword : (some word = some "NULL".toList) = (word = "NULL".toList) :=
    propext Option.some_inj
  unfold parseDefault
  rw [if_pos (by rfl)]
  change ({ base with
    defaultValue := if some word = some "NULL".toList then some .null
      else literalDefault base line }, words) = _
  simp only [hword]

/-- The default is found, and what stands after its first blank is taken for a clause. -/
theorem parsed_default (h : column.characterSet = none → column.collation = none)
    (hnull : (column.isNullable && column.type.isTimestamp) = false) {default : Default}
    (hdefault : column.default = some default) (hauto : column.isAutoIncrement = false)
    (columnNumber : ℕ) :
    column.parsed columnNumber =
      column.readAs columnNumber
        (if (default.token.splitOn ' ')[0]? = some "NULL".toList then some .null
          else literalDefault (column.readAs columnNumber none false) (lineOf column.tokens))
        (decide ((default.token.splitOn ' ')[1]? = some "AUTO_INCREMENT".toList)) := by
  have hpieces : column.nullPieces = "DEFAULT".toList :: default.token.splitOn ' ' := by
    rw [nullPieces_eq hnull]
    unfold ColumnDefinition.defaultPieces
    rw [hdefault, hauto]
    exact List.append_nil _
  rw [parsed_eq h, hpieces]
  obtain ⟨word, words, hwords⟩ := List.exists_cons_of_ne_nil
    (List.splitOn_ne_nil ' ' default.token)
  rw [hwords, parseDefault_word]
  unfold parseAutoIncrement
  change (if words.head? = _ then _ else _) = _
  rw [List.getElem?_cons_zero, List.getElem?_cons_succ, ← List.head?_eq_getElem?]
  by_cases hword : words.head? = some "AUTO_INCREMENT".toList
  · rw [if_pos hword, decide_eq_true hword]
    simp only [Option.some_inj]
    rfl
  · rw [if_neg hword, decide_eq_false hword]
    simp only [Option.some_inj]
    rfl

/-! ## The columns that are read back -/

theorem notMem_quoteName {name : Text} (hplain : IsPlainName name) {char : Char} (hname : char ∉ name)
    (hchar : char ≠ Char.ofNat 0x60) : char ∉ quoteName name := by
  rw [quoteName_of_plain hplain.quote]
  simp [hname, hchar]

/-- A default stands at the end of its line, and there are no quotes before it. -/
theorem line_default (h : column.IsSupported) (hplain : IsPlainName column.name)
    (hquote : Char.ofNat 0x27 ∉ column.name) {default : Default}
    (hdefault : column.default = some default) (hauto : column.isAutoIncrement = false) :
    ∃ before, Char.ofNat 0x27 ∉ before ∧ lineOf column.tokens = before ++ default.token := by
  let front : List Text := quoteName column.name :: column.type.token ::
    (flag column.isUnsigned ["unsigned"] ++ (column.beforeDefault ++ ["DEFAULT".toList]))
  have htokens : column.tokens = front ++ [default.token] := by
    unfold ColumnDefinition.tokens
    rw [column.clauses_eq, hdefault, hauto]
    simp [front, clause, flag]
  have hname := notMem_quoteName hplain hquote (by decide)
  have htype := column.type.notMem_token (show (Char.ofNat 0x27).isLower = false by decide)
    (by decide) (by decide)
  have hwords : ∀ token ∈ clauseWords, Char.ofNat 0x27 ∉ token :=
    fun token => notMem_of_clauseWords (by decide) (by decide)
  have hfront : ∀ token ∈ front, Char.ofNat 0x27 ∉ token := by
    intro token htoken
    obtain rfl | htoken := List.mem_cons.mp htoken
    · exact hname
    · obtain rfl | htoken := List.mem_cons.mp htoken
      · exact htype
      · obtain htoken | htoken := List.mem_append.mp htoken
        · rw [List.mem_singleton.mp (mem_flag htoken)]
          exact hwords _ (by decide)
        · obtain htoken | htoken := List.mem_append.mp htoken
          · exact notMem_before h (by decide) (by decide) htoken
          · rw [List.mem_singleton.mp htoken]
            exact hwords _ (by decide)
  have hline : Char.ofNat 0x27 ∉ lineOf front := notMem_lineOf (by decide) hfront
  have hblank : Char.ofNat 0x27 ∉ [' '] := by decide
  refine ⟨lineOf front ++ [' '], ?_, ?_⟩
  · exact fun hmem => (List.mem_append.mp hmem).elim hline hblank
  · rw [htokens, lineOf_concat, List.append_assoc]
    rfl

theorem first_ne_null {default : Default} (hnull : default ≠ .null) :
    (default.token.splitOn ' ')[0]? ≠ some "NULL".toList := by
  have hfirst : ∀ (first : Char) (text : Text), first ≠ ' ' → first ≠ 'N' →
      ((first :: text).splitOn ' ')[0]? ≠ some "NULL".toList := by
    intro first text hblank hne hnil
    obtain ⟨word, words, hwords⟩ := splitOn_first hblank text
    rw [hwords] at hnil
    exact hne (List.cons.inj (Option.some.inj hnil)).1
  cases default with
  | null => exact absurd rfl hnull
  | text value => exact hfirst _ _ (by decide) (by decide)
  | integer value => exact hfirst _ _ (by decide) (by decide)
  | bits value => exact hfirst _ _ (by decide) (by decide)
  | currentTimestamp => decide

theorem noAutoIncrement (h : column.IsSupported) {default : Default}
    (hdefault : column.default = some default) : column.isAutoIncrement = false := by
  cases hauto : column.isAutoIncrement with
  | false => rfl
  | true =>
      rw [(h.autoIncrement hauto).1] at hdefault
      exact absurd hdefault (by simp)

/-- The column that is parsed has the default of its definition. -/
theorem parsed_literal_iff (h : column.IsSupported) (hplain : IsPlainName column.name)
    (hquote : Char.ofNat 0x27 ∉ column.name) (hcollation : column.characterSet = none →
      column.collation = none) (hnull : (column.isNullable && column.type.isTimestamp) = false)
    {default : Default} (hdefault : column.default = some default) (hliteral : default ≠ .null)
    (columnNumber : ℕ) :
    column.parsed columnNumber = column.metadata columnNumber false ↔ default.IsKept := by
  have hauto := noAutoIncrement h hdefault
  obtain ⟨before, hbefore, hline⟩ := line_default h hplain hquote hdefault hauto
  have hbase : (column.readAs columnNumber none false).isIntegral = column.type.isIntegral := rfl
  have hread := literalDefault_iff (h.default default hdefault) hliteral hbase hbefore
  rw [parsed_default hcollation hnull hdefault hauto, if_neg (first_ne_null hliteral),
    column.metadata_eq, ColumnDefinition.readAs_inj, hdefault, hauto, hline, ← hread,
    decide_eq_false_iff_not]
  rfl

theorem parsed_of_kept (h : column.IsSupported) (hplain : IsPlainName column.name)
    (hkept : column.IsKept) (columnNumber : ℕ) :
    column.parsed columnNumber = column.metadata columnNumber false := by
  cases hdefault : column.default with
  | none =>
      rw [column.metadata_eq, hdefault]
      cases hnull : (column.isNullable && column.type.isTimestamp) with
      | false => exact parsed_noDefault hkept.collation hnull hdefault columnNumber
      | true =>
          have hauto : column.isAutoIncrement = false := by
            cases hauto : column.isAutoIncrement with
            | false => rfl
            | true =>
                rw [(h.autoIncrement hauto).2, Bool.and_false] at hnull
                exact absurd hnull (by decide)
          rw [hauto]
          exact parsed_timestamp hkept.collation hnull columnNumber
  | some default =>
      have hauto := noAutoIncrement h hdefault
      have hnull : (column.isNullable && column.type.isTimestamp) = false := by
        by_contra hnull
        obtain ⟨hnullable, htype⟩ := Bool.and_eq_true_iff.mp (Bool.eq_true_of_not_eq_false hnull)
        rw [hkept.timestamp htype hnullable] at hdefault
        exact absurd hdefault (by simp)
      by_cases hliteral : default = .null
      · subst hliteral
        rw [parsed_default hkept.collation hnull hdefault hauto, column.metadata_eq, hdefault, hauto]
        rfl
      · have hquote : Char.ofNat 0x27 ∉ column.name := by
          obtain hquote | hnone | hnull := hkept.quotes
          · exact hquote
          · rw [hdefault] at hnone
            exact absurd hnone (by simp)
          · rw [hdefault] at hnull
            exact absurd (Option.some.inj hnull) hliteral
        exact (parsed_literal_iff h hplain hquote hkept.collation hnull hdefault hliteral
          columnNumber).mpr (hkept.default default hdefault)

/-- A column is read back only when it is kept. -/
theorem kept_of_parsed (h : column.IsSupported) (hplain : IsPlainName column.name)
    (hquote : Char.ofNat 0x27 ∉ column.name) {columnNumber : ℕ}
    (heq : column.parsed columnNumber = column.metadata columnNumber false) : column.IsKept := by
  have hcollation : column.characterSet = none → column.collation = none := by
    intro hset
    cases hcollation : column.collation with
    | none => rfl
    | some collation =>
        have hname := congrArg Column.collationName heq
        rw [ColumnDefinition.parsed, parseClauses_collation hset hcollation] at hname
        change none = column.collation at hname
        rw [hcollation] at hname
        exact absurd hname (by simp)
  have hnull : column.default = none ∨ (column.isNullable && column.type.isTimestamp) = false := by
    cases hnull : (column.isNullable && column.type.isTimestamp) with
    | false => exact Or.inr rfl
    | true =>
        rw [parsed_timestamp hcollation hnull, column.metadata_eq,
          ColumnDefinition.readAs_inj] at heq
        exact Or.inl (Option.map_eq_none_iff.mp heq.1.symm)
  refine ⟨hcollation, fun htype hnullable => ?_, fun default hdefault => ?_, Or.inl hquote⟩
  · obtain hnone | hnull := hnull
    · exact hnone
    · rw [htype, hnullable] at hnull
      exact absurd hnull (by decide)
  · obtain hnone | hnull := hnull
    · rw [hnone] at hdefault
      exact absurd hdefault (by simp)
    · by_cases hliteral : default = .null
      · subst hliteral
        trivial
      · exact (parsed_literal_iff h hplain hquote hcollation hnull hdefault hliteral
          columnNumber).mp heq

end DatabaseJones.MySQLDictionary
