import DatabaseJones.Library.OptionLists
import DatabaseJones.MySQLDictionary.ShowCreateTable
import Mathlib.Data.List.TakeWhile

/-!
# The tokens of a line

A text that is joined with a separator is cut into the pieces of its parts, so a line is cut
into its tokens and the text into its lines; only a default with blanks and a list with
blanks are cut further.  Names without blanks, back-quotes and line breaks are found between
their back-quotes, and numbers are read as they are written.
-/

namespace DatabaseJones.MySQLDictionary

open DatabaseJones.Library

/-! ## Cutting -/

/-- A joined text is cut into the pieces of its parts. -/
theorem splitOn_intercalate_flatMap (separator : Char) (part : Text) (parts : List Text) :
    ([separator].intercalate (part :: parts)).splitOn separator =
      (part :: parts).flatMap fun part => part.splitOn separator := by
  induction parts generalizing part with
  | nil => simp
  | cons next parts ih =>
      rw [List.intercalate_cons_cons, List.append_assoc, List.singleton_append,
        List.splitOn_append_cons_self, ih]
      rfl

/-- No piece has the separator, and all its characters are from the text. -/
theorem mem_splitOn {separator : Char} {text word : Text} (h : word ∈ text.splitOn separator) :
    separator ∉ word ∧ ∀ char ∈ word, char ∈ text := by
  induction text generalizing word with
  | nil =>
      rw [List.splitOn_nil, List.mem_singleton] at h
      subst h
      exact ⟨List.not_mem_nil, nofun⟩
  | cons first text ih =>
      rw [List.splitOn_cons_eq_if_modifyHead] at h
      split at h
      · obtain rfl | h := List.mem_cons.mp h
        · exact ⟨List.not_mem_nil, nofun⟩
        · obtain ⟨hsep, hchars⟩ := ih h
          exact ⟨hsep, fun char hchar => List.mem_cons_of_mem _ (hchars char hchar)⟩
      · next hfirst =>
          cases hpieces : text.splitOn separator with
          | nil => exact absurd hpieces (List.splitOn_ne_nil _ _)
          | cons head pieces =>
              rw [hpieces] at h
              obtain rfl | h := List.mem_cons.mp h
              · obtain ⟨hsep, hchars⟩ := ih (hpieces ▸ List.mem_cons_self : head ∈ _)
                have hne : separator ≠ first := fun heq => hfirst (by simp [heq])
                refine ⟨by simp [hne, hsep], fun char hchar => ?_⟩
                obtain rfl | hchar := List.mem_cons.mp hchar
                · exact List.mem_cons_self
                · exact List.mem_cons_of_mem _ (hchars char hchar)
              · obtain ⟨hsep, hchars⟩ := ih (hpieces ▸ List.mem_cons_of_mem _ h : word ∈ _)
                exact ⟨hsep, fun char hchar => List.mem_cons_of_mem _ (hchars char hchar)⟩

theorem piece_mem {separator : Char} {index : ℕ} {text word : Text}
    (h : piece separator index text = some word) :
    separator ∉ word ∧ ∀ char ∈ word, char ∈ text :=
  mem_splitOn (List.mem_of_getElem? h)

/-- What stands between the first two separators. -/
theorem piece_one {separator : Char} {before within : Text} (hbefore : separator ∉ before)
    (hwithin : separator ∉ within) (after : Text) :
    piece separator 1 (before ++ separator :: (within ++ separator :: after)) = some within := by
  unfold piece
  rw [List.splitOn_append_cons_self_of_not_mem hbefore,
    List.splitOn_append_cons_self_of_not_mem hwithin]
  rfl

/-! ## Names -/

/-- A name that stays in one piece. -/
structure IsPlainName (name : Text) : Prop where
  blank : ' ' ∉ name
  quote : Char.ofNat 0x60 ∉ name
  lineBreak : '\n' ∉ name

theorem quoteName_of_plain {name : Text} (h : Char.ofNat 0x60 ∉ name) :
    quoteName name = Char.ofNat 0x60 :: (name ++ [Char.ofNat 0x60]) := by
  have hflat : (name.flatMap fun char =>
      if char = Char.ofNat 0x60 then [char, char] else [char]) = name := by
    induction name with
    | nil => rfl
    | cons char name ih =>
        obtain ⟨hchar, hname⟩ := not_or.mp (mt List.mem_cons.mpr h)
        rw [List.flatMap_cons, if_neg (Ne.symm hchar), ih hname]
        rfl
  rw [quoteName, hflat]
  rfl

theorem piece_quoteName {name : Text} (h : IsPlainName name) :
    piece (Char.ofNat 0x60) 1 (quoteName name) = some name := by
  rw [quoteName_of_plain h.quote]
  exact piece_one List.not_mem_nil h.quote []

/-- The names between back-quotes, with texts without back-quotes between and around them. -/
theorem everySecond_names {separator closing : Text} (hseparator : Char.ofNat 0x60 ∉ separator)
    (hclosing : Char.ofNat 0x60 ∉ closing) (names : List Text)
    (hnames : ∀ name ∈ names, Char.ofNat 0x60 ∉ name) (opening : Text)
    (hopening : Char.ofNat 0x60 ∉ opening) :
    everySecond ((opening ++ (separator.intercalate (names.map quoteName) ++ closing)).splitOn
      (Char.ofNat 0x60)) = names := by
  induction names generalizing opening with
  | nil =>
      have hall : Char.ofNat 0x60 ∉ opening ++ closing := by simp [hopening, hclosing]
      change everySecond ((opening ++ closing).splitOn _) = []
      rw [List.splitOn_eq_singleton hall]
      rfl
  | cons name names ih =>
      have hname := hnames name List.mem_cons_self
      have hrest := ih fun other hother => hnames other (List.mem_cons_of_mem _ hother)
      cases names with
      | nil =>
          rw [List.map_cons, List.map_nil, List.intercalate_singleton, quoteName_of_plain hname]
          change everySecond ((opening ++ Char.ofNat 0x60 :: (name ++ [Char.ofNat 0x60] ++
            closing)).splitOn _) = [name]
          rw [List.splitOn_append_cons_self_of_not_mem hopening, List.append_assoc,
            List.singleton_append, List.splitOn_append_cons_self_of_not_mem hname,
            List.splitOn_eq_singleton hclosing]
          rfl
      | cons next names =>
          rw [List.map_cons, List.map_cons, List.intercalate_cons_cons, quoteName_of_plain hname]
          have htext : opening ++ (Char.ofNat 0x60 :: (name ++ [Char.ofNat 0x60]) ++ separator ++
              separator.intercalate (quoteName next :: names.map quoteName) ++ closing) =
              opening ++ Char.ofNat 0x60 :: (name ++ Char.ofNat 0x60 :: (separator ++
                (separator.intercalate ((next :: names).map quoteName) ++ closing))) := by
            simp
          rw [htext, List.splitOn_append_cons_self_of_not_mem hopening,
            List.splitOn_append_cons_self_of_not_mem hname]
          exact congrArg (name :: ·) (hrest separator hseparator)

theorem decode_nameList {separator : Text} (hseparator : Char.ofNat 0x60 ∉ separator)
    (names : List Text) (hnames : ∀ name ∈ names, Char.ofNat 0x60 ∉ name) :
    decodeIndexColumnNames (nameList separator names) = names := by
  have hclosing : Char.ofNat 0x60 ∉ [')'] := by decide
  exact everySecond_names hseparator hclosing names hnames ['('] (by decide)

/-! ## Numbers -/

theorem digits_eq (value : ℕ) : digits value = Nat.toDigits 10 value := by
  simp [digits]

theorem isDigit_of_mem_digits {value : ℕ} {char : Char} (h : char ∈ digits value) :
    char.isDigit = true := by
  rw [digits_eq] at h
  exact Nat.isDigit_of_mem_toDigits (by norm_num) (by norm_num) h

theorem digits_ne_nil (value : ℕ) : digits value ≠ [] := by
  rw [digits_eq]
  exact Nat.toDigits_ne_nil

theorem isDigit_range {char : Char} (h : char.isDigit = true) :
    48 ≤ char.toNat ∧ char.toNat ≤ 57 := by
  simp only [Char.isDigit, Bool.and_eq_true, decide_eq_true_eq] at h
  exact ⟨h.1, h.2⟩

theorem ne_of_isDigit {char other : Char} (h : char.isDigit = true) (hother : other.isDigit = false) :
    char ≠ other := by
  rintro rfl
  rw [h] at hother
  exact absurd hother (by decide)

theorem not_isWhitespace_of_isDigit {char : Char} (h : char.isDigit = true) :
    char.isWhitespace = false := by
  have hblank := ne_of_isDigit h (show ' '.isDigit = false by decide)
  have htab := ne_of_isDigit h (show '\t'.isDigit = false by decide)
  have hreturn := ne_of_isDigit h (show '\r'.isDigit = false by decide)
  have hbreak := ne_of_isDigit h (show '\n'.isDigit = false by decide)
  simp [Char.isWhitespace, hblank, htab, hreturn, hbreak]

/-- A text of digits is read as the number that it is. -/
theorem parseInt_of_digits {text : Text} (hne : text ≠ [])
    (hdigits : ∀ char ∈ text, char.isDigit = true) :
    parseInt text = toNumber (digitsValue text) := by
  obtain ⟨char, rest, rfl⟩ := List.exists_cons_of_ne_nil hne
  have hchar := hdigits char List.mem_cons_self
  have htrim : (char :: rest).dropWhile Char.isWhitespace = char :: rest := by
    rw [List.dropWhile_cons_of_neg (by simp [not_isWhitespace_of_isDigit hchar])]
  have hminus : (char :: rest).head? ≠ some '-' := by
    simpa using ne_of_isDigit hchar (by decide)
  have hplus : (char :: rest).head? ≠ some '+' := by
    simpa using ne_of_isDigit hchar (by decide)
  unfold parseInt
  simp only [htrim, hminus, hplus, or_self, if_false, List.takeWhile_eq_self_iff.mpr hdigits, reduceCtorEq]

/-- A sign before digits. -/
theorem parseInt_of_negative {text : Text} (hne : text ≠ [])
    (hdigits : ∀ char ∈ text, char.isDigit = true) :
    parseInt ('-' :: text) = toNumber (-(digitsValue text : ℤ)) := by
  have htrim : ('-' :: text).dropWhile Char.isWhitespace = '-' :: text := rfl
  unfold parseInt
  simp only [htrim, List.head?_cons, true_or, if_true, List.tail_cons, List.takeWhile_eq_self_iff.mpr hdigits,
    hne, if_false]

theorem digitsValue_digits (value : ℕ) : digitsValue (digits value) = value := by
  rw [digits_eq]
  exact Nat.ofDigitChars_ten_toDigits

theorem parseInt_digits (value : ℕ) : parseInt (digits value) = toNumber value := by
  rw [parseInt_of_digits (digits_ne_nil value) fun _ => isDigit_of_mem_digits, digitsValue_digits]

/-- An integer is read as the double next to it. -/
theorem parseInt_integer (value : ℤ) : parseInt (toString value).toList = toNumber value := by
  cases value with
  | ofNat n => exact parseInt_digits n
  | negSucc n =>
      have htext : (toString (Int.negSucc n)).toList = '-' :: digits (n + 1) := by
        change ("-" ++ toString (n + 1)).toList = _
        simp [digits]
      rw [htext, parseInt_of_negative (digits_ne_nil _) fun _ => isDigit_of_mem_digits,
        digitsValue_digits]
      rfl

theorem toNumber_of_lt {value : ℕ} (h : value < 2 ^ 53) : toNumber value = some (value : ℤ) := by
  unfold toNumber
  rw [Int.natAbs_natCast, Ndb.roundToDouble_of_lt h, Option.map_some]
  obtain rfl | hpos := Nat.eq_zero_or_pos value
  · rfl
  · rw [Int.sign_natCast_of_ne_zero (by omega), one_mul]

/-- Rounding does not halve a number. -/
theorem le_of_toNumber {value rounded : ℕ} (h : toNumber value = some (rounded : ℤ)) :
    value ≤ 2 * rounded := by
  unfold toNumber at h
  rw [Int.natAbs_natCast] at h
  obtain ⟨magnitude, hmagnitude, heq⟩ := Option.map_eq_some_iff.mp h
  obtain rfl | hpos := Nat.eq_zero_or_pos value
  · exact Nat.zero_le _
  · rw [Int.sign_natCast_of_ne_zero (by omega), one_mul, Int.natCast_inj] at heq
    subst heq
    obtain ⟨-, hvalue⟩ := Option.ite_none_right_eq_some.mp hmagnitude
    obtain rfl := Option.some.inj hvalue
    set shift := Nat.log2 value - 52 with hshift
    have hle : value / 2 ^ shift * 2 ^ shift ≤ Ndb.significand value shift * 2 ^ shift :=
      Nat.mul_le_mul_right _ (Ndb.div_le_significand _ _)
    have hmod := Nat.div_add_mod value (2 ^ shift)
    have hlt := Nat.mod_lt value (Nat.two_pow_pos shift)
    have hpow : 2 ^ shift ≤ value := by
      calc 2 ^ shift ≤ 2 ^ Nat.log2 value := Nat.pow_le_pow_right two_pos (by omega)
        _ ≤ value := Nat.log2_self_le (by omega)
    have hquotient : 1 ≤ value / 2 ^ shift := Nat.div_pos hpow (Nat.two_pow_pos _)
    have hone : 2 ^ shift ≤ value / 2 ^ shift * 2 ^ shift := Nat.le_mul_of_pos_left _ hquotient
    rw [Nat.mul_comm] at hmod
    omega

/-! ## Bits -/

theorem digitsValue_append (text : Text) (char : Char) :
    digitsValue (text ++ [char]) = 10 * digitsValue text + (char.toNat - '0'.toNat) := by
  simp [digitsValue]

/-- The binary digits of a number, read as decimal ones. -/
theorem digitsValue_bits (value : ℕ) :
    value ≤ digitsValue (Nat.toDigits 2 value) ∧
      (2 ≤ value → 3 * value ≤ digitsValue (Nat.toDigits 2 value)) := by
  induction value using Nat.strong_induction_on with
  | _ value ih =>
      by_cases hsmall : value < 2
      · interval_cases value <;> decide
      · have hlast : Nat.toDigits 2 value =
            Nat.toDigits 2 (value / 2) ++ [Nat.digitChar (value % 2)] :=
          Nat.toDigits_of_base_le (by norm_num) (by omega)
        have hdigit : (Nat.digitChar (value % 2)).toNat - '0'.toNat = value % 2 :=
          Nat.toNat_digitChar_sub_48_of_lt_ten (by omega)
        obtain ⟨hhalf, -⟩ := ih (value / 2) (by omega)
        rw [hlast, digitsValue_append, hdigit]
        omega

theorem isDigit_of_mem_bits {value : ℕ} {char : Char} (h : char ∈ Nat.toDigits 2 value) :
    char.isDigit = true :=
  Nat.isDigit_of_mem_toDigits (by norm_num) (by norm_num) h

/-- Binary digits are read rightly for 0 and 1 only. -/
theorem parseInt_bits_iff (value : ℕ) :
    parseInt (Nat.toDigits 2 value) = some (value : ℤ) ↔ value ≤ 1 := by
  rw [parseInt_of_digits Nat.toDigits_ne_nil fun _ => isDigit_of_mem_bits]
  constructor
  · intro h
    have hle := le_of_toNumber h
    by_contra hlarge
    have hthree := (digitsValue_bits value).2 (by omega)
    omega
  · intro h
    have hvalue : digitsValue (Nat.toDigits 2 value) = value := by
      interval_cases value <;> decide
    rw [hvalue]
    exact toNumber_of_lt (by omega)

end DatabaseJones.MySQLDictionary

/-!
## The line of a column

The size and the word of a type are found at its parentheses.  Each clause after the type
starts with a word of its own, except that `COLLATE` is only looked for after a character
set and `NULL` is not looked for at all, so that the clauses after these are not found.  A
default is the first quoted text of the line, as it is written.
-/

namespace DatabaseJones.MySQLDictionary

open DatabaseJones.Library

/-! ## Lines -/

/-- A word that is no part of the grammar of lines. -/
structure IsWord (word : Text) : Prop where
  nonempty : word ≠ []
  chars : ∀ char ∈ word, char ∉ [' ', ',', '\n', Char.ofNat 0x27, Char.ofNat 0x60]

theorem mem_intercalate {separator char : Char} {parts : List Text}
    (h : char ∈ [separator].intercalate parts) : char = separator ∨ ∃ part ∈ parts, char ∈ part := by
  induction parts with
  | nil => exact absurd h List.not_mem_nil
  | cons part parts ih =>
      cases parts with
      | nil =>
          rw [List.intercalate_singleton] at h
          exact Or.inr ⟨part, List.mem_cons_self, h⟩
      | cons next parts =>
          rw [List.intercalate_cons_cons] at h
          obtain h | h := List.mem_append.mp h
          · obtain h | h := List.mem_append.mp h
            · exact Or.inr ⟨part, List.mem_cons_self, h⟩
            · exact Or.inl (List.mem_singleton.mp h)
          · obtain h | ⟨other, hother, hchar⟩ := ih h
            · exact Or.inl h
            · exact Or.inr ⟨other, List.mem_cons_of_mem _ hother, hchar⟩

theorem intercalate_concat (separator : Char) (part : Text) (parts : List Text) (last : Text) :
    [separator].intercalate (part :: parts ++ [last]) =
      [separator].intercalate (part :: parts) ++ separator :: last := by
  induction parts generalizing part with
  | nil => simp [List.intercalate_cons_cons]
  | cons next parts ih =>
      rw [List.cons_append, List.cons_append, List.intercalate_cons_cons, ← List.cons_append,
        ih next, List.intercalate_cons_cons]
      simp

theorem lineOf_concat (tokens : List Text) (last : Text) :
    lineOf (tokens ++ [last]) = lineOf tokens ++ ' ' :: last :=
  intercalate_concat ' ' [] ([] :: tokens) last

theorem notMem_lineOf {char : Char} {tokens : List Text} (hblank : char ≠ ' ')
    (h : ∀ token ∈ tokens, char ∉ token) : char ∉ lineOf tokens := by
  intro hmem
  obtain hsep | ⟨token, htoken, hchar⟩ := mem_intercalate hmem
  · exact hblank hsep
  · obtain rfl | htoken := List.mem_cons.mp htoken
    · exact absurd hchar List.not_mem_nil
    · obtain rfl | htoken := List.mem_cons.mp htoken
      · exact absurd hchar List.not_mem_nil
      · exact h token htoken hchar

/-- The tokens of a line are the pieces of what it was made of. -/
theorem tokens_lineOf (tokens : List Text) (first : Text) (hfirst : ' ' ∉ first) (hne : first ≠ []) :
    ((lineOf (first :: tokens)).splitOn ' ').dropWhile (· = []) =
      first :: tokens.flatMap fun token => token.splitOn ' ' := by
  rw [lineOf, splitOn_intercalate_flatMap]
  simp [List.splitOn_eq_singleton hfirst, hne]

/-! ## Types -/

theorem notMem_digits {char : Char} (hchar : char.isDigit = false) (value : ℕ) :
    char ∉ digits value := by
  intro h
  rw [isDigit_of_mem_digits h] at hchar
  exact absurd hchar (by decide)

theorem ColumnType.notMem_word {char : Char} (hchar : char.isLower = false) (type : ColumnType) :
    char ∉ type.word := by
  intro h
  have hlower : ∀ word : Text, word.all Char.isLower = true → char ∉ word := by
    intro word hword hmem
    rw [List.all_eq_true.mp hword char hmem] at hchar
    exact absurd hchar (by decide)
  revert h
  unfold ColumnType.word
  cases type with
  | integer size width =>
      unfold IntegerSize.word
      cases size <;> exact hlower _ rfl
  | _ => exact hlower _ rfl

theorem ColumnType.notMem_size {char : Char} (hdigit : char.isDigit = false) (hcomma : char ≠ ',')
    (type : ColumnType) : ∀ size ∈ type.size, char ∉ size := by
  intro size hsize
  have hdigits := notMem_digits hdigit
  unfold ColumnType.size at hsize
  have hif : ∀ fsp : ℕ, size ∈ (if fsp = 0 then none else some (digits fsp)) → char ∉ size := by
    intro fsp h
    split at h
    · exact absurd h (by simp)
    · obtain rfl := Option.some.inj h
      exact hdigits fsp
  have hmap : ∀ width : Option ℕ, size ∈ width.map digits → char ∉ size := by
    intro width h
    obtain ⟨value, -, rfl⟩ := Option.map_eq_some_iff.mp h
    exact hdigits value
  have hsome : ∀ value : ℕ, size ∈ some (digits value) → char ∉ size := by
    intro value h
    obtain rfl := Option.some.inj h
    exact hdigits value
  cases type with
  | integer kind width => exact hmap width hsize
  | decimal precision scale =>
      obtain rfl := Option.some.inj hsize
      simp [hdigits precision, hdigits scale, hcomma]
  | binary length => exact hsome length hsize
  | varbinary length => exact hsome length hsize
  | char length => exact hsome length hsize
  | varchar length => exact hsome length hsize
  | bit length => exact hsome length hsize
  | time fsp => exact hif fsp hsize
  | datetime fsp => exact hif fsp hsize
  | timestamp fsp => exact hif fsp hsize
  | year width => exact hmap width hsize
  | _ => exact absurd hsize (by simp)

theorem ColumnType.notMem_token {char : Char} (hlower : char.isLower = false)
    (hdigit : char.isDigit = false) (hchar : char ∉ [',', '(', ')']) (type : ColumnType) :
    char ∉ type.token := by
  have hword := type.notMem_word hlower
  have hsize := type.notMem_size hdigit (fun h => hchar (by simp [h]))
  unfold ColumnType.token
  cases htype : type.size with
  | none => simpa using hword
  | some size =>
      have := hsize size htype
      simp only [List.mem_cons, List.not_mem_nil, or_false, not_or] at hchar
      simp [hword, this, hchar]

/-- The word of a type stands before its parentheses. -/
theorem piece_token_word (type : ColumnType) : piece '(' 0 type.token = some type.word := by
  have hword := type.notMem_word (show '('.isLower = false by decide)
  unfold piece ColumnType.token
  cases type.size with
  | none => simp [List.splitOn_eq_singleton hword]
  | some size =>
      change ((type.word ++ '(' :: (size ++ [')'])).splitOn '(')[0]? = _
      rw [List.splitOn_append_cons_self_of_not_mem hword]
      rfl

/-- The size of a type stands within its parentheses. -/
theorem sizeOf_token (type : ColumnType) (columnSize : Option Text) :
    sizeOf type.token columnSize = type.size.or columnSize := by
  have hword := type.notMem_word (show '('.isLower = false by decide)
  unfold sizeOf piece ColumnType.token
  cases htype : type.size with
  | none => simp [List.splitOn_eq_singleton hword]
  | some size =>
      have hopening := type.notMem_size (show '('.isDigit = false by decide) (by decide) size htype
      have hclosing := type.notMem_size (show ')'.isDigit = false by decide) (by decide) size htype
      have hrest : '(' ∉ size ++ [')'] := by simp [hopening]
      rw [Option.map_some, Option.getD_some, List.cons_append,
        List.splitOn_append_cons_self_of_not_mem hword, List.splitOn_eq_singleton hrest]
      change ((size ++ [')']).splitOn ')')[0]? = some size
      rw [List.splitOn_append_cons_self_of_not_mem hclosing]
      rfl

/-- The numbers of a type are below the limits of numbers. -/
structure ColumnType.IsSupported (type : ColumnType) : Prop where
  length : ∀ length ∈ type.length, length < 2 ^ 53
  precision : ∀ precision ∈ type.precision, precision < 2 ^ 53
  scale : ∀ scale ∈ type.scale, scale < 2 ^ 53

/-- A column with the metadata of its type. -/
def ColumnType.addTo (type : ColumnType) (column : Column) : Column :=
  { column with
    intSize := type.intSize
    isIntegral := type.isIntegral
    precision := property type.precision
    scale := property type.scale
    isBinary := type.isBinary
    length := property type.length }

theorem parseInt_length {length : ℕ} (h : length < 2 ^ 53) :
    parseInt (digits length) = some (length : ℤ) := by
  rw [parseInt_digits, toNumber_of_lt h]

theorem getPrecision_decimal {precision scale : ℕ} (h : precision < 2 ^ 53) :
    getPrecision (digits precision ++ ',' :: digits scale) = some (precision : ℤ) := by
  have hcomma := notMem_digits (show ','.isDigit = false by decide) precision
  unfold getPrecision piece
  rw [List.splitOn_append_cons_self_of_not_mem hcomma, List.getElem?_cons_zero, Option.bind_some]
  exact parseInt_length h

theorem getScale_decimal {precision scale : ℕ} (h : scale < 2 ^ 53) :
    getScale (digits precision ++ ',' :: digits scale) = some (scale : ℤ) := by
  have hcomma := notMem_digits (show ','.isDigit = false by decide)
  unfold getScale piece
  rw [List.splitOn_append_cons_self_of_not_mem (hcomma precision),
    List.splitOn_eq_singleton (hcomma scale), List.getElem?_cons_succ, List.getElem?_cons_zero,
    Option.bind_some]
  exact parseInt_length h

theorem typeMetadata_decimal (size : Text) (column : Column) :
    typeMetadata "decimal".toList (some size) column =
      some { column with
        precision := some (getPrecision size), scale := some (getScale size) } := rfl

theorem typeMetadata_binary (size : Text) (column : Column) :
    typeMetadata "binary".toList (some size) column =
      some { column with isBinary := true, length := some (parseInt size) } := rfl

theorem typeMetadata_varbinary (size : Text) (column : Column) :
    typeMetadata "varbinary".toList (some size) column =
      some { column with isBinary := true, length := some (parseInt size) } := rfl

theorem typeMetadata_char (size : Text) (column : Column) :
    typeMetadata "char".toList (some size) column =
      some { column with length := some (parseInt size) } := rfl

theorem typeMetadata_varchar (size : Text) (column : Column) :
    typeMetadata "varchar".toList (some size) column =
      some { column with length := some (parseInt size) } := rfl

theorem typeMetadata_bit (size : Text) (column : Column) :
    typeMetadata "bit".toList (some size) column =
      some { column with length := some (parseInt size), isIntegral := true } := rfl

/-- Each type has its own metadata. -/
theorem typeMetadata_word {type : ColumnType} (h : type.IsSupported) (columnSize : Option Text)
    (columnNumber : ℕ) (name : Text) (isUnsigned : Bool) :
    typeMetadata type.word (type.size.or columnSize) (.new columnNumber name type.word isUnsigned) =
      some (type.addTo (.new columnNumber name type.word isUnsigned)) := by
  cases type with
  | integer size width => cases size <;> rfl
  | decimal precision scale =>
      apply (typeMetadata_decimal (digits precision ++ ',' :: digits scale) _).trans
      rw [getPrecision_decimal (h.precision precision rfl), getScale_decimal (h.scale scale rfl)]
      rfl
  | binary length =>
      apply (typeMetadata_binary (digits length) _).trans
      rw [parseInt_length (h.length length rfl)]
      rfl
  | varbinary length =>
      apply (typeMetadata_varbinary (digits length) _).trans
      rw [parseInt_length (h.length length rfl)]
      rfl
  | char length =>
      apply (typeMetadata_char (digits length) _).trans
      rw [parseInt_length (h.length length rfl)]
      rfl
  | varchar length =>
      apply (typeMetadata_varchar (digits length) _).trans
      rw [parseInt_length (h.length length rfl)]
      rfl
  | bit length =>
      apply (typeMetadata_bit (digits length) _).trans
      rw [parseInt_length (h.length length rfl)]
      rfl
  | _ => rfl

end DatabaseJones.MySQLDictionary
