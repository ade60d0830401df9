import DatabaseJones.Loader.Tokenizer

/-!
# One turn of the tokenizer on one element

Each valid element at the cursor is taken in one turn of the loop, which adds what is
delivered for it.  The branches of the loop are told apart by the first unit.
-/

namespace DatabaseJones.Loader

open Library

/-! ## Classes of characters as intervals -/

theorem isNumeric_iff {c : UInt16} : isNumeric c = true ↔ 48 ≤ c.toNat ∧ c.toNat ≤ 57 := by
  simp only [isNumeric, Bool.and_eq_true, decide_eq_true_eq, UInt16.le_iff_toNat_le]
  rfl

theorem isAlpha_iff {c : UInt16} :
    isAlpha c = true ↔
      (97 ≤ c.toNat ∧ c.toNat ≤ 122) ∨ (65 ≤ c.toNat ∧ c.toNat ≤ 90) := by
  simp only [isAlpha, Bool.or_eq_true, Bool.and_eq_true, decide_eq_true_eq,
    UInt16.le_iff_toNat_le]
  rfl

theorem le_space_iff {c : UInt16} : c ≤ code ' ' ↔ c.toNat ≤ 32 := by
  rw [UInt16.le_iff_toNat_le]
  rfl

theorem eq_code_iff {c : UInt16} (char : Char) : c = code char ↔ c.toNat = (code char).toNat :=
  UInt16.toNat_inj.symm

/-- A run of units with a property, before a unit without it. -/
theorem takeWhile_append_of_ends {p : UInt16 → Bool} {run following : CodeUnits}
    (hrun : ∀ unit ∈ run, p unit = true) (hends : ∀ next ∈ following.head?, p next = false) :
    (run ++ following).takeWhile p = run := by
  rw [List.takeWhile_append_of_pos hrun]
  cases following with
  | nil => simp
  | cons next rest =>
      have hnext : p next = false := hends next rfl
      simp [hnext]

theorem dropWhile_append_of_ends {p : UInt16 → Bool} {run following : CodeUnits}
    (hrun : ∀ unit ∈ run, p unit = true) (hends : ∀ next ∈ following.head?, p next = false) :
    (run ++ following).dropWhile p = following := by
  rw [List.dropWhile_append_of_pos hrun]
  cases following with
  | nil => simp
  | cons next rest =>
      have hnext : p next = false := hends next rfl
      simp [hnext]

variable {source following : CodeUnits} {result : List Token}

/-! ## White space, names and variables -/

theorem tokenizeStep_blank {unit : UInt16} (hunit : unit ≤ code ' ') :
    tokenizeStep source ⟨result, unit :: following⟩ = .inl ⟨result, following⟩ := by
  simp only [tokenizeStep, if_pos hunit]

theorem not_le_space_of_isAlpha {c : UInt16} (hc : isAlpha c = true) : ¬ c ≤ code ' ' := by
  rw [le_space_iff]
  rw [isAlpha_iff] at hc
  omega

theorem tokenizeStep_name {c : UInt16} {rest : CodeUnits} (hc : isAlpha c = true)
    (hrest : ∀ unit ∈ rest, isAlphanumeric unit = true)
    (hname : c :: rest ≠ codes "BEGINDATA")
    (hends : ∀ next ∈ following.head?, isAlphanumeric next = false) :
    tokenizeStep source ⟨result, c :: (rest ++ following)⟩ =
      .inl ⟨result ++ [⟨.name, .text (c :: rest)⟩], following⟩ := by
  have hvalue : ¬ (deliver .name none (c :: rest)).value = .text (codes "BEGINDATA") := by
    intro heq
    exact hname (TokenValue.text.inj heq)
  simp only [tokenizeStep, if_neg (not_le_space_of_isAlpha hc), hc, if_true,
    takeWhile_append_of_ends hrest hends, dropWhile_append_of_ends hrest hends, if_neg hvalue]
  rfl

theorem tokenizeStep_variable {str : CodeUnits}
    (hstr : ∀ unit ∈ str, isAlphanumeric unit = true)
    (hends : ∀ next ∈ following.head?, isAlphanumeric next = false) :
    tokenizeStep source ⟨result, code '@' :: (str ++ following)⟩ =
      .inl ⟨result ++ [⟨.variable, .text str⟩], following⟩ := by
  have hblank : ¬ code '@' ≤ code ' ' := by decide
  have halpha : isAlpha (code '@') = false := by decide
  simp only [tokenizeStep, if_neg hblank, halpha, Bool.false_eq_true, if_false, if_true,
    takeWhile_append_of_ends hstr hends, dropWhile_append_of_ends hstr hends]
  rfl

/-! ## Numbers -/

theorem takeWhile_digits {digits rest : CodeUnits}
    (hdigits : ∀ digit ∈ digits, isNumeric digit = true) :
    (digits ++ code '.' :: rest).takeWhile isNumeric = digits :=
  takeWhile_append_of_ends hdigits (by rintro next ⟨⟩; decide)

theorem dropWhile_digits {digits rest : CodeUnits}
    (hdigits : ∀ digit ∈ digits, isNumeric digit = true) :
    (digits ++ code '.' :: rest).dropWhile isNumeric = code '.' :: rest :=
  dropWhile_append_of_ends hdigits (by rintro next ⟨⟩; decide)

theorem unsignedNumber_unsigned {numeral : Numeral} (hvalid : numeral.Valid) :
    unsignedNumber numeral.unsigned = some numeral.magnitude := by
  obtain ⟨negative, whole, fraction⟩ := numeral
  have hwhole : ∀ digit ∈ whole, isNumeric digit = true := hvalid.whole_digits
  cases fraction with
  | none =>
      have htake : (whole ++ []).takeWhile isNumeric = whole :=
        takeWhile_append_of_ends hwhole (by simp)
      have hdrop : (whole ++ []).dropWhile isNumeric = [] :=
        dropWhile_append_of_ends hwhole (by simp)
      simp only [Numeral.unsigned, Option.elim, unsignedNumber, htake, hdrop,
        Numeral.magnitude, add_zero]
  | some digits =>
      have hall : digits.all isNumeric = true :=
        List.all_eq_true.mpr (hvalid.fraction_digits digits rfl)
      simp only [Numeral.unsigned, Option.elim, unsignedNumber, takeWhile_digits hwhole,
        dropWhile_digits hwhole, hall, if_true, Numeral.magnitude]

/-- The first digit of a numeral. -/
theorem Numeral.Valid.exists_unsigned {numeral : Numeral} (hvalid : numeral.Valid) :
    ∃ digit rest, numeral.unsigned = digit :: rest ∧ isNumeric digit = true ∧
      ∀ unit ∈ rest, isNonInitialNumeric unit = true := by
  obtain ⟨negative, whole, fraction⟩ := numeral
  obtain ⟨digit, digits, rfl⟩ := List.exists_cons_of_ne_nil hvalid.whole_ne_nil
  have hwhole : ∀ unit ∈ digit :: digits, isNumeric unit = true := hvalid.whole_digits
  refine ⟨digit, digits ++ fraction.elim [] fun digits => code '.' :: digits, rfl,
    hwhole digit List.mem_cons_self, ?_⟩
  intro unit hunit
  rcases List.mem_append.mp hunit with hunit | hunit
  · simp [isNonInitialNumeric, hwhole unit (List.mem_cons_of_mem _ hunit)]
  · cases fraction with
    | none => simp at hunit
    | some fractionDigits =>
        rcases List.mem_cons.mp hunit with rfl | hunit
        · decide
        · simp [isNonInitialNumeric, hvalid.fraction_digits fractionDigits rfl unit hunit]

theorem ne_minus_of_isNumeric {c : UInt16} (hc : isNumeric c = true) : c ≠ code '-' := by
  rintro rfl
  revert hc
  decide

theorem toNumber_text {numeral : Numeral} (hvalid : numeral.Valid) :
    toNumber numeral.text = numeral.value := by
  have hunsigned := unsignedNumber_unsigned hvalid
  obtain ⟨digit, rest, htext, hdigit, -⟩ := hvalid.exists_unsigned
  unfold Numeral.text Numeral.value
  cases numeral.negative with
  | true =>
      simp only [if_true, toNumber, hunsigned, Option.bind_some]
  | false =>
      simp only [Bool.false_eq_true, if_false]
      rw [htext] at hunsigned ⊢
      simp only [toNumber, if_neg (ne_minus_of_isNumeric hdigit), hunsigned, Option.bind_some]

/-- A numeral as its first unit, which begins a number, and units that continue it. -/
theorem Numeral.Valid.exists_text {numeral : Numeral} (hvalid : numeral.Valid) :
    ∃ c rest, numeral.text = c :: rest ∧ (isNumeric c = true ∨ c = code '-') ∧
      (∀ following : CodeUnits, isInitialNumeric c (rest ++ following).head? = true) ∧
      ∀ unit ∈ rest, isNonInitialNumeric unit = true := by
  obtain ⟨digit, rest, htext, hdigit, hrest⟩ := hvalid.exists_unsigned
  unfold Numeral.text
  rw [htext]
  cases numeral.negative with
  | true =>
      refine ⟨code '-', digit :: rest, rfl, .inr rfl, ?_, ?_⟩
      · intro following
        simp [isInitialNumeric, hdigit]
      · intro unit hunit
        rcases List.mem_cons.mp hunit with rfl | hunit
        · simp [isNonInitialNumeric, hdigit]
        · exact hrest unit hunit
  | false => exact ⟨digit, rest, rfl, .inl hdigit, by simp [isInitialNumeric, hdigit], hrest⟩

theorem tokenizeStep_number {value : ℚ} {numeral : Numeral} (hvalid : numeral.Valid)
    (hvalue : numeral.value = some value)
    (hends : ∀ next ∈ following.head?, isNonInitialNumeric next = false) :
    tokenizeStep source ⟨result, numeral.text ++ following⟩ =
      .inl ⟨result ++ [deliver .number (some (.number value)) numeral.text], following⟩ := by
  have hnumber := (toNumber_text hvalid).trans hvalue
  obtain ⟨c, rest, htext, hc, hinitial, hrest⟩ := hvalid.exists_text
  rw [htext] at hnumber ⊢
  have hblank : ¬ c ≤ code ' ' := by
    rcases hc with hc | rfl
    · rw [le_space_iff]
      rw [isNumeric_iff] at hc
      omega
    · decide
  have halpha : isAlpha c = false := by
    rcases hc with hc | rfl
    · rw [Bool.eq_false_iff, ne_eq, isAlpha_iff]
      rw [isNumeric_iff] at hc
      omega
    · decide
  have hat : c ≠ code '@' := by
    rcases hc with hc | rfl
    · rintro rfl
      revert hc
      decide
    · decide
  simp only [List.cons_append, tokenizeStep, if_neg hblank, halpha, Bool.false_eq_true,
    if_false, if_neg hat, hinitial following, if_true,
    takeWhile_append_of_ends hrest hends, dropWhile_append_of_ends hrest hends, hnumber]

/-! ## Strings -/

/-- A hexadecimal digit and its value. -/
theorem hexDigit?_cases {c : UInt16} (hc : (hexDigit? c).isSome = true) :
    (48 ≤ c.toNat ∧ c.toNat ≤ 57 ∧ (hexDigit? c).getD 0 = c.toNat - 48) ∨
      (97 ≤ c.toNat ∧ c.toNat ≤ 102 ∧ (hexDigit? c).getD 0 = c.toNat - 97 + 10) ∨
      (65 ≤ c.toNat ∧ c.toNat ≤ 70 ∧ (hexDigit? c).getD 0 = c.toNat - 65 + 10) := by
  unfold hexDigit? at hc ⊢
  split_ifs at hc ⊢ with hnumeric hlower hupper
  · obtain ⟨hge, hle⟩ := isNumeric_iff.mp hnumeric
    exact .inl ⟨hge, hle, rfl⟩
  · simp only [Bool.and_eq_true, decide_eq_true_eq, UInt16.le_iff_toNat_le] at hlower
    exact .inr (.inl ⟨hlower.1, hlower.2, rfl⟩)
  · simp only [Bool.and_eq_true, decide_eq_true_eq, UInt16.le_iff_toNat_le] at hupper
    exact .inr (.inr ⟨hupper.1, hupper.2, rfl⟩)
  · cases hc

theorem hexadecimal_concat (digits : CodeUnits) (digit : UInt16) :
    hexadecimal (digits ++ [digit]) = 16 * hexadecimal digits + (hexDigit? digit).getD 0 := by
  simp [hexadecimal]

theorem hexadecimal_lt {digits : CodeUnits}
    (hdigits : ∀ digit ∈ digits, (hexDigit? digit).isSome = true) :
    hexadecimal digits < 16 ^ digits.length := by
  induction digits using List.reverseRecOn with
  | nil => decide
  | append_singleton digits digit ih =>
      have hhead := ih fun other hother => hdigits other (List.mem_append_left _ hother)
      have hlast := hexDigit?_cases (hdigits digit (by simp))
      rw [hexadecimal_concat, List.length_append, List.length_singleton, pow_succ]
      omega

theorem hexadecimal_lt_of_four {first second third last : UInt16}
    (hdigits : ∀ digit ∈ [first, second, third, last], (hexDigit? digit).isSome = true) :
    hexadecimal [first, second, third, last] < 65536 := by
  have hlt := hexadecimal_lt hdigits
  norm_num at hlt
  exact hlt

theorem leadingHex_digits {digits : CodeUnits} (hne : digits ≠ [])
    (hdigits : ∀ digit ∈ digits, (hexDigit? digit).isSome = true) :
    leadingHex digits = some (hexadecimal digits) := by
  have htake : digits.takeWhile (fun c => (hexDigit? c).isSome) = digits :=
    by
    have htake := takeWhile_append_of_ends hdigits (by simp : ∀ next ∈ [].head?, _ = false)
    rwa [List.append_nil] at htake
  simp only [leadingHex, htake, if_neg hne]

/-- An `x` is no digit, so that digits have no `0x` before them. -/
theorem stripHexPrefix_digits {digits : CodeUnits}
    (hdigits : ∀ digit ∈ digits, (hexDigit? digit).isSome = true) :
    stripHexPrefix digits = digits := by
  unfold stripHexPrefix
  split
  · next zero x rest =>
      have hx := hexDigit?_cases (hdigits x (by simp))
      have hno : ¬ (zero = code '0' ∧ (x = code 'x' ∨ x = code 'X')) := by
        rintro ⟨-, rfl | rfl⟩ <;> revert hx <;> decide
      rw [if_neg hno]
  · rfl

/-- `parseInt` of hexadecimal digits is their number. -/
theorem parseHex_digits {digits : CodeUnits} (hne : digits ≠ [])
    (hdigits : ∀ digit ∈ digits, (hexDigit? digit).isSome = true) :
    parseHex digits = some (hexadecimal digits : ℤ) := by
  obtain ⟨c, rest, rfl⟩ := List.exists_cons_of_ne_nil hne
  have hc := hexDigit?_cases (hdigits c List.mem_cons_self)
  have hspace : isSpace c = false := by
    rw [Bool.eq_false_iff]
    intro h
    simp only [isSpace, Bool.or_eq_true, Bool.and_eq_true, decide_eq_true_eq,
      UInt16.le_iff_toNat_le, List.contains_cons, List.contains_nil, beq_iff_eq,
      ← UInt16.toNat_inj, UInt16.reduceToNat, Bool.false_eq_true, or_false] at h
    omega
  have hminus : c ≠ code '-' := by
    rintro rfl
    revert hc
    decide
  have hplus : c ≠ code '+' := by
    rintro rfl
    revert hc
    decide
  simp only [parseHex, List.dropWhile_cons, hspace, Bool.false_eq_true, if_false, if_neg hminus,
    if_neg hplus, stripHexPrefix_digits hdigits, leadingHex_digits hne hdigits]
  rfl

theorem consumeString_quote {q : UInt16} {str : CodeUnits} :
    consumeString q str (q :: following) = .ok (str, following) := by
  rw [consumeString.eq_def]
  simp

theorem consumeString_raw {q unit : UInt16} {str : CodeUnits} (hquote : unit ≠ q)
    (hbackslash : unit ≠ backslash) (hblank : code ' ' ≤ unit) :
    consumeString q str (unit :: following) = consumeString q (str ++ [unit]) following := by
  have hline : isEndOfLine unit = false := by
    rw [UInt16.le_iff_toNat_le] at hblank
    rw [Bool.eq_false_iff]
    intro h
    rcases (by simpa [isEndOfLine] using h : unit = code '\n' ∨ unit = code '\r') with rfl | rfl <;>
      exact absurd hblank (by decide)
  have hcontrol : ¬ unit < code ' ' := UInt16.not_lt.mpr hblank
  rw [consumeString.eq_def]
  simp only [if_neg hquote, hline, Bool.false_eq_true, if_false, if_neg hcontrol,
    if_neg hbackslash]

/-- A quote is neither a backslash nor a control character. -/
theorem isQuote_cases {q : UInt16} (hq : isQuote q = true) : q = 0x27 ∨ q = 0x22 ∨ q = 0x60 := by
  simpa [isQuote, or_assoc] using hq

theorem consumeString_escaped {q unit : UInt16} {str : CodeUnits} (hq : isQuote q = true)
    (hunit : unit ≠ code 'u') :
    consumeString q str (backslash :: unit :: following) =
      consumeString q (str ++ [escaped unit]) following := by
  have hquote : backslash ≠ q := by
    rcases isQuote_cases hq with rfl | rfl | rfl <;> decide
  have hline : isEndOfLine backslash = false := by decide
  have hcontrol : ¬ backslash < code ' ' := by decide
  rw [consumeString.eq_def]
  simp only [if_neg hquote, hline, Bool.false_eq_true, if_false, if_neg hcontrol, if_true,
    if_neg hunit]

/-- The escape of a code unit: the last digit is consumed in its place. -/
theorem consumeString_unicode {q first second third last : UInt16} {str : CodeUnits}
    (hq : isQuote q = true)
    (hdigits : ∀ digit ∈ [first, second, third, last], (hexDigit? digit).isSome = true) :
    consumeString q str
        (backslash :: code 'u' :: first :: second :: third :: last :: following) =
      consumeString q (str ++ [last]) following := by
  have hquote : backslash ≠ q := by
    rcases isQuote_cases hq with rfl | rfl | rfl <;> decide
  have hline : isEndOfLine backslash = false := by decide
  have hcontrol : ¬ backslash < code ' ' := by decide
  have hparse := parseHex_digits (List.cons_ne_nil first [second, third, last]) hdigits
  have hrange := hexadecimal_lt_of_four hdigits
  have hno : (parseHex [first, second, third, last]).any
      (fun v => v < 0 || 0xFFFF < v) = false := by
    rw [hparse]
    simp only [Option.any_some, Bool.or_eq_false_iff, decide_eq_false_iff_not]
    omega
  rw [consumeString.eq_def]
  simp only [if_neg hquote, hline, Bool.false_eq_true, if_false, if_neg hcontrol, if_true,
    List.take_succ_cons, List.take_zero, hno]

theorem consumeString_character {q : UInt16} {character : Character} {str : CodeUnits}
    (hq : isQuote q = true) (hvalid : character.Valid q) :
    consumeString q str (character.text ++ following) =
      consumeString q (str ++ [character.delivered]) following := by
  cases character with
  | raw unit => exact consumeString_raw hvalid.1 hvalid.2.1 hvalid.2.2
  | escaped unit => exact consumeString_escaped hq hvalid
  | unicode digits =>
      obtain ⟨hlength, hdigits⟩ := hvalid
      match digits, hlength with
      | [first, second, third, last], _ => exact consumeString_unicode hq hdigits

/-- The characters of a string are consumed one after the other up to the quote. -/
theorem consumeString_characters {q : UInt16} {characters : List Character} {str : CodeUnits}
    (hq : isQuote q = true) (hvalid : ∀ character ∈ characters, character.Valid q) :
    consumeString q str (characters.flatMap Character.text ++ q :: following) =
      .ok (str ++ characters.map Character.delivered, following) := by
  induction characters generalizing str with
  | nil => simp [consumeString_quote]
  | cons character characters ih =>
      rw [List.flatMap_cons, List.append_assoc,
        consumeString_character hq (hvalid character List.mem_cons_self),
        ih fun other hother => hvalid other (List.mem_cons_of_mem _ hother)]
      simp

theorem tokenizeStep_string {q : UInt16} {characters : List Character} (hq : isQuote q = true)
    (hvalid : ∀ character ∈ characters, character.Valid q) :
    tokenizeStep source
        ⟨result, q :: (characters.flatMap Character.text ++ q :: following)⟩ =
      .inl ⟨result ++ [⟨.string, .text (characters.map Character.delivered)⟩], following⟩ := by
  have hcases := isQuote_cases hq
  have hconsume : consumeString q [] (characters.flatMap Character.text ++ q :: following) =
      .ok (characters.map Character.delivered, following) := consumeString_characters hq hvalid
  have hblank : ¬ q ≤ code ' ' := by rcases hcases with rfl | rfl | rfl <;> decide
  have halpha : isAlpha q = false := by rcases hcases with rfl | rfl | rfl <;> decide
  have hat : q ≠ code '@' := by rcases hcases with rfl | rfl | rfl <;> decide
  have hinitial : ∀ p, isInitialNumeric q p = false := by
    intro p
    have hnumeric : isNumeric q = false := by rcases hcases with rfl | rfl | rfl <;> decide
    have hminus : (q == code '-') = false := by rcases hcases with rfl | rfl | rfl <;> decide
    simp [isInitialNumeric, hnumeric, hminus]
  simp only [tokenizeStep, if_neg hblank, halpha, Bool.false_eq_true, if_false, if_neg hat,
    hinitial, hq, if_true, hconsume]
  rfl

/-! ## Operators and comments -/

theorem tokenizeStep_operator {unit : UInt16} (hunit : unit ∈ operators) :
    tokenizeStep source ⟨result, unit :: following⟩ =
      .inl ⟨result ++ [⟨.operator, .text [unit]⟩], following⟩ := by
  have hcontains : operators.contains unit = true := List.contains_iff_mem.mpr hunit
  have hclasses : ∀ unit ∈ operators, ¬ unit ≤ code ' ' ∧ isAlpha unit = false ∧
      unit ≠ code '@' ∧ isNumeric unit = false ∧ isQuote unit = false ∧
      unit ≠ code '-' ∧ unit ≠ code '/' := by decide
  obtain ⟨hblank, halpha, hat, hnumeric, hquote, hminus, hslash⟩ := hclasses unit hunit
  have hinitial : isInitialNumeric unit following.head? = false := by
    simp [isInitialNumeric, hnumeric, hminus]
  simp only [tokenizeStep, if_neg hblank, halpha, Bool.false_eq_true, if_false, if_neg hat,
    hinitial, hquote, hminus, hslash, false_and, hcontains, if_true]
  rfl

theorem tokenizeStep_lineComment {body : CodeUnits}
    (hbody : ∀ unit ∈ body, isEndOfLine unit = false)
    (hends : ∀ next ∈ following.head?, isEndOfLine next = true) :
    tokenizeStep source ⟨result, codes "--" ++ body ++ following⟩ = .inl ⟨result, following⟩ := by
  have htext : codes "--" ++ body ++ following = code '-' :: code '-' :: (body ++ following) := rfl
  have hdrop : (body ++ following).dropWhile (fun c => !isEndOfLine c) = following :=
    dropWhile_append_of_ends (by simpa using hbody) (by simpa using hends)
  have hblank : ¬ code '-' ≤ code ' ' := by decide
  have halpha : isAlpha (code '-') = false := by decide
  have hat : code '-' ≠ code '@' := by decide
  have hinitial : isInitialNumeric (code '-') (some (code '-')) = false := by decide
  have hquote : isQuote (code '-') = false := by decide
  rw [htext]
  simp only [tokenizeStep, if_neg hblank, halpha, Bool.false_eq_true, if_false, if_neg hat,
    List.head?_cons, hinitial, hquote, and_self, if_true, List.tail_cons, hdrop]

/-- The loop over a plain comment goes on to its end. -/
theorem skipBlock_plain {body : CodeUnits} (hstar : code '*' ∉ body)
    (hslash : code '/' ∉ body.tail) :
    skipBlock (body ++ codes "*/" ++ following) = codes "*/" ++ following := by
  induction body with
  | nil => rfl
  | cons c rest ih =>
      obtain ⟨hc, hrest⟩ := not_or.mp (mt List.mem_cons.mpr hstar)
      have hgo : c ≠ code '*' ∧
          (rest ++ codes "*/" ++ following).head? ≠ some (code '/') := by
        refine ⟨Ne.symm hc, ?_⟩
        cases rest with
        | nil => exact (by decide : some (code '*') ≠ some (code '/'))
        | cons next others =>
            intro hnext
            exact hslash (Option.some.inj hnext ▸ List.mem_cons_self)
      have htail : code '/' ∉ rest.tail := fun h => hslash (List.mem_of_mem_tail h)
      calc skipBlock (c :: rest ++ codes "*/" ++ following)
          = skipBlock (rest ++ codes "*/" ++ following) := by
            rw [List.cons_append, List.cons_append, skipBlock, if_pos hgo]
        _ = codes "*/" ++ following := ih hrest htail

theorem tokenizeStep_slash_star {rest : CodeUnits} :
    tokenizeStep source ⟨result, code '/' :: code '*' :: rest⟩ =
      match (skipBlock rest).drop 2 with
      | [] => .inr (.error .unterminatedComment)
      | c :: rest => .inl ⟨result, c :: rest⟩ := by
  have hblank : ¬ code '/' ≤ code ' ' := by decide
  have halpha : isAlpha (code '/') = false := by decide
  have hat : code '/' ≠ code '@' := by decide
  have hinitial : isInitialNumeric (code '/') (some (code '*')) = false := by decide
  have hquote : isQuote (code '/') = false := by decide
  have hminus : code '/' ≠ code '-' := by decide
  simp only [tokenizeStep, if_neg hblank, halpha, Bool.false_eq_true, if_false, if_neg hat,
    List.head?_cons, hinitial, hquote, hminus, false_and, and_self, if_true, List.tail_cons] <;>
    cases (skipBlock rest).drop 2 <;> rfl

theorem tokenizeStep_blockComment {body : CodeUnits} (hstar : code '*' ∉ body)
    (hslash : code '/' ∉ body.tail) (hne : following ≠ []) :
    tokenizeStep source ⟨result, codes "/*" ++ body ++ codes "*/" ++ following⟩ =
      .inl ⟨result, following⟩ := by
  have htext : codes "/*" ++ body ++ codes "*/" ++ following =
      code '/' :: code '*' :: (body ++ codes "*/" ++ following) := by
    simp [codes]
  have hdrop : (codes "*/" ++ following).drop 2 = following := rfl
  obtain ⟨next, rest, rfl⟩ := List.exists_cons_of_ne_nil hne
  rw [htext, tokenizeStep_slash_star, skipBlock_plain hstar hslash, hdrop]

/-- A comment at the end of the text is taken for one that has no end. -/
theorem tokenizeStep_blockComment_end {body : CodeUnits} (hstar : code '*' ∉ body)
    (hslash : code '/' ∉ body.tail) :
    tokenizeStep source ⟨result, codes "/*" ++ body ++ codes "*/"⟩ =
      .inr (.error .unterminatedComment) := by
  have htext : codes "/*" ++ body ++ codes "*/" =
      code '/' :: code '*' :: (body ++ codes "*/" ++ []) := by
    simp [codes]
  rw [htext, tokenizeStep_slash_star, skipBlock_plain hstar hslash]
  rfl

end DatabaseJones.Loader
