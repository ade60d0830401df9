import DatabaseJones.Query.SqlLiterals

/-!
# Literals in the text of a comparison

The SQL visitor writes a string between quotes as it is.  The text is one token that denotes
the string exactly if nothing in it is a quote, and every backslash belongs to a wildcard that
keeps it.  Finite numbers and truth values are literals, dates are not.
-/

namespace DatabaseJones.Query

open DatabaseJones.Library

/-! ## Tokens only grow -/

theorem tokens_prefix_begin {tokens : List Token} {char : Char} {next : Lexer}
    (h : begin tokens char = some next) : tokens <+: next.tokens := by
  unfold begin at h
  split_ifs at h
  all_goals
    cases h
    simp

theorem tokens_prefix_finish {lexer : Lexer} {tokens : List Token}
    (h : lexer.finish = some tokens) : lexer.tokens <+: tokens := by
  obtain ⟨before, mode⟩ := lexer
  cases mode with
  | gap =>
      cases h
      exact List.prefix_rfl
  | word text =>
      cases h
      exact List.prefix_append _ _
  | symbol text =>
      obtain ⟨comparator, -, rfl⟩ := Option.map_eq_some_iff.mp h
      exact List.prefix_append _ _
  | string text => exact nomatch h
  | escape text => exact nomatch h
  | quote text =>
      cases h
      exact List.prefix_append _ _

theorem tokens_prefix_finish_begin {lexer next : Lexer} {char : Char}
    (h : lexer.finish.bind (begin · char) = some next) : lexer.tokens <+: next.tokens := by
  obtain ⟨tokens, hfinish, hbegin⟩ := Option.bind_eq_some_iff.mp h
  exact (tokens_prefix_finish hfinish).trans (tokens_prefix_begin hbegin)

theorem tokens_prefix_step {lexer next : Lexer} {char : Char} (h : lexer.step char = some next) :
    lexer.tokens <+: next.tokens := by
  obtain ⟨before, mode⟩ := lexer
  cases mode with
  | gap => exact tokens_prefix_begin h
  | word text =>
      simp only [Lexer.step] at h
      split_ifs at h with hchar
      · cases h
        exact List.prefix_rfl
      · exact tokens_prefix_finish_begin h
  | symbol text =>
      simp only [Lexer.step] at h
      split_ifs at h with hchar
      · cases h
        exact List.prefix_rfl
      · exact tokens_prefix_finish_begin h
  | string text =>
      simp only [Lexer.step] at h
      split_ifs at h
      all_goals
        cases h
        exact List.prefix_rfl
  | escape text =>
      cases h
      exact List.prefix_rfl
  | quote text =>
      simp only [Lexer.step] at h
      split_ifs at h with hchar
      · cases h
        exact List.prefix_rfl
      · exact tokens_prefix_finish_begin h

theorem tokens_prefix_run {lexer final : Lexer} {text : List Char}
    (h : run Lexer.step lexer text = some final) : lexer.tokens <+: final.tokens := by
  induction text generalizing lexer with
  | nil =>
      cases h
      exact List.prefix_rfl
  | cons char text ih =>
      obtain ⟨next, hnext, hrest⟩ := run_cons_eq_some.mp h
      exact (tokens_prefix_step hnext).trans (ih hrest)

/-- A quote either opens a string or is the last character of a token. -/
theorem length_finish_of_quote {lexer next : Lexer} {tokens : List Token}
    (h : lexer.step '\'' = some next) (hfinish : next.finish = some tokens) :
    next.tokens.length < tokens.length := by
  have hopen : ∀ before, begin before '\'' = some ⟨before, .string []⟩ := fun _ => rfl
  have hopened : lexer.finish.bind (begin · '\'') ≠ some next := by
    intro hbegin
    obtain ⟨before, -, hbegin⟩ := Option.bind_eq_some_iff.mp hbegin
    cases (hopen before).symm.trans hbegin
    exact nomatch hfinish
  obtain ⟨before, mode⟩ := lexer
  cases mode with
  | gap =>
      cases (hopen before).symm.trans h
      exact nomatch hfinish
  | word text => exact absurd h hopened
  | symbol text => exact absurd h hopened
  | string text =>
      cases h
      cases hfinish
      simp
  | escape text =>
      cases h
      exact nomatch hfinish
  | quote text =>
      cases h
      exact nomatch hfinish

/-! ## Strings -/

/-- A string without quotes, in which a backslash stands only before a wildcard. -/
def IsPlainString : List Char → Bool
  | [] => true
  | '\\' :: text =>
      match text with
      | [] => false
      | char :: text => (char == '%' || char == '_') && IsPlainString text
  | char :: text => char != '\'' && IsPlainString text

theorem isPlainString_cons {char : Char} (h : char ≠ '\\') (text : List Char) :
    IsPlainString (char :: text) = (char != '\'' && IsPlainString text) := by
  rw [IsPlainString]
  exact fun heq => h heq

theorem unescape_wildcard {char : Char} (h : (char == '%' || char == '_') = true) :
    unescape char = ['\\', char] := by
  rcases Bool.or_eq_true_iff.mp h with hchar | hchar
  · rw [beq_iff_eq.mp hchar]
    rfl
  · rw [beq_iff_eq.mp hchar]
    rfl

/-- Only a wildcard keeps its backslash. -/
theorem length_unescape (char : Char) : (unescape char).length ≤ 2 ∧
    ((unescape char).length = 2 → (char == '%' || char == '_') = true) := by
  unfold unescape
  split_ifs with h1 h2 h3 h4 h5 h6 hwildcard
  all_goals simp_all

/-- A plain string is read as it is. -/
theorem run_plainString {text : List Char} (h : IsPlainString text = true) (before : List Token)
    (string : List Char) :
    run Lexer.step ⟨before, .string string⟩ text = some ⟨before, .string (string ++ text)⟩ := by
  fun_induction IsPlainString text generalizing string with
  | case1 => simp
  | case2 => exact absurd h Bool.false_ne_true
  | case3 char text ih =>
      obtain ⟨hwildcard, hrest⟩ := Bool.and_eq_true_iff.mp h
      have hescaped : run Lexer.step ⟨before, .string string⟩ ('\\' :: char :: text) =
          run Lexer.step ⟨before, .string (string ++ unescape char)⟩ text := rfl
      rw [hescaped, unescape_wildcard hwildcard, ih hrest]
      simp
  | case4 char text hchar ih =>
      obtain ⟨hquote, hrest⟩ := Bool.and_eq_true_iff.mp h
      have hstep : Lexer.step ⟨before, .string string⟩ char =
          some ⟨before, .string (string ++ [char])⟩ := by
        simp only [Lexer.step]
        rw [if_neg (bne_iff_ne.mp hquote), if_neg hchar]
      rw [run, hstep, Option.bind_some, ih hrest]
      simp

/-- After the end of a string nothing is one token with it that ends in a quote. -/
theorem not_one_token_of_finish {before : List Token} {text string : List Char} {char : Char}
    (hchar : char ≠ '\'') {lexer : Lexer} {token : Token}
    (hrun : run Lexer.step ⟨before, .quote string⟩ (char :: text ++ ['\'']) = some lexer) :
    lexer.finish ≠ some (before ++ [token]) := by
  intro hfinish
  rw [List.cons_append] at hrun
  obtain ⟨next, hnext, hrest⟩ := run_cons_eq_some.mp hrun
  have hgrown : (before ++ [.string string]) <+: next.tokens := by
    simp only [Lexer.step, if_neg hchar] at hnext
    exact tokens_prefix_begin hnext
  rw [run_append] at hrest
  obtain ⟨middle, hmiddle, hlast⟩ := Option.bind_eq_some_iff.mp hrest
  obtain ⟨final, hquote, hnil⟩ := run_cons_eq_some.mp hlast
  cases hnil
  have hlonger := length_finish_of_quote hquote hfinish
  have hshorter := (hgrown.trans ((tokens_prefix_run hmiddle).trans
    (tokens_prefix_step hquote))).length_le
  simp only [List.length_append, List.length_singleton] at hlonger hshorter
  omega

/-- A string that is read as one token is not longer than its text, and as long only if it is
plain. -/
theorem length_le_of_run {before : List Token} {text string read : List Char} {lexer : Lexer}
    (hrun : run Lexer.step ⟨before, .string string⟩ (text ++ ['\'']) = some lexer)
    (hfinish : lexer.finish = some (before ++ [.string read])) :
    read.length ≤ string.length + text.length ∧
      (read.length = string.length + text.length → IsPlainString text = true) := by
  induction hlength : text.length using Nat.strong_induction_on generalizing text string with
  | _ length ih =>
  subst hlength
  cases text with
  | nil =>
      cases hrun
      have heq : string = read := by simpa [Lexer.finish] using hfinish
      rw [heq]
      exact ⟨le_rfl, fun _ => rfl⟩
  | cons char text =>
      by_cases hescape : char = '\\'
      · subst hescape
        cases text with
        | nil =>
            cases hrun
            cases hfinish
        | cons escaped text =>
            have hescaped : run Lexer.step ⟨before, .string (string ++ unescape escaped)⟩
                (text ++ ['\'']) = some lexer := hrun
            obtain ⟨hle, hplain⟩ := ih text.length (by simp) hescaped rfl
            obtain ⟨htwo, hwildcard⟩ := length_unescape escaped
            simp only [List.length_append, List.length_cons] at hle hplain ⊢
            refine ⟨by omega, fun heq => ?_⟩
            rw [IsPlainString, hwildcard (by omega), hplain (by omega)]
            rfl
      by_cases hquote : char = '\''
      · subst hquote
        cases text with
        | nil =>
            cases hrun
            cases hfinish
        | cons next text =>
            by_cases hnext : next = '\''
            · subst hnext
              have hdoubled : run Lexer.step ⟨before, .string (string ++ ['\''])⟩
                  (text ++ ['\'']) = some lexer := hrun
              obtain ⟨hle, -⟩ := ih text.length (by simp) hdoubled rfl
              simp only [List.length_append, List.length_cons, List.length_nil] at hle ⊢
              exact ⟨by omega, fun heq => by omega⟩
            · exact absurd hfinish (not_one_token_of_finish hnext hrun)
      have hstep : Lexer.step ⟨before, .string string⟩ char =
          some ⟨before, .string (string ++ [char])⟩ := by
        simp only [Lexer.step]
        rw [if_neg hquote, if_neg hescape]
      obtain ⟨next, hnext, hrest⟩ := run_cons_eq_some.mp hrun
      cases hstep.symm.trans hnext
      obtain ⟨hle, hplain⟩ := ih text.length (by simp) hrest rfl
      simp only [List.length_append, List.length_cons, List.length_nil] at hle hplain ⊢
      refine ⟨by omega, fun heq => ?_⟩
      rw [isPlainString_cons hescape, bne_iff_ne.mpr hquote, hplain (by omega)]
      rfl

/-- The text of a string is one token that denotes it exactly if it is plain. -/
theorem lexes_string_iff (text : List Char) :
    Lexes ('\'' :: text ++ ['\'']) [.string text] ↔ IsPlainString text = true := by
  constructor
  · intro hlexes
    obtain ⟨lexer, hrun, hfinish⟩ := hlexes []
    have hopened : run Lexer.step ⟨[], .string []⟩ (text ++ ['\'']) = some lexer := hrun
    exact (length_le_of_run hopened hfinish).2 (Nat.zero_add _).symm
  · intro hplain before
    refine ⟨⟨before, .quote text⟩, ?_, rfl⟩
    have hopened : run Lexer.step ⟨before, .gap⟩ ('\'' :: text ++ ['\'']) =
        run Lexer.step ⟨before, .string []⟩ (text ++ ['\'']) := rfl
    rw [hopened, run_append, run_plainString hplain before []]
    rfl

/-! ## Operands -/

/-- The text is one literal, which denotes the value.  Wherever it stands, what follows it from
a delimiter on is read as it is after any other literal. -/
def IsLiteralOf (text : List Char) (value : LiteralValue) : Prop :=
  ∃ token : Token, token.Denotes value ∧ Lexes text [token] ∧
    ∀ before after, after.head?.any (· ∈ delimiters) = true →
      run Lexer.step ⟨before, .gap⟩ (text ++ after) =
        run Lexer.step ⟨before ++ [token], .gap⟩ after

theorem isLiteralOf_iff {text : List Char} {value : LiteralValue} :
    IsLiteralOf text value ↔ ∃ token : Token, token.Denotes value ∧ Lexes text [token] :=
  exists_congr fun _ => and_congr_right fun _ =>
    and_iff_left_of_imp fun hlexes before _ hhead => hlexes.run_append hhead before

/-- Strings with nothing to escape, finite numbers and truth values. -/
def LiteralValue.isSafe : LiteralValue → Bool
  | .string text => IsPlainString text
  | .number value => value.value?.isSome
  | .boolean _ => true
  | .date _ => false
  | .null => false

theorem lexes_unique {text : List Char} {tokens tokens' : List Token} (h : Lexes text tokens)
    (h' : Lexes text tokens') : tokens = tokens' :=
  Option.some_inj.mp (h.lex_eq.symm.trans h'.lex_eq)

/-- A text that begins with a word and a blank is not read as a string. -/
theorem not_string_of_word {word rest : List Char} {token : Token} (hne : word ≠ [])
    (hword : ∀ char ∈ word, isWordChar char = true)
    (hlexes : Lexes (word ++ ' ' :: rest) [token]) : token = wordToken word := by
  obtain ⟨char, chars, rfl⟩ := List.exists_cons_of_ne_nil hne
  obtain ⟨hchar, hchars⟩ := List.forall_mem_cons.mp hword
  obtain ⟨lexer, hrun, hfinish⟩ := hlexes []
  have hread : run Lexer.step ⟨[], .gap⟩ (char :: chars) = some ⟨[], .word (char :: chars)⟩ := by
    simp only [run, Lexer.step, begin_word hchar, Option.bind_some, run_word _ _ hchars]
    rfl
  rw [run_append, hread, Option.bind_some] at hrun
  have hblank : run Lexer.step ⟨[wordToken (char :: chars)], .gap⟩ rest = some lexer := hrun
  have hbegins := (tokens_prefix_run hblank).trans (tokens_prefix_finish hfinish)
  exact (List.cons_prefix_cons.mp hbegins).1.symm

theorem not_denotes_date_wordToken (word : List Char) (date : Date) :
    ¬(wordToken word).Denotes (.date date) := by
  unfold wordToken
  cases keyword? word with
  | none => exact id
  | some keyword => cases keyword <;> exact id

theorem isWordChar_weekdays : ∀ weekday, weekdays weekday ≠ [] ∧
    ∀ char ∈ weekdays weekday, isWordChar char = true := by
  intro weekday
  fin_cases weekday <;> exact ⟨List.cons_ne_nil _ _, List.all_eq_true.mp rfl⟩

/-- The text of a Date begins with a word and a blank. -/
theorem Date.toString_eq (date : Date) :
    ∃ word rest, date.toString = word ++ ' ' :: rest ∧ word ≠ [] ∧
      ∀ char ∈ word, isWordChar char = true := by
  cases date with
  | invalid =>
      exact ⟨['I', 'n', 'v', 'a', 'l', 'i', 'd'], ['D', 'a', 't', 'e'], rfl, by decide,
        List.all_eq_true.mp rfl⟩
  | valid fields =>
      obtain ⟨hne, hword⟩ := isWordChar_weekdays fields.weekday
      rw [Date.toString, DateFields.toString]
      exact ⟨_, _, rfl, hne, hword⟩

/-- It is no literal. -/
theorem not_isLiteralOf_date (date : Date) : ¬IsLiteralOf date.toString (.date date) := by
  rintro ⟨token, hdenotes, hlexes, -⟩
  obtain ⟨word, rest, htext, hne, hword⟩ := date.toString_eq
  rw [htext] at hlexes
  rw [not_string_of_word hne hword hlexes] at hdenotes
  exact not_denotes_date_wordToken word date hdenotes

/-- `getEscapedValue` of a literal is a literal of SQL exactly if the literal is safe. -/
theorem isLiteralOf_getEscapedValue {value : LiteralValue} {literal : Literal}
    (hliteral : value.literal? = some literal) :
    IsLiteralOf (getEscapedValue (.literal literal)) value ↔ value.isSafe = true := by
  rw [isLiteralOf_iff]
  cases value with
  | string text =>
      cases hliteral
      constructor
      · rintro ⟨token, hdenotes, hlexes⟩
        match token, hdenotes with
        | .string _, rfl => exact (lexes_string_iff text).mp hlexes
      · exact fun hsafe => ⟨.string text, rfl, (lexes_string_iff text).mpr hsafe⟩
  | number number =>
      cases hliteral
      constructor
      · rintro ⟨token, hdenotes, -⟩
        match token, hdenotes with
        | .word _, ⟨_, _, _, hvalue⟩ =>
            exact Option.isSome_iff_exists.mpr ⟨_, hvalue⟩
      · intro hsafe
        obtain ⟨hlexes, hdenotes⟩ := Number.denotes_toString hsafe
        exact ⟨_, hdenotes, hlexes⟩
  | boolean value =>
      refine iff_of_true ?_ rfl
      cases value with
      | true =>
          cases hliteral
          exact ⟨.word "true".toList, rfl, lexes_word (by decide) (List.all_eq_true.mp rfl) (by decide)⟩
      | false =>
          cases hliteral
          exact ⟨.word "false".toList, rfl, lexes_word (by decide) (List.all_eq_true.mp rfl) (by decide)⟩
  | date date =>
      cases hliteral
      refine iff_of_false ?_ Bool.false_ne_true
      rw [← isLiteralOf_iff]
      exact not_isLiteralOf_date date
  | null => exact nomatch hliteral

theorem not_isLiteralOf_placeholder (value : LiteralValue) : ¬IsLiteralOf ['?'] value := by
  rintro ⟨token, hdenotes, hlexes, -⟩
  have htoken := lexes_unique lexesToGap_placeholder.lexes hlexes
  obtain rfl := List.singleton_inj.mp htoken
  cases value <;> exact hdenotes

/-! ## Comparisons -/

/-- The text that the visitor writes for a comparand. -/
def comparandText (isConstant : Bool) (parameter : Parameter Literal) : List Char :=
  if isConstant then getEscapedValue parameter else ['?']

theorem comparand_fst (visitor : SQLVisitor) (isConstant : Bool) (parameter : Parameter Literal) :
    (visitor.comparand isConstant parameter).1 = comparandText isConstant parameter := by
  cases isConstant <;> rfl

/-- A comparison or BETWEEN, with the operands as the application gives them. -/
inductive Comparison
  | comparator (operator : Comparator) (queryField : QueryField)
      (operand : Parameter LiteralValue)
  | between (queryField : QueryField) (operand1 operand2 : Parameter LiteralValue)

variable (marks : ℕ)

/-- The comparison has an SQL text in which every literal operand has, at its place, one
literal of SQL that denotes it. -/
def Comparison.WritesLiterals : Comparison → Prop
  | .comparator operator queryField operand =>
      ∃ parameter, operand.literal? = some parameter ∧
        (∀ sql visitor, (visit marks sql (.comparator operator queryField parameter)
          visitor).sqlText sql = queryField.tableAlias ++ queryField.columnName ++
            operator.comparator ++ comparandText (comparatorIsConstant marks parameter) parameter) ∧
        ∀ value, operand = .literal value →
          IsLiteralOf (comparandText (comparatorIsConstant marks parameter) parameter) value
  | .between queryField operand1 operand2 =>
      ∃ parameter1 parameter2, operand1.literal? = some parameter1 ∧
        operand2.literal? = some parameter2 ∧
        (∀ sql visitor, (visit marks sql (.between queryField parameter1 parameter2)
          visitor).sqlText sql = queryField.tableAlias ++ queryField.field.columnName ++
            " BETWEEN ".toList ++
            comparandText (betweenIsConstant marks parameter1 parameter2 0) parameter1 ++
            " AND ".toList ++
            comparandText (betweenIsConstant marks parameter1 parameter2 1) parameter2) ∧
        (∀ value, operand1 = .literal value →
          IsLiteralOf (comparandText (betweenIsConstant marks parameter1 parameter2 0) parameter1)
            value) ∧
        ∀ value, operand2 = .literal value →
          IsLiteralOf (comparandText (betweenIsConstant marks parameter1 parameter2 1) parameter2)
            value

def Parameter.isSafe : Parameter LiteralValue → Bool
  | .parameter _ => true
  | .literal value => value.isSafe

/-- All literals are safe; and BETWEEN a parameter and a literal has been marked an odd number
of times. -/
def Comparison.isSafe : Comparison → Bool
  | .comparator _ _ operand => operand.isSafe
  | .between _ operand1 operand2 =>
      operand1.isSafe && operand2.isSafe &&
        (!isQueryParameter operand1 || isQueryParameter operand2 || marks % 2 == 1)

theorem comparatorIsConstant_literal {marks : ℕ} (hmarks : 0 < marks) (literal : Literal) :
    comparatorIsConstant marks (.literal literal) = true := by
  obtain ⟨before, rfl⟩ := Nat.exists_eq_succ_of_ne_zero hmarks.ne'
  rw [comparatorIsConstant, Function.iterate_succ_apply']
  rfl

theorem betweenIsConstant_literal_first {marks : ℕ} (hmarks : 0 < marks) (literal : Literal)
    (parameter : Parameter Literal) :
    betweenIsConstant marks (.literal literal) parameter 0 = true := by
  obtain ⟨before, rfl⟩ := Nat.exists_eq_succ_of_ne_zero hmarks.ne'
  rw [betweenIsConstant, Function.iterate_succ_apply']
  generalize (markBetween (.literal literal) parameter)^[before] 0 = constants
  cases parameter with
  | parameter name =>
      have hmark : markBetween (.literal literal) (.parameter name) constants = 1 := rfl
      rw [hmark]
      rfl
  | literal literal' =>
      have hmark : markBetween (.literal literal) (.literal literal') constants = 3 := rfl
      rw [hmark]
      rfl

theorem betweenIsConstant_literals {marks : ℕ} (hmarks : 0 < marks) (literal literal' : Literal) :
    betweenIsConstant marks (.literal literal) (.literal literal') 1 = true := by
  obtain ⟨before, rfl⟩ := Nat.exists_eq_succ_of_ne_zero hmarks.ne'
  rw [betweenIsConstant, Function.iterate_succ_apply']
  generalize (markBetween (.literal literal) (.literal literal'))^[before] 0 = constants
  have hmark : markBetween (.literal literal) (.literal literal') constants = 3 := rfl
  rw [hmark]
  rfl

/-- The second operand is counted again whenever the tree is marked. -/
theorem betweenIsConstant_literal_second (marks : ℕ) (name : String) (literal : Literal) :
    betweenIsConstant marks (.parameter name) (.literal literal) 1 = (marks % 2 == 1) := by
  have hconstants : ∀ marks, (markBetween (.parameter name) (.literal literal))^[marks] 0 =
      2 * marks := by
    intro marks
    induction marks with
    | zero => rfl
    | succ marks ih =>
        rw [Function.iterate_succ_apply', ih]
        rfl
  rw [betweenIsConstant, hconstants, Nat.testBit_succ, Nat.mul_div_cancel_left _ Nat.two_pos,
    Nat.testBit_zero]
  rfl

theorem Parameter.literal?_parameter (name : String) :
    (Parameter.parameter name : Parameter LiteralValue).literal? = some (.parameter name) := rfl

theorem Parameter.literal?_eq_some {value : LiteralValue} {parameter : Parameter Literal} :
    (Parameter.literal value).literal? = some parameter ↔
      ∃ literal, value.literal? = some literal ∧ parameter = .literal literal := by
  rw [Parameter.literal?, Option.map_eq_some_iff]
  simp only [eq_comm]

/-- `null` is the only literal without a text. -/
theorem LiteralValue.literal?_of_isSafe {value : LiteralValue} (h : value.isSafe = true) :
    ∃ literal, value.literal? = some literal := by
  cases value with
  | string text => exact ⟨_, rfl⟩
  | number number => exact ⟨_, rfl⟩
  | boolean value => cases value <;> exact ⟨_, rfl⟩
  | date date => exact ⟨_, rfl⟩
  | null => exact absurd h Bool.false_ne_true

/-- The texts of an operand, and when they are right: it is a parameter, or it is safe and the
visitor knows that it is a constant. -/
theorem operand_iff (operand : Parameter LiteralValue) (isConstant : Parameter Literal → Bool) :
    (∃ parameter, operand.literal? = some parameter ∧ ∀ value, operand = .literal value →
        IsLiteralOf (comparandText (isConstant parameter) parameter) value) ↔
      operand.isSafe = true ∧
        ∀ literal, (∃ value, operand = .literal value ∧ value.literal? = some literal) →
          isConstant (.literal literal) = true := by
  cases operand with
  | parameter name =>
      refine iff_of_true ⟨_, rfl, nofun⟩ ⟨rfl, ?_⟩
      rintro literal ⟨value, hvalue, -⟩
      exact nomatch hvalue
  | literal value =>
      constructor
      · rintro ⟨parameter, hparameter, hliteral⟩
        obtain ⟨literal, hsome, rfl⟩ := Parameter.literal?_eq_some.mp hparameter
        have hwritten := hliteral value rfl
        cases hconstant : isConstant (.literal literal) with
        | false =>
            rw [hconstant] at hwritten
            exact absurd hwritten (not_isLiteralOf_placeholder value)
        | true =>
            rw [hconstant] at hwritten
            refine ⟨(isLiteralOf_getEscapedValue hsome).mp hwritten, ?_⟩
            rintro other ⟨_, ⟨⟩, hother⟩
            cases hsome.symm.trans hother
            exact hconstant
      · rintro ⟨hsafe, hconstant⟩
        obtain ⟨literal, hsome⟩ := LiteralValue.literal?_of_isSafe hsafe
        refine ⟨.literal literal, Parameter.literal?_eq_some.mpr ⟨literal, hsome, rfl⟩, ?_⟩
        rintro _ ⟨⟩
        rw [hconstant literal ⟨value, rfl, hsome⟩]
        exact (isLiteralOf_getEscapedValue hsome).mpr hsafe

theorem sqlText_comparator (operator : Comparator) (queryField : QueryField)
    (parameter : Parameter Literal) (sql : SqlObject) (visitor : SQLVisitor) :
    (visit marks sql (.comparator operator queryField parameter) visitor).sqlText sql =
      queryField.tableAlias ++ queryField.columnName ++ operator.comparator ++
        comparandText (comparatorIsConstant marks parameter) parameter := by
  simp only [visit, visitQueryComparator, SQLVisitor.sqlText_setText_self, comparand_fst]
  rfl

theorem sqlText_between (queryField : QueryField) (parameter1 parameter2 : Parameter Literal)
    (sql : SqlObject) (visitor : SQLVisitor) :
    (visit marks sql (.between queryField parameter1 parameter2) visitor).sqlText sql =
      queryField.tableAlias ++ queryField.field.columnName ++ " BETWEEN ".toList ++
        comparandText (betweenIsConstant marks parameter1 parameter2 0) parameter1 ++
        " AND ".toList ++
        comparandText (betweenIsConstant marks parameter1 parameter2 1) parameter2 := by
  simp only [visit, visitQueryBetweenOperator, SQLVisitor.sqlText_setText_self, comparand_fst]
  rfl

variable {marks}

/-- A marked comparison has a right text exactly if its literals are safe, and the second one of
BETWEEN is known to be a constant. -/
theorem Comparison.writesLiterals_iff (hmarks : 0 < marks) (comparison : Comparison) :
    comparison.WritesLiterals marks ↔ comparison.isSafe marks = true := by
  cases comparison with
  | comparator operator queryField operand =>
      have hwrites : (Comparison.comparator operator queryField operand).WritesLiterals marks ↔
          ∃ parameter, operand.literal? = some parameter ∧ ∀ value, operand = .literal value →
            IsLiteralOf (comparandText (comparatorIsConstant marks parameter) parameter) value :=
        exists_congr fun parameter => and_congr_right fun _ =>
          and_iff_right (sqlText_comparator marks operator queryField parameter)
      rw [hwrites, operand_iff operand (comparatorIsConstant marks)]
      refine and_iff_left_of_imp fun _ => ?_
      rintro literal ⟨value, -, -⟩
      exact comparatorIsConstant_literal hmarks literal
  | between queryField operand1 operand2 =>
      constructor
      · rintro ⟨parameter1, parameter2, hparameter1, hparameter2, -, hliteral1, hliteral2⟩
        obtain ⟨hsafe1, -⟩ := (operand_iff operand1
          fun parameter => betweenIsConstant marks parameter parameter2 0).mp
            ⟨parameter1, hparameter1, hliteral1⟩
        obtain ⟨hsafe2, hconstant2⟩ := (operand_iff operand2
          fun parameter => betweenIsConstant marks parameter1 parameter 1).mp
            ⟨parameter2, hparameter2, hliteral2⟩
        rw [Comparison.isSafe, hsafe1, hsafe2]
        match operand1, operand2 with
        | .literal _, .parameter _ => rfl
        | .literal _, .literal _ => rfl
        | .parameter _, .parameter _ => rfl
        | .parameter name, .literal value =>
            obtain ⟨literal, hsome, rfl⟩ := Parameter.literal?_eq_some.mp hparameter2
            cases hparameter1
            have hodd := hconstant2 literal ⟨value, rfl, hsome⟩
            rw [betweenIsConstant_literal_second] at hodd
            exact hodd
      · intro hsafe
        obtain ⟨hsafe, hcounted⟩ := Bool.and_eq_true_iff.mp hsafe
        obtain ⟨hsafe1, hsafe2⟩ := Bool.and_eq_true_iff.mp hsafe
        -- the second operand decides nothing about the first
        have hfirst : ∀ parameter2, ∃ parameter1, operand1.literal? = some parameter1 ∧
            ∀ value, operand1 = .literal value → IsLiteralOf
              (comparandText (betweenIsConstant marks parameter1 parameter2 0) parameter1) value := by
          intro parameter2
          refine (operand_iff operand1
            fun parameter => betweenIsConstant marks parameter parameter2 0).mpr ⟨hsafe1, ?_⟩
          rintro literal ⟨value, -, -⟩
          exact betweenIsConstant_literal_first hmarks literal parameter2
        obtain ⟨parameter1, hparameter1, -⟩ := hfirst (.parameter "")
        have hsecond := (operand_iff operand2
          fun parameter => betweenIsConstant marks parameter1 parameter 1).mpr ⟨hsafe2, ?_⟩
        · obtain ⟨parameter2, hparameter2, hliteral2⟩ := hsecond
          obtain ⟨other, hother, hliteral1⟩ := hfirst parameter2
          cases hparameter1.symm.trans hother
          exact ⟨parameter1, parameter2, hparameter1, hparameter2,
            sqlText_between marks queryField parameter1 parameter2, hliteral1, hliteral2⟩
        · rintro literal ⟨value, rfl, hsome⟩
          match operand1 with
          | .literal value1 =>
              obtain ⟨literal1, -, rfl⟩ := Parameter.literal?_eq_some.mp hparameter1
              exact betweenIsConstant_literals hmarks literal1 literal
          | .parameter name =>
              cases hparameter1
              rw [betweenIsConstant_literal_second]
              exact hcounted

/-- `a = '50\%'`, marked once. -/
theorem writesLiterals_wildcard :
    (Comparison.comparator .eq ⟨[], ['a'], 0⟩ (.literal (.string "50\\%".toList))).WritesLiterals 1 :=
  (Comparison.writesLiterals_iff Nat.one_pos _).mpr (by decide)

/-- `a = 'x' OR 'x' = 'x'`: the string `x' OR 'x' = 'x` is not one literal. -/
theorem not_writesLiterals_injection :
    ¬ ∀ (marks : ℕ) (comparison : Comparison), 0 < marks → comparison.WritesLiterals marks := by
  intro hclaim
  obtain ⟨parameter, hparameter, -, hliteral⟩ := hclaim 1 (.comparator .eq ⟨[], ['a'], 0⟩
    (.literal (.string "x' OR 'x' = 'x".toList))) Nat.one_pos
  cases hparameter
  have hwritten := hliteral _ rfl
  rw [comparatorIsConstant_literal Nat.one_pos] at hwritten
  have hescaped : IsLiteralOf (getEscapedValue (.literal (.string "x' OR 'x' = 'x".toList)))
      (.string "x' OR 'x' = 'x".toList) := hwritten
  have hsafe : LiteralValue.isSafe (.string "x' OR 'x' = 'x".toList) = true :=
    (isLiteralOf_getEscapedValue rfl).mp hescaped
  exact absurd hsafe (by decide)

end DatabaseJones.Query
