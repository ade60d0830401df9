import DatabaseJones.Library.Run
import DatabaseJones.Query.SqlVisitor

/-!
# Reading SQL conditions

A lexer and a parser for the part of SQL's grammar that conditions on columns
use: comparisons of a column with a value, BETWEEN, the null tests, and NOT, AND
and OR, where NOT binds tighter than AND and AND tighter than OR.  Both are
machines: the lexer takes one character at a time, and the parser one token, with
a stack of the levels of parentheses that are open.
-/

namespace DatabaseJones.Query

open DatabaseJones.Library

/-! ## Tokens -/

inductive Keyword
  | and | or | not | is | null | between
deriving DecidableEq, Repr

inductive Token
  | keyword (keyword : Keyword)
  | word (text : List Char)
  | string (text : List Char)
  | comparator (comparator : Comparator)
  | placeholder
  | opening
  | closing
deriving DecidableEq, Repr

/-- Keywords are not case-sensitive. -/
def keyword? (text : List Char) : Option Keyword :=
  match String.ofList (text.map Char.toUpper) with
  | "AND" => some .and
  | "OR" => some .or
  | "NOT" => some .not
  | "IS" => some .is
  | "NULL" => some .null
  | "BETWEEN" => some .between
  | _ => none

/-- The characters of unquoted identifiers, qualified ones included. -/
def isIdentifierChar (char : Char) : Bool :=
  char.isAlphanum || char == '_' || char == '$' || char == '.' || 128 ≤ char.toNat

/-- The characters of words.  A sign occurs in numbers. -/
def isWordChar (char : Char) : Bool := isIdentifierChar char || char == '+' || char == '-'

local instance lawfulBEq_word : LawfulBEq (List Char) := List.instLawfulBEq

/-- A word that stands for a number or a truth value. -/
def isLiteralWord (text : List Char) : Bool :=
  text.head?.any (fun char => char.isDigit || char == '-') ||
    text.map Char.toUpper ∈ ["TRUE".toList, "FALSE".toList]

def comparator? (text : List Char) : Option Comparator :=
  match text with
  | ['='] => some .eq
  | ['!', '='] => some .ne
  | ['<'] => some .lt
  | ['<', '='] => some .le
  | ['>'] => some .gt
  | ['>', '='] => some .ge
  | _ => none

/-! ## The lexer -/

/-- What the lexer is reading.  `quote` is a string that ended, unless another quote
follows. -/
inductive LexerMode
  | gap
  | word (text : List Char)
  | symbol (text : List Char)
  | string (text : List Char)
  | escape (text : List Char)
  | quote (text : List Char)
deriving DecidableEq, Repr

structure Lexer where
  tokens : List Token
  mode : LexerMode
deriving DecidableEq, Repr

def wordToken (text : List Char) : Token := (keyword? text).elim (.word text) .keyword

/-- The tokens when the text ends here; strings have to be closed. -/
def Lexer.finish (lexer : Lexer) : Option (List Token) :=
  match lexer.mode with
  | .gap => some lexer.tokens
  | .word text => some (lexer.tokens ++ [wordToken text])
  | .symbol text => (comparator? text).map fun comparator => lexer.tokens ++ [.comparator comparator]
  | .quote text => some (lexer.tokens ++ [.string text])
  | .string _ => none
  | .escape _ => none

/-- The first character of a token. -/
def begin (tokens : List Token) (char : Char) : Option Lexer :=
  if char = ' ' then some ⟨tokens, .gap⟩
  else if char = '(' then some ⟨tokens ++ [.opening], .gap⟩
  else if char = ')' then some ⟨tokens ++ [.closing], .gap⟩
  else if char = '?' then some ⟨tokens ++ [.placeholder], .gap⟩
  else if char = '\'' then some ⟨tokens, .string []⟩
  else if char ∈ ['=', '!', '<', '>'] then some ⟨tokens, .symbol [char]⟩
  else if isWordChar char then some ⟨tokens, .word [char]⟩
  else none

/-- What a backslash and the given character stand for in a string.  The wildcards of
patterns keep their backslash. -/
def unescape (char : Char) : List Char :=
  if char = 'n' then ['\n']
  else if char = 't' then ['\t']
  else if char = 'r' then ['\r']
  else if char = '0' then [Char.ofNat 0]
  else if char = 'b' then [Char.ofNat 8]
  else if char = 'Z' then [Char.ofNat 26]
  else if char = '%' ∨ char = '_' then ['\\', char]
  else [char]

def Lexer.step (lexer : Lexer) (char : Char) : Option Lexer :=
  match lexer.mode with
  | .string text =>
      if char = '\'' then some { lexer with mode := .quote text }
      else if char = '\\' then some { lexer with mode := .escape text }
      else some { lexer with mode := .string (text ++ [char]) }
  | .escape text => some { lexer with mode := .string (text ++ unescape char) }
  | .quote text =>
      if char = '\'' then some { lexer with mode := .string (text ++ [char]) }
      else lexer.finish.bind (begin · char)
  | .word text =>
      if isWordChar char then some { lexer with mode := .word (text ++ [char]) }
      else lexer.finish.bind (begin · char)
  | .symbol text =>
      if char ∈ ['=', '!', '<', '>'] then some { lexer with mode := .symbol (text ++ [char]) }
      else lexer.finish.bind (begin · char)
  | .gap => begin lexer.tokens char

def lex (text : List Char) : Option (List Token) :=
  (run Lexer.step ⟨[], .gap⟩ text).bind Lexer.finish

/-! ## Expressions -/

/-- A condition, over a type of values that columns are compared with. -/
inductive SqlExpression (ω : Type)
  | comparison (comparator : Comparator) (column : List Char) (value : ω)
  | between (column : List Char) (low high : ω)
  | nullTest (operator : UnaryOperator) (column : List Char)
  | not (expression : SqlExpression ω)
  | binary (operator : NaryOperator) (left right : SqlExpression ω)
deriving DecidableEq, Repr

/-- A value in the text: the placeholder with the given number, or a literal. -/
inductive Value
  | placeholder (number : ℕ)
  | literal (value : Literal)
deriving DecidableEq, Repr

variable {ω ω' V : Type}

/-- The truth value of a condition. -/
def SqlExpression.eval (interpretation : Interpretation (List Char) ω V) :
    SqlExpression ω → Option Bool
  | .comparison comparator column value => interpretation.comparison comparator column value
  | .between column low high => interpretation.betweenness column low high
  | .nullTest operator column => interpretation.nullTest operator column
  | .not expression => truthNot (expression.eval interpretation)
  | .binary operator left right =>
      operator.apply (left.eval interpretation) (right.eval interpretation)

/-- The values of a condition, in the order of the text. -/
def SqlExpression.values : SqlExpression ω → List ω
  | .comparison _ _ value => [value]
  | .between _ low high => [low, high]
  | .nullTest _ _ => []
  | .not expression => expression.values
  | .binary _ left right => left.values ++ right.values

/-- Replace the values of a condition. -/
def SqlExpression.map (f : ω → ω') : SqlExpression ω → SqlExpression ω'
  | .comparison comparator column value => .comparison comparator column (f value)
  | .between column low high => .between column (f low) (f high)
  | .nullTest operator column => .nullTest operator column
  | .not expression => .not (expression.map f)
  | .binary operator left right => .binary operator (left.map f) (right.map f)

/-! ## The parser -/

/-- One level of parentheses: the disjunction to the left of the last OR, the
conjunction to the left of the last AND, and the number of NOTs that wait for
their operand. -/
structure Level where
  disjunction : Option (SqlExpression Value)
  conjunction : Option (SqlExpression Value)
  nots : ℕ
deriving DecidableEq, Repr

def Level.empty : Level := { disjunction := none, conjunction := none, nots := 0 }

/-- Put an expression to the right of what waits for it. -/
def join (operator : NaryOperator) (left : Option (SqlExpression Value))
    (right : SqlExpression Value) : SqlExpression Value :=
  left.elim right fun left => .binary operator left right

/-- The conjunction that a level holds with its last operand. -/
def Level.conjoin (level : Level) (operand : SqlExpression Value) : SqlExpression Value :=
  join .and level.conjunction (SqlExpression.not^[level.nots] operand)

/-- The condition that a level holds with its last operand. -/
def Level.close (level : Level) (operand : SqlExpression Value) : SqlExpression Value :=
  join .or level.disjunction (level.conjoin operand)

/-- The level after an operand and AND or OR. -/
def Level.after (level : Level) (operand : SqlExpression Value) : NaryOperator → Level
  | .and => { level with conjunction := some (level.conjoin operand), nots := 0 }
  | .or => { disjunction := some (level.close operand), conjunction := none, nots := 0 }

/-- What the parser has read of an operand. -/
inductive Phase
  | operand
  | column (column : List Char)
  | comparison (comparator : Comparator) (column : List Char)
  | betweenLow (column : List Char)
  | betweenAnd (column : List Char) (low : Value)
  | betweenHigh (column : List Char) (low : Value)
  | is (column : List Char)
  | isNot (column : List Char)
  | complete (operand : SqlExpression Value)
deriving DecidableEq, Repr

structure Parser where
  level : Level
  outer : List Level
  phase : Phase
  placeholders : ℕ
deriving DecidableEq, Repr

/-- Read a value; placeholders are numbered as they come. -/
def Parser.value (parser : Parser) (phase : Value → Phase) : Token → Option Parser
  | .placeholder => some { parser with
      phase := phase (.placeholder parser.placeholders), placeholders := parser.placeholders + 1 }
  | .string text => some { parser with phase := phase (.literal (.string text)) }
  | .word text =>
      if isLiteralWord text then some { parser with phase := phase (.literal (.other text)) }
      else none
  | _ => none

def Parser.step (parser : Parser) (token : Token) : Option Parser :=
  match parser.phase with
  | .operand =>
      match token with
      | .keyword .not =>
          some { parser with level := { parser.level with nots := parser.level.nots + 1 } }
      | .opening =>
          some { parser with level := .empty, outer := parser.level :: parser.outer }
      | .word column => some { parser with phase := .column column }
      | _ => none
  | .column column =>
      match token with
      | .comparator comparator => some { parser with phase := .comparison comparator column }
      | .keyword .between => some { parser with phase := .betweenLow column }
      | .keyword .is => some { parser with phase := .is column }
      | _ => none
  | .comparison comparator column =>
      parser.value (fun value => .complete (.comparison comparator column value)) token
  | .betweenLow column => parser.value (fun low => .betweenAnd column low) token
  | .betweenAnd column low =>
      match token with
      | .keyword .and => some { parser with phase := .betweenHigh column low }
      | _ => none
  | .betweenHigh column low =>
      parser.value (fun high => .complete (.between column low high)) token
  | .is column =>
      match token with
      | .keyword .null => some { parser with phase := .complete (.nullTest .isNull column) }
      | .keyword .not => some { parser with phase := .isNot column }
      | _ => none
  | .isNot column =>
      match token with
      | .keyword .null => some { parser with phase := .complete (.nullTest .isNotNull column) }
      | _ => none
  | .complete operand =>
      match token with
      | .keyword .and =>
          some { parser with level := parser.level.after operand .and, phase := .operand }
      | .keyword .or =>
          some { parser with level := parser.level.after operand .or, phase := .operand }
      | .closing =>
          match parser.outer with
          | level :: outer => some { parser with
              level := level, outer := outer, phase := .complete (parser.level.close operand) }
          | [] => none
      | _ => none

/-- The condition when the text ends here, with the number of its placeholders. -/
def Parser.finish (parser : Parser) : Option (SqlExpression Value × ℕ) :=
  match parser.phase, parser.outer with
  | .complete operand, [] => some (parser.level.close operand, parser.placeholders)
  | _, _ => none

def Parser.start : Parser :=
  { level := .empty, outer := [], phase := .operand, placeholders := 0 }

def parse (text : List Char) : Option (SqlExpression Value × ℕ) :=
  (lex text).bind fun tokens => (run Parser.step .start tokens).bind Parser.finish

end DatabaseJones.Query

/-!
## Lexing SQL texts piece by piece

The pieces that the SQL visitor puts together are texts that end in a gap, such as
` AND `, and texts that end inside a word, such as a column name.  A text of the
second kind has to be followed by a delimiter.
-/

namespace DatabaseJones.Query

open DatabaseJones.Library

/-! ## Texts that SQL reads back -/

/-- A text that is an identifier without quotes. -/
def IsIdentifier (text : List Char) : Prop :=
  text ≠ [] ∧ (∀ char ∈ text, isIdentifierChar char = true) ∧ keyword? text = none

instance : DecidablePred IsIdentifier := fun text =>
  have := List.decidableBAll (fun char => isIdentifierChar char = true) text
  inferInstanceAs (Decidable (_ ∧ _ ∧ _))

/-- A literal with nothing to escape: a string without quotes and backslashes, a
number or a truth value. -/
def Parameter.IsPlain : Parameter Literal → Prop
  | .parameter _ => True
  | .literal (.string text) => '\'' ∉ text ∧ '\\' ∉ text
  | .literal (.other text) => text ≠ [] ∧ (∀ char ∈ text, isWordChar char = true) ∧
      keyword? text = none ∧ isLiteralWord text = true

instance : DecidablePred Parameter.IsPlain
  | .parameter _ => .isTrue trivial
  | .literal (.string _) => inferInstanceAs (Decidable (_ ∧ _))
  | .literal (.other text) =>
      have := List.decidableBAll (fun char => isWordChar char = true) text
      inferInstanceAs (Decidable (_ ∧ _ ∧ _ ∧ _))

/-- A tree whose columns are identifiers and whose literals are plain. -/
def Predicate.IsPlain (predicate : Predicate Literal) : Prop :=
  ∀ atom ∈ predicate.atoms,
    (∀ queryField ∈ atom.queryField?, IsIdentifier (queryField.tableAlias ++ queryField.columnName)) ∧
      ∀ parameter ∈ atom.parameters, parameter.IsPlain

instance : DecidablePred Predicate.IsPlain := fun _ => List.decidableBAll _ _

theorem atomsOfOperands_eq {ν : Type*} (operands : List (Predicate ν)) :
    atomsOfOperands operands = operands.flatMap Predicate.atoms := by
  induction operands with
  | nil => rfl
  | cons operand operands ih => rw [atomsOfOperands, ih, List.flatMap_cons]

theorem isPlain_nary {operator : NaryOperator} {first : Predicate Literal}
    {rest : List (Predicate Literal)} (h : (Predicate.nary operator first rest).IsPlain) :
    first.IsPlain ∧ ∀ operand ∈ rest, operand.IsPlain := by
  rw [Predicate.IsPlain, Predicate.atoms, atomsOfOperands_eq] at h
  constructor
  · exact fun atom hatom => h atom (List.mem_append_left _ hatom)
  · exact fun operand hoperand atom hatom =>
      h atom (List.mem_append_right _ (List.mem_flatMap.mpr ⟨operand, hoperand, hatom⟩))

/-! ## Lexing piece by piece -/

/-- A text that gives these tokens when it is read from a gap. -/
def Lexes (text : List Char) (tokens : List Token) : Prop :=
  ∀ before, ∃ lexer, run Lexer.step ⟨before, .gap⟩ text = some lexer ∧
    lexer.finish = some (before ++ tokens)

/-- A text that gives these tokens and ends in a gap. -/
def LexesToGap (text : List Char) (tokens : List Token) : Prop :=
  ∀ before, run Lexer.step ⟨before, .gap⟩ text = some ⟨before ++ tokens, .gap⟩

/-- The characters that end every token but a string. -/
def delimiters : List Char := [' ', '(', ')']

def NaryOperator.keyword : NaryOperator → Keyword
  | .and => .and
  | .or => .or

def UnaryOperator.tokens : UnaryOperator → List Token
  | .isNull => [.keyword .is, .keyword .null]
  | .isNotNull => [.keyword .is, .keyword .not, .keyword .null]

/-- The token of a comparand. -/
def valueToken (isConstant : Bool) : Parameter Literal → Token
  | .parameter _ => .placeholder
  | .literal (.string text) => if isConstant then .string text else .placeholder
  | .literal (.other text) => if isConstant then .word text else .placeholder

variable {text text' : List Char} {tokens tokens' : List Token} {char : Char}

theorem LexesToGap.lexes (h : LexesToGap text tokens) : Lexes text tokens :=
  fun before => ⟨_, h before, rfl⟩

theorem Lexes.lex_eq (h : Lexes text tokens) : lex text = some tokens := by
  obtain ⟨lexer, hrun, hfinish⟩ := h []
  rw [lex, hrun, Option.bind_some, hfinish, List.nil_append]

theorem step_delimiter (lexer : Lexer) (hfinish : lexer.finish = some tokens)
    (hchar : char ∈ delimiters) : lexer.step char = begin tokens char := by
  obtain ⟨before, mode⟩ := lexer
  have hword : isWordChar char = false := by
    fin_cases hchar <;> decide
  have hsymbol : char ∉ ['=', '!', '<', '>'] := by
    fin_cases hchar <;> decide
  have hquote : char ≠ '\'' := by
    fin_cases hchar <;> decide
  cases mode with
  | gap =>
      cases hfinish
      rfl
  | word text => simp [Lexer.step, hword, hfinish]
  | symbol text => simp only [Lexer.step, if_neg hsymbol, hfinish, Option.bind_some]
  | string text => simp [Lexer.finish] at hfinish
  | escape text => simp [Lexer.finish] at hfinish
  | quote text => simp [Lexer.step, hquote, hfinish]

/-- A delimiter goes on from where the tokens before it are finished. -/
theorem run_delimiter {lexer : Lexer} (hfinish : lexer.finish = some tokens)
    (hchar : char ∈ delimiters) :
    run Lexer.step lexer (char :: text) = run Lexer.step ⟨tokens, .gap⟩ (char :: text) := by
  rw [run, run, step_delimiter lexer hfinish hchar, step_delimiter ⟨tokens, .gap⟩ rfl hchar]

theorem LexesToGap.append (h : LexesToGap text tokens) (h' : Lexes text' tokens') :
    Lexes (text ++ text') (tokens ++ tokens') := by
  intro before
  rw [run_append, h before, Option.bind_some, ← List.append_assoc]
  exact h' _

theorem LexesToGap.append_toGap (h : LexesToGap text tokens) (h' : LexesToGap text' tokens') :
    LexesToGap (text ++ text') (tokens ++ tokens') := by
  intro before
  rw [run_append, h before, Option.bind_some, ← List.append_assoc]
  exact h' _

/-- A text that has to be followed by a delimiter can be, by a text that starts with
one. -/
theorem Lexes.run_append (h : Lexes text tokens)
    (hhead : text'.head?.any (· ∈ delimiters) = true) (before : List Token) :
    run Lexer.step ⟨before, .gap⟩ (text ++ text') =
      run Lexer.step ⟨before ++ tokens, .gap⟩ text' := by
  obtain ⟨lexer, hrun, hfinish⟩ := h before
  cases text' with
  | nil => simp at hhead
  | cons char text' =>
      rw [Library.run_append, hrun, Option.bind_some, run_delimiter hfinish (by simpa using hhead)]

theorem Lexes.append (h : Lexes text tokens) (hhead : text'.head?.any (· ∈ delimiters) = true)
    (h' : Lexes text' tokens') : Lexes (text ++ text') (tokens ++ tokens') := by
  intro before
  rw [h.run_append hhead, ← List.append_assoc]
  exact h' _

theorem Lexes.append_toGap (h : Lexes text tokens)
    (hhead : text'.head?.any (· ∈ delimiters) = true) (h' : LexesToGap text' tokens') :
    LexesToGap (text ++ text') (tokens ++ tokens') := by
  intro before
  rw [h.run_append hhead, ← List.append_assoc]
  exact h' _

/-! ## The pieces -/

theorem lexesToGap_opening : LexesToGap ['('] [.opening] := fun _ => rfl

theorem lexesToGap_closing : LexesToGap [')'] [.closing] := fun _ => rfl

theorem Lexes.parenthesized (h : Lexes text tokens) :
    LexesToGap ('(' :: text ++ [')']) (.opening :: tokens ++ [.closing]) := by
  have hopened : Lexes ('(' :: text) (.opening :: tokens) := lexesToGap_opening.append h
  exact hopened.append_toGap rfl lexesToGap_closing

theorem lexesToGap_comparator (comparator : Comparator) :
    LexesToGap comparator.comparator [.comparator comparator] := by
  intro before
  cases comparator <;> rfl

theorem lexesToGap_operator (operator : NaryOperator) :
    LexesToGap operator.operator [.keyword operator.keyword] := by
  intro before
  cases operator <;> rfl

theorem lexesToGap_between : LexesToGap " BETWEEN ".toList [.keyword .between] := fun _ => rfl

theorem lexesToGap_not : LexesToGap " NOT ".toList [.keyword .not] := fun _ => rfl

theorem lexes_unaryOperator (operator : UnaryOperator) :
    Lexes operator.operator operator.tokens := by
  intro before
  cases operator with
  | isNull => exact ⟨⟨before ++ [.keyword .is], .word "NULL".toList⟩, rfl, by
      simp [Lexer.finish, wordToken, UnaryOperator.tokens, keyword?]⟩
  | isNotNull =>
      exact ⟨⟨before ++ [.keyword .is] ++ [.keyword .not], .word "NULL".toList⟩, rfl, by
        simp [Lexer.finish, wordToken, UnaryOperator.tokens, keyword?]⟩

theorem begin_word (hword : isWordChar char = true) (before : List Token) :
    begin before char = some ⟨before, .word [char]⟩ := by
  have hne : ∀ other, isWordChar other = false → char ≠ other := by
    rintro other hother rfl
    exact absurd (hword.symm.trans hother) (by decide)
  have hsymbol : char ∉ ['=', '!', '<', '>'] := by
    simp only [List.mem_cons, List.not_mem_nil, or_false, not_or]
    exact ⟨hne _ (by decide), hne _ (by decide), hne _ (by decide), hne _ (by decide)⟩
  rw [begin, if_neg (hne _ (by decide)), if_neg (hne _ (by decide)), if_neg (hne _ (by decide)),
    if_neg (hne _ (by decide)), if_neg (hne _ (by decide)), if_neg hsymbol, if_pos hword]

theorem run_word (before : List Token) (word : List Char)
    (htext : ∀ char ∈ text, isWordChar char = true) :
    run Lexer.step ⟨before, .word word⟩ text = some ⟨before, .word (word ++ text)⟩ := by
  induction text generalizing word with
  | nil => simp
  | cons char text ih =>
      obtain ⟨hchar, htext⟩ := List.forall_mem_cons.mp htext
      simp only [run, Lexer.step, if_pos hchar, Option.bind_some, ih _ htext]
      simp

theorem lexes_word (hne : text ≠ []) (htext : ∀ char ∈ text, isWordChar char = true)
    (hkeyword : keyword? text = none) : Lexes text [.word text] := by
  intro before
  cases text with
  | nil => exact absurd rfl hne
  | cons char text =>
      obtain ⟨hchar, htext⟩ := List.forall_mem_cons.mp htext
      refine ⟨⟨before, .word (char :: text)⟩, ?_, ?_⟩
      · simp only [run, Lexer.step, begin_word hchar, Option.bind_some, run_word _ _ htext]
        rfl
      · simp [Lexer.finish, wordToken, hkeyword]

theorem lexes_identifier (h : IsIdentifier text) : Lexes text [.word text] := by
  obtain ⟨hne, htext, hkeyword⟩ := h
  refine lexes_word hne (fun char hchar => ?_) hkeyword
  simp [isWordChar, htext char hchar]

theorem run_string (before : List Token) (string : List Char)
    (hquote : '\'' ∉ text) (hescape : '\\' ∉ text) :
    run Lexer.step ⟨before, .string string⟩ text = some ⟨before, .string (string ++ text)⟩ := by
  induction text generalizing string with
  | nil => simp
  | cons char text ih =>
      rw [List.mem_cons, not_or] at hquote hescape
      have hstep : Lexer.step ⟨before, .string string⟩ char =
          some ⟨before, .string (string ++ [char])⟩ := by
        simp only [Lexer.step, if_neg (Ne.symm hquote.1), if_neg (Ne.symm hescape.1)]
      rw [run, hstep, Option.bind_some, ih _ hquote.2 hescape.2, List.append_assoc]
      rfl

theorem lexes_string (hquote : '\'' ∉ text) (hescape : '\\' ∉ text) :
    Lexes ('\'' :: text ++ ['\'']) [.string text] := by
  intro before
  refine ⟨⟨before, .quote text⟩, ?_, rfl⟩
  have hopened : run Lexer.step ⟨before, .gap⟩ ('\'' :: text ++ ['\'']) =
      run Lexer.step ⟨before, .string []⟩ (text ++ ['\'']) := rfl
  rw [hopened, run_append, run_string before [] hquote hescape]
  rfl

theorem lexesToGap_placeholder : LexesToGap ['?'] [.placeholder] := fun _ => rfl

/-- A comparand gives one token, or is added to the formal parameters. -/
theorem lexes_comparand {parameter : Parameter Literal} (hplain : parameter.IsPlain)
    {isConstant : Bool} (hconstant : isConstant = true → isQueryParameter parameter = false)
    (visitor : SQLVisitor) :
    Lexes (visitor.comparand isConstant parameter).1 [valueToken isConstant parameter] := by
  cases isConstant with
  | false =>
      have htoken : valueToken false parameter = .placeholder := by
        rcases parameter with name | text | text <;> rfl
      rw [htoken]
      exact lexesToGap_placeholder.lexes
  | true =>
      rcases parameter with name | text | text
      · exact absurd (hconstant rfl) (by simp [isQueryParameter])
      · exact lexes_string hplain.1 hplain.2
      · exact lexes_word hplain.1 hplain.2.1 hplain.2.2.1

end DatabaseJones.Query
