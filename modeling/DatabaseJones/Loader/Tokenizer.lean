import DatabaseJones.Library.Loop
import DatabaseJones.Library.Utf16
import Mathlib.Data.Int.Log
import Mathlib.Data.Rat.Floor

/-!
# The tokenizer of control statements

`tokenize` cuts a control statement into tokens and skips white space and comments.  Its
cursor is the text that is still to be read: `c` is the head of this text, `peek()` the
unit after it, and `advance(n)` drops `n` units, which at the end of the text drops what
there is.  One turn of the loop over the text is `tokenizeStep`.
-/

namespace DatabaseJones.Loader

open Library

/-- The code unit of a character below U+10000. -/
def code (char : Char) : UInt16 := UInt16.ofNat char.toNat

/-- The code units of an ASCII text. -/
def codes (text : String) : CodeUnits := text.toList.map code

/-! ## Tokens -/

/-- The type of a token. -/
inductive TokenType
  | name
  | variable
  | number
  | string
  | operator
  | begindata
  deriving DecidableEq, Repr

/-- The value of a token: a string, or the Number of a number token. -/
inductive TokenValue
  | text (units : CodeUnits)
  | number (value : ℚ)
  deriving DecidableEq

/-- What JavaScript takes for true in a condition. -/
def TokenValue.isTruthy : TokenValue → Bool
  | .text units => units ≠ []
  | .number value => value ≠ 0

/-- A token, without the line and the column that it keeps for messages. -/
structure Token where
  type : TokenType
  value : TokenValue
  deriving DecidableEq

/-- `deliver(value)` of a token that consumed `str`: the value is `value || str`. -/
def deliver (type : TokenType) (value : Option TokenValue) (str : CodeUnits) : Token :=
  ⟨type, (value.filter TokenValue.isTruthy).getD (.text str)⟩

/-- The errors of `tokenize`; those of a token hold what it had consumed. -/
inductive ScanError
  /-- "bad number" -/
  | badNumber (str : CodeUnits)
  /-- "Unterminated string.", or without the full stop after a backslash. -/
  | unterminatedString (afterBackslash : Bool) (str : CodeUnits)
  /-- "Control character in string." -/
  | controlCharacter (str : CodeUnits)
  /-- "Bad Unicode character sequence" -/
  | badUnicode (str : CodeUnits)
  /-- "Unterminated comment" -/
  | unterminatedComment
  /-- "scanner error", with " after " and the value of the last token if there is one,
  and " at position " and the position. -/
  | scannerError (after : Option TokenValue) (position : ℕ)
  deriving DecidableEq

/-! ## Classes of characters -/

def isAlpha (c : UInt16) : Bool :=
  (code 'a' ≤ c && c ≤ code 'z') || (code 'A' ≤ c && c ≤ code 'Z')

def isAlpha_ (c : UInt16) : Bool := c == code '_' || isAlpha c

def isNumeric (c : UInt16) : Bool := code '0' ≤ c && c ≤ code '9'

def isInitialNumeric (c : UInt16) (p : Option UInt16) : Bool :=
  isNumeric c || (c == code '-' && p.any isNumeric)

def isNonInitialNumeric (c : UInt16) : Bool := isNumeric c || c == code '.'

def isAlphanumeric (c : UInt16) : Bool := isAlpha_ c || isNumeric c

/-- The single quote, the double quote and the backtick. -/
def isQuote (c : UInt16) : Bool := c == 0x27 || c == 0x22 || c == 0x60

def backslash : UInt16 := 0x5C

def isEndOfLine (c : UInt16) : Bool := c == code '\n' || c == code '\r'

/-- The legal one-character operators. -/
def operators : CodeUnits := codes "(),;:."

/-! ## Numbers -/

/-- The number that a list of decimal digits stands for. -/
def decimal (digits : CodeUnits) : ℕ :=
  digits.foldl (fun value digit => 10 * value + (digit.toNat - 0x30)) 0

/-- The nearest integer, of two the even one. -/
def roundToEven (value : ℚ) : ℤ :=
  let below := ⌊value⌋
  if value - below < 1 / 2 then below
  else if 1 / 2 < value - below then below + 1
  else if below % 2 = 0 then below else below + 1

/-- The Number closest to a rational; `none` if that is an infinity. -/
def toDouble (value : ℚ) : Option ℚ :=
  -- the value of the last bit of the mantissa
  let ulp : ℚ := 2 ^ (max (Int.log 2 |value| - 52) (-1074))
  let rounded := roundToEven (value / ulp) * ulp
  if |rounded| < 2 ^ 1024 then some rounded else none

/-- `+str` for a text of digits and points, if that is finite: `NaN` if there is more
than one point. -/
def unsignedNumber (str : CodeUnits) : Option ℚ :=
  let whole := str.takeWhile isNumeric
  match str.dropWhile isNumeric with
  | [] => some (decimal whole)
  | _ :: fraction =>
      if fraction.all isNumeric then
        some (decimal whole + decimal fraction / 10 ^ fraction.length)
      else none

/-- `+str` for the text of a number token, if that is finite. -/
def toNumber (str : CodeUnits) : Option ℚ :=
  match str with
  | [] => some 0
  | c :: rest =>
      if c = code '-' then (unsignedNumber rest).bind fun value => toDouble (-value)
      else (unsignedNumber str).bind toDouble

/-! ## Strings -/

/-- The white space that `parseInt` skips. -/
def isSpace (c : UInt16) : Bool :=
  (0x09 ≤ c && c ≤ 0x0D) || (0x2000 ≤ c && c ≤ 0x200A) ||
    [0x20, 0xA0, 0x1680, 0x180E, 0x2028, 0x2029, 0x202F, 0x205F, 0x3000, 0xFEFF].contains c

/-- The value of a hexadecimal digit. -/
def hexDigit? (c : UInt16) : Option ℕ :=
  if isNumeric c then some (c.toNat - 0x30)
  else if code 'a' ≤ c && c ≤ code 'f' then some (c.toNat - 0x61 + 10)
  else if code 'A' ≤ c && c ≤ code 'F' then some (c.toNat - 0x41 + 10)
  else none

/-- The number of a list of hexadecimal digits. -/
def hexadecimal (digits : CodeUnits) : ℕ :=
  digits.foldl (fun value digit => 16 * value + (hexDigit? digit).getD 0) 0

/-- The number before the first unit that is no hexadecimal digit. -/
def leadingHex (str : CodeUnits) : Option ℕ :=
  let digits := str.takeWhile fun c => (hexDigit? c).isSome
  if digits = [] then none else some (hexadecimal digits)

/-- A text without `0x` or `0X` before it. -/
def stripHexPrefix : CodeUnits → CodeUnits
  | zero :: x :: rest =>
      if zero = code '0' ∧ (x = code 'x' ∨ x = code 'X') then rest else zero :: x :: rest
  | str => str

/-- `parseInt(str, 16)`; `none` is `NaN`. -/
def parseHex (str : CodeUnits) : Option ℤ :=
  match str.dropWhile isSpace with
  | [] => none
  | c :: rest =>
      if c = code '-' then (leadingHex (stripHexPrefix rest)).map fun value => -(value : ℤ)
      else if c = code '+' then (leadingHex (stripHexPrefix rest)).map Int.ofNat
      else (leadingHex (stripHexPrefix (c :: rest))).map Int.ofNat

/-- What a unit after a backslash stands for, other than `u`. -/
def escaped (c : UInt16) : UInt16 :=
  if c = code 'b' then 0x08
  else if c = code 'f' then 0x0C
  else if c = code 'n' then code '\n'
  else if c = code 'r' then code '\r'
  else if c = code 't' then code '\t'
  else c

/-- The loop over the units of a string, which ends after the quote `q`: the string and
the text after it. -/
def consumeString (q : UInt16) (str : CodeUnits) :
    CodeUnits → Except ScanError (CodeUnits × CodeUnits)
  | [] => .error (.unterminatedString false str)
  | c :: rest =>
      if c = q then .ok (str, rest)
      else if isEndOfLine c then .error (.unterminatedString false str)
      else if c < code ' ' then .error (.controlCharacter str)
      else if c = backslash then
        match rest with
        | [] => .error (.unterminatedString true str)
        | u :: rest =>
            if u = code 'u' then
              if (parseHex (rest.take 4)).any fun v => v < 0 || 0xFFFF < v then
                .error (.badUnicode str)
              else
                -- `advance(4)` puts the unit it comes to into `c`, where the character
                -- of the escape was
                match rest with
                | _ :: _ :: _ :: c :: rest => consumeString q (str ++ [c]) rest
                | _ => .error (.unterminatedString false str)
            else consumeString q (str ++ [escaped u]) rest
      else consumeString q (str ++ [c]) rest

/-! ## Comments -/

/-- The loop over a block comment; it stops at a `*` and before a `/`. -/
def skipBlock : CodeUnits → CodeUnits
  | [] => []
  | c :: rest =>
      if c ≠ code '*' ∧ rest.head? ≠ some (code '/') then skipBlock rest else c :: rest

/-! ## The loop over the text -/

/-- The tokens so far and the text from the cursor on. -/
structure Scan where
  result : List Token
  rest : CodeUnits

/-- One turn of the loop in `tokenize`. -/
def tokenizeStep (source : CodeUnits) (scan : Scan) : Scan ⊕ Except ScanError (List Token) :=
  match scan.rest with
  | [] => .inr (.ok scan.result)
  | c :: rest =>
      if c ≤ code ' ' then .inl { scan with rest }
      else if isAlpha c then
        let tok := deliver .name none (c :: rest.takeWhile isAlphanumeric)
        if tok.value = .text (codes "BEGINDATA") then
          .inr (.ok (scan.result ++ [{ tok with type := .begindata }]))
        else .inl ⟨scan.result ++ [tok], rest.dropWhile isAlphanumeric⟩
      else if c = code '@' then
        .inl ⟨scan.result ++ [deliver .variable none (rest.takeWhile isAlphanumeric)],
          rest.dropWhile isAlphanumeric⟩
      else if isInitialNumeric c rest.head? then
        let str := c :: rest.takeWhile isNonInitialNumeric
        match toNumber str with
        | some v =>
            .inl ⟨scan.result ++ [deliver .number (some (.number v)) str],
              rest.dropWhile isNonInitialNumeric⟩
        | none => .inr (.error (.badNumber str))
      else if isQuote c then
        match consumeString c [] rest with
        | .ok (str, rest) => .inl ⟨scan.result ++ [deliver .string none str], rest⟩
        | .error error => .inr (.error error)
      else if c = code '-' ∧ rest.head? = some (code '-') then
        .inl { scan with rest := rest.tail.dropWhile fun c => !isEndOfLine c }
      else if c = code '/' ∧ rest.head? = some (code '*') then
        match (skipBlock rest.tail).drop 2 with
        | [] => .inr (.error .unterminatedComment)
        | c :: rest => .inl { scan with rest := c :: rest }
      else if operators.contains c then
        .inl ⟨scan.result ++ [deliver .operator none [c]], rest⟩
      else
        .inr (.error (.scannerError (scan.result.getLast?.map Token.value)
          (source.length - scan.rest.length)))

/-- `tokenize(source)` ends with `outcome`: the tokens, or the error that it throws. -/
def Tokenizes (source : CodeUnits) (outcome : Except ScanError (List Token)) : Prop :=
  LoopsTo (tokenizeStep source) ⟨[], source⟩ outcome

end DatabaseJones.Loader

/-!
## Reading tokens back

A control text is a list of elements: items, which stand for one token each, white space,
line comments and block comments.  A valid text is read to its end, token for token, as
long as its block comments are plain and none of them is the end of the text.  What is
delivered for an item is its own value in all but two cases:

* the number 0, which is delivered as the string that was written;
* an escape `\uXXXX`, which is delivered as its last digit.

A block comment is plain if it has no star, and no slash but as its first unit.
-/

namespace DatabaseJones.Loader

open Library

/-! ## Written characters and numbers -/

/-- A character of a string as it is written between the quotes. -/
inductive Character
  | raw (unit : UInt16)
  | escaped (unit : UInt16)
  | unicode (digits : CodeUnits)

namespace Character

def text : Character → CodeUnits
  | .raw unit => [unit]
  | .escaped unit => [backslash, unit]
  | .unicode digits => backslash :: code 'u' :: digits

/-- What the character stands for. -/
def unit : Character → UInt16
  | .raw unit => unit
  | .escaped unit => Loader.escaped unit
  | .unicode digits => UInt16.ofNat (hexadecimal digits)

/-- The character may be written so between the quotes `q`. -/
def Valid (q : UInt16) : Character → Prop
  | .raw unit => unit ≠ q ∧ unit ≠ backslash ∧ code ' ' ≤ unit
  | .escaped unit => unit ≠ code 'u'
  | .unicode digits => digits.length = 4 ∧ ∀ digit ∈ digits, (hexDigit? digit).isSome = true

/-- What `tokenize` takes the character for. -/
def delivered : Character → UInt16
  | .unicode digits => digits.getLastD 0
  | character => character.unit

/-- The escapes of the decimal digits are the only ones that stand for their last digit. -/
def Kept : Character → Prop
  | .unicode digits => ∃ digit, isNumeric digit = true ∧ digits = codes "003" ++ [digit]
  | _ => True

end Character

/-- A number as it is written: a sign, digits, and perhaps a point and more digits. -/
structure Numeral where
  negative : Bool
  whole : CodeUnits
  fraction : Option CodeUnits

namespace Numeral

def unsigned (numeral : Numeral) : CodeUnits :=
  numeral.whole ++ numeral.fraction.elim [] fun digits => code '.' :: digits

def text (numeral : Numeral) : CodeUnits :=
  if numeral.negative then code '-' :: numeral.unsigned else numeral.unsigned

def magnitude (numeral : Numeral) : ℚ :=
  decimal numeral.whole +
    numeral.fraction.elim (0 : ℚ) fun digits => (decimal digits : ℚ) / 10 ^ digits.length

/-- The Number of the numeral, if that is finite. -/
def value (numeral : Numeral) : Option ℚ :=
  toDouble (if numeral.negative then -numeral.magnitude else numeral.magnitude)

structure Valid (numeral : Numeral) : Prop where
  whole_ne_nil : numeral.whole ≠ []
  whole_digits : ∀ digit ∈ numeral.whole, isNumeric digit = true
  fraction_digits : ∀ digits ∈ numeral.fraction, ∀ digit ∈ digits, isNumeric digit = true

end Numeral

/-! ## Items -/

/-- A token with the way it is written. -/
inductive Item
  | name (str : CodeUnits)
  | variable (str : CodeUnits)
  | number (value : ℚ) (numeral : Numeral)
  | string (q : UInt16) (characters : List Character)
  | operator (unit : UInt16)

namespace Item

def text : Item → CodeUnits
  | .name str => str
  | .variable str => code '@' :: str
  | .number _ numeral => numeral.text
  | .string q characters => q :: (characters.flatMap Character.text ++ [q])
  | .operator unit => [unit]

/-- The token that the item stands for. -/
def token : Item → Token
  | .name str => ⟨.name, .text str⟩
  | .variable str => ⟨.variable, .text str⟩
  | .number value _ => ⟨.number, .number value⟩
  | .string _ characters => ⟨.string, .text (characters.map Character.unit)⟩
  | .operator unit => ⟨.operator, .text [unit]⟩

/-- The item is well written; `BEGINDATA` is the mark of the end and not a name. -/
def Valid : Item → Prop
  | .name str => (∃ c rest, str = c :: rest ∧ isAlpha c = true ∧
      ∀ unit ∈ rest, isAlphanumeric unit = true) ∧ str ≠ codes "BEGINDATA"
  | .variable str => ∀ unit ∈ str, isAlphanumeric unit = true
  | .number value numeral => numeral.Valid ∧ numeral.value = some value
  | .string q characters => isQuote q = true ∧ ∀ character ∈ characters, character.Valid q
  | .operator unit => unit ∈ operators

/-- The unit `next` does not continue the item. -/
def EndsBefore (next : UInt16) : Item → Prop
  | .name _ => isAlphanumeric next = false
  | .variable _ => isAlphanumeric next = false
  | .number _ _ => isNonInitialNumeric next = false
  | _ => True

/-- The token that `tokenize` delivers for the item. -/
def delivered : Item → Token
  | .number value numeral => deliver .number (some (.number value)) numeral.text
  | .string _ characters => ⟨.string, .text (characters.map Character.delivered)⟩
  | item => item.token

def Kept : Item → Prop
  | .number value _ => value ≠ 0
  | .string _ characters => ∀ character ∈ characters, character.Kept
  | _ => True

end Item

/-! ## Texts -/

/-- A piece of a control text. -/
inductive Element
  | blank (unit : UInt16)
  | lineComment (body : CodeUnits)
  | blockComment (body : CodeUnits)
  | item (written : Item)

namespace Element

def text : Element → CodeUnits
  | .blank unit => [unit]
  | .lineComment body => codes "--" ++ body
  | .blockComment body => codes "/*" ++ body ++ codes "*/"
  | .item written => written.text

/-- The element is well written before the text `following`: a line comment goes to the
end of its line, and a block comment to the first star with a slash. -/
def Valid (following : CodeUnits) : Element → Prop
  | .blank unit => unit ≤ code ' '
  | .lineComment body => (∀ unit ∈ body, isEndOfLine unit = false) ∧
      ∀ next ∈ following.head?, isEndOfLine next = true
  | .blockComment body => ¬ codes "*/" <:+: body
  | .item written => written.Valid ∧ ∀ next ∈ following.head?, written.EndsBefore next

/-- A block comment without stars, and without slashes but for its first unit. -/
def Plain : Element → Prop
  | .blockComment body => code '*' ∉ body ∧ code '/' ∉ body.tail
  | _ => True

def tokens : Element → List Token
  | .item written => [written.token]
  | _ => []

def delivered : Element → List Token
  | .item written => [written.delivered]
  | _ => []

def Kept : Element → Prop
  | .item written => written.Kept
  | _ => True

end Element

def textOf (elements : List Element) : CodeUnits := elements.flatMap Element.text

/-- Every element is well written before the text of those after it. -/
def ValidText : List Element → Prop
  | [] => True
  | element :: elements => element.Valid (textOf elements) ∧ ValidText elements

def PlainComments (elements : List Element) : Prop := ∀ element ∈ elements, element.Plain

/-- The text ends in a block comment. -/
def EndsInComment (elements : List Element) : Prop :=
  ∃ body, elements.getLast? = some (.blockComment body)

/-- `tokenize` gives back the tokens that the text was written for. -/
def ReadsBack (elements : List Element) : Prop :=
  Tokenizes (textOf elements) (.ok (elements.flatMap Element.tokens))

end DatabaseJones.Loader
