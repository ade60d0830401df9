import Mathlib.Data.Rat.Defs
import Mathlib.Tactic

/-!
# Strings of times and dates

`MySQLTime.js` reads the strings of MySQL TIME, DATE and DATETIME values into objects of the
class `MySQLTime` and writes them again.  The parser of times drops the colons and reads all
digits as one number, and never sets the precision; the parser of dates leaves the parts as the
strings that they are.

Characters are those of the ASCII part of Unicode where the code tells them apart.  Numbers are
exact, as those of JavaScript are below `2 ^ 53`.
-/

namespace DatabaseJones.TimeStrings

/-! ## Numbers in strings -/

/-- The number that decimal digits stand for. -/
def decimal (digits : List Char) : ℕ := Nat.ofDigitChars 10 digits 0

def isLetter (c : Char) : Bool := ('A' ≤ c && c ≤ 'Z') || ('a' ≤ c && c ≤ 'z')

inductive Sign
  | none | plus | minus
deriving DecidableEq

def Sign.chars : Sign → List Char
  | .none => []
  | .plus => ['+']
  | .minus => ['-']

/-- The sign before a number, with what follows it. -/
def splitSign : List Char → Sign × List Char
  | [] => (.none, [])
  | c :: s =>
      if c = '+' then (.plus, s)
      else if c = '-' then (.minus, s)
      else (.none, c :: s)

/-- A number of JavaScript, as far as strings are converted to them. -/
inductive Number
  | nan
  | infinity (negative : Bool)
  | finite (value : ℚ)
deriving DecidableEq

/-- A comparison with `NaN` is false. -/
def Number.lt : Number → Number → Bool
  | .nan, _ => false
  | _, .nan => false
  | .infinity negative, .infinity negative' => negative && !negative'
  | .infinity negative, .finite _ => negative
  | .finite _, .infinity negative => !negative
  | .finite value, .finite value' => value < value'

def Number.negate : Number → Number
  | .nan => .nan
  | .infinity negative => .infinity !negative
  | .finite value => .finite (-value)

def trim (s : List Char) : List Char :=
  ((s.dropWhile Char.isWhitespace).reverse.dropWhile Char.isWhitespace).reverse

/-- The value of a digit in a base above ten. -/
def digitValue (c : Char) : ℕ :=
  if c.isDigit then c.toNat - 48 else if c.isLower then c.toNat - 87 else c.toNat - 55

/-- The literal of an integer in another base, without its first two characters. -/
def radixNumber (base : ℕ) (s : List Char) : Number :=
  if s ≠ [] ∧ ∀ c ∈ s, c.isAlphanum ∧ digitValue c < base then
    .finite (s.foldl (fun value c => value * base + digitValue c) 0)
  else .nan

/-- The exponent of a literal with what follows it. -/
def exponentPart (s : List Char) : Option ℤ :=
  match s with
  | [] => some 0
  | c :: s =>
      if c = 'e' ∨ c = 'E' then
        let (sign, digits) := splitSign s
        if digits ≠ [] ∧ digits.all Char.isDigit then
          some (if sign = .minus then -(decimal digits : ℤ) else decimal digits)
        else none
      else none

/-- A decimal literal without a sign. -/
def unsignedNumber (s : List Char) : Number :=
  if s = "Infinity".toList then .infinity false
  else
    let whole := s.takeWhile Char.isDigit
    let rest := s.dropWhile Char.isDigit
    let (fraction, rest) :=
      match rest with
      | '.' :: rest => (rest.takeWhile Char.isDigit, rest.dropWhile Char.isDigit)
      | rest => ([], rest)
    if whole ++ fraction = [] then .nan
    else
      match exponentPart rest with
      | none => .nan
      | some exponent =>
          .finite (decimal (whole ++ fraction) * (10 : ℚ) ^ (exponent - fraction.length))

/-- The conversion of a string to a number in a comparison. -/
def toNumber (s : List Char) : Number :=
  match trim s with
  | [] => .finite 0
  | '0' :: 'x' :: s | '0' :: 'X' :: s => radixNumber 16 s
  | '0' :: 'o' :: s | '0' :: 'O' :: s => radixNumber 8 s
  | '0' :: 'b' :: s | '0' :: 'B' :: s => radixNumber 2 s
  | '-' :: s => (unsignedNumber s).negate
  | '+' :: s => unsignedNumber s
  | s => unsignedNumber s

/-- `parseInt(s, 10)`; there is no value for `NaN`. -/
def parseInt (s : List Char) : Option ℤ :=
  let (sign, s) := splitSign (s.dropWhile Char.isWhitespace)
  let digits := s.takeWhile Char.isDigit
  if digits = [] then none
  else some (if sign = .minus then -(decimal digits : ℤ) else decimal digits)

/-! ## The class -/

/-- A property of a date: a number, or one of the parts of a string. -/
inductive DateField
  | number (value : ℕ)
  | part (chars : List Char)
  | undefined
deriving DecidableEq

/-- The properties of a `MySQLTime`.  Those of the time have no value where they are `NaN`. -/
structure MySQLTime where
  sign : ℤ := 1
  year : DateField := .number 0
  month : DateField := .number 0
  day : DateField := .number 0
  hour : Option ℕ := some 0
  minute : Option ℕ := some 0
  second : Option ℕ := some 0
  microsec : Option ℤ := some 0
  fsp : ℕ := 0
deriving DecidableEq

/-! ## Reading -/

/-- What the loop over a time string finds: the digits, what follows the decimal point, and the
number of colons. -/
structure Scan where
  digits : List Char := []
  decimalPart : List Char := []
  colons : ℕ := 0

/-- The loop of `initializeFromTimeString`: numbers are copied but separators skipped.  It ends
at a decimal point and at a letter. -/
def scan : List Char → Scan
  | [] => {}
  | c :: s =>
      if c.isDigit then { scan s with digits := c :: (scan s).digits }
      else if c = '.' then { decimalPart := s }
      else if c = ':' then { scan s with colons := (scan s).colons + 1 }
      else if isLetter c then {}
      else scan s

/-- The microseconds for what follows the decimal point: it is cut to six digits, or zeros are
appended to it. -/
def expand (decimalPart : List Char) : Option ℤ :=
  (parseInt decimalPart).map fun value =>
    value / 10 ^ (decimalPart.length - 6) * 10 ^ (6 - decimalPart.length)

/-- `initializeFromTimeString(jsValue)`. -/
def MySQLTime.initializeFromTimeString (time : MySQLTime) (jsValue : List Char) : MySQLTime :=
  let (initial, rest) := splitSign jsValue
  let scanned := scan rest
  let signed := parseInt (initial.chars ++ scanned.digits)
  let sign := if ∃ value ∈ signed, value < 0 then -1 else time.sign
  let numValue := signed.map Int.natAbs
  let hour := numValue.map (· / 10000)
  let minute := numValue.map (· / 100 % 100)
  let second := numValue.map (· % 100)
  let microsec :=
    if (Number.finite 0).lt (toNumber scanned.decimalPart) then expand scanned.decimalPart
    else time.microsec
  -- special case HH:MM
  if hour = some 0 ∧ scanned.colons = 1 then
    { time with sign, hour := minute, minute := second, second := some 0, microsec }
  else { time with sign, hour, minute, second, microsec }

/-- An element of an array. -/
def elementAt (parts : List (List Char)) (index : ℕ) : DateField :=
  (parts[index]?).elim .undefined .part

/-- `initializeFromDateString(jsValue)`: the string is split on a non-word or an underscore. -/
def MySQLTime.initializeFromDateString (time : MySQLTime) (jsValue : List Char) : MySQLTime :=
  let parts := jsValue.splitOnP fun c => !(c.isDigit || isLetter c)
  { time with year := elementAt parts 0, month := elementAt parts 1, day := elementAt parts 2 }

/-- `initializeFromDateTimeString(jsValue)`, which throws if there is no blank. -/
def MySQLTime.initializeFromDateTimeString (time : MySQLTime) (jsValue : List Char) :
    Option MySQLTime :=
  match jsValue.splitOn ' ' with
  | date :: clock :: _ =>
      some ((time.initializeFromDateString date).initializeFromTimeString clock)
  | _ => none

/-! ## Writing -/

/-- The text of a number. -/
def text : Option ℕ → List Char
  | none => "NaN".toList
  | some value => Nat.toDigits 10 value

/-- A number with a zero before it if it is below ten. -/
def padded (value : Option ℕ) : List Char :=
  if ∃ n ∈ value, n < 10 then '0' :: text value else text value

/-- The digits of the fraction. -/
def fractionText (microsec : Option ℤ) (fsp : ℕ) : List Char :=
  let fsec :=
    match microsec with
    | some value => if 0 < value then Nat.toDigits 10 (value.toNat / 10 ^ (6 - fsp)) else []
    | none => []
  List.replicate (fsp - fsec.length) '0' ++ fsec

/-- `toTimeString()`. -/
def MySQLTime.toTimeString (time : MySQLTime) : List Char :=
  (if time.sign = -1 then ['-'] else []) ++ padded time.hour ++ [':'] ++ padded time.minute ++
    [':'] ++ padded time.second ++
    (if time.fsp ≠ 0 then '.' :: fractionText time.microsec time.fsp else [])

/-- The text of a property of a date. -/
def DateField.text : DateField → List Char
  | .number value => Nat.toDigits 10 value
  | .part chars => chars
  | .undefined => "undefined".toList

/-- The number that a property of a date is converted to. -/
def DateField.toNumber : DateField → Number
  | .number value => .finite value
  | .part chars => TimeStrings.toNumber chars
  | .undefined => .nan

/-- A property of a date with a zero before it if it is below ten. -/
def DateField.padded (field : DateField) : List Char :=
  if field.toNumber.lt (.finite 10) then '0' :: field.text else field.text

/-- `toDateString()`. -/
def MySQLTime.toDateString (time : MySQLTime) : List Char :=
  time.year.text ++ ['-'] ++ time.month.padded ++ ['-'] ++ time.day.padded

/-- `toDateTimeString()`. -/
def MySQLTime.toDateTimeString (time : MySQLTime) : List Char :=
  time.toDateString ++ [' '] ++ time.toTimeString

end DatabaseJones.TimeStrings
