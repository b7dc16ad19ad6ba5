import SpecLint.Text.Digits
import SpecLint.Toml.Reader
import SpecLint.Toml.Value

/-!
# Scalars of a configuration document

Strings, numbers, truth values and dates as TOML 1.0 writes them.  Every function here takes one
scalar from the front of a text.
-/

namespace SpecLint.Toml

open Reader
open Text (hexValue? digitsValue)

/-! ## Blanks, comments and line ends -/

/-- Blanks within a line. -/
def isBlank (c : Char) : Bool := c == ' ' || c == '\t'

/-- Takes blanks within a line. -/
def blanks : Reader Unit := do let _ ← run isBlank

/-- Takes a line end. -/
def newline : Reader Unit := char '\n' <|> word "\r\n"

/-- What may stand in a comment: anything but control characters, tabs excepted. -/
def isCommentChar (c : Char) : Bool := c == '\t' || (' ' ≤ c && c ≠ '\x7f')

/-- Takes a comment up to the end of its line. -/
def comment : Reader Unit := do
  char '#'
  let _ ← run isCommentChar

/-- Takes blanks, comments and line ends. -/
def blankLines : Reader Unit := do
  blanks
  let _ ← many do
    let _ ← optional comment
    newline
    blanks

/-- Takes what may follow on the line of a complete entry. -/
def lineEnd : Reader Unit := do
  blanks
  let _ ← optional comment
  newline <|> atEnd

/-! ## Strings -/

/-- Takes the number of a code point in `count` hexadecimal digits. -/
def codePoint (count : Nat) : Reader Char := do
  let n := digitsValue 16 (← exactly count fun c => (hexValue? c).isSome)
  if n.isValidChar then return Char.ofNat n else failure

/-- Takes what follows the backslash of an escape. -/
def escaped : Reader Char := do
  match ← satisfy fun _ => true with
  | 'b' => return '\x08'
  | 't' => return '\t'
  | 'n' => return '\n'
  | 'f' => return '\x0c'
  | 'r' => return '\r'
  | '"' => return '"'
  | '\\' => return '\\'
  | 'u' => codePoint 4
  | 'U' => codePoint 8
  | _ => failure

/-- What stands for itself between quotes that allow escapes. -/
def isBasicChar (c : Char) : Bool := isCommentChar c && c ≠ '"' && c ≠ '\\'

/-- What stands between quotes that allow no escapes. -/
def isLiteralChar (c : Char) : Bool := isCommentChar c && c ≠ '\''

/-- Takes a string of one line in double quotes. -/
def basicString : Reader String := do
  char '"'
  let chars ← many (satisfy isBasicChar <|> do char '\\'; escaped)
  char '"'
  return String.ofList chars

/-- Takes a string of one line in single quotes. -/
def literalString : Reader String := do
  char '\''
  let chars ← run isLiteralChar
  char '\''
  return String.ofList chars

/-- Takes a line end inside a string, where it counts as a line feed. -/
def lineFeed : Reader (List Char) := do newline; return ['\n']

/-- Takes a backslash at the end of a line, with the blanks and line ends that it swallows. -/
def continuation : Reader (List Char) := do
  char '\\'
  blanks
  newline
  let _ ← many (newline <|> do let _ ← run1 isBlank)
  return []

/-- Takes one or two quotes that another character follows. -/
def innerQuotes (quote : Char) : Reader (List Char) := do
  let quotes ← run1 (· == quote)
  if quotes.length ≤ 2 ∧ (← peek).isSome then return quotes else failure

/-- Takes the three closing quotes, and up to two more in front that belong to the string. -/
def closingQuotes (quote : Char) : Reader (List Char) := do
  let quotes ← run1 (· == quote)
  if 3 ≤ quotes.length ∧ quotes.length ≤ 5 then return quotes.drop 3 else failure

/-- Takes a string of several lines between three quotes, given a reader for the pieces between
quotes.  A line end right after the opening quotes is left out. -/
def multiline (quote : Char) (piece : Reader (List Char)) : Reader String := do
  word (String.ofList [quote, quote, quote])
  let _ ← optional newline
  let pieces ← many (piece <|> innerQuotes quote)
  let last ← closingQuotes quote
  return String.ofList (pieces.flatten ++ last)

/-- Takes a string of several lines in double quotes. -/
def multilineBasic : Reader String :=
  multiline '"' (run1 isBasicChar <|> continuation <|> (do char '\\'; return [← escaped]) <|> lineFeed)

/-- Takes a string of several lines in single quotes. -/
def multilineLiteral : Reader String := multiline '\'' (run1 isLiteralChar <|> lineFeed)

/-- Takes a string of any kind. -/
def string : Reader String := do
  if (← get).take 3 = ['"', '"', '"'] then multilineBasic
  else if (← get).take 3 = ['\'', '\'', '\''] then multilineLiteral
  else basicString <|> literalString

/-! ## Numbers -/

/-- Takes digits of a class, with single underscores between them. -/
def underscored (accepts : Char → Bool) : Reader (List Char) := do
  let first ← satisfy accepts
  let rest ← many (satisfy accepts <|> do char '_'; satisfy accepts)
  return first :: rest

/-- Takes a sign; the answer says whether it is a minus. -/
def sign : Reader Bool := do
  match ← optional (satisfy fun c => c == '+' || c == '-') with
  | some c => return c == '-'
  | none => return false

/-- Takes decimal digits of which the first is no zero, unless it is the only one. -/
def decimalDigits : Reader (List Char) := do
  if (← peek) = some '0' then
    char '0'
    return ['0']
  else
    underscored Char.isDigit

/-- Two to the 63rd: the integers of 64 bits lie below it, and not below its negative. -/
def integerBound : Nat := 9223372036854775808

/-- Takes an integer in the given base after its mark. -/
def basedInteger (mark : String) (base : Nat) : Reader Int := do
  word mark
  let digits ← underscored fun c => (hexValue? c).any (· < base)
  let n := digitsValue base digits
  if n < integerBound then return n else failure

/-- Takes a decimal integer that fits 64 bits. -/
def decimalInteger : Reader Int := do
  let negative ← sign
  let n := digitsValue 10 (← decimalDigits)
  if negative then
    if n ≤ integerBound then return -n else failure
  else
    if n < integerBound then return n else failure

/-- Takes an integer. -/
def integer : Reader Int := do
  match (← get).take 2 with
  | ['0', 'x'] => basedInteger "0x" 16
  | ['0', 'o'] => basedInteger "0o" 8
  | ['0', 'b'] => basedInteger "0b" 2
  | _ => decimalInteger

/-- Takes the exponent of a number. -/
def exponent : Reader Int := do
  let _ ← satisfy fun c => c == 'e' || c == 'E'
  let negative ← sign
  let n := digitsValue 10 (← underscored Char.isDigit)
  return if negative then -n else n

/-- Takes a number with a fraction or an exponent.  A positive one out of range is refused; a
negative one counts as an infinity. -/
def finiteFloat : Reader Binary64 := do
  let negative ← sign
  let whole ← decimalDigits
  let fraction ← optional do char '.'; underscored Char.isDigit
  let scale ← if fraction.isSome then optional exponent else some <$> exponent
  let places := fraction.getD []
  let value := Binary64.ofDecimal negative (digitsValue 10 (whole ++ places))
    (scale.getD 0 - places.length)
  if value = .infinite false then failure else return value

/-- Takes an infinity or a number that is none. -/
def specialFloat : Reader Binary64 := do
  let negative ← sign
  (do word "inf"; return .infinite negative) <|> (do word "nan"; return .nan)

/-! ## Dates -/

/-- Takes a number of exactly `count` digits that lies between two bounds. -/
def bounded (count low high : Nat) : Reader Nat := do
  let n := digitsValue 10 (← exactly count Char.isDigit)
  if low ≤ n ∧ n ≤ high then return n else failure

/-- Number of days in a month. -/
def daysIn (year month : Nat) : Nat :=
  if month = 2 then
    if year % 4 = 0 ∧ (year % 100 ≠ 0 ∨ year % 400 = 0) then 29 else 28
  else if month ∈ [4, 6, 9, 11] then 30
  else 31

/-- Takes a day of the calendar. -/
def date : Reader Date := do
  let year ← bounded 4 0 9999
  char '-'
  let month ← bounded 2 1 12
  char '-'
  let day ← bounded 2 1 (daysIn year month)
  return { year, month, day }

/-- Takes the fraction of a second in nanoseconds; further digits are dropped. -/
def nanoseconds : Reader Nat := do
  char '.'
  let digits := (← run1 Char.isDigit).take 9
  return digitsValue 10 digits * Nat.pow 10 (9 - digits.length)

/-- Takes a time of the day.  A minute may have a leap second. -/
def time : Reader Time := do
  let hour ← bounded 2 0 23
  char ':'
  let minute ← bounded 2 0 59
  char ':'
  let second ← bounded 2 0 60
  return { hour, minute, second, nanosecond := (← optional nanoseconds).getD 0 }

/-- Takes an offset from universal time. -/
def offset : Reader Offset := do
  match ← satisfy fun c => c == 'Z' || c == 'z' || c == '+' || c == '-' with
  | 'Z' | 'z' => return .universal
  | c =>
      let hours ← bounded 2 0 23
      char ':'
      let minutes : Int := 60 * hours + (← bounded 2 0 59)
      return .minutes (if c == '-' then -minutes else minutes)

/-- Takes a day, a time or both. -/
def dateTime : Reader DateTime :=
  (do
    let d ← date
    let rest ← optional do
      let _ ← satisfy fun c => c == 'T' || c == 't' || c == ' '
      let t ← time
      return (t, ← optional offset)
    match rest with
    | some (t, zone) => return .both d t zone
    | none => return .date d) <|>
  (.time <$> time)

/-! ## Scalars -/

/-- Takes a scalar.  Which kind it is shows in its first character, except that dates and numbers
begin alike. -/
def scalar : Reader Value := do
  match ← peek with
  | some '"' | some '\'' => .string <$> string
  | some 't' => do word "true"; return .boolean true
  | some 'f' => do word "false"; return .boolean false
  | _ =>
      (.dateTime <$> dateTime) <|> (.float <$> (finiteFloat <|> specialFloat)) <|>
        (.integer <$> integer)

end SpecLint.Toml
