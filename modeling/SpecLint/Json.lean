/-!
# JSON values

The value type of structured reports and its written form.  Whole numbers are kept apart from
numbers with a fraction.  The keys of an object keep their order.

`Json.pretty` writes a value with two spaces for each level of nesting; an empty list or object is
written on one line.
-/

namespace SpecLint

/-- A JSON value. -/
inductive Json where
  | null
  | bool (value : Bool)
  /-- A whole number. -/
  | int (value : Int)
  /-- The number `digits / 10 ^ places`, written with a fraction. -/
  | decimal (digits : Int) (places : Nat)
  | str (value : String)
  | arr (items : List Json)
  | obj (fields : List (String × Json))
  deriving Inhabited

namespace Json

/-- The hexadecimal digit with the given value. -/
def hexDigit (n : Nat) : Char :=
  if n < 10 then Char.ofNat ('0'.toNat + n) else Char.ofNat ('a'.toNat + (n - 10))

/-- How a character is written inside a string.  Quotes, backslashes and control characters below
the blank are escaped; everything else stands for itself. -/
def escape (c : Char) : List Char :=
  if c = '"' then ['\\', '"']
  else if c = '\\' then ['\\', '\\']
  else if c = '\x08' then ['\\', 'b']
  else if c = '\t' then ['\\', 't']
  else if c = '\n' then ['\\', 'n']
  else if c = '\x0c' then ['\\', 'f']
  else if c = '\r' then ['\\', 'r']
  else if c.toNat < 32 then
    ['\\', 'u', '0', '0', hexDigit (c.toNat / 16), hexDigit (c.toNat % 16)]
  else [c]

/-- A string in quotes. -/
def quote (text : String) : String :=
  String.ofList ('"' :: text.toList.flatMap escape ++ ['"'])

/-- A line break, and the indentation of the given level. -/
def lineBreak (level : Nat) : String := "\n" ++ String.ofList (List.replicate (2 * level) ' ')

/-- The text of `digits / 10 ^ places` with exactly `places` digits after the point. -/
def decimalText (digits : Int) (places : Nat) : String :=
  let scale := Nat.pow 10 places
  let sign := if digits < 0 then "-" else ""
  let fraction := toString (digits.natAbs % scale)
  let zeros := String.ofList (List.replicate (places - fraction.length) '0')
  sign ++ toString (digits.natAbs / scale) ++ "." ++ zeros ++ fraction

mutual

/-- Writes a value that stands at the given level of nesting. -/
def render (level : Nat) : Json → String
  | .null => "null"
  | .bool value => if value then "true" else "false"
  | .int value => toString value
  | .decimal digits places => decimalText digits places
  | .str value => quote value
  | .arr [] => "[]"
  | .arr (item :: items) =>
      "[" ++ lineBreak (level + 1) ++ render (level + 1) item ++ renderItems (level + 1) items ++
        lineBreak level ++ "]"
  | .obj [] => "\x7b\x7d"
  | .obj ((key, value) :: fields) =>
      "\x7b" ++ lineBreak (level + 1) ++ quote key ++ ": " ++ render (level + 1) value ++
        renderFields (level + 1) fields ++ lineBreak level ++ "\x7d"

/-- Writes the items of a list after its first. -/
def renderItems (level : Nat) : List Json → String
  | [] => ""
  | item :: items => "," ++ lineBreak level ++ render level item ++ renderItems level items

/-- Writes the fields of an object after its first. -/
def renderFields (level : Nat) : List (String × Json) → String
  | [] => ""
  | (key, value) :: fields =>
      "," ++ lineBreak level ++ quote key ++ ": " ++ render level value ++
        renderFields level fields

end

/-- The written form of a value, two spaces for each level of nesting. -/
def pretty (value : Json) : String := render 0 value

/-- The value of the first field with the given key. -/
def field? (key : String) : Json → Option Json
  | .obj fields => fields.lookup key
  | _ => none

/-- The number, when it is whole and fits 32 bits. -/
def toUInt32? : Json → Option UInt32
  | .int value => if 0 ≤ value ∧ value < 4294967296 then some value.toNat.toUInt32 else none
  | _ => none

end Json

end SpecLint
