import SpecLint.Log.Level
import SpecLint.Log.Pattern
import SpecLint.Text.Slice

/-!
# Directives

A directive says down to which level some events are shown:

```
debug                 -- every event
scanner=debug         -- events of targets that begin with `scanner`
scanner[span]         -- events inside of a span of that name
[{path}]=debug        -- events that have a field `path`
[{path=a.*}]=debug    -- events inside of spans with a field `path` that fits a pattern
```

The level may be left out and is then the finest.

White space around a directive is left out when its parts are told apart, but the parts are cut out
of the whole text at the places that were found without it.  So a directive after white space has
other parts than it seems to have, and where a cut falls inside of a character there is no
directive at all (`Fault.brokenCharacter`).
-/

namespace SpecLint.Log

open Text (isAlphanumeric trimStart trimEnd byteLength)

/-- An event, as far as a directive looks at it. -/
structure Event where
  /-- The part of the program that the event comes from. -/
  target : String
  /-- The names of the fields of the event. -/
  fields : List String
  deriving DecidableEq, Repr

/-- A condition on the fields of an event or of a span. -/
structure FieldTest where
  /-- The name of the field. -/
  name : List Char
  /-- The value that is asked for. -/
  value : Option (List Char) := none
  deriving DecidableEq, Repr

/-- A directive of a filter. -/
structure Directive where
  /-- What the targets of its events begin with. -/
  target : Option (List Char) := none
  /-- The name of the span inside of which its events are. -/
  span : Option (List Char) := none
  /-- A field that its events or their spans have. -/
  field : Option FieldTest := none
  /-- The level down to which its events are shown. -/
  level : Level := .trace
  deriving DecidableEq, Repr

/-- Why a text is no directive. -/
inductive Fault where
  /-- It is malformed. -/
  | malformed
  /-- A part of it would begin or end inside of a character. -/
  | brokenCharacter
  deriving DecidableEq, Repr

/-! ## Values of fields -/

/-- Whether a text is one digit or more. -/
def isDigits (text : List Char) : Bool := !text.isEmpty && text.all Char.isDigit

/-- A text without a sign at its start. -/
def withoutSign : List Char → List Char
  | '+' :: rest | '-' :: rest => rest
  | text => text

/-- Whether a text is a number, with an exponent or without, or stands for an infinite number or for
none. -/
def isNumber (text : List Char) : Bool :=
  let text := withoutSign text
  let whole := text.takeWhile Char.isDigit
  let (places, rest) := match text.dropWhile Char.isDigit with
    | '.' :: rest => (rest.takeWhile Char.isDigit, rest.dropWhile Char.isDigit)
    | rest => ([], rest)
  let exponent := match rest with
    | [] => true
    | c :: rest => (c = 'e' || c = 'E') && isDigits (withoutSign rest)
  ["inf", "infinity", "nan"].contains (String.ofList (text.map Char.toLower)) ||
    isDigits (whole ++ places) && exponent

/-- Reads a condition on a field: a name, and possibly a value after an equals sign.  What follows
a second equals sign is left out. -/
def FieldTest.ofText? (text : List Char) : Option FieldTest :=
  let name := text.takeWhile (· ≠ '=')
  match text.dropWhile (· ≠ '=') with
  | [] => if name.isEmpty then none else some { name }
  | _ :: rest =>
      let value := rest.takeWhile (· ≠ '=')
      if isNumber value || Pattern.isWellFormed value then some { name, value := some value }
      else none

namespace Directive

/-! ## Reading -/

/-- A part of a text, which must not begin or end inside of a character. -/
def part (text : List Char) (start stop : Nat) : Except Fault (List Char) :=
  match Text.slice? text start stop with
  | some part => return part
  | none => throw .brokenCharacter

/-- Takes the level from `start` on; without a text it is the finest. -/
def withLevel (d : Directive) (text : List Char) (start : Nat) : Except Fault Directive := do
  let name ← part text start (byteLength text)
  if name.isEmpty then return d
  match Level.ofText? name with
  | some level => return { d with level }
  | none => throw .malformed

/-- Takes `rest`, which begins at `start` and follows a closing bracket. -/
def afterBracket (d : Directive) (text : List Char) (start : Nat) (rest : List Char) :
    Except Fault Directive :=
  match rest with
  | [] => return d
  | '=' :: _ => d.withLevel text (start + 1)
  | _ => throw .malformed

/-- Takes `rest`, which begins at `start` and follows an opening brace. -/
def braced (d : Directive) (text : List Char) (start : Nat) (rest : List Char) :
    Except Fault Directive := do
  let stop := start + byteLength (rest.takeWhile (· ≠ '\x7d'))
  match rest.dropWhile (· ≠ '\x7d') with
  | [] => throw .malformed
  | _ :: rest =>
      match FieldTest.ofText? (← part text start stop), rest with
      | some field, ']' :: rest =>
          ({ d with field := some field } : Directive).afterBracket text (stop + 2) rest
      | _, _ => throw .malformed

/-- Takes `rest`, which begins at `start` and follows an opening bracket. -/
def bracketed (d : Directive) (text : List Char) (start : Nat) (rest : List Char) :
    Except Fault Directive := do
  let isName (c : Char) : Bool := c ≠ ']' && c ≠ '{'
  let stop := start + byteLength (rest.takeWhile isName)
  match rest.dropWhile isName with
  | [] => throw .malformed
  | c :: rest =>
      let span ← part text start stop
      if c = ']' then
        ({ d with span := some span } : Directive).afterBracket text (stop + 1) rest
      else
        let d : Directive := if span.isEmpty then d else { d with span := some span }
        d.braced text (stop + 1) rest

/-- Reads a text of one word: a level, or a target whose events are shown down to the finest
level. -/
def ofWord (text : List Char) : Directive :=
  match Level.ofText? text with
  | some level => { level }
  | none => { target := some text }

/-- Reads a directive. -/
def ofText (text : List Char) : Except Fault Directive := do
  let isHead (c : Char) : Bool := c ≠ '=' && c ≠ '['
  let body := trimEnd (trimStart text)
  match body with
  | [] => throw .malformed
  | '[' :: rest => ({} : Directive).bracketed text 1 rest
  | first :: _ =>
      if !isAlphanumeric first && !(['-', ':', '_'].contains first) then throw .malformed
      let stop := byteLength (body.takeWhile isHead)
      match body.dropWhile isHead with
      | [] => return ofWord text
      | c :: rest =>
          let d : Directive := { target := some (← part text 0 stop) }
          if c = '=' then d.withLevel text (stop + 1) else d.bracketed text (stop + 1) rest

/-! ## Choosing -/

/-- Whether a directive is about an event that is outside of all spans.  One that asks for a span,
or for the value of a field, is not. -/
def appliesTo (d : Directive) (e : Event) : Bool :=
  d.span.isNone && d.target.all (·.isPrefixOf e.target.toList) &&
    d.field.all fun field => field.value.isNone && e.fields.any (·.toList == field.name)

/-- Whether the second of two directives for an event counts rather than the first: it has the
longer target, or as long a one and a field that comes no earlier, where no field is the first. -/
def yieldsTo (a b : Directive) : Bool :=
  let length (d : Directive) : Nat := (d.target.map List.length).getD 0
  if length a = length b then
    match a.field, b.field with
    | none, _ => true
    | some _, none => false
    | some f, some g => decide (String.ofList f.name ≤ String.ofList g.name)
  else decide (length a < length b)

end Directive

end SpecLint.Log
