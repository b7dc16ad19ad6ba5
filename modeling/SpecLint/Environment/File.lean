import SpecLint.Environment
import SpecLint.Text.Alphanumeric
import SpecLint.Text.Space

/-!
# Environment files

An environment file sets variables, one `NAME=value` to a line, possibly after the word `export`.

* Lines that begin with `#` are comments; so is the rest of a line after a blank and `#`.
* A value may be quoted in part or whole.  In single quotes everything stands for itself; in double
  quotes and outside, a backslash escapes the next character.  Quotes and escapes may run over the
  end of a line.
* `$NAME` and `${NAME}`, except in single quotes, stand for the value of a variable of the
  environment, or else of an earlier line.

Reading stops at the first line that is malformed; the lines before it count.  A line that would
set a variable to a value with the character NUL, which no environment can hold, ends the reading
as well (`Stop`).
-/

namespace SpecLint.EnvironmentFile

open Text (isSpace trimStart trimEnd isAlphanumeric)

/-! ## Logical lines -/

/-- Where in a line the reading stands. -/
inductive Mode where
  | plain
  | blank
  | escape
  | single
  | singleEscape
  | double
  | doubleEscape
  | comment
  deriving DecidableEq, Repr

/-- The mode after an unquoted character. -/
def Mode.unquoted (c : Char) (otherwise : Mode) : Mode :=
  if c = '\\' then .escape
  else if c = '"' then .double
  else if c = '\'' then .single
  else otherwise

/-- The mode after one more character. -/
def Mode.next (mode : Mode) (c : Char) : Mode :=
  match mode with
  | .plain =>
      if isSpace c && c ≠ '\n' && c ≠ '\r' then .blank else Mode.unquoted c .plain
  | .blank => if c = '#' then .comment else Mode.unquoted c .plain
  | .escape => .plain
  | .single => if c = '\\' then .singleEscape else if c = '\'' then .plain else .single
  | .singleEscape => .single
  | .double => if c = '\\' then .doubleEscape else if c = '"' then .plain else .double
  | .doubleEscape => .double
  | .comment => .comment

/-- Goes over a line as far as a comment, and gives what stands before it. -/
def scan (mode : Mode) : List Char → Mode × List Char
  | [] => (mode, [])
  | c :: rest =>
      let after := mode.next c
      if after = .comment then (.comment, [])
      else
        let (last, kept) := scan after rest
        (last, c :: kept)

/-- The lines of a file, each with its line feed. -/
def physicalLines : List UInt8 → List (List UInt8)
  | [] => []
  | byte :: rest =>
      if byte = 10 then [byte] :: physicalLines rest
      else
        match physicalLines rest with
        | line :: more => (byte :: line) :: more
        | [] => [[byte]]

/-- A line without its line feed and the carriage return before it. -/
def withoutEnd (line : List Char) : List Char :=
  match line.reverse with
  | '\n' :: '\r' :: rest => rest.reverse
  | '\n' :: rest => rest.reverse
  | _ => line

/-- The logical lines of a file; the last is `none` when it is malformed.  `taken` is what was read
of a line that goes on. -/
def logicalLines (mode : Mode) (taken : List Char) : List (List UInt8) → List (Option (List Char))
  | [] => if mode = .plain then [] else [none]
  | bytes :: rest =>
      match String.fromUTF8? ⟨bytes.toArray⟩ with
      | none => [none]
      | some line =>
          let whole := taken ++ line.toList
          if (trimStart whole).head? = some '#' then logicalLines .plain [] rest
          else
            match scan mode line.toList with
            | (.plain, _) => some (withoutEnd whole) :: logicalLines .plain [] rest
            | (.comment, kept) => some (taken ++ kept) :: logicalLines .plain [] rest
            | (after, _) => logicalLines after whole rest

/-! ## Values -/

/-- What follows a `$` so far. -/
inductive Substitution where
  /-- No name is being read. -/
  | none
  /-- A name without braces. -/
  | bare
  /-- A name in braces. -/
  | braced
  deriving DecidableEq, Repr

/-- A value in the course of reading. -/
structure Draft where
  single : Bool := false
  double : Bool := false
  escaped : Bool := false
  /-- Whether a blank has ended the value. -/
  ended : Bool := false
  /-- Whether a comment has begun. -/
  done : Bool := false
  substitution : Substitution := .none
  /-- The name after a `$`, the last character first. -/
  name : List Char := []
  /-- The value so far, the last character first. -/
  output : List Char := []

/-- Puts the value of the variable that was named in place of its name. -/
def Draft.substitute (d : Draft) (value : String → String) : Draft :=
  let text := value (String.ofList d.name.reverse)
  { d with name := [], output := text.toList.reverse ++ d.output }

/-- Adds a character to the value. -/
def Draft.push (d : Draft) (c : Char) : Draft := { d with output := c :: d.output }

/-- Takes up one character outside of quotes or in double quotes. -/
def Draft.takePlain (d : Draft) (c : Char) : Draft :=
  if c = '$' then { d with substitution := .bare }
  else if d.double then
    if c = '"' then { d with double := false }
    else if c = '\\' then { d with escaped := true }
    else d.push c
  else if c = '\'' then { d with single := true }
  else if c = '"' then { d with double := true }
  else if c = '\\' then { d with escaped := true }
  else if c = ' ' || c = '\t' then { d with ended := true }
  else d.push c

/-- Takes up one character of a name after `$`.  Names are made of letters and digits of any
script. -/
def Draft.takeName (d : Draft) (value : String → String) (c : Char) : Draft :=
  if isAlphanumeric c then { d with name := c :: d.name }
  else
    match d.substitution with
    | .braced =>
        if c = '\x7d' then { d.substitute value with substitution := .none }
        else { d with name := c :: d.name }
    | _ =>
        if c = '\x7b' && d.name.isEmpty then { d with substitution := .braced }
        else
          let d := d.substitute value
          if c = '$' then d else { d with substitution := .none }.push c

/-- Takes up one character of a value. -/
def Draft.take (value : String → String) (d : Draft) (c : Char) : Option Draft :=
  if d.done then some d
  else if d.ended then
    if c = ' ' || c = '\t' then some d
    else if c = '#' then some { d with done := true }
    else none
  else if d.escaped then
    if ['\\', '\'', '"', '$', ' '].contains c then some { d.push c with escaped := false }
    else if c = 'n' then some { d.push '\n' with escaped := false }
    else none
  else if d.single then
    if c = '\'' then some { d with single := false } else some (d.push c)
  else if d.substitution ≠ .none then some (d.takeName value c)
  else some (d.takePlain c)

/-- The value that a text stands for. -/
def value? (value : String → String) (text : List Char) : Option String := do
  let d ← text.foldlM (Draft.take value) {}
  if d.substitution = .braced || d.single || d.double then none
  else some (String.ofList (d.substitute value).output.reverse)

/-! ## Lines -/

/-- Takes a name from the front of a line. -/
def name? (line : List Char) : Option (String × List Char) :=
  match line with
  | c :: _ =>
      if c.isAlpha || c = '_' then
        let accepts (c : Char) := c.isAlphanum || c = '_' || c = '.'
        some (String.ofList (line.takeWhile accepts), trimStart (line.dropWhile accepts))
      else none
  | [] => none

/-- Takes an equals sign from the front of a line. -/
def equals? : List Char → Option (List Char)
  | '=' :: rest => some rest
  | _ => none

/-- Takes a name and an equals sign from the front of a line.  The word `export` may stand in
front, or be the name itself. -/
def assignment? (line : List Char) : Option (String × List Char) := do
  let (name, rest) ← name? line
  match equals? rest with
  | some text => return (name, text)
  | none =>
      if name = "export" then
        let (name, rest) ← name? rest
        return (name, ← equals? rest)
      else none

/-- Why the reading of a file stops before its end. -/
inductive Stop where
  /-- A line is malformed. -/
  | malformed
  /-- A variable would be set to a value with the character NUL. -/
  | nulInValue
  deriving DecidableEq, Repr

/-- What a file has set so far. -/
structure Progress where
  /-- The variables of the environment. -/
  environment : Environment
  /-- The values that the lines gave, the last line first. -/
  given : List (String × String) := []
  /-- Why the reading has stopped, if it has. -/
  stop : Option Stop := none

/-- The value of a variable inside a value: that of the environment, or else the one that a line
gave; a variable without a value is empty. -/
def Progress.value (p : Progress) (name : String) : String :=
  (p.environment.get? name).getD ((p.given.lookup name).getD "")

/-- Sets a variable from a line, unless it is set already. -/
def Progress.set (p : Progress) (name value : String) : Progress :=
  if (p.environment.get? name).isNone && value.toList.contains '\x00' then
    { p with stop := some .nulInValue }
  else
    { p with
      environment := p.environment.setMissing name value
      given := (name, value) :: p.given }

/-- Takes up one logical line. -/
def Progress.take (p : Progress) (line : Option (List Char)) : Progress :=
  if p.stop.isSome then p
  else
    match line with
    | none => { p with stop := some .malformed }
    | some line =>
        let line := trimStart (trimEnd line)
        if line.isEmpty || line.head? = some '#' then p
        else
          match assignment? line with
          | none => { p with stop := some .malformed }
          | some (name, text) =>
              let text := trimStart text
              if text.isEmpty || text.head? = some '#' then p.set name ""
              else
                match value? p.value text with
                | some value => p.set name value
                | none => { p with stop := some .malformed }

/-- Reads a file into an environment, variables that are set already keeping their values.  A byte
order mark in front is left out. -/
def apply (environment : Environment) (content : ByteArray) : Progress :=
  let bytes := content.data.toList
  let bytes := if [0xef, 0xbb, 0xbf].isPrefixOf bytes then bytes.drop 3 else bytes
  (logicalLines .plain [] (physicalLines bytes)).foldl Progress.take { environment }

end SpecLint.EnvironmentFile
