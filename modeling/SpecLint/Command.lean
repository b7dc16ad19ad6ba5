import SpecLint.FileTree.World

/-!
# The command line

There are two commands:

* `check PATH [--config FILE] [--format text|json]` inspects spec files and reports offenses;
* `rules [--config FILE]` lists the active rules and the runner methods.

Options and operands may be mixed.  The value of an option follows it or is joined to it by `=`.
After `--` everything is an operand.

Words are taken in their order, and the first one that is wrong or asks for help decides: `--help`
gives help however much is missing, but not after a word that is wrong.
-/

namespace SpecLint

/-- The form of a report. -/
inductive Format where
  | text
  | json
  deriving DecidableEq, Repr

/-- What the program is asked to do. -/
inductive Command where
  /-- Inspect the files at or below a path. -/
  | check (path : Path) (config : Option Path) (format : Format)
  /-- List the active rules. -/
  | rules (config : Option Path)
  deriving DecidableEq, Repr

/-- Why a command line names no command. -/
inductive Usage where
  /-- It asks for help. -/
  | help
  /-- It is wrong. -/
  | wrong
  deriving DecidableEq, Repr

namespace Command

/-- The first word of a command line. -/
inductive Verb where
  | check
  | rules
  deriving DecidableEq, Repr

/-- What the words of a command line have given so far. -/
structure Given where
  /-- The file or directory to inspect. -/
  path : Option Path := none
  /-- The configuration file. -/
  config : Option Path := none
  /-- The form of the report. -/
  format : Option Format := none
  deriving DecidableEq, Repr

/-! ## Words -/

/-- A path, which must not be empty. -/
def pathOf (word : String) : Except Usage Path :=
  if word.isEmpty then throw .wrong else return Text.bytesOf word

/-- The form of report that a word names. -/
def formatOf (word : String) : Except Usage Format :=
  match word with
  | "text" => return .text
  | "json" => return .json
  | _ => throw .wrong

/-- An option at the front of a word, and the value that is joined to it. -/
def joined (word : String) : String × Option String :=
  let chars := word.toList
  match chars.dropWhile (· ≠ '=') with
  | _ :: value => (String.ofList (chars.takeWhile (· ≠ '=')), some (String.ofList value))
  | [] => (word, none)

/-- Whether a word is taken for an option.  A lone hyphen is not. -/
def isOption (word : String) : Bool := word.toList.head? = some '-' && word ≠ "-"

/-- Whether a word asks for help: the long option, or the short one with anything joined to it. -/
def asksForHelp (word : String) : Bool := word = "--help" || ['-', 'h'].isPrefixOf word.toList

/-! ## Taking words -/

/-- Takes up an operand: the path of `check`, once. -/
def Given.takeOperand (verb : Verb) (given : Given) (word : String) : Except Usage Given :=
  match verb, given.path with
  | .check, none => return { given with path := some (← pathOf word) }
  | _, _ => throw .wrong

/-- Takes up an option with its value, once. -/
def Given.takeOption (verb : Verb) (given : Given) (name value : String) : Except Usage Given :=
  match verb, name with
  | _, "--config" =>
      if given.config.isSome then throw .wrong
      else return { given with config := some (← pathOf value) }
  | .check, "--format" =>
      if given.format.isSome then throw .wrong
      else return { given with format := some (← formatOf value) }
  | _, _ => throw .wrong

/-- Takes up the words after the first. -/
def Given.takeAll (verb : Verb) (given : Given) : List String → Except Usage Given
  | [] => return given
  | word :: rest =>
      if word = "--" then
        rest.foldlM (Given.takeOperand verb) given
      else if asksForHelp word then
        throw .help
      else if isOption word then
        match joined word with
        | (name, some value) => do (← given.takeOption verb name value).takeAll verb rest
        | (name, none) =>
            match rest with
            | value :: rest =>
                if isOption value then throw .wrong
                else do (← given.takeOption verb name value).takeAll verb rest
            | [] => throw .wrong
      else do
        (← given.takeOperand verb word).takeAll verb rest

/-- The command that is asked for.  Only the form of the report has a default. -/
def Given.command (verb : Verb) (given : Given) : Except Usage Command :=
  match verb, given.path with
  | .check, some path => return .check path given.config (given.format.getD .text)
  | .check, none => throw .wrong
  | .rules, _ => return .rules given.config

/-- The command that a command line names. -/
def parse : List String → Except Usage Command
  | "check" :: rest => do (← ({} : Given).takeAll .check rest).command .check
  | "rules" :: rest => do (← ({} : Given).takeAll .rules rest).command .rules
  | ["help"] | ["help", "check"] | ["help", "rules"] | ["help", "help"] => throw .help
  | word :: _ => if asksForHelp word then throw .help else throw .wrong
  | [] => throw .wrong

end Command

end SpecLint
