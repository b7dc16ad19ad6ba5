import SpecLint.Command
import SpecLint.Config.Source
import SpecLint.Environment.File
import SpecLint.Inspection
import SpecLint.Log.Filter

/-!
# Running a command

`Command.run` gives the outcome of a command line in a world of files and an environment.  An
environment file `.env` in the current directory, or in one above it, is taken into account first.

A run ends with status 0, with status 1 when there is an offense or nothing could be inspected, and
with status 2 when the command line is wrong.  It does not begin, and the status is 101, when the
environment file has a value that no variable can hold, or when the setting of the log cannot be
taken apart.

The steps of a run are logged on standard error, as far as the setting in the environment asks for
them.
-/

namespace SpecLint

/-- What a run leaves behind. -/
structure Outcome where
  /-- The exit status. -/
  status : Nat
  /-- The text on standard output. -/
  output : String := ""
  /-- The text on standard error. -/
  errors : String := ""
  deriving DecidableEq, Repr

namespace Inspection

/-- A number, right-aligned in a field of the given width. -/
def rightAligned (width n : Nat) : String :=
  let digits := Nat.toDigits 10 n
  String.ofList (List.replicate (width - digits.length) ' ' ++ digits)

/-- The line of an offense: `path:line:column: code: rule: message`. -/
def offenseLine (path : String) (o : Offense) : String :=
  path ++ ":" ++ toString o.span.line.toNat ++ ":" ++ toString o.span.column.toNat ++ ": " ++
    o.severity.code.toString ++ ": " ++ o.rule ++ ": " ++ o.message ++ "\n"

/-- The lines of all offenses. -/
def offenseLines (i : Inspection) : List String :=
  i.files.flatMap fun f => f.offenses.map (offenseLine f.path)

/-- A line of the summary. -/
def summaryLine (label : String) (n : Nat) : String :=
  "| " ++ label ++ " : " ++ rightAligned 22 n ++ " |\n"

/-- The summary in its box. -/
def summary (i : Inspection) : String :=
  let border := "+------------------------------------------+\n"
  "\n" ++ border ++ "| SPECWARDEN CHECK                         |\n" ++ border ++
    summaryLine "Files inspected" i.inspected ++ summaryLine "Files skipped  " i.skipped ++
    summaryLine "Offending files" i.offendingFiles ++ summaryLine "Offenses       " i.offenseCount ++
    border

/-- The report in a given form. -/
def report (i : Inspection) : Format → String
  | .text => String.join i.offenseLines ++ i.summary
  | .json => i.toJson.pretty ++ "\n"

end Inspection

namespace Command

/-- Why a command fails. -/
inductive RunError where
  /-- No configuration can be loaded. -/
  | config (error : Config.LoadError)
  /-- There is nothing to inspect. -/
  | discovery (error : NothingThere)
  deriving DecidableEq, Repr

/-- The text of the error itself. -/
def RunError.message : RunError → String
  | .config error => error.message
  | .discovery error => error.message

/-- The text of what lies behind the error, where that is an error of its own. -/
def RunError.cause? : RunError → Option String
  | .config error => error.cause?
  | .discovery error => some error.cause

/-- A text of which each line stands four blanks further in. -/
def indented (text : String) : String :=
  "    " ++ "\n    ".intercalate (text.splitOn "\n")

/-- The error as it is shown at the end of a run. -/
def RunError.text (e : RunError) : String :=
  "Error: " ++ e.message ++ "\n" ++
    match e.cause? with
    | some cause => "\nCaused by:\n" ++ indented cause ++ "\n"
    | none => ""

/-- The configuration file that the environment names. -/
def named? (environment : Environment) : Option Path :=
  (environment.get? Config.environmentKey).map Text.bytesOf

/-- The outcome of the command `check`. -/
def runCheck (w : World) (grammar : Lowering.Grammar) (environment : Environment) (path : Path)
    (config : Option Path) (format : Format) : Except RunError Outcome := do
  let config ← (Config.load w config (named? environment)).mapError .config
  let d := Dispatcher.ofRules allRules config
  let inspection ← (Inspection.ofRoot w grammar d config.files path).mapError .discovery
  return { status := if inspection.offenseCount = 0 then 0 else 1,
           output := inspection.report format }

/-- The lines that describe an active rule. -/
def ruleLines (active : ActiveRule) : String :=
  active.rule.name ++ " [" ++ active.severity.name ++ "]\n  on send: " ++
    ", ".intercalate active.rule.methods ++ "\n"

/-- The outcome of the command `rules`. -/
def runRules (w : World) (environment : Environment) (config : Option Path) :
    Except RunError Outcome := do
  let config ← (Config.load w config (named? environment)).mapError .config
  let d := Dispatcher.ofRules allRules config
  let rules := if d.rules.isEmpty then "No rules enabled.\n"
    else String.join (d.rules.map ruleLines)
  return { status := 0,
           output := rules ++ "\nRunners: " ++ ", ".intercalate d.runners.toList ++ "\n" }

/-- The outcome of a command. -/
def execute (w : World) (grammar : Lowering.Grammar) (environment : Environment) :
    Command → Except RunError Outcome
  | .check path config format => runCheck w grammar environment path config format
  | .rules config => runRules w environment config

/-- What is printed when help is asked for. -/
def helpText : String :=
  "Static checks for RSpec expectation chains\n\n" ++
    "Usage: specwarden check [--config <CONFIG>] [--format <FORMAT>] <PATH>\n" ++
    "       specwarden rules [--config <CONFIG>]\n"

/-! ## The environment file -/

/-- The directories upward from one whose names are listed innermost first. -/
def upwardFrom : List FileName → List (List FileName)
  | [] => [[]]
  | name :: above => (name :: above).reverse :: upwardFrom above

/-- The directories from `names` upward, the innermost first. -/
def upward (names : List FileName) : List (List FileName) := upwardFrom names.reverse

/-- Seeks an environment file in some directories.  An entry of its name that is no regular file is
passed over; one that cannot be looked at or read ends the search with an error. -/
def findEnvironmentFile (w : World) : List (List FileName) → Except SystemError (Option ByteArray)
  | [] => .ok none
  | dir :: rest =>
      match w.lookUp (Path.join (Path.absolute dir) (Text.bytesOf ".env")) with
      | .ok ⟨_, .file content⟩ => content.map some
      | .ok _ | .error .noEntry => findEnvironmentFile w rest
      | .error error => .error error

/-- The environment with what an environment file adds, and a warning about such a file; `none`
when the file has a value that no variable can hold. -/
def withEnvironmentFile (w : World) (environment : Environment) : Option (Environment × String) :=
  match findEnvironmentFile w (upward w.current) with
  | .ok none => some (environment, "")
  | .error error => some (environment, "warning: .env: " ++ error.message ++ "\n")
  | .ok (some content) =>
      let progress := EnvironmentFile.apply environment content
      match progress.stop with
      | none => some (progress.environment, "")
      | some .malformed => some (progress.environment, "warning: .env: malformed line\n")
      | some .nulInValue => none

/-! ## The log -/

/-- A step of a run that is logged. -/
structure Step where
  /-- Where the step is taken. -/
  event : Log.Event
  /-- What the log says of it. -/
  message : String
  deriving DecidableEq, Repr

/-- A step that is taken in the part `target` and has some fields beside its message. -/
def step (target : String) (fields : List String) (message : String) : Step :=
  { event := { target, fields := "message" :: fields }, message }

/-- The step before a configuration that the environment names is loaded. -/
def stepsBeforeLoading (explicit named : Option Path) : List Step :=
  if explicit.isNone && named.isSome then
    [step "common::config" [] "loading the configuration named in the environment"]
  else []

/-- The step after a configuration is loaded. -/
def stepsAfterLoading (w : World) (explicit named : Option Path) : List Step :=
  match Config.chosenFile? w explicit named with
  | some _ => [step "common::config" ["path", "runners"] "configuration loaded"]
  | none => [step "common::config" [] "no configuration file, using defaults"]

/-- The steps in which rules are left out. -/
def stepsOfRules (config : Config) : List Step :=
  (allRules.filter fun rule => !(config.settings rule.name).enabled).map fun _ =>
    step "inspector::dispatch" ["rule"] "rule disabled"

/-- The steps before a command fails. -/
def stepsBefore (w : World) (environment : Environment) : Command → RunError → List Step
  | .check _ explicit _, .discovery _ =>
      let named := named? environment
      let config := (Config.load w explicit named).toOption.getD {}
      stepsBeforeLoading explicit named ++ stepsAfterLoading w explicit named ++
        stepsOfRules config ++ [step "specwarden" ["path", "rules", "runners"] "check"]
  | .check _ explicit _, .config _ | .rules explicit, _ =>
      stepsBeforeLoading explicit (named? environment)

/-- The lines of the log for some steps.  All of them have the level `debug`. -/
def logLines (filter : Log.Filter) (steps : List Step) : String :=
  String.join ((steps.filter fun s => filter.shows .debug s.event).map fun s =>
    "DEBUG " ++ s.event.target ++ ": " ++ s.message ++ "\n")

/-- The outcome of a run that does not begin. -/
def aborted (reason : String) : Outcome := { status := 101, errors := reason ++ "\n" }

/-- The outcome of a command line when the environment is complete. -/
def runIn (w : World) (grammar : Lowering.Grammar) (environment : Environment)
    (filter : Log.Filter) (words : List String) : Outcome :=
  match parse words with
  | .error .help => { status := 0, output := helpText }
  | .error .wrong => { status := 2, errors := "error: " ++ helpText }
  | .ok command =>
      match execute w grammar environment command with
      | .ok outcome => outcome
      | .error error =>
          let log := logLines filter (stepsBefore w environment command error)
          { status := 1, errors := log ++ error.text }

/-- The outcome of a command line. -/
def run (w : World) (grammar : Lowering.Grammar) (environment : Environment)
    (words : List String) : Outcome :=
  match withEnvironmentFile w environment with
  | none => aborted "a variable cannot hold the character NUL"
  | some (environment, warning) =>
      match Log.Filter.ofSetting (environment.get? Log.environmentKey) with
      | none => aborted (warning ++ "a directive of the log is cut inside of a character")
      | some filter =>
          let outcome := runIn w grammar environment filter words
          { outcome with errors := warning ++ outcome.errors }

end Command

end SpecLint
