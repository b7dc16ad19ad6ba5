import SpecLint.Config.Basic
import SpecLint.Text.Quoted
import SpecLint.Toml.Document

/-!
# The configuration schema

A configuration document has up to three tables:

```
[language]
runners = ["to", "not_to", "to_not"]

[files]
include = ["_spec.rb"]
exclude = ["vendor", ".git", "node_modules", "tmp"]

[rules."RSpec/ExpectationTargetMethod"]
enabled = true
severity = "convention"
```

Every key may be left out and then has its default; no other key is accepted.  A table of fixed
keys may also be given as a list of its values in the order above.  Entries are checked in the
order of the document and the first misfit is reported.

`Config.ofToml` reads a configuration and gives a `Config.Problem` when it cannot.
-/

namespace SpecLint

namespace Config

/-- What stands where something else was expected. -/
inductive Found where
  | string (value : String)
  | integer (value : Int)
  | float (value : Binary64)
  | boolean (value : Bool)
  | sequence
  | map
  deriving DecidableEq, Repr

/-- What a place in a configuration has to hold. -/
inductive Expected where
  | string
  | boolean
  | sequence
  | map
  /-- The table of language settings. -/
  | language
  /-- The table of file settings. -/
  | files
  /-- The table of one rule. -/
  | rule
  deriving DecidableEq, Repr

/-- How a document fails to fit the schema. -/
inductive Misfit where
  /-- A key that the table does not have. -/
  | unknownKey (key : String) (known : List String)
  /-- A name that is no severity. -/
  | unknownSeverity (name : String)
  /-- A value of the wrong kind. -/
  | wrongKind (found : Found) (expected : Expected)
  /-- A severity that is neither a name nor a table with one name and nothing under it. -/
  | malformedSeverity
  deriving DecidableEq, Repr

/-- Why a text is not a configuration. -/
inductive Problem where
  /-- The text is not TOML. -/
  | notToml
  /-- The document does not fit the schema. -/
  | misfit (misfit : Misfit)
  /-- The list of runners is there and empty. -/
  | emptyRunners
  deriving DecidableEq, Repr

/-! ## Messages -/

/-- A value as it is named in a message. -/
def Found.text : Found → String
  | .string value => "string " ++ Text.quoted value
  | .integer value => "integer `" ++ toString value ++ "`"
  | .float value => "floating point `" ++ value.text ++ "`"
  | .boolean value => "boolean `" ++ (if value then "true" else "false") ++ "`"
  | .sequence => "sequence"
  | .map => "map"

/-- An expectation as it is named in a message. -/
def Expected.text : Expected → String
  | .string => "a string"
  | .boolean => "a boolean"
  | .sequence => "a sequence"
  | .map => "a map"
  | .language => "struct RawLanguage"
  | .files => "struct FileConfig"
  | .rule => "struct RuleConfig"

/-- Names between backticks: one, two joined by `or`, or more after `one of`. -/
def alternatives (names : List String) : String :=
  let ticked := names.map fun name => "`" ++ name ++ "`"
  match ticked with
  | [one, two] => one ++ " or " ++ two
  | [one] => one
  | more => "one of " ++ ", ".intercalate more

/-- What a message says of a misfit; a malformed severity is not described. -/
def Misfit.message? : Misfit → Option String
  | .unknownKey key known => some ("unknown field `" ++ key ++ "`, expected " ++ alternatives known)
  | .unknownSeverity name =>
      some ("unknown variant `" ++ name ++ "`, expected " ++
        alternatives (Severity.all.map Severity.name))
  | .wrongKind found expected =>
      some ("invalid type: " ++ found.text ++ ", expected " ++ expected.text)
  | .malformedSeverity => none

/-- What a message says of a text that is not a configuration, where it is described. -/
def Problem.message? : Problem → Option String
  | .notToml => none
  | .misfit what => what.message?
  | .emptyRunners => some "`language.runners` must name at least one runner method"

/-! ## Reading values -/

/-- A check of a document against the schema. -/
abbrev Checked := Except Misfit

/-- A value as it is named where it does not fit.  A date counts as a map with one key. -/
def found : Toml.Value → Found
  | .string value => .string value
  | .integer value => .integer value
  | .float value => .float value
  | .boolean value => .boolean value
  | .dateTime _ => .map
  | .array _ => .sequence
  | .table _ => .map

/-- The only key of a date that is looked at as a map. -/
def dateKey : String := "$__toml_private_datetime"

/-- Reads a string. -/
def readString : Toml.Value → Checked String
  | .string value => .ok value
  | other => .error (.wrongKind (found other) .string)

/-- Reads a truth value. -/
def readBool : Toml.Value → Checked Bool
  | .boolean value => .ok value
  | other => .error (.wrongKind (found other) .boolean)

/-- Reads a list of strings. -/
def readStrings : Toml.Value → Checked (List String)
  | .array items => items.mapM readString
  | other => .error (.wrongKind (found other) .sequence)

/-- Whether a value is an empty list or table. -/
def isVoid : Toml.Value → Bool
  | .array items => items.isEmpty
  | .table entries => entries.isEmpty
  | _ => false

/-- Reads the name of a severity, below which `content` stands. -/
def readSeverityName (name : String) (content : Option Toml.Value) : Checked Severity :=
  match Severity.ofName? name with
  | none => .error (.unknownSeverity name)
  | some severity => if content.all isVoid then .ok severity else .error .malformedSeverity

/-- Reads a severity: a name, or a table whose only key is the name and which holds nothing. -/
def readSeverity : Toml.Value → Checked Severity
  | .string name => readSeverityName name none
  | .table [(name, content)] => readSeverityName name (some content)
  | _ => .error .malformedSeverity

/-- A key of a table of fixed keys, and how its value changes what was read so far. -/
structure Key (σ : Type) where
  /-- The name of the key. -/
  name : String
  /-- Takes up the value of the key. -/
  read : σ → Toml.Value → Checked σ

/-- Takes up one entry of a table of fixed keys. -/
def readEntry {σ : Type} (keys : List (Key σ)) (state : σ) (entry : String × Toml.Value) :
    Checked σ :=
  match keys.find? (·.name == entry.1) with
  | some key => key.read state entry.2
  | none => .error (.unknownKey entry.1 (keys.map Key.name))

/-- Reads a table of fixed keys, starting from the defaults.  It may be a list of the values in the
order of the keys, of which the last ones may be missing and further ones are ignored. -/
def readKeys {σ : Type} (expected : Expected) (keys : List (Key σ)) (defaults : σ) :
    Toml.Value → Checked σ
  | .table entries => entries.foldlM (readEntry keys) defaults
  | .array items => (keys.zip items).foldlM (fun state (key, item) => key.read state item) defaults
  | .dateTime _ => .error (.unknownKey dateKey (keys.map Key.name))
  | other => .error (.wrongKind (found other) expected)

/-! ## The schema -/

/-- What a document says, before the runners are checked. -/
structure Draft where
  /-- The runners, where they are given. -/
  runners : Option (List String) := none
  /-- The files that are inspected. -/
  files : FileSelection := {}
  /-- The rules that are set. -/
  rules : List (String × RuleSettings) := []
  deriving DecidableEq, Repr

/-- The keys of the language settings. -/
def languageKeys : List (Key (Option (List String))) :=
  [{ name := "runners", read := fun _ value => some <$> readStrings value }]

/-- The keys of the file settings. -/
def filesKeys : List (Key FileSelection) :=
  [{ name := "include", read := fun files value => ({ files with suffixes := · }) <$> readStrings value },
    { name := "exclude",
      read := fun files value => ({ files with excludedDirs := · }) <$> readStrings value }]

/-- The keys of the settings of a rule. -/
def ruleKeys : List (Key RuleSettings) :=
  [{ name := "enabled", read := fun rule value => ({ rule with enabled := · }) <$> readBool value },
    { name := "severity",
      read := fun rule value => ({ rule with severity := some · }) <$> readSeverity value }]

/-- Reads the settings of a rule. -/
def readRule (value : Toml.Value) : Checked RuleSettings := readKeys .rule ruleKeys {} value

/-- Reads the settings of all rules.  A date is a map from its one key to its text. -/
def readRules : Toml.Value → Checked (List (String × RuleSettings))
  | .table entries => entries.mapM fun (name, value) => (name, ·) <$> readRule value
  | .dateTime value => do
      let rule ← readRule (.string value.text)
      return [(dateKey, rule)]
  | other => .error (.wrongKind (found other) .map)

/-- The keys of a document. -/
def documentKeys : List (Key Draft) :=
  [{ name := "language",
     read := fun draft value =>
      ({ draft with runners := · }) <$> readKeys .language languageKeys none value },
    { name := "files",
      read := fun draft value => ({ draft with files := · }) <$> readKeys .files filesKeys {} value },
    { name := "rules", read := fun draft value => ({ draft with rules := · }) <$> readRules value }]

/-- Reads a document entry by entry. -/
def readDocument (entries : Toml.Entries) : Checked Draft :=
  entries.foldlM (readEntry documentKeys) {}

/-- The configuration that a document stands for.  Runners that are given must not be none. -/
def ofDraft (draft : Draft) : Except Problem Config :=
  match draft.runners with
  | some [] => .error .emptyRunners
  | some names => .ok { runners := .ofList names, files := draft.files, rules := draft.rules }
  | none => .ok { files := draft.files, rules := draft.rules }

/-- The configuration in the entries of a document. -/
def ofEntries (entries : Toml.Entries) : Except Problem Config :=
  match readDocument entries with
  | .ok draft => ofDraft draft
  | .error misfit => .error (.misfit misfit)

/-- The configuration in a text. -/
def ofToml (text : String) : Except Problem Config :=
  match Toml.parse text with
  | some entries => ofEntries entries
  | none => .error .notToml

end Config

end SpecLint
