/-!
# Severities

How loudly an offense is reported.  A severity has a lower-case name, used in configuration and in
structured reports, and a one-letter code, used in text reports.
-/

namespace SpecLint

/-- How loudly an offense is reported, from the mildest up. -/
inductive Severity where
  | convention
  | warning
  | error
  deriving DecidableEq, Repr, Inhabited, Ord

namespace Severity

/-- Every severity, from the mildest up. -/
def all : List Severity := [.convention, .warning, .error]

/-- The letter that stands for a severity in a text report. -/
def code : Severity → Char
  | .convention => 'C'
  | .warning => 'W'
  | .error => 'E'

/-- The name of a severity in configuration and in structured reports. -/
def name : Severity → String
  | .convention => "convention"
  | .warning => "warning"
  | .error => "error"

/-- The severity with the given name. -/
def ofName? (text : String) : Option Severity := all.find? fun s => s.name == text

/-- A severity's name leads back to it. -/
@[simp] theorem ofName?_name (s : Severity) : ofName? s.name = some s := by
  cases s <;> decide

end Severity

end SpecLint
