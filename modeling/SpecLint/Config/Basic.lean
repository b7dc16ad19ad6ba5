import SpecLint.RunnerSet
import SpecLint.Severity

/-!
# Configuration of an inspection

Which methods count as runners, which files are inspected and how each rule is set.  Everything
has a default, so the empty configuration is a valid one.
-/

namespace SpecLint

/-- Which files below a directory are inspected. -/
structure FileSelection where
  /-- A file is inspected when its name ends with one of these. -/
  suffixes : List String := ["_spec.rb"]
  /-- Directories with these names are not entered. -/
  excludedDirs : List String := ["vendor", ".git", "node_modules", "tmp"]
  deriving DecidableEq, Repr, Inhabited

namespace FileSelection

/-- Whether a file with the given name is inspected. -/
def includes (files : FileSelection) (name : String) : Bool :=
  files.suffixes.any fun suffix => suffix.toList.isSuffixOf name.toList

/-- Whether a directory with the given name is left out. -/
def excludesDir (files : FileSelection) (name : String) : Bool :=
  files.excludedDirs.contains name

end FileSelection

/-- How one rule is set. -/
structure RuleSettings where
  /-- Whether the rule is applied. -/
  enabled : Bool := true
  /-- The severity that replaces the rule's own. -/
  severity : Option Severity := none
  deriving DecidableEq, Repr, Inhabited

/-- Everything that can be configured. -/
structure Config where
  /-- The runner methods. -/
  runners : RunnerSet := .standard
  /-- The files that are inspected. -/
  files : FileSelection := {}
  /-- The rules that are set, by name. -/
  rules : List (String × RuleSettings) := []

instance : Inhabited Config := ⟨{}⟩

/-- How the named rule is set; a rule that is not configured is enabled and keeps its severity. -/
def Config.settings (config : Config) (rule : String) : RuleSettings :=
  (config.rules.lookup rule).getD {}

end SpecLint
