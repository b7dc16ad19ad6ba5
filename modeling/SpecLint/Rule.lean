import SpecLint.Arena.Walk
import SpecLint.Offense
import SpecLint.RunnerSet

/-!
# Rules

A rule looks at calls of certain methods and reports what is wrong at a span.  Rules keep no state:
what a rule reports is a function of the arena, the runners and the call at hand.
-/

namespace SpecLint

/-- What every rule sees during one pass over a file. -/
structure RuleContext where
  /-- The nodes of the file. -/
  arena : Arena
  /-- The configured runner methods. -/
  runners : RunnerSet

/-- What a rule found, before it is attributed to the rule. -/
structure Finding where
  /-- Where the violation stands. -/
  span : Span
  /-- What is wrong. -/
  message : String
  deriving DecidableEq, Repr

/-- A check over calls. -/
structure Rule where
  /-- The name in reports and in configuration. -/
  name : String
  /-- The methods whose calls are looked at. -/
  methods : List String
  /-- The severity where none is configured. -/
  defaultSeverity : Severity := .convention
  /-- What the rule finds at a call of one of its methods. -/
  findings : RuleContext → NodeId → List Finding

/-- Attributes findings to a rule at a severity. -/
def Finding.toOffense (rule : String) (severity : Severity) (finding : Finding) : Offense where
  rule := rule
  severity := severity
  span := finding.span
  message := finding.message

end SpecLint
