import SpecLint.Log.Directive

/-!
# What the log shows

A filter is a list of directives.  Of several directives for an event the most specific one counts.
A setting is a text of directives between commas; one with a directive that is malformed counts as
if it were missing, and one with a directive that would be cut inside of a character gives no
filter at all.

* `Filter.ofSetting` — the filter of a setting.
* `Filter.shows` — whether an event outside of all spans is shown.
-/

namespace SpecLint.Log

/-- The environment variable that holds the setting. -/
def environmentKey : String := "RUST_LOG"

/-- The directives of a log, in order. -/
abbrev Filter := List Directive

namespace Filter

/-- The filter where there is no usable setting. -/
def standard : Filter := [{ level := .warn }]

/-- The filter of a setting; of several faults the first one decides. -/
def ofSetting (setting : Option String) : Option Filter :=
  match setting with
  | none => some standard
  | some text =>
      let pieces := (text.splitOn ",").filter (!·.isEmpty)
      match pieces.mapM fun piece => Directive.ofText piece.toList with
      | .ok directives => some directives
      | .error .malformed => some standard
      | .error .brokenCharacter => none

/-- The directive that counts for an event outside of all spans. -/
def directive? (f : Filter) (e : Event) : Option Directive :=
  (f.filter (·.appliesTo e)).foldl (fun best d =>
    match best with
    | some b => if b.yieldsTo d then some d else best
    | none => some d) none

/-- Whether an event of a level is shown, which happens outside of all spans. -/
def shows (f : Filter) (level : Level) (e : Event) : Bool :=
  (f.directive? e).any fun d => decide (level.number ≤ d.level.number)

end Filter

end SpecLint.Log
