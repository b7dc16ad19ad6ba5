import SpecLint.Text.Digits

/-!
# Levels of a log

How important an event is, and down to which importance events are shown.  A level is named by its
number or by its name.
-/

namespace SpecLint.Log

/-- How important an event is, and down to which importance events are shown. -/
inductive Level where
  | off
  | error
  | warn
  | info
  | debug
  | trace
  deriving DecidableEq, Repr

namespace Level

/-- All levels, each at the place of its number. -/
def all : List Level := [.off, .error, .warn, .info, .debug, .trace]

/-- The name of a level. -/
def name : Level → String
  | .off => "off"
  | .error => "error"
  | .warn => "warn"
  | .info => "info"
  | .debug => "debug"
  | .trace => "trace"

/-- The number of a level. -/
def number : Level → Nat
  | .off => 0
  | .error => 1
  | .warn => 2
  | .info => 3
  | .debug => 4
  | .trace => 5

/-- A number in decimal digits, possibly after a plus sign. -/
def number? (text : List Char) : Option Nat :=
  let digits := match text with
    | '+' :: rest => rest
    | _ => text
  if digits.isEmpty || !digits.all Char.isDigit then none else some (Text.digitsValue 10 digits)

/-- The level that a text names, by its number or by its name in upper or lower case. -/
def ofText? (text : List Char) : Option Level :=
  match number? text with
  | some n => all[n]?
  | none => all.find? (·.name.toList == text.map Char.toLower)

end Level

end SpecLint.Log
