/-!
# Environment variables

An environment is a list of texts `NAME=VALUE`.  The value of a variable is found by comparing
texts: it is what follows the name and an equals sign in the first text that begins with them.  So
the text `A=B=C` gives the variable `A` the value `B=C`, and it also answers for the name `A=B`.

A variable that is set keeps its value: `setMissing` adds only what is not there.
-/

namespace SpecLint

/-- The variables that are set, each as a text `NAME=VALUE`. -/
structure Environment where
  /-- The texts in order. -/
  texts : List String := []
  deriving DecidableEq, Repr

namespace Environment

/-- The text that sets a variable. -/
def textOf (name value : String) : String := name ++ "=" ++ value

/-- The environment with some variables, each given by its name and its value. -/
def ofList (pairs : List (String × String)) : Environment :=
  { texts := pairs.map fun (name, value) => textOf name value }

/-- What follows `front` in a text that begins with it. -/
def after? (front : List Char) (text : List Char) : Option (List Char) :=
  if front.isPrefixOf text then some (text.drop front.length) else none

/-- The value of a variable.  The empty name has none. -/
def get? (e : Environment) (name : String) : Option String :=
  if name.isEmpty then none
  else e.texts.findSome? fun text =>
    (after? (textOf name "").toList text.toList).map String.ofList

/-- Sets a variable, unless it is set already. -/
def setMissing (e : Environment) (name value : String) : Environment :=
  if (e.get? name).isSome then e else { texts := e.texts ++ [textOf name value] }

end Environment

end SpecLint
