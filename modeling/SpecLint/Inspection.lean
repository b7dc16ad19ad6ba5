import SpecLint.Discovery
import SpecLint.Dispatcher
import SpecLint.Json.Report
import SpecLint.Prefilter

/-!
# Inspecting a project

An inspection finds the spec files below a root and lints each of them.  A file that mentions no
dispatched method is clear without being lowered; one that cannot be read or lowered is skipped.

* `Inspection.ofRoot` — the inspection of a root.
* `Inspection.toJson` — the structured report.
-/

namespace SpecLint

/-- What was found in one file. -/
structure FileReport where
  /-- The path as it is shown. -/
  path : String
  /-- The offenses in order of their start. -/
  offenses : List Offense
  deriving DecidableEq, Repr

/-- What was found below a root. -/
structure Inspection where
  /-- One report for each file that could be inspected, in the order of their paths. -/
  files : List FileReport := []
  /-- Number of files that could be inspected. -/
  inspected : Nat := 0
  /-- Number of files that could not be read or lowered. -/
  skipped : Nat := 0
  deriving DecidableEq, Repr

namespace Inspection

/-- Offenses in order of their start; those with one start keep their order. -/
def byPosition (offenses : List Offense) : List Offense :=
  offenses.mergeSort fun a b => decide (a.span.startByte ≤ b.span.startByte)

/-- The offenses in the content of a file; `none` when it cannot be lowered. -/
def offensesIn? (grammar : Lowering.Grammar) (d : Dispatcher) (content : ByteArray) :
    Option (List Offense) :=
  if Lowering.maxSourceSize < content.size then none
  else if content.isEmpty then some []
  else if (Prefilter.mk d.methods).mightMatch content then
    (d.lint grammar content).toOption.map Offenses.toList
  else some []

/-- The offenses in a file; `none` when it cannot be read or lowered. -/
def offensesAt? (w : World) (grammar : Lowering.Grammar) (d : Dispatcher) (path : Path) :
    Option (List Offense) := do
  let content ← (w.read path).toOption
  offensesIn? grammar d content

/-- A path as it is shown in a report on `root`; one that has no canonical text is shown as it
is. -/
def shownPath (w : World) (root path : Path) : String :=
  match w.displayPath path root with
  | .ok text => text
  | .error _ => World.forwardSlashes (Text.lossy path)

/-- Takes up one file. -/
def addFile (w : World) (grammar : Lowering.Grammar) (d : Dispatcher) (root : Path)
    (i : Inspection) (path : Path) : Inspection :=
  match offensesAt? w grammar d path with
  | some offenses =>
      { i with
        files := i.files ++ [{ path := shownPath w root path, offenses := byPosition offenses }]
        inspected := i.inspected + 1 }
  | none => { i with skipped := i.skipped + 1 }

/-- Inspects the spec files at or below `root`. -/
def ofRoot (w : World) (grammar : Lowering.Grammar) (d : Dispatcher) (files : FileSelection)
    (root : Path) : Except NothingThere Inspection := do
  let paths ← w.specFiles files root
  return paths.foldl (addFile w grammar d root) {}

/-- Number of all offenses. -/
def offenseCount (i : Inspection) : Nat := (i.files.flatMap FileReport.offenses).length

/-- Number of files with an offense. -/
def offendingFiles (i : Inspection) : Nat := i.files.countP fun f => !f.offenses.isEmpty

/-- The report on a file as an object. -/
def fileJson (f : FileReport) : Json :=
  .obj [("path", .str f.path), ("offenses", .arr (f.offenses.map Offense.toJson))]

/-- The structured report. -/
def toJson (i : Inspection) : Json :=
  .obj [("files", .arr (i.files.map fileJson)), ("inspected", .int i.inspected),
    ("skipped", .int i.skipped)]

end Inspection

end SpecLint
