import SpecLint.Config.Basic
import SpecLint.FileTree.World

/-!
# Finding the spec files

Given a directory, discovery lists the regular files below it whose names have one of the included
suffixes.  Directories with an excluded name are not entered, those into which the system refuses to
look are passed over, and links are neither entered nor listed.  The list is ascending, paths being
compared name by name.  Given a file, discovery lists that file whatever its name.
-/

namespace SpecLint

namespace FileSelection

mutual

/-- The names that lead from a directory to the selected files below it. -/
def selectedIn (files : FileSelection) : FileTree → List (List FileName)
  | .dir entries => files.selectedAmong entries
  | _ => []

/-- The names that lead to the selected files among the entries of a directory and below them. -/
def selectedAmong (files : FileSelection) : List (FileName × FileTree) → List (List FileName)
  | [] => []
  | (name, .file _) :: rest =>
      (if files.includes (Text.lossy name) then [[name]] else []) ++ files.selectedAmong rest
  | (name, .dir entries) :: rest =>
      (if files.excludesDir (Text.lossy name) then []
        else (files.selectedIn (.dir entries)).map (name :: ·)) ++ files.selectedAmong rest
  | (_, .closed _) :: rest => files.selectedAmong rest
  | (_, .link _) :: rest => files.selectedAmong rest
  | (_, .device) :: rest => files.selectedAmong rest

end

end FileSelection

/-- Whether one list of names does not come after another; names compare byte by byte. -/
def notAfter (a b : List FileName) : Bool := decide (a ≤ b)

/-- There is nothing to inspect at a path. -/
structure NothingThere where
  /-- The path. -/
  path : Path
  deriving DecidableEq, Repr

/-- What is said of a path at which there is nothing to inspect. -/
def NothingThere.cause (e : NothingThere) : String :=
  "no such file or directory: " ++ Text.lossy e.path

/-- The text of the error. -/
def NothingThere.message (e : NothingThere) : String := "I/O error: " ++ e.cause

/-- The spec files at or below `root`, in order. -/
def World.specFiles (w : World) (files : FileSelection) (root : Path) :
    Except NothingThere (List Path) :=
  match w.lookUp root with
  | .ok ⟨_, .file _⟩ => .ok [root]
  | .ok ⟨_, .dir entries⟩ =>
      .ok (((files.selectedIn (.dir entries)).mergeSort notAfter).map (Path.joinAll root))
  | .ok ⟨_, .closed _⟩ => .ok []
  | _ => .error ⟨root⟩

end SpecLint
