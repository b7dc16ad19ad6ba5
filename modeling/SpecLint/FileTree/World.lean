import SpecLint.FileTree
import SpecLint.Text.Lossy

/-!
# Finding files

A `World` is a file tree and the directory from which relative paths start.  Looking a path up
walks over its names one by one and follows every link on the way; what it finds is described by
the names that lead there without links (`Place`).

* `World.canonical` — the place to which a path leads.
* `World.lookUp` — the same for a path that is handed to the system whole.
* `World.exists?` — whether a path can be looked up.
* `World.read` — the content of a file.
* `World.displayPath` — a path as it is shown in a report.
-/

namespace SpecLint

/-- A file tree and the directory from which relative paths start. -/
structure World where
  /-- The root directory. -/
  root : FileTree
  /-- The names that lead from the root to the current directory. -/
  current : List FileName

/-- Where a path leads. -/
structure Place where
  /-- The names from the root, without links and dots. -/
  names : List FileName
  /-- What is there. -/
  tree : FileTree

namespace World

/-- Longest name in a path, in bytes. -/
def maxNameLength : Nat := 255

/-- Longest path, in bytes. -/
def maxPathLength : Nat := 4095

/-- Most links that are followed in one path. -/
def maxLinks : Nat := 40

/-- Goes from the place under `names` over the names in `todo`, following at most `links` links. -/
def walk (w : World) (links : Nat) (names todo : List FileName) : Except SystemError Place :=
  match w.root.at? names, todo with
  | none, _ => .error .noEntry
  | some tree, [] => .ok { names, tree }
  | some (.dir entries), name :: rest =>
      if name = [] ∨ name = Path.here then w.walk links names rest
      else if name = Path.above then w.walk links names.dropLast rest
      else if maxNameLength < name.length then .error .nameTooLong
      else
        match entries.lookup name, links with
        | none, _ => .error .noEntry
        | some (.link _), 0 => .error .tooManyLinks
        | some (.link target), links + 1 =>
            w.walk links (if Path.isAbsolute target then [] else names)
              (Path.segments target ++ rest)
        | some _, links => w.walk links (names ++ [name]) rest
  | some (.closed error), name :: rest =>
      -- an empty name asks for a directory only, and does not look into it
      if name = [] then w.walk links names rest else .error error
  | some _, _ :: _ => .error .notADirectory
termination_by (links, todo.length)

/-- The place to which a path leads. -/
def canonical (w : World) (path : Path) : Except SystemError Place :=
  if 0 ∈ path then .error .nulByte
  else if path = [] then .error .noEntry
  else w.walk maxLinks (if Path.isAbsolute path then [] else w.current) (Path.segments path)

/-- The place to which a path leads that is handed to the system whole, which bounds its length. -/
def lookUp (w : World) (path : Path) : Except SystemError Place :=
  if 0 ∈ path then .error .nulByte
  else if maxPathLength < path.length then .error .nameTooLong
  else w.canonical path

/-- Whether a path can be looked up.  The answer is the same for a path that leads nowhere and for
one that the system refuses to look up for another reason. -/
def exists? (w : World) (path : Path) : Bool :=
  match w.lookUp path with
  | .ok _ => true
  | .error _ => false

/-- The content of the file to which a path leads. -/
def read (w : World) (path : Path) : Except SystemError ByteArray := do
  match (← w.lookUp path).tree with
  | .file content => content
  | .dir _ => throw .isADirectory
  | .closed error => throw error
  | .link _ | .device => return .empty

/-! ## Paths in reports -/

/-- Why a path has no canonical text. -/
inductive PathError where
  /-- The path leads nowhere. -/
  | system (error : SystemError)
  /-- The canonical path is not UTF-8. -/
  | notUtf8 (path : Path)
  deriving DecidableEq, Repr

/-- The text of a path error. -/
def PathError.message : PathError → String
  | .system error => "I/O error: " ++ error.message
  | .notUtf8 path => "Parse failure: Non-UTF-8 path: " ++ Text.lossy path

/-- A text with slashes for backslashes. -/
def forwardSlashes (text : String) : String :=
  String.ofList (text.toList.map fun c => if c = '\\' then '/' else c)

/-- The canonical path as text with forward slashes. -/
def normalPath (w : World) (path : Path) : Except PathError String :=
  match w.canonical path with
  | .error error => .error (.system error)
  | .ok place =>
      match Text.utf8? (Path.absolute place.names) with
      | some text => .ok (forwardSlashes text)
      | none => .error (.notUtf8 (Path.absolute place.names))

/-- What is left of a text after `start`, if the text begins with it. -/
def afterStart? (start text : List Char) : Option (List Char) :=
  if start.isPrefixOf text then some (text.drop start.length) else none

/-- The part of the canonical path `full` below the canonical path `base`, if there is one. -/
def below? (base full : String) : Option String :=
  match afterStart? base.toList full.toList with
  | some ('/' :: rest) => if rest.isEmpty then none else some (String.ofList rest)
  | _ => none

/-- A path as it is shown in a report on `root`: relative to the root when it lies below it, and
canonical otherwise. -/
def displayPath (w : World) (path root : Path) : Except PathError String := do
  let full ← w.normalPath path
  let base ← w.normalPath root
  return (below? base full).getD full

end World

end SpecLint
