/-!
# Trees of files

A file tree holds files, directories, symbolic links and devices.  The system may refuse to read a
file or to look into a directory.  Names and paths are byte strings.  A path is taken apart into
segments at its slashes; a slash at the end leaves an empty segment there, which asks for a
directory.

* `Path.segments` — the segments of a path.
* `Path.join` — a path followed by one more name.
* `FileTree.at?` — what lies under a list of names.
-/

namespace SpecLint

/-- One name in a path. -/
abbrev FileName := List UInt8

/-- A path as it is given: a byte string. -/
abbrev Path := List UInt8

/-- Why the system refuses a path or a file. -/
inductive SystemError where
  | noEntry
  | permissionDenied
  | notADirectory
  | isADirectory
  | nameTooLong
  | tooManyLinks
  | inputOutput
  /-- The path holds a byte that would end it. -/
  | nulByte
  deriving DecidableEq, Repr

/-- The text of a system error. -/
def SystemError.message : SystemError → String
  | .noEntry => "No such file or directory (os error 2)"
  | .permissionDenied => "Permission denied (os error 13)"
  | .notADirectory => "Not a directory (os error 20)"
  | .isADirectory => "Is a directory (os error 21)"
  | .nameTooLong => "File name too long (os error 36)"
  | .tooManyLinks => "Too many levels of symbolic links (os error 40)"
  | .inputOutput => "Input/output error (os error 5)"
  | .nulByte => "file name contained an unexpected NUL byte"

/-- A file, or a directory with all that lies below it. -/
inductive FileTree where
  /-- A regular file, and what reading it gives. -/
  | file (content : Except SystemError ByteArray)
  /-- A directory. -/
  | dir (entries : List (FileName × FileTree))
  /-- A directory into which the system refuses to look, and why. -/
  | closed (error : SystemError)
  /-- A symbolic link. -/
  | link (target : Path)
  /-- Something that is neither, and reads as an empty file. -/
  | device
  deriving Inhabited

namespace Path

/-- The byte that separates names. -/
def slash : UInt8 := 47

/-- The name of the directory itself. -/
def here : FileName := [46]

/-- The name of the directory above. -/
def above : FileName := [46, 46]

/-- Whether a path starts at the root. -/
def isAbsolute (path : Path) : Bool := path.head? == some slash

/-- The pieces of a path between its slashes, empty ones included. -/
def pieces : Path → List FileName
  | [] => [[]]
  | byte :: rest =>
      if byte = slash then [] :: pieces rest
      else
        match pieces rest with
        | piece :: more => (byte :: piece) :: more
        | [] => [[byte]]

/-- The names in a path.  A slash at the end counts as one more name, which is empty. -/
def segments (path : Path) : List FileName :=
  let names := (pieces path).filter (· ≠ [])
  if path.getLast? = some slash then names ++ [[]] else names

/-- A path followed by a name, with a slash in between unless there is one. -/
def join (path : Path) (name : FileName) : Path :=
  if path = [] ∨ path.getLast? = some slash then path ++ name else path ++ slash :: name

/-- A path followed by several names. -/
def joinAll (path : Path) (names : List FileName) : Path := names.foldl join path

/-- The absolute path over the given names. -/
def absolute (names : List FileName) : Path :=
  if names = [] then [slash] else names.flatMap (slash :: ·)

end Path

namespace FileTree

/-- The entries of a directory. -/
def entries : FileTree → List (FileName × FileTree)
  | .dir entries => entries
  | _ => []

/-- What lies under a list of names; links are not followed. -/
def at? (tree : FileTree) : List FileName → Option FileTree
  | [] => some tree
  | name :: names => (tree.entries.lookup name).bind (·.at? names)

/-- Replaces the entry under a name, or adds it at the end. -/
def putEntry (name : FileName) (tree : FileTree) :
    List (FileName × FileTree) → List (FileName × FileTree)
  | [] => [(name, tree)]
  | (other, old) :: rest =>
      if other = name then (name, tree) :: rest else (other, old) :: putEntry name tree rest

/-- Puts a tree under a list of names.  Missing directories on the way are made. -/
def put (tree new : FileTree) : List FileName → FileTree
  | [] => new
  | name :: names =>
      let child := (tree.entries.lookup name).getD (.dir [])
      .dir (putEntry name (child.put new names) tree.entries)

end FileTree

end SpecLint
