import SpecLint.Command.Run
import SpecLint.Concrete.Dump

/-!
# The program

Takes a picture of the current directory, and of what the words of the command line name outside
of it, runs the command on it, prints the outcome and exits with its status.
-/

namespace SpecLint.Main

/-- The names in an absolute path. -/
def namesOf (path : String) : List FileName := Path.segments (Text.bytesOf path)

/-- Why the system refused a file. -/
def refusal : IO.Error → SystemError
  | .permissionDenied .. => .permissionDenied
  | _ => .inputOutput

/-- The file tree under an entry of a directory.  A link is kept as a link to where it leads. -/
partial def picture (entry : IO.FS.DirEntry) : IO FileTree := do
  match (← entry.path.symlinkMetadata).type with
  | .dir =>
      match ← entry.path.readDir.toBaseIO with
      | .ok children =>
          let entries ← children.toList.mapM fun child => do
            return (Text.bytesOf child.fileName, ← picture child)
          return .dir entries
      | .error error => return .closed (refusal error)
  | .file =>
      let content ← (IO.FS.readBinFile entry.path).toBaseIO
      return .file (content.mapError refusal)
  | .symlink =>
      try
        return .link (Text.bytesOf (← IO.FS.realPath entry.path).toString)
      catch _ =>
        return .link (Text.bytesOf "missing")
  | .other => return .device

/-- Adds to a world what a path leads to, unless it is there already. -/
def addPicture (w : World) (path : String) : IO World := do
  try
    let real ← IO.FS.realPath path
    let names := namesOf real.toString
    if (w.root.at? names).isSome then
      return w
    let entry : IO.FS.DirEntry :=
      { root := real.parent.getD real, fileName := real.fileName.getD "" }
    let w := { w with root := w.root.put (← picture entry) names }
    if Path.isAbsolute (Text.bytesOf path) && (w.root.at? (namesOf path)).isNone then
      return { w with root := w.root.put (.link (Text.bytesOf real.toString)) (namesOf path) }
    return w
  catch _ =>
    return w

/-- The variables of the environment that a run looks at. -/
def environment : IO Environment := do
  let names := [Config.environmentKey, Log.environmentKey, "HOME", "USER", "PWD"]
  let mut found : List (String × String) := []
  for name in names do
    if let some value ← IO.getEnv name then
      found := found ++ [(name, value)]
  return .ofList found

/-- The current directory and what some paths lead to outside of it. -/
def world (paths : List String) : IO World := do
  let current := (← IO.currentDir).toString
  let empty : World := { root := .dir [], current := namesOf current }
  (current :: paths).foldlM addPicture empty

end SpecLint.Main

/-- Runs the command that the command line names. -/
def main (words : List String) : IO UInt32 := do
  let environment ← SpecLint.Main.environment
  let config := environment.get? SpecLint.Config.environmentKey
  let w ← SpecLint.Main.world (words ++ config.toList)
  let outcome := SpecLint.Command.run w w.root.grammar environment words
  IO.eprint outcome.errors
  IO.print outcome.output
  return outcome.status.toUInt32
