import SpecLint.Config.Schema
import SpecLint.FileTree.World

/-!
# Where the configuration comes from

The configuration is read from the first of three places that is given: a file named explicitly, a
file named in the environment, and a file of a fixed name in the current directory.  The first two
must exist; without the third, every setting has its default.  A file that was chosen and cannot
be used is an error, and no other place is tried.
-/

namespace SpecLint.Config

/-- The environment variable that names a configuration file. -/
def environmentKey : String := "SPECWARDEN_CONFIG"

/-- The configuration file of the current directory. -/
def defaultFile : String := ".specwarden.toml"

/-- Why no configuration can be loaded. -/
inductive LoadError where
  /-- The named file does not exist. -/
  | notFound (path : Path)
  /-- The file cannot be read. -/
  | unreadable (path : Path) (error : SystemError)
  /-- The file is not UTF-8. -/
  | notUtf8 (path : Path)
  /-- The file holds no configuration. -/
  | unusable (path : Path) (problem : Problem)
  deriving DecidableEq, Repr

namespace LoadError

/-- The cause that a message gives after the path, where there is one. -/
def cause? : LoadError → Option String
  | .notFound _ => none
  | .unreadable _ error => some error.message
  | .notUtf8 _ => some "stream did not contain valid UTF-8"
  | .unusable _ .emptyRunners => none
  | .unusable _ problem => some (problem.message?.getD "not a TOML document")

/-- The text of a load error. -/
def message (e : LoadError) : String :=
  let cause := e.cause?.getD ""
  match e with
  | .notFound path => "Config file not found: " ++ Text.lossy path
  | .unreadable path _ | .notUtf8 path => "I/O error reading " ++ Text.lossy path ++ ": " ++ cause
  | .unusable _ .emptyRunners => (Problem.message? .emptyRunners).getD ""
  | .unusable path _ => "Failed to parse " ++ Text.lossy path ++ ": " ++ cause

end LoadError

/-- Reads a configuration file, which must exist. -/
def loadFrom (w : World) (path : Path) : Except LoadError Config :=
  if w.exists? path then
    match w.read path with
    | .error error => .error (.unreadable path error)
    | .ok content =>
        match String.fromUTF8? content with
        | none => .error (.notUtf8 path)
        | some text => (ofToml text).mapError (.unusable path)
  else
    .error (.notFound path)

/-- The file that is read: the explicit one, else the one of the environment, else the default one
if it exists. -/
def chosenFile? (w : World) (explicit environment : Option Path) : Option Path :=
  match explicit, environment with
  | some path, _ => some path
  | none, some path => some path
  | none, none =>
      if w.exists? (Text.bytesOf defaultFile) then some (Text.bytesOf defaultFile) else none

/-- Loads the configuration. -/
def load (w : World) (explicit environment : Option Path) : Except LoadError Config :=
  match chosenFile? w explicit environment with
  | some path => loadFrom w path
  | none => .ok {}

end SpecLint.Config
