import SpecLint.Toml.Scalar

/-!
# Configuration documents

A document is a list of entries `key = value`, each in the section opened by the last header
before it.  A header `[a.b]` opens a table, a header `[[a.b]]` a further table of a list.  Dotted
keys reach into tables, which are made where they are missing.

TOML forbids to define anything twice, so the tables under construction say how they came about
(`Item`): a table made on the way to another one may still be opened by its own header, and a
table made by dotted keys may still be extended by dotted keys.

`parse` gives the entries of the whole document, or `none` when the text is not TOML.
-/

namespace SpecLint.Toml

open Reader

/-! ## Tables under construction -/

/-- What a key of a table under construction stands for. -/
inductive Item where
  /-- A complete value. -/
  | value (value : Value)
  /-- A table.  It is implicit when it was made on the way to another one, and dotted when dotted
  keys made it. -/
  | table (implicit dotted : Bool) (entries : List (String × Item))
  /-- A list of tables, each opened by a header of its own. -/
  | tables (items : List (List (String × Item)))
  deriving Inhabited

/-- A table under construction. -/
structure Draft where
  /-- Whether the table was made on the way to another one. -/
  implicit : Bool := false
  /-- Whether dotted keys made the table. -/
  dotted : Bool := false
  /-- The keys so far. -/
  entries : List (String × Item) := []

/-- Replaces the value of a key in place, or adds the key at the end. -/
def setKey (key : String) (item : Item) : List (String × Item) → List (String × Item)
  | [] => [(key, item)]
  | (k, old) :: rest => if k = key then (k, item) :: rest else (k, old) :: setKey key item rest

namespace Draft

/-- The table as an item. -/
def toItem (d : Draft) : Item := .table d.implicit d.dotted d.entries

/-- Replaces the value of a key in place, or adds the key at the end. -/
def set (d : Draft) (key : String) (item : Item) : Draft :=
  { d with entries := setKey key item d.entries }

/-- Works on the table that is reached over `path`.  Missing tables on the way are made.  A list of
tables is entered at its last one.  The way of a dotted key leads through tables made on the way
only, never through one that was opened by a header. -/
def within {α : Type} (d : Draft) (byDots : Bool) (work : Draft → Option (α × Draft))
    (path : List String) : Option (α × Draft) :=
  match path with
  | [] => work d
  | key :: path =>
      match d.entries.lookup key with
      | none => do
          let (a, child) ← within { implicit := true, dotted := byDots } byDots work path
          return (a, d.set key child.toItem)
      | some (.value _) => none
      | some (.table implicit dotted entries) =>
          if byDots && !implicit then none
          else do
            let (a, child) ← within { implicit, dotted, entries } byDots work path
            return (a, d.set key child.toItem)
      | some (.tables items) => do
          let (a, child) ← within { entries := ← items.getLast? } byDots work path
          return (a, d.set key (.tables (items.dropLast ++ [child.entries])))

/-- Adds an entry whose key may be dotted.  Dots lead only to tables that dots have made. -/
def addEntry (d : Draft) (path : List String) (key : String) (value : Value) : Option Draft := do
  let insert (table : Draft) : Option (Unit × Draft) :=
    if table.dotted == path.isEmpty then none
    else if (table.entries.lookup key).isSome then none
    else some ((), table.set key (.value value))
  let (_, d) ← d.within true insert path
  return d

/-- Takes the table of a header out of its parent.  A table that was made on the way to another
one is taken as it is, a missing one is empty, and anything else would be defined twice. -/
def takeTable (parent : Draft) (key : String) : Option (Draft × Draft) :=
  match parent.entries.lookup key with
  | none => some ({}, parent)
  | some (.table true false entries) =>
      some ({ entries }, { parent with entries := parent.entries.filter (·.1 != key) })
  | some _ => none

/-- Makes room for a further table of the list under a key. -/
def openList (parent : Draft) (key : String) : Option (Unit × Draft) :=
  match parent.entries.lookup key with
  | none => some ((), parent.set key (.tables []))
  | some (.tables _) => some ((), parent)
  | some _ => none

/-- Puts a closed section at its place in its parent. -/
def putSection (parent : Draft) (key : String) (listed : Bool) (closed : Draft) :
    Option (Unit × Draft) :=
  if listed then
    match parent.entries.lookup key with
    | some (.tables items) => some ((), parent.set key (.tables (items ++ [closed.entries])))
    | _ => none
  else
    some ((), parent.set key closed.toItem)

end Draft

mutual

/-- The value of an item once the document is complete. -/
def Item.finish : Item → Value
  | .value v => v
  | .table _ _ entries => .table (finishEntries entries)
  | .tables items => .array (finishTables items)

/-- The values of the keys of a table. -/
def finishEntries : List (String × Item) → Entries
  | [] => []
  | (key, item) :: rest => (key, item.finish) :: finishEntries rest

/-- The values of a list of tables. -/
def finishTables : List (List (String × Item)) → List Value
  | [] => []
  | entries :: rest => .table (finishEntries entries) :: finishTables rest

end

/-! ## Keys and values -/

/-- What may stand in a key without quotes. -/
def isBareKeyChar (c : Char) : Bool := c.isAlphanum || c == '-' || c == '_'

/-- Takes a key without dots. -/
def simpleKey : Reader String :=
  basicString <|> literalString <|> String.ofList <$> run1 isBareKeyChar

/-- Deepest nesting of values and longest dotted key. -/
def maxDepth : Nat := 79

/-- Takes a key: the path of its table and its last part. -/
def key : Reader (List String × String) := do
  let parts ← separated (do blanks; let part ← simpleKey; blanks; return part) (char '.')
  match parts.getLast? with
  | some last => if parts.length ≤ maxDepth then return (parts.dropLast, last) else failure
  | none => failure

/-- Takes the items of an array after its opening bracket. -/
def arrayItems (value : Reader Value) : Reader (List Value) := do
  let item : Reader Value := do blankLines; let v ← value; blankLines; return v
  let items ← optional (separated item (char ','))
  if items.isSome then
    let _ ← optional (char ',')
  blankLines
  char ']'
  return items.getD []

/-- Takes the entries of a table after its opening brace. -/
def bracedEntries (value : Reader Value) : Reader Entries := do
  let entry : Reader ((List String × String) × Value) := do
    let k ← key
    char '='
    blanks
    let v ← value
    blanks
    return (k, v)
  let entries := (← optional (separated entry (char ','))).getD []
  blanks
  char '}'
  match entries.foldlM (fun (d : Draft) e => d.addEntry e.1.1 e.1.2 e.2) {} with
  | some d => return finishEntries d.entries
  | none => failure

/-- Takes a value in which at most `depth` arrays and braced tables are nested. -/
def value : Nat → Reader Value
  | 0 => scalar
  | depth + 1 => do
      match ← peek with
      | some '[' => do char '['; return .array (← arrayItems (value depth))
      | some '{' => do char '{'; return .table (← bracedEntries (value depth))
      | _ => scalar

/-! ## Sections -/

/-- One line, or several, of a document. -/
inductive Statement where
  /-- An empty line or a comment. -/
  | blank
  /-- `path.key = value` -/
  | entry (path : List String) (key : String) (value : Value)
  /-- `[path.key]`, or `[[path.key]]` when `listed`. -/
  | header (listed : Bool) (path : List String) (key : String)

/-- Takes a header. -/
def header : Reader Statement := do
  char '['
  let listed := (← optional (char '[')).isSome
  let (path, key) ← key
  char ']'
  if listed then
    char ']'
  lineEnd
  return .header listed path key

/-- Takes a statement. -/
def statement : Reader Statement := do
  match ← peek with
  | none => failure
  | some '#' => do comment; newline <|> atEnd; return .blank
  | some '[' => header
  | some '\n' | some '\r' => do newline; return .blank
  | some _ => do
      let (path, key) ← key
      char '='
      blanks
      let value ← value maxDepth
      lineEnd
      return .entry path key value

/-- A document under construction. -/
structure Sections where
  /-- The sections that are closed. -/
  root : Draft := {}
  /-- The open section. -/
  current : Draft := {}
  /-- The header of the open section; the entries before the first header have none. -/
  opened : Option (Bool × List String × String) := none

namespace Sections

/-- Closes the open section and gives the document so far. -/
def close (s : Sections) : Option Draft :=
  match s.opened with
  | none => some s.current
  | some (listed, path, key) => do
      let (_, root) ← s.root.within false (·.putSection key listed s.current) path
      return root

/-- Takes up one statement. -/
def add (s : Sections) : Statement → Option Sections
  | .blank => some s
  | .entry path key value => do return { s with current := ← s.current.addEntry path key value }
  | .header true path key => do
      let (_, root) ← (← s.close).within false (·.openList key) path
      return { root, opened := some (true, path, key) }
  | .header false path key => do
      let (current, root) ← (← s.close).within false (·.takeTable key) path
      return { root, current, opened := some (false, path, key) }

end Sections

/-- Takes the statements of a document.  A byte order mark in front is left out. -/
def statements : Reader (List Statement) := do
  let _ ← optional (char '\ufeff')
  blanks
  let all ← many do
    let s ← statement
    blanks
    return s
  atEnd
  return all

/-- The entries of a document; `none` when the text is not TOML. -/
def parse (text : String) : Option Entries := do
  let (all, _) ← statements text.toList
  let sections ← all.foldlM Sections.add {}
  return finishEntries (← sections.close).entries

end SpecLint.Toml
