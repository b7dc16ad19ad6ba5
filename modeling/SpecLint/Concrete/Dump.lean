import SpecLint.Concrete
import SpecLint.FileTree
import SpecLint.Lowering
import SpecLint.Text.Lossy

/-!
# Dumped concrete syntax

The grammar is a program of its own.  What it makes of a source file is read from a dump beside
the file: one line for each node in depth-first order, with these columns between tabs:

```
kind  named  field  start  end  row  column  children
```

`named` is `+` or `-`, an absent field is empty, and `children` is the number of direct children
that follow.  In a kind, `\t`, `\n`, `\r` and `\\` stand for a tab, a line feed, a carriage return
and a backslash.

* `Concrete.ofPreorder?` — the tree over a list of nodes, each with its number of children.
* `Concrete.ofDump?` — the tree in a dump.
* `FileTree.grammar` — the grammar that knows the dumped sources of a file tree.
-/

namespace SpecLint

namespace Concrete

/-- Gives each node its children, which follow it, and lists the trees that are left over. -/
def assemble (nodes : List (Concrete × Nat)) : List Concrete :=
  nodes.foldr (fun (node, count) trees =>
    { node with children := trees.take count } :: trees.drop count) []

/-- The tree whose nodes are listed in depth-first order, each with its number of children. -/
def ofPreorder? (nodes : List (Concrete × Nat)) : Option Concrete :=
  match assemble nodes with
  | [root] => some root
  | _ => none

/-- Takes the escapes out of a kind. -/
def unescape : List Char → List Char
  | '\\' :: 't' :: rest => '\t' :: unescape rest
  | '\\' :: 'n' :: rest => '\n' :: unescape rest
  | '\\' :: 'r' :: rest => '\r' :: unescape rest
  | '\\' :: '\\' :: rest => '\\' :: unescape rest
  | c :: rest => c :: unescape rest
  | [] => []

/-- The node on a line of a dump, and its number of children. -/
def ofLine? (line : String) : Option (Concrete × Nat) := do
  match line.splitOn "\t" with
  | [kind, named, field, startByte, endByte, row, column, count] =>
      let node : Concrete := {
        kind := String.ofList (unescape kind.toList)
        named := named == "+"
        field := if field.isEmpty then none else some field
        startByte := ← startByte.toNat?
        endByte := ← endByte.toNat?
        row := ← row.toNat?
        column := ← column.toNat?
        children := [] }
      return (node, ← count.toNat?)
  | _ => none

/-- The tree in a dump. -/
def ofDump? (text : String) : Option Concrete := do
  let lines := (text.splitOn "\n").filter fun line => !line.isEmpty
  ofPreorder? (← lines.mapM ofLine?)

end Concrete

namespace FileTree

/-- The ending of the name of a dump, after the name of the source file. -/
def dumpSuffix : FileName := Text.bytesOf ".tree"

/-- The source of a file and its tree, when a dump stands among the entries beside it. -/
def dumped? (entries : List (FileName × FileTree)) (name : FileName) (content : ByteArray) :
    Option (ByteArray × Concrete) := do
  match entries.lookup (name ++ dumpSuffix) with
  | some (.file (.ok dump)) => return (content, ← Concrete.ofDump? (← String.fromUTF8? dump))
  | _ => none

mutual

/-- The sources in a file tree that have a dump, with their trees. -/
def dumps : FileTree → List (ByteArray × Concrete)
  | .dir entries => dumpsAmong entries entries
  | _ => []

/-- The sources among some entries of a directory, and below them, that have a dump. -/
def dumpsAmong (all : List (FileName × FileTree)) :
    List (FileName × FileTree) → List (ByteArray × Concrete)
  | [] => []
  | (name, .file (.ok content)) :: rest =>
      (dumped? all name content).toList ++ dumpsAmong all rest
  | (_, .file (.error _)) :: rest => dumpsAmong all rest
  | (_, .dir entries) :: rest => dumps (.dir entries) ++ dumpsAmong all rest
  | (_, .closed _) :: rest => dumpsAmong all rest
  | (_, .link _) :: rest => dumpsAmong all rest
  | (_, .device) :: rest => dumpsAmong all rest

end

/-- The grammar that knows the dumped sources of a file tree.  Any other source has a tree of one
node without a kind. -/
def grammar (tree : FileTree) : Lowering.Grammar :=
  let known := tree.dumps
  fun source => ((known.find? fun entry => entry.1 == source).map Prod.snd).getD default

end FileTree

end SpecLint
