/-!
# Concrete syntax

The tree that a grammar makes of a source file.  Named nodes are constructs of the grammar;
unnamed ones are tokens, whose kind is their text.  A child may stand in a named field of its
parent.  Comments are named nodes that can stand between any two children.

Lowering reads a node in three ways only: by field (`childByField?`), as the list of its parts
(`parts`), and by token (`token?`).
-/

namespace SpecLint

/-- A node of the concrete syntax tree, with its subtree. -/
structure Concrete where
  /-- Grammar name of a named node, text of a token. -/
  kind : String
  /-- Whether the node is a construct of the grammar and no mere token. -/
  named : Bool
  /-- The field of the parent in which the node stands. -/
  field : Option String
  /-- Offset of the first byte. -/
  startByte : Nat
  /-- Offset just past the last byte. -/
  endByte : Nat
  /-- Line of the first byte, counted from zero. -/
  row : Nat
  /-- Column of the first byte in bytes, counted from zero. -/
  column : Nat
  /-- The direct children in source order. -/
  children : List Concrete
  deriving Inhabited

namespace Concrete

/-- The first child that stands in the given field. -/
def childByField? (n : Concrete) (field : String) : Option Concrete :=
  n.children.find? fun child => child.field == some field

/-- The named children, without comments and without those in one of the skipped fields. -/
def parts (n : Concrete) (skipped : List String) : List Concrete :=
  n.children.filter fun child =>
    child.named && child.kind != "comment" && !child.field.any skipped.contains

/-- The first token with the given text among the children. -/
def token? (n : Concrete) (text : String) : Option Concrete :=
  n.children.find? fun child => !child.named && child.kind == text

/-- The source text of the node; `none` when it is not valid UTF-8. -/
def text? (n : Concrete) (source : ByteArray) : Option String :=
  String.fromUTF8? (source.extract n.startByte n.endByte)

/-- What lowering makes of a node, as decided by its kind. -/
inductive Role where
  /-- A call with a receiver, arguments or a block. -/
  | call
  /-- A bare name: a local variable or a call without arguments. -/
  | identifier
  /-- An operator between two operands. -/
  | binary
  /-- An operator before one operand. -/
  | unary
  /-- An element access, `a[i]`. -/
  | element
  /-- An assignment, which declares its targets. -/
  | assignment
  /-- A block or lambda that is not attached to a call. -/
  | closure
  /-- Statements in a row. -/
  | sequence
  /-- A list of parameters. -/
  | parameterList
  /-- A definition, which opens a fresh scope for local variables. -/
  | definition
  /-- Anything else. -/
  | plain
  deriving DecidableEq, Repr

/-- The role of a kind of node. -/
def Role.ofKind (kind : String) : Role :=
  if kind = "call" then .call
  else if kind = "identifier" then .identifier
  else if kind = "binary" then .binary
  else if kind = "unary" then .unary
  else if kind = "element_reference" then .element
  else if kind ∈ ["assignment", "operator_assignment"] then .assignment
  else if kind ∈ ["block", "do_block", "lambda"] then .closure
  else if kind ∈ ["program", "body_statement", "block_body", "parenthesized_statements"] then
    .sequence
  else if kind ∈ ["block_parameters", "method_parameters", "lambda_parameters"] then
    .parameterList
  else if kind ∈ ["method", "singleton_method", "class", "module", "singleton_class"] then
    .definition
  else .plain

/-- The role of a node. -/
def role (n : Concrete) : Role := Role.ofKind n.kind

/-- Kinds of assignment targets and parameters whose nested names are declared too. -/
def bindingKinds : List String :=
  ["left_assignment_list", "destructured_left_assignment", "rest_assignment",
    "destructured_parameter", "optional_parameter", "keyword_parameter", "splat_parameter",
    "hash_splat_parameter", "block_parameter"]

/-- Whether names nested in the node are declared with it. -/
def isBinding (n : Concrete) : Bool := bindingKinds.contains n.kind

end Concrete

end SpecLint
