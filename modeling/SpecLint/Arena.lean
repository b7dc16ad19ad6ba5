import SpecLint.Span

/-!
# The arena of call-shaped nodes

Nodes live in one array and refer to each other by their index.  Links to children are part of a
node's `Shape`; the link to a parent is filled in when the parent is pushed, so a tree is built
from its leaves up and the last node pushed is its root.

* `Arena.push` — appends a node and makes it the parent of its children.
* `Arena.root?` — the chosen root, or else the last node.
* `Shape.children` — the direct children of a node in source order.
-/

namespace SpecLint

/-- Index of a node in its arena.  An id may name a node that is not there (yet).  Ids count without
bound; a word of 32 bits holds those of an arena of at most 2 ^ 32 nodes. -/
abbrev NodeId := Nat

/-- A method call: `recv.meth(args)`, `meth args`, `a == b`, `!a`, `a[i]`. -/
structure Call where
  /-- What the method is called on; absent in `expect(x)`. -/
  receiver : Option NodeId
  /-- Name of the called method. -/
  method : String
  /-- The arguments in source order. -/
  arguments : List NodeId
  /-- Place of the method name alone. -/
  selector : Span
  /-- Whether the call is skipped on a nil receiver, as in `recv&.meth`. -/
  safe : Bool := false
  deriving DecidableEq, Repr

/-- A call with a literal block attached: `call { |params| body }`. -/
structure Block where
  /-- The call that takes the block. -/
  call : NodeId
  /-- The parameter list, which may be empty. -/
  params : NodeId
  /-- The statements of the block, if it has any. -/
  body : Option NodeId
  deriving DecidableEq, Repr

/-- What a node is, with the ids of its children. -/
inductive Shape where
  /-- A method call. -/
  | send (call : Call)
  /-- A call with a block that takes its parameters explicitly or not at all. -/
  | block (block : Block)
  /-- A call with a block that reads `it` or `_1` to `_9` as its parameters. -/
  | numBlock (block : Block)
  /-- The parameter list of a block, lambda or method. -/
  | params (items : List NodeId)
  /-- Statements in a row, or a group in parentheses. -/
  | sequence (items : List NodeId)
  /-- A read of a local variable. -/
  | localRead (name : String)
  /-- Any other construct, under its grammar name. -/
  | other (kind : String) (children : List NodeId)
  deriving DecidableEq, Repr

/-- The direct children of a node in source order. -/
def Shape.children : Shape → List NodeId
  | .send call => call.receiver.toList ++ call.arguments
  | .block b | .numBlock b => b.call :: b.params :: b.body.toList
  | .params items | .sequence items => items
  | .localRead _ => []
  | .other _ children => children

/-- A node of the arena. -/
structure Node where
  /-- What the node is. -/
  shape : Shape
  /-- The extent of the whole node. -/
  span : Span
  /-- The node that lists this one as a child. -/
  parent : Option NodeId := none
  deriving DecidableEq, Repr

/-- Nodes in the order in which they were pushed, and the chosen root. -/
structure Arena where
  /-- The nodes; a node's id is its index. -/
  nodes : Array Node := #[]
  /-- The root, where one was chosen. -/
  chosenRoot : Option NodeId := none
  deriving Inhabited

namespace Arena

/-- No nodes. -/
def empty : Arena := {}

/-- Number of nodes. -/
def size (a : Arena) : Nat := a.nodes.size

/-- Whether there are no nodes. -/
def isEmpty (a : Arena) : Bool := a.nodes.isEmpty

/-- The node with the given id. -/
def get? (a : Arena) (id : NodeId) : Option Node := a.nodes[id]?

/-- The id under which a node is listed as a child. -/
def parent? (a : Arena) (id : NodeId) : Option NodeId := (a.get? id).bind Node.parent

/-- The call at `id`, when the node there is a call. -/
def call? (a : Arena) (id : NodeId) : Option Call :=
  match (a.get? id).map Node.shape with
  | some (.send call) => some call
  | _ => none

/-- The block at `id`, when the node there is a block without implicit parameters. -/
def block? (a : Arena) (id : NodeId) : Option Block :=
  match (a.get? id).map Node.shape with
  | some (.block block) => some block
  | _ => none

/-- The children of the node at `id`; none when there is no such node. -/
def children (a : Arena) (id : NodeId) : List NodeId :=
  match a.get? id with
  | some node => node.shape.children
  | none => []

/-- Makes `parent` the parent of each listed node that exists. -/
def adopt (nodes : Array Node) (parent : NodeId) (children : List NodeId) : Array Node :=
  children.foldl (fun nodes child => nodes.modify child ({ · with parent := some parent })) nodes

/-- Appends a node and makes it the parent of its children, replacing an earlier parent.  A child
that is not in the arena gets no parent. -/
def push (a : Arena) (shape : Shape) (span : Span) : NodeId × Arena :=
  match a with
  | ⟨nodes, chosenRoot⟩ =>
      let id := nodes.size
      (id, ⟨(adopt nodes id shape.children).push { shape, span }, chosenRoot⟩)

/-- Chooses the root. -/
def setRoot (a : Arena) (root : NodeId) : Arena := { a with chosenRoot := some root }

/-- The root: the chosen one, or else the last node. -/
def root? (a : Arena) : Option NodeId :=
  match a.chosenRoot with
  | some root => some root
  | none => if a.isEmpty then none else some (a.size - 1)

/-! ## What a push does -/

@[simp] theorem size_adopt (nodes : Array Node) (parent : NodeId) (children : List NodeId) :
    (adopt nodes parent children).size = nodes.size := by
  induction children generalizing nodes with
  | nil => rfl
  | cons child rest ih =>
      rw [adopt, List.foldl_cons]
      exact (ih _).trans (Array.size_modify ..)

/-- A pushed node gets the next id. -/
@[simp] theorem push_id (a : Arena) (shape : Shape) (span : Span) :
    (a.push shape span).1 = a.size := rfl

/-- A push adds one node. -/
@[simp] theorem size_push (a : Arena) (shape : Shape) (span : Span) :
    (a.push shape span).2.size = a.size + 1 := by
  simp [push, size]

end Arena

end SpecLint
