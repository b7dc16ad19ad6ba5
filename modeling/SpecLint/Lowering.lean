import SpecLint.Arena
import SpecLint.Concrete

/-!
# Lowering concrete syntax into an arena

Lowering keeps the calls of a source file and the places where they stand:

* a `call` becomes a send; an attached block wraps the send in a block node;
* operators (`a == b`, `!a`, `a[i]`) become sends with the operator as their selector;
* a bare identifier is a send, unless it names a local variable of the current scope;
* a parameterless block whose body reads `it` or `_1` to `_9` takes implicit parameters;
* everything else is kept as a node of no particular shape, so that nested calls are reached.

Nodes are pushed from the leaves up, and every child is lowered before its parent is pushed.  The
work is done in `LowerM`, which keeps its state also when it fails: scopes, block frames and levels
that were entered are left again on every way out.  Nesting is bounded by `maxLevels`, which the
depth of the state is held against.  Each function that goes down also takes a number of levels that
bounds its recursion; together with the depth `maxLevels` of them suffice, and a state that has no
level left refuses first.
-/

namespace SpecLint.Lowering

/-- Why a source file cannot be lowered. -/
inductive Failure where
  /-- A name that has to be read is not valid UTF-8. -/
  | nameNotUtf8
  /-- The syntax is nested deeper than `maxLevels`. -/
  | nestedTooDeep
  /-- The source is longer than a 32-bit offset can say. -/
  | sourceTooLong
  deriving DecidableEq, Repr

/-- Deepest nesting that is lowered. -/
def maxLevels : Nat := 256

/-- Longest source that is lowered, in bytes. -/
def maxSourceSize : Nat := 4294967295

/-- The text of a failure. -/
def Failure.message : Failure → String
  | .nameNotUtf8 => "Parse failure: Non-UTF-8 identifier"
  | .nestedTooDeep => "Nesting too deep: exceeds 256 levels"
  | .sourceTooLong => "Byte range overflow: file size exceeds 4GB limit"

/-! ## Spans of concrete nodes -/

/-- The span from the start of `n` to the byte offset `stop`. -/
def spanUntil (n : Concrete) (stop : Nat) : Span where
  startByte := n.startByte.toUInt32
  endByte := stop.toUInt32
  line := n.row.toUInt32 + 1
  column := n.column.toUInt32 + 1

/-- The extent of `n`. -/
def spanOf (n : Concrete) : Span := spanUntil n n.endByte

/-! ## Scopes and block frames -/

/-- The local variables visible in a scope. -/
abbrev Scope := List String

/-- What a block may do with implicit parameters. -/
inductive Frame where
  /-- The block cannot take implicit parameters. -/
  | barred
  /-- The block may take implicit parameters, and has or has not read one. -/
  | allowed (used : Bool)
  deriving DecidableEq, Repr

/-- The nodes pushed so far and the names and blocks around the current node. -/
structure State where
  /-- The nodes pushed so far. -/
  arena : Arena := {}
  /-- The scopes around the current node, the innermost first. -/
  scopes : List Scope := [[]]
  /-- The frames of the blocks around the current node, the innermost first. -/
  frames : List Frame := []
  /-- The number of levels around the current node. -/
  depth : Nat := 0

namespace State

/-- Whether `name` is a local variable here. -/
def isLocal (s : State) (name : String) : Bool :=
  match s.scopes with
  | scope :: _ => scope.contains name
  | [] => false

/-- Adds a local variable to the innermost scope. -/
def declare (s : State) (name : String) : State :=
  match s with
  | ⟨arena, scope :: outer, frames, depth⟩ => ⟨arena, scope.insert name :: outer, frames, depth⟩
  | s => s

/-- Opens a scope, which starts with the variables around it or with none. -/
def openScope (s : State) (inherit : Bool) : State :=
  { s with scopes := (if inherit then s.scopes.headD [] else []) :: s.scopes }

/-- Closes the innermost scope. -/
def closeScope (s : State) : State := { s with scopes := s.scopes.tail }

/-- Opens the frame of a block. -/
def openFrame (s : State) (frame : Frame) : State := { s with frames := frame :: s.frames }

/-- Closes the innermost frame. -/
def closeFrame (s : State) : State := { s with frames := s.frames.tail }

/-- The innermost frame. -/
def frame (s : State) : Frame := s.frames.headD .barred

/-- Enters a level. -/
def descend (s : State) : State := { s with depth := s.depth + 1 }

/-- Leaves a level. -/
def ascend (s : State) : State := { s with depth := s.depth - 1 }

/-- Notes that the innermost block reads an implicit parameter, if it may take one. -/
def useImplicit (s : State) : State :=
  match s with
  | ⟨arena, scopes, .allowed _ :: outer, depth⟩ => ⟨arena, scopes, .allowed true :: outer, depth⟩
  | s => s

/-- Appends a node to the arena. -/
def push (s : State) (shape : Shape) (span : Span) : NodeId × State :=
  match s with
  | ⟨arena, scopes, frames, depth⟩ =>
      let (id, arena) := arena.push shape span
      (id, ⟨arena, scopes, frames, depth⟩)

end State

/-- Computations of lowering.  A failure keeps the state in which it arose. -/
abbrev LowerM := ExceptT Failure (StateM State)

/-- Appends a node to the arena and returns its id. -/
def push (shape : Shape) (span : Span) : LowerM NodeId := modifyGet (·.push shape span)

/-- Runs `act` in a scope of its own, which is closed also when `act` fails. -/
def inScope {α : Type} (inherit : Bool) (act : LowerM α) : LowerM α := ExceptT.mk do
  modify (·.openScope inherit)
  let result ← act.run
  modify State.closeScope
  return result

/-- Runs `act` in a block frame of its own, which is closed also when `act` fails, and returns
what has become of the frame. -/
def inFrame {α : Type} (frame : Frame) (act : LowerM α) : LowerM (α × Frame) := ExceptT.mk do
  modify (·.openFrame frame)
  let result ← act.run
  let last := (← get).frame
  modify State.closeFrame
  return result.map (·, last)

/-- Runs `act` one level further down, where that is not too deep.  The level is left also when
`act` fails. -/
def inLevel {α : Type} (act : LowerM α) : LowerM α := ExceptT.mk do
  if maxLevels ≤ (← get).depth then
    return .error .nestedTooDeep
  modify State.descend
  let result ← act.run
  modify State.ascend
  return result

/-- The source text of `n`, which has to be valid UTF-8. -/
def textOf (source : ByteArray) (n : Concrete) : LowerM String :=
  match n.text? source with
  | some text => pure text
  | none => throw .nameNotUtf8

/-! ## Declaring local variables -/

/-- Declares the local variables that an assignment target or a parameter binds. -/
def declareTargets (source : ByteArray) (levels : Nat) (n : Concrete) : LowerM Unit :=
  match levels with
  | 0 => throw .nestedTooDeep
  | levels + 1 => inLevel do
      if n.role = .identifier then
        let name ← textOf source n
        modify (·.declare name)
      else if n.isBinding then
        (n.parts ["value"]).forM (declareTargets source levels)

/-! ## Lowering one node

Each function below lowers a node of one role.  It takes `lower` and `declare`, the functions that
lower a node and declare a target one level further down. -/

section OneNode

variable (source : ByteArray) (lower : Concrete → LowerM NodeId) (declare : Concrete → LowerM Unit)

/-- Keeps a node of no particular shape and lowers its parts.  The name of a definition is left
out. -/
def lowerPlain (n : Concrete) : LowerM NodeId := do
  let children ← (n.parts ["name"]).mapM lower
  push (.other n.kind children) (spanOf n)

/-- Lowers statements in a row. -/
def lowerSequence (n : Concrete) : LowerM NodeId := do
  let items ← (n.parts []).mapM lower
  push (.sequence items) (spanOf n)

/-- Declares one parameter and keeps it as a node without children. -/
def lowerParameter (n : Concrete) : LowerM NodeId := do
  declare n
  push (.other n.kind []) (spanOf n)

/-- Lowers a parameter list. -/
def lowerParameters (n : Concrete) : LowerM NodeId := do
  let items ← (n.parts []).mapM (lowerParameter declare)
  push (.params items) (spanOf n)

/-- Lowers an assignment.  Its targets are local variables from here on, the right-hand side
included. -/
def lowerAssignment (n : Concrete) : LowerM NodeId := do
  if let some target := n.childByField? "left" then
    declare target
  lowerPlain lower n

/-- Lowers a block or lambda that is not attached to a call. -/
def lowerClosure (n : Concrete) : LowerM NodeId := do
  let (id, _) ← inFrame .barred (inScope true (lowerPlain lower n))
  return id

/-- Whether `name` is `it` or one of `_1` to `_9`. -/
def isImplicitParameter (name : String) : Bool :=
  ["it", "_1", "_2", "_3", "_4", "_5", "_6", "_7", "_8", "_9"].contains name

/-- Lowers a bare identifier: a read of a local variable, or else a call without receiver and
arguments, which may use an implicit parameter of the block around it. -/
def lowerIdentifier (n : Concrete) : LowerM NodeId := do
  let name ← textOf source n
  if (← get).isLocal name then
    push (.localRead name) (spanOf n)
  else
    if isImplicitParameter name then
      modify State.useImplicit
    push (.send { receiver := none, method := name, arguments := [], selector := spanOf n })
      (spanOf n)

/-- Binary operators that steer control flow and call no method. -/
def logicalOperators : List String := ["and", "or", "&&", "||"]

/-- Lowers an operator between two operands. -/
def lowerBinary (n : Concrete) : LowerM NodeId :=
  match n.childByField? "left", n.childByField? "operator", n.childByField? "right" with
  | some left, some operator, some right => do
      let method ← textOf source operator
      if logicalOperators.contains method then
        lowerPlain lower n
      else
        let receiver ← lower left
        let argument ← lower right
        push (.send { receiver := some receiver, method, arguments := [argument],
                      selector := spanOf operator }) (spanOf n)
  | _, _, _ => lowerPlain lower n

/-- The method that an operator before one operand calls; `defined?` calls none. -/
def unaryMethod? (operator : String) : Option String :=
  if operator = "!" ∨ operator = "not" then some "!"
  else if operator = "-" then some "-@"
  else if operator = "+" then some "+@"
  else if operator = "~" then some "~"
  else none

/-- Lowers an operator before one operand. -/
def lowerUnary (n : Concrete) : LowerM NodeId :=
  match n.childByField? "operator", n.childByField? "operand" with
  | some operator, some operand => do
      match unaryMethod? (← textOf source operator) with
      | some method =>
          let receiver ← lower operand
          push (.send { receiver := some receiver, method, arguments := [],
                        selector := spanOf operator }) (spanOf n)
      | none => lowerPlain lower n
  | _, _ => lowerPlain lower n

/-- Lowers an element access.  The selector runs from the opening bracket to the end. -/
def lowerElement (n : Concrete) : LowerM NodeId :=
  match n.childByField? "object" with
  | some object => do
      let receiver ← lower object
      let arguments ← (n.parts ["object"]).mapM lower
      let selector := match n.token? "[" with
        | some bracket => spanUntil bracket n.endByte
        | none => spanOf n
      push (.send { receiver := some receiver, method := "[]", arguments, selector }) (spanOf n)
  | none => lowerPlain lower n

/-- Lowers the parameter list of an attached block; without one, an empty list stands at the start
of the block. -/
def lowerBlockParams (block : Concrete) : LowerM NodeId :=
  match block.childByField? "parameters" with
  | some params => lowerParameters declare params
  | none => push (.params []) (spanUntil block block.startByte)

/-- Lowers the statements of an attached block. -/
def lowerBlockBody (block : Concrete) : LowerM (Option NodeId) :=
  match block.childByField? "body" with
  | some body => do
      let id ← lower body
      return some id
  | none => do
      let items ← (block.parts ["parameters"]).mapM lower
      if items.isEmpty then
        return none
      else
        let id ← push (.sequence items) (spanOf block)
        return some id

/-- The frame with which an attached block starts: explicit parameters bar implicit ones. -/
def startFrame (block : Concrete) : Frame :=
  if (block.childByField? "parameters").isSome then .barred else .allowed false

/-- Lowers a block that is attached to the call `call` and wraps the two in one node. -/
def lowerAttachedBlock (call : NodeId) (block : Concrete) (span : Span) : LowerM NodeId := do
  let ((params, body), frame) ← inFrame (startFrame block) <| inScope true do
    let params ← lowerBlockParams declare block
    let body ← lowerBlockBody lower block
    return (params, body)
  if frame = .allowed true then
    push (.numBlock { call, params, body }) span
  else
    push (.block { call, params, body }) span

/-- Lowers the receiver of a call, if it has one. -/
def lowerReceiver (n : Concrete) : LowerM (Option NodeId) :=
  match n.childByField? "receiver" with
  | some receiver => do
      let id ← lower receiver
      return some id
  | none => return none

/-- The method of a call and the place of its name.  In `recv.()` the method is `call` and the dot
stands in for its name. -/
def calledMethod (n : Concrete) : LowerM (String × Span) :=
  match n.childByField? "method" with
  | some method => do
      let name ← textOf source method
      return (name, spanOf method)
  | none => return ("call", spanOf (((n.token? ".").or (n.token? "&.")).getD n))

/-- Lowers the arguments of a call. -/
def lowerArguments (n : Concrete) : LowerM (List NodeId) :=
  match n.childByField? "arguments" with
  | some arguments => (arguments.parts []).mapM lower
  | none => return []

/-- Where a call ends when its block is left aside: after its arguments or its name. -/
def callEnd (n : Concrete) : Nat :=
  (((n.childByField? "arguments").or (n.childByField? "method")).getD n).endByte

/-- Lowers a call, and the block attached to it. -/
def lowerCall (n : Concrete) : LowerM NodeId := do
  let receiver ← lowerReceiver lower n
  let (method, selector) ← calledMethod source n
  let arguments ← lowerArguments lower n
  let safe := (n.token? "&.").isSome
  let call ← push (.send { receiver, method, arguments, selector, safe })
    (spanUntil n (callEnd n))
  match n.childByField? "block" with
  | some block => lowerAttachedBlock lower declare call block (spanOf n)
  | none => return call

/-- Lowers a node by its role. -/
def lowerNode (n : Concrete) : LowerM NodeId :=
  match n.role with
  | .call => lowerCall source lower declare n
  | .identifier => lowerIdentifier source n
  | .binary => lowerBinary source lower n
  | .unary => lowerUnary source lower n
  | .element => lowerElement lower n
  | .assignment => lowerAssignment lower declare n
  | .closure => lowerClosure lower n
  | .sequence => lowerSequence lower n
  | .parameterList => lowerParameters declare n
  | .definition => inScope false (lowerPlain lower n)
  | .plain => lowerPlain lower n

end OneNode

/-! ## Lowering a source file -/

/-- Lowers a node and its subtree. -/
def lower (source : ByteArray) (levels : Nat) (n : Concrete) : LowerM NodeId :=
  match levels with
  | 0 => throw .nestedTooDeep
  | levels + 1 =>
      inLevel (lowerNode source (lower source levels) (declareTargets source levels) n)

/-- A grammar: what makes the concrete syntax tree of a source file. -/
abbrev Grammar := ByteArray → Concrete

/-- The arena of a source file.  An empty file has an empty arena. -/
def arenaOf (grammar : Grammar) (source : ByteArray) : Except Failure Arena :=
  if source.size > maxSourceSize then
    .error .sourceTooLong
  else if source.isEmpty then
    .ok {}
  else
    match (lower source maxLevels (grammar source)).run {} with
    | (.ok root, s) => .ok (s.arena.setRoot root)
    | (.error failure, _) => .error failure

end SpecLint.Lowering
