import SpecLint.Rule

/-!
# Expectation targets

An expectation target is `expect(...)` or a bare `is_expected`.  The method chained onto it has to
be a runner; any other method is reported at its name.

```
expect(something).kind_of? Foo    -- reported
is_expected == 42                 -- reported
expect { run }.kind_of?(Proc)     -- reported
expect(something).to be_a Foo     -- accepted
```

* `Arena.isExpectation` — the calls that are expectation targets.
* `Arena.chainedOnto` — the node onto which a runner is chained.
* `Arena.offendingCall?` — the chained call, when its method is not a runner.
-/

namespace SpecLint

namespace Arena

/-- Whether `id` is `expect` with any arguments or `is_expected` without, called on nothing. -/
def isExpectation (a : Arena) (id : NodeId) : Bool :=
  match a.call? id with
  | some call =>
      call.receiver.isNone &&
        (call.method == "expect" || call.method == "is_expected" && call.arguments.isEmpty)
  | none => false

/-- Whether `id` is an empty parameter list. -/
def isEmptyParams (a : Arena) (id : NodeId) : Bool :=
  match (a.get? id).map Node.shape with
  | some (.params items) => items.isEmpty
  | _ => false

/-- Whether `block` is a block without parameters that is attached to the call `call`. -/
def isBareBlockOf (a : Arena) (block call : NodeId) : Bool :=
  match a.block? block with
  | some b => b.call == call && a.isEmptyParams b.params
  | none => false

/-- The node onto which a runner is chained: the block of `expect { ... }` when it takes no
parameters, and otherwise the call itself. -/
def chainedOnto (a : Arena) (id : NodeId) : NodeId :=
  match a.parent? id with
  | some parent => if a.isBareBlockOf parent id then parent else id
  | none => id

/-- The call whose receiver is `target`, when its method is no runner.  A call that is skipped on
nil is not a chained call. -/
def offendingCall? (a : Arena) (runners : RunnerSet) (target : NodeId) : Option Call :=
  match (a.parent? target).bind a.call? with
  | some call =>
      if !call.safe && call.receiver == some target && !runners.contains call.method then some call
      else none
  | none => none

end Arena

/-- The rule that an expectation target is followed by a runner. -/
def expectationTarget : Rule where
  name := "RSpec/ExpectationTargetMethod"
  methods := ["expect", "is_expected"]
  findings := fun context id =>
    if context.arena.isExpectation id then
      match context.arena.offendingCall? context.runners (context.arena.chainedOnto id) with
      | some call =>
          [{ span := call.selector
             message := "Use `.to`, `.not_to` or `.to_not` to set an expectation." }]
      | none => []
    else []

/-- Every rule of the linter, in the order of registration. -/
def allRules : List Rule := [expectationTarget]

end SpecLint
