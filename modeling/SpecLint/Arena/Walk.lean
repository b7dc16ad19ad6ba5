import SpecLint.Arena

/-!
# Walking an arena

`Arena.preorder` lists the ids reachable from the root, each node before its children and children
in source order.  The walk keeps a stack of ids still to be visited.  A node that several parents
share is listed once for each way to reach it, and an id without a node is listed and has no
children.

A way down that visits no node twice is never longer than the arena, so each stacked id carries
the number of further levels that such a way may have.  The bound cuts off only walks around a
cycle, which have no end.
-/

namespace SpecLint.Arena

/-- The sum of some numbers. -/
def total : List Nat → Nat
  | [] => 0
  | n :: rest => n + total rest

theorem total_append (ns ms : List Nat) : total (ns ++ ms) = total ns + total ms := by
  induction ns with
  | nil => simp [total]
  | cons n rest ih => simp [total, ih, Nat.add_assoc]

/-- Number of visits that start from `id` when at most `levels` further levels are entered. -/
def visits (a : Arena) : Nat → NodeId → Nat
  | 0, _ => 1
  | levels + 1, id => 1 + total ((a.children id).map (visits a levels))

/-- Number of visits that start from a stack of ids. -/
def stackVisits (a : Arena) (stack : List (NodeId × Nat)) : Nat :=
  total (stack.map fun entry => a.visits entry.2 entry.1)

/-- Visits the stacked ids, the top of the stack first, after those visited already.  The children
of a visited node replace it on the stack. -/
def walk (a : Arena) (visited : Array NodeId) (stack : List (NodeId × Nat)) : Array NodeId :=
  match stack with
  | [] => visited
  | (id, 0) :: rest => a.walk (visited.push id) rest
  | (id, levels + 1) :: rest =>
      a.walk (visited.push id) ((a.children id).map (·, levels) ++ rest)
termination_by a.stackVisits stack
decreasing_by
  · simp [stackVisits, visits, total]
  · simp [stackVisits, visits, total, total_append, Function.comp_def]

/-- The ids reachable from the root, parents first and children in source order. -/
def preorder (a : Arena) : List NodeId :=
  (a.walk #[] (a.root?.toList.map (·, a.size))).toList

end SpecLint.Arena
