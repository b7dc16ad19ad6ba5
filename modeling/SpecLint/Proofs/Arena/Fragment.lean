import SpecLint.Proofs.Arena.Forest

/-!
# Fragments of an arena

A fragment is an arena of its own whose nodes stand in a larger one behind some others.  The nodes
are the same up to their ids, which are all raised by the number of nodes in front.

* `Shape.moved`, `Node.moved` — a shape and a node with every id raised.
* `Arena.Extends` — an arena that consists of a base and a fragment behind it.
* `Extends.push` — **pushing commutes with moving**: a push behind the base is a push in the
  fragment.
* `Arena.Holds` — a tree that stands somewhere in a larger arena, the link of its root left open.
-/

namespace SpecLint

/-- A call with every id raised by `k`. -/
def Call.moved (k : Nat) (call : Call) : Call :=
  { call with
    receiver := call.receiver.map (k + ·)
    arguments := call.arguments.map (k + ·) }

/-- A block with every id raised by `k`. -/
def Block.moved (k : Nat) (block : Block) : Block where
  call := k + block.call
  params := k + block.params
  body := block.body.map (k + ·)

/-- A shape with every id raised by `k`. -/
def Shape.moved (k : Nat) : Shape → Shape
  | .send call => .send (call.moved k)
  | .block b => .block (b.moved k)
  | .numBlock b => .numBlock (b.moved k)
  | .params items => .params (items.map (k + ·))
  | .sequence items => .sequence (items.map (k + ·))
  | .localRead name => .localRead name
  | .other kind children => .other kind (children.map (k + ·))

/-- A node with every id raised by `k`. -/
def Node.moved (k : Nat) (node : Node) : Node where
  shape := node.shape.moved k
  span := node.span
  parent := node.parent.map (k + ·)

@[simp] theorem Shape.children_moved (k : Nat) (shape : Shape) :
    (shape.moved k).children = shape.children.map (k + ·) := by
  cases shape with
  | send call => cases hreceiver : call.receiver <;> simp [moved, children, Call.moved, hreceiver]
  | block block | numBlock block =>
      cases hbody : block.body <;> simp [moved, children, Block.moved, hbody]
  | params | sequence | localRead | other => simp [moved, children]

theorem mem_map_add {k i : Nat} {ids : List NodeId} : k + i ∈ ids.map (k + ·) ↔ i ∈ ids := by
  simp [List.mem_map]

namespace Arena

/-- `a` consists of the nodes of `base` and behind them those of `fragment`. -/
structure Extends (base a fragment : Arena) : Prop where
  /-- Number of nodes. -/
  size : a.size = base.size + fragment.size
  /-- The nodes of the base have not changed. -/
  old : ∀ id, id < base.size → a.get? id = base.get? id
  /-- The nodes of the fragment. -/
  new : ∀ i, a.get? (base.size + i) = (fragment.get? i).map (Node.moved base.size)

namespace Extends

variable {base a fragment : Arena}

theorem refl (base : Arena) : base.Extends base {} where
  size := rfl
  old _ _ := rfl
  new _ := get?_eq_none (Nat.le_add_right _ _)

/-- **A push behind the base is a push in the fragment.** -/
theorem push (h : base.Extends a fragment) (shape : Shape) (span : Span) :
    base.Extends (a.push (shape.moved base.size) span).2 (fragment.push shape span).2 where
  size := by
    rw [size_push, size_push, h.size, Nat.add_assoc]
  old := by
    intro id hid
    rw [get?_push_of_lt a _ span (h.size ▸ Nat.lt_of_lt_of_le hid (Nat.le_add_right _ _)), if_neg,
      h.old id hid]
    intro hmem
    obtain ⟨c, -, rfl⟩ := List.mem_map.1 (Shape.children_moved _ _ ▸ hmem)
    omega
  new := by
    intro i
    rcases Nat.lt_trichotomy i fragment.size with hlt | rfl | hgt
    · have hid : base.size + i < a.size := h.size ▸ Nat.add_lt_add_left hlt _
      rw [get?_push_of_lt fragment shape span hlt, get?_push_of_lt a _ span hid, h.new, h.size,
        Shape.children_moved]
      by_cases hmem : i ∈ shape.children
      · rw [if_pos hmem, if_pos (mem_map_add.2 hmem), Option.map_map, Option.map_map]
        rfl
      · rw [if_neg hmem, if_neg (mt mem_map_add.1 hmem)]
    · rw [get?_push_size, ← h.size, get?_push_size]
      rfl
    · rw [get?_eq_none (by rw [size_push, h.size]; omega), get?_eq_none (by rw [size_push]; omega)]
      rfl

end Extends

/-! ## A tree inside of an arena -/

/-- `fragment` is a tree that stands in `a` behind `k` other nodes.  The link of its root is left
open. -/
structure Holds (a : Arena) (k : Nat) (fragment : Arena) : Prop where
  /-- Shapes and spans. -/
  nodes : ∀ i, i < fragment.size →
    a.form? (k + i) = (fragment.form? i).map fun form => (form.1.moved k, form.2)
  /-- The links below the root. -/
  links : ∀ i p, fragment.parent? i = some p → a.parent? (k + i) = some (k + p)

theorem lt_size_of_parent? {a : Arena} {id p : NodeId} (h : a.parent? id = some p) :
    id < a.size := by
  obtain ⟨node, hnode, -⟩ := Option.bind_eq_some_iff.1 h
  exact (Array.getElem?_eq_some_iff.1 hnode).1

/-- The links of a tree in post-order lead to nodes that list the child. -/
theorem Forest.mem_children_of_parent? {a : Arena} {root id p : NodeId}
    (h : a.Forest none 0 a.size [root]) (hp : a.parent? id = some p) :
    id ∈ a.children p ∧ id < p ∧ p < a.size := by
  obtain ⟨-, hroot | ⟨q, hlt, hq, hmem⟩⟩ := h.listed (Nat.zero_le id) (lt_size_of_parent? hp)
  · rw [h.parent?_root hroot] at hp
    cases hp
  · obtain ⟨hlink, -, -⟩ := h.parent_of_mem_children (Nat.zero_le q) hq hmem
    obtain rfl : q = p := Option.some.inj (hlink.symm.trans hp)
    exact ⟨hmem, hlt, hq⟩

/-- Where shapes and spans are those of a tree, so are the links. -/
theorem Forest.holds {a fragment : Arena} {root root' k : Nat}
    (h : a.Forest none 0 a.size [root]) (hfragment : fragment.Forest none 0 fragment.size [root'])
    (nodes : ∀ i, i < fragment.size →
      a.form? (k + i) = (fragment.form? i).map fun form => (form.1.moved k, form.2)) :
    a.Holds k fragment := by
  refine ⟨nodes, fun i p hp => ?_⟩
  obtain ⟨hmem, -, hlt⟩ := hfragment.mem_children_of_parent? hp
  obtain ⟨node, hnode⟩ := (hfragment.listed (Nat.zero_le p) hlt).1
  have hform : fragment.form? p = some (node.shape, node.span) := by rw [form?, hnode]; rfl
  have hmoved := nodes p hlt
  rw [hform, Option.map_some] at hmoved
  have hchild : k + i ∈ a.children (k + p) := by
    rw [children_of_form? hmoved, Shape.children_moved, mem_map_add, ← children_eq hnode]
    exact hmem
  exact (h.parent_of_mem_children (Nat.zero_le _) (lt_size_of_form? hmoved) hchild).1

namespace Holds

variable {a fragment : Arena} {k i : Nat}

theorem shape (h : a.Holds k fragment) (hi : i < fragment.size) :
    (a.get? (k + i)).map Node.shape = ((fragment.get? i).map Node.shape).map (Shape.moved k) := by
  rw [map_shape_get?, map_shape_get?, h.nodes i hi, Option.map_map, Option.map_map]
  rfl

theorem call? (h : a.Holds k fragment) (hi : i < fragment.size) :
    a.call? (k + i) = (fragment.call? i).map (Call.moved k) := by
  rw [Arena.call?, Arena.call?, h.shape hi]
  cases (fragment.get? i).map Node.shape with
  | none => rfl
  | some shape => cases shape <;> rfl

theorem block? (h : a.Holds k fragment) (hi : i < fragment.size) :
    a.block? (k + i) = (fragment.block? i).map (Block.moved k) := by
  rw [Arena.block?, Arena.block?, h.shape hi]
  cases (fragment.get? i).map Node.shape with
  | none => rfl
  | some shape => cases shape <;> rfl

end Holds

end Arena

end SpecLint
