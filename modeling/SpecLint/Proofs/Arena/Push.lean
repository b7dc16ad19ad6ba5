import SpecLint.Arena

/-!
# What a push changes

A push appends one node and sets the parent of the nodes that it lists as children.  The shape and
the span of a node that is there already never change.

* `getElem?_adopt` — the nodes after some of them were given a parent.
* `get?_push_of_lt`, `get?_push_size` — the nodes after a push, the old ones and the new one.
* `form?_push`, `children_push`, `parent?_push` — what a push does to the form, the children and the
  parent link under any id, also one without a node.
-/

namespace SpecLint

namespace Arena

theorem get?_eq_none {a : Arena} {id : NodeId} (h : a.size ≤ id) : a.get? id = none :=
  Array.getElem?_eq_none h

/-- Only nodes have children. -/
theorem lt_size_of_mem_children {a : Arena} {p c : NodeId} (h : c ∈ a.children p) : p < a.size := by
  unfold children at h
  split at h
  · rename_i node hnode
    obtain ⟨hlt, -⟩ := Array.getElem?_eq_some_iff.1 hnode
    exact hlt
  · simp at h

/-- Giving a parent to the listed nodes changes nothing else. -/
theorem getElem?_adopt (nodes : Array Node) (parent : NodeId) (children : List NodeId)
    (id : NodeId) : (adopt nodes parent children)[id]? =
      if id ∈ children then nodes[id]?.map ({ · with parent := some parent }) else nodes[id]? := by
  induction children generalizing nodes with
  | nil => simp [adopt]
  | cons child rest ih =>
      have hstep : adopt nodes parent (child :: rest) =
          adopt (nodes.modify child ({ · with parent := some parent })) parent rest := rfl
      rw [hstep, ih, Array.getElem?_modify]
      by_cases hchild : child = id
      · subst hchild
        cases nodes[child]? <;> simp
      · have hid : id ≠ child := fun h => hchild h.symm
        simp [hchild, hid]

/-- An old node after a push. -/
theorem get?_push_of_lt (a : Arena) (shape : Shape) (span : Span) {id : NodeId}
    (h : id < a.size) : (a.push shape span).2.get? id =
      if id ∈ shape.children then (a.get? id).map ({ · with parent := some a.size })
      else a.get? id := by
  obtain ⟨nodes, root⟩ := a
  have hid : id < nodes.size := h
  rw [show ((⟨nodes, root⟩ : Arena).push shape span).2.get? id =
    ((adopt nodes nodes.size shape.children).push { shape, span })[id]? from rfl,
    Array.getElem?_push_lt (by simpa using hid), ← Array.getElem?_eq_getElem, getElem?_adopt]
  rfl

/-- The new node after a push. -/
theorem get?_push_size (a : Arena) (shape : Shape) (span : Span) :
    (a.push shape span).2.get? a.size = some { shape, span } := by
  obtain ⟨nodes, root⟩ := a
  have hsize : (adopt nodes nodes.size shape.children).size = nodes.size := size_adopt ..
  rw [show ((⟨nodes, root⟩ : Arena).push shape span).2.get? (⟨nodes, root⟩ : Arena).size =
    ((adopt nodes nodes.size shape.children).push { shape, span })[nodes.size]? from rfl,
    Array.getElem?_push, if_pos hsize.symm]

/-- What stays as it is once a node has been pushed: its shape and its span. -/
def form? (a : Arena) (id : NodeId) : Option (Shape × Span) :=
  (a.get? id).map fun node => (node.shape, node.span)

theorem map_shape_get? (a : Arena) (id : NodeId) :
    (a.get? id).map Node.shape = (a.form? id).map Prod.fst := by
  rw [form?, Option.map_map]
  rfl

theorem call?_eq_some {a : Arena} {id : NodeId} {call : Call} :
    a.call? id = some call ↔ ∃ span, a.form? id = some (.send call, span) := by
  rw [call?, map_shape_get?]
  cases a.form? id with
  | none => simp
  | some form =>
      obtain ⟨shape, span⟩ := form
      cases shape <;> simp

theorem children_of_form? {a : Arena} {id : NodeId} {shape : Shape} {span : Span}
    (h : a.form? id = some (shape, span)) : a.children id = shape.children := by
  obtain ⟨node, hnode, hform⟩ := Option.map_eq_some_iff.1 h
  rw [children, hnode]
  exact congrArg Shape.children (Prod.mk.inj hform).1

theorem lt_size_of_form? {a : Arena} {id : NodeId} {form : Shape × Span}
    (h : a.form? id = some form) : id < a.size := by
  obtain ⟨node, hnode, -⟩ := Option.map_eq_some_iff.1 h
  exact (Array.getElem?_eq_some_iff.1 hnode).1

theorem form?_push_of_lt (a : Arena) (shape : Shape) (span : Span) {id : NodeId}
    (h : id < a.size) : (a.push shape span).2.form? id = a.form? id := by
  rw [form?, form?, get?_push_of_lt a shape span h]
  split
  · rw [Option.map_map]
    rfl
  · rfl

theorem form?_push_size (a : Arena) (shape : Shape) (span : Span) :
    (a.push shape span).2.form? a.size = some (shape, span) := by
  rw [form?, get?_push_size]
  rfl

/-- A push adds a node behind the others, and the others keep shape and span. -/
theorem form?_push (a : Arena) (shape : Shape) (span : Span) (id : NodeId) :
    (a.push shape span).2.form? id = if id = a.size then some (shape, span) else a.form? id := by
  rcases Nat.lt_trichotomy id a.size with hlt | rfl | hgt
  · rw [form?_push_of_lt a shape span hlt, if_neg (Nat.ne_of_lt hlt)]
  · rw [form?_push_size, if_pos rfl]
  · have hnext : (a.push shape span).2.size ≤ id := by
      rw [size_push]
      exact hgt
    rw [if_neg (Nat.ne_of_gt hgt), form?, form?, get?_eq_none hnext,
      get?_eq_none (Nat.le_of_lt hgt)]

/-- A push gives children to the new node only. -/
theorem children_push (a : Arena) (shape : Shape) (span : Span) (id : NodeId) :
    (a.push shape span).2.children id = if id = a.size then shape.children else a.children id := by
  have hform := form?_push a shape span id
  by_cases hid : id = a.size
  · rw [if_pos hid] at hform ⊢
    exact children_of_form? hform
  · rw [if_neg hid] at hform ⊢
    cases hold : a.form? id with
    | some form => rw [children_of_form? (hform.trans hold), children_of_form? hold]
    | none =>
        rw [hold] at hform
        rw [children, children, Option.map_eq_none_iff.1 hform, Option.map_eq_none_iff.1 hold]

/-- A push changes the parent links of the listed nodes that are there, and of no others. -/
theorem parent?_push (a : Arena) (shape : Shape) (span : Span) (id : NodeId) :
    (a.push shape span).2.parent? id =
      if id < a.size ∧ id ∈ shape.children then some a.size else a.parent? id := by
  rcases Nat.lt_trichotomy id a.size with hlt | rfl | hgt
  · rw [parent?, get?_push_of_lt a shape span hlt]
    by_cases hid : id ∈ shape.children
    · obtain ⟨node, hnode⟩ : ∃ node, a.get? id = some node := ⟨_, Array.getElem?_eq_getElem hlt⟩
      rw [if_pos hid, if_pos ⟨hlt, hid⟩, hnode]
      rfl
    · rw [if_neg hid, if_neg fun h => hid h.2]
      rfl
  · -- the new node has no parent, even if it lists itself
    rw [if_neg fun h => Nat.lt_irrefl _ h.1, parent?, parent?, get?_push_size,
      get?_eq_none (Nat.le_refl _)]
    rfl
  · have hnext : (a.push shape span).2.size ≤ id := by
      rw [size_push]
      exact hgt
    rw [if_neg fun h => Nat.lt_asymm hgt h.1, parent?, parent?, get?_eq_none hnext,
      get?_eq_none (Nat.le_of_lt hgt)]

end Arena

end SpecLint
