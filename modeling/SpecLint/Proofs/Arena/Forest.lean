import SpecLint.Arena.Walk
import SpecLint.Proofs.Arena.Push

/-!
# Forests in post-order

Where every node is pushed right after its subtrees, the ids of an arena are the post-order of the
trees in it.  `Forest a parent lo hi ids` says so of the part between two ids: the trees with the
roots `ids`, one after the other, occupy exactly the ids from `lo` up to `hi`, each root after its
descendants, and every parent link names the node that lists the child.

* `Forest.append`, `Forest.split`, `Forest.last` — forests side by side, and where they end.
* `Forest.push` — a push over the last trees of a forest makes them one tree.
* `Forest.flatMap_postorder` — the post-order of a forest is the row of its ids.
* `Forest.parent_of_mem_children`, `Forest.listed` — the parent links and the child lists agree.
* `Forest.preorder_perm` — **the walk of such an arena visits each node once**.
-/

namespace SpecLint

namespace Arena

/-- The trees with the given roots occupy the ids from `lo` up to `hi` in post-order.  The parent
link of each root is `parent`. -/
inductive Forest (a : Arena) : Option NodeId → Nat → Nat → List NodeId → Prop where
  /-- No trees. -/
  | nil {parent : Option NodeId} {lo : Nat} : Forest a parent lo lo []
  /-- A tree whose root is `id`, and the trees after it. -/
  | cons {parent : Option NodeId} {lo hi id : Nat} {ids : List NodeId} {node : Node}
      (get : a.get? id = some node) (link : node.parent = parent)
      (below : Forest a (some id) lo id node.shape.children)
      (rest : Forest a parent (id + 1) hi ids) : Forest a parent lo hi (id :: ids)

theorem children_eq {a : Arena} {id : NodeId} {node : Node} (h : a.get? id = some node) :
    a.children id = node.shape.children := by
  rw [children, h]

namespace Forest

variable {a b : Arena} {parent : Option NodeId} {lo mid hi : Nat} {ids : List NodeId}

theorem le (h : Forest a parent lo hi ids) : lo ≤ hi := by
  induction h with
  | nil => exact Nat.le_refl _
  | cons _ _ _ _ ihbelow ihrest => omega

/-- The roots of a forest lie between its bounds. -/
theorem bounds (h : Forest a parent lo hi ids) {id : Nat} (hid : id ∈ ids) : lo ≤ id ∧ id < hi := by
  induction h with
  | nil => simp at hid
  | cons _ _ below rest _ ihrest =>
      have hbelow := below.le
      have hrest := rest.le
      rcases List.mem_cons.1 hid with rfl | hid
      · omega
      · obtain ⟨hlo, hhi⟩ := ihrest hid
        exact ⟨by omega, hhi⟩

/-- The roots of a forest are listed in ascending order. -/
theorem pairwise (h : Forest a parent lo hi ids) : ids.Pairwise (· < ·) := by
  induction h with
  | nil => exact List.Pairwise.nil
  | cons _ _ _ rest _ ihrest =>
      exact List.pairwise_cons.2 ⟨fun id hid => (rest.bounds hid).1, ihrest⟩

theorem nodup (h : Forest a parent lo hi ids) : ids.Nodup :=
  h.pairwise.imp fun hlt => Nat.ne_of_lt hlt

/-- A forest depends on the nodes between its bounds only. -/
theorem congr (h : Forest a parent lo hi ids)
    (hget : ∀ id : Nat, lo ≤ id → id < hi → b.get? id = a.get? id) :
    Forest b parent lo hi ids := by
  induction h with
  | nil => exact nil
  | cons get link below rest ihbelow ihrest =>
      have hbelow := below.le
      have hrest := rest.le
      refine cons ?_ link (ihbelow fun id hlo hhi => hget id hlo (by omega))
        (ihrest fun id hlo hhi => hget id (by omega) hhi)
      rw [hget _ (by omega) (by omega), get]

/-- Two forests side by side. -/
theorem append {more : List NodeId} (h : Forest a parent lo mid ids)
    (hmore : Forest a parent mid hi more) : Forest a parent lo hi (ids ++ more) := by
  induction h with
  | nil => exact hmore
  | cons get link below _ _ ihrest => exact cons get link below (ihrest hmore)

/-- A forest is cut in two where its list of roots is. -/
theorem split {more : List NodeId} (h : Forest a parent lo hi (ids ++ more)) :
    ∃ mid, Forest a parent lo mid ids ∧ Forest a parent mid hi more := by
  induction ids generalizing lo with
  | nil => exact ⟨lo, nil, h⟩
  | cons id ids ih =>
      cases h with
      | cons get link below rest =>
          obtain ⟨mid, hids, hmore⟩ := ih rest
          exact ⟨mid, cons get link below hids, hmore⟩

/-- The last root of a forest is its last node. -/
theorem last {root : Nat} (h : Forest a parent lo hi (ids ++ [root])) : root + 1 = hi := by
  obtain ⟨mid, -, hroot⟩ := h.split
  cases hroot with
  | cons _ _ _ rest =>
      cases rest with
      | nil => rfl

/-- The roots of a forest get a parent. -/
theorem relink (h : Forest a none lo hi ids) {p : NodeId}
    (hroot : ∀ id ∈ ids, b.get? id = (a.get? id).map ({ · with parent := some p }))
    (hother : ∀ id : Nat, lo ≤ id → id < hi → id ∉ ids → b.get? id = a.get? id) :
    Forest b (some p) lo hi ids := by
  generalize hnone : (none : Option NodeId) = parent at h
  induction h with
  | nil => exact nil
  | @cons parent lo hi id ids node get link below rest _ ihrest =>
      have hbelow := below.le
      have hrest := rest.le
      have hget : b.get? id = some { node with parent := some p } := by
        rw [hroot id (by simp), get]
        rfl
      refine cons hget rfl (below.congr fun id' hlo hhi => ?_) (ihrest ?_ ?_ hnone)
      · -- what lies below a root is no root
        refine hother id' hlo (by omega) fun hmem => ?_
        rcases List.mem_cons.1 hmem with rfl | hmem
        · omega
        · have := rest.bounds hmem
          omega
      · exact fun id' hid' => hroot id' (List.mem_cons_of_mem _ hid')
      · intro id' hlo hhi hid'
        refine hother id' (by omega) hhi fun hmem => ?_
        rcases List.mem_cons.1 hmem with rfl | hmem
        · omega
        · exact hid' hmem

/-- **A push makes one tree of the last trees of a forest.** -/
theorem push {shape : Shape} (span : Span)
    (h : Forest a none 0 a.size (ids ++ shape.children)) :
    Forest (a.push shape span).2 none 0 (a.push shape span).2.size (ids ++ [a.size]) := by
  obtain ⟨mid, hids, hchildren⟩ := h.split
  have hmid := hchildren.le
  rw [size_push]
  refine append (hids.congr fun id _ hhi => ?_) (cons (get?_push_size a shape span) rfl ?_ nil)
  · -- the trees before keep their roots
    rw [get?_push_of_lt a shape span (Nat.lt_of_lt_of_le hhi hmid), if_neg]
    intro hmem
    have := hchildren.bounds hmem
    omega
  · -- the new node adopts the others
    refine hchildren.relink (fun id hid => ?_) fun id _ hhi hid => ?_
    · rw [get?_push_of_lt a shape span (hchildren.bounds hid).2, if_pos hid]
    · rw [get?_push_of_lt a shape span hhi, if_neg hid]

/-! ### What a forest says about its nodes -/

/-- The parent link of each root is that of the forest. -/
theorem parent?_root (h : Forest a parent lo hi ids) {id : NodeId} (hid : id ∈ ids) :
    a.parent? id = parent := by
  induction h with
  | nil => simp at hid
  | cons get link _ _ _ ihrest =>
      rcases List.mem_cons.1 hid with rfl | hid
      · rw [parent?, get, Option.bind_some, link]
      · exact ihrest hid

/-- A listed child has the node that lists it as its parent, and was pushed before it. -/
theorem parent_of_mem_children (h : Forest a parent lo hi ids) {p c : Nat} (hlo : lo ≤ p)
    (hhi : p < hi) (hc : c ∈ a.children p) :
    a.parent? c = some p ∧ c < p ∧ (a.children p).Nodup := by
  induction h with
  | nil => omega
  | @cons parent lo hi id ids node get link below rest ihbelow ihrest =>
      rcases Nat.lt_trichotomy p id with hlt | rfl | hgt
      · exact ihbelow hlo hlt
      · rw [children_eq get] at hc ⊢
        exact ⟨below.parent?_root hc, (below.bounds hc).2, below.nodup⟩
      · exact ihrest hgt hhi

/-- Every node of a forest is a root or is listed as a child. -/
theorem listed (h : Forest a parent lo hi ids) {id : Nat} (hlo : lo ≤ id) (hhi : id < hi) :
    (∃ node, a.get? id = some node) ∧ (id ∈ ids ∨ ∃ p, id < p ∧ p < hi ∧ id ∈ a.children p) := by
  induction h with
  | nil => omega
  | @cons parent lo hi root ids node get link below rest ihbelow ihrest =>
      have hle := rest.le
      rcases Nat.lt_trichotomy id root with hlt | rfl | hgt
      · obtain ⟨hnode, hroot | ⟨p, hp, hproot, hmem⟩⟩ := ihbelow hlo hlt
        · exact ⟨hnode, Or.inr ⟨root, hlt, hle, by rwa [children_eq get]⟩⟩
        · exact ⟨hnode, Or.inr ⟨p, hp, by omega, hmem⟩⟩
      · exact ⟨⟨node, get⟩, Or.inl (List.mem_cons_self ..)⟩
      · obtain ⟨hnode, hroot | hlisted⟩ := ihrest hgt hhi
        · exact ⟨hnode, Or.inl (List.mem_cons_of_mem _ hroot)⟩
        · exact ⟨hnode, Or.inr hlisted⟩

end Forest

/-! ## Post-order and pre-order -/

/-- The ids reachable from `id`, children before parents, at most `levels` levels down. -/
def postorder (a : Arena) : Nat → NodeId → List NodeId
  | 0, id => [id]
  | levels + 1, id => (a.children id).flatMap (a.postorder levels) ++ [id]

/-- The ids reachable from `id`, parents before children, at most `levels` levels down. -/
def preorderFrom (a : Arena) : Nat → NodeId → List NodeId
  | 0, id => [id]
  | levels + 1, id => id :: (a.children id).flatMap (a.preorderFrom levels)

/-- **The post-order of a forest is the row of its ids.** -/
theorem Forest.flatMap_postorder {a : Arena} {parent : Option NodeId} {lo hi : Nat}
    {ids : List NodeId} (h : Forest a parent lo hi ids) {levels : Nat}
    (hlevels : hi - lo ≤ levels) : ids.flatMap (a.postorder levels) = List.range' lo (hi - lo) := by
  induction h generalizing levels with
  | nil => simp
  | @cons parent lo hi id ids node get link below rest ihbelow ihrest =>
      have hbelow := below.le
      have hrest := rest.le
      obtain ⟨levels, rfl⟩ : ∃ more, levels = more + 1 := ⟨levels - 1, by omega⟩
      have hlen : hi - lo = (id - lo) + 1 + (hi - (id + 1)) := by omega
      have hroot : lo + (id - lo) = id := by omega
      have hnext : lo + (id - lo + 1) = id + 1 := by omega
      calc (id :: ids).flatMap (a.postorder (levels + 1))
          = List.range' lo (id - lo) ++ [id] ++ List.range' (id + 1) (hi - (id + 1)) := by
            rw [List.flatMap_cons, postorder, children_eq get, ihbelow (by omega),
              ihrest (by omega)]
        _ = List.range' lo (hi - lo) := by
            rw [hlen, ← List.range'_append_1, ← List.range'_append_1, hroot, hnext]
            rfl

/-- Parents before children or after them: the same ids. -/
theorem preorderFrom_perm (a : Arena) (levels : Nat) (id : NodeId) :
    (a.preorderFrom levels id).Perm (a.postorder levels id) := by
  induction levels generalizing id with
  | zero => exact List.Perm.refl _
  | succ levels ih =>
      rw [preorderFrom, postorder]
      refine (List.Perm.cons id ?_).trans (List.perm_append_singleton _ _).symm
      induction a.children id with
      | nil => exact List.Perm.nil
      | cons c cs ihcs =>
          rw [List.flatMap_cons, List.flatMap_cons]
          exact (ih c).append ihcs

/-- The walk visits what is on its stack in pre-order. -/
theorem toList_walk (a : Arena) (visited : Array NodeId) (stack : List (NodeId × Nat)) :
    (a.walk visited stack).toList =
      visited.toList ++ stack.flatMap fun entry => a.preorderFrom entry.2 entry.1 := by
  fun_induction walk a visited stack with
  | case1 visited => simp
  | case2 visited id rest ih => simp [ih, preorderFrom]
  | case3 visited id levels rest ih =>
      rw [ih, List.flatMap_append, List.flatMap_map]
      simp [preorderFrom]

theorem preorder_eq_nil {a : Arena} (h : a.root? = none) : a.preorder = [] := by
  simp [preorder, h, walk]

theorem preorder_eq {a : Arena} {root : NodeId} (h : a.root? = some root) :
    a.preorder = a.preorderFrom a.size root := by
  rw [preorder, toList_walk, h]
  simp

/-- The post-order of a tree that fills the arena. -/
theorem Forest.postorder_root {a : Arena} {root : NodeId} (h : a.Forest none 0 a.size [root])
    {levels : Nat} (hlevels : a.size ≤ levels) : a.postorder levels root = List.range a.size := by
  have hrow := h.flatMap_postorder hlevels
  rwa [List.flatMap_singleton, Nat.sub_zero, ← List.range_eq_range'] at hrow

/-- The walk of a tree that fills the arena visits each node once. -/
theorem Forest.preorder_perm {a : Arena} {root : NodeId} (h : a.Forest none 0 a.size [root])
    (hroot : a.root? = some root) : a.preorder.Perm (List.range a.size) := by
  rw [preorder_eq hroot, ← h.postorder_root (Nat.le_refl _)]
  exact preorderFrom_perm a a.size root

theorem Forest.mem_preorder {a : Arena} {root : NodeId} (h : a.Forest none 0 a.size [root])
    (hroot : a.root? = some root) {id : NodeId} : id ∈ a.preorder ↔ id < a.size := by
  rw [(h.preorder_perm hroot).mem_iff, List.mem_range]

end Arena

end SpecLint
