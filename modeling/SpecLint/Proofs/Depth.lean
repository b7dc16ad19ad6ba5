import SpecLint.Proofs.Coverage

/-!
# How deep lowering goes and which texts it reads

Two recursions use up levels of nesting: lowering goes from a node to those of `loweredFrom`, and
declaring a target goes from a node to those nested in it.  `lowerDepth` counts both, on the
concrete tree alone.  An attached block and an argument list are levels of the tree but none of
lowering; the parameters of a block are.

* `targetDepth`, `lowerDepth` — the levels that declaring and lowering a node take.
* `lowerDepth_le_of_height_le` — never more levels than the tree has.
* `textsRead` — the nodes whose text is read when lowering comes to a node.
* `Readable` — every text that is read below a node is valid UTF-8.
-/

namespace SpecLint

/-- The largest of some depths, and 0 if there are none. -/
def deepest (depths : List Nat) : Nat := depths.foldr max 0

theorem deepest_le_iff {depths : List Nat} {k : Nat} :
    deepest depths ≤ k ↔ ∀ d ∈ depths, d ≤ k := by
  induction depths with
  | nil => simp [deepest]
  | cons d depths ih =>
      rw [List.forall_mem_cons, ← ih]
      exact Nat.max_le

namespace Concrete

/-- The number of levels of a tree. -/
def height (n : Concrete) : Nat := deepest (n.children.map height) + 1
termination_by sizeOf n
decreasing_by
  rename_i h
  exact sizeOf_lt_of_mem_children h

theorem height_lt_of_mem_children {n c : Concrete} (h : c ∈ n.children) : c.height < n.height := by
  rw [height.eq_def n]
  exact Nat.lt_succ_of_le (deepest_le_iff.1 (Nat.le_refl _) _ (List.mem_map_of_mem h))

theorem not_height_le_zero {n : Concrete} : ¬n.height ≤ 0 := by
  rw [height]
  exact Nat.not_succ_le_zero _

end Concrete

namespace Lowering

variable {source : ByteArray} {root n p : Concrete} {k : Nat}

/-! ## Levels of nesting -/

/-- The nodes that are declared with the target `n`. -/
def nestedTargets (n : Concrete) : List Concrete :=
  if n.role ≠ .identifier ∧ n.isBinding then n.parts ["value"] else []

theorem mem_children_of_mem_nestedTargets {c : Concrete} (h : c ∈ nestedTargets n) :
    c ∈ n.children := by
  unfold nestedTargets at h
  split at h
  · exact Concrete.mem_children_of_mem_parts h
  · simp at h

/-- The levels of nesting that declaring the target `n` takes. -/
def targetDepth (n : Concrete) : Nat :=
  deepest ((nestedTargets n).attach.map fun ⟨c, _⟩ => targetDepth c) + 1
termination_by sizeOf n
decreasing_by
  rename_i h
  exact Concrete.sizeOf_lt_of_mem_children (mem_children_of_mem_nestedTargets h)

/-- The parameters that an attached block declares. -/
def blockParameters (block : Concrete) : List Concrete :=
  (block.childByField? "parameters").toList.flatMap (·.parts [])

/-- The targets and parameters that are declared when `n` is lowered, the nodes below it left
aside. -/
def declaredFrom (n : Concrete) : List Concrete :=
  match n.role with
  | .call => (n.childByField? "block").toList.flatMap blockParameters
  | .assignment => (n.childByField? "left").toList
  | .parameterList => n.parts []
  | _ => []

/-- The levels of nesting that lowering `n` takes. -/
def lowerDepth (source : ByteArray) (n : Concrete) : Nat :=
  max (deepest ((loweredFrom source n).attach.map fun ⟨c, _⟩ => lowerDepth source c))
    (deepest ((declaredFrom n).map targetDepth)) + 1
termination_by sizeOf n
decreasing_by
  rename_i h
  exact sizeOf_lt_of_mem_agenda (lower_mem_agenda.2 h)

theorem targetDepth_le_succ : targetDepth n ≤ k + 1 ↔ ∀ c ∈ nestedTargets n, targetDepth c ≤ k := by
  rw [targetDepth, Nat.succ_le_succ_iff, deepest_le_iff, List.forall_mem_map]
  exact ⟨fun h c hc => h ⟨c, hc⟩ (List.mem_attach _ _), fun h c _ => h c.1 c.2⟩

theorem lowerDepth_le_succ : lowerDepth source n ≤ k + 1 ↔
    (∀ c ∈ loweredFrom source n, lowerDepth source c ≤ k) ∧
      ∀ c ∈ declaredFrom n, targetDepth c ≤ k := by
  rw [lowerDepth, Nat.succ_le_succ_iff, Nat.max_le, deepest_le_iff, deepest_le_iff,
    List.forall_mem_map, List.forall_mem_map]
  exact and_congr_left' ⟨fun h c hc => h ⟨c, hc⟩ (List.mem_attach _ _), fun h c _ => h c.1 c.2⟩

theorem not_targetDepth_le_zero : ¬targetDepth n ≤ 0 := by
  rw [targetDepth]
  exact Nat.not_succ_le_zero _

theorem not_lowerDepth_le_zero : ¬lowerDepth source n ≤ 0 := by
  rw [lowerDepth]
  exact Nat.not_succ_le_zero _

/-- Below depth `d` the targets that are nested in one are another level down. -/
theorem add_targetDepth_le_iff {d : Nat} : d + targetDepth n ≤ k ↔
    d < k ∧ ∀ c ∈ nestedTargets n, d + 1 + targetDepth c ≤ k := by
  rcases Nat.lt_or_ge d k with hlt | hge
  · obtain ⟨j, rfl⟩ : ∃ j, k = d + (j + 1) := ⟨k - d - 1, by omega⟩
    have hbelow (depth : Nat) : d + 1 + depth ≤ d + (j + 1) ↔ depth ≤ j := by omega
    simp only [hbelow, Nat.add_le_add_iff_left, targetDepth_le_succ, hlt, true_and]
  · constructor
    · intro h
      exact absurd (show targetDepth n ≤ 0 by omega) not_targetDepth_le_zero
    · rintro ⟨hlt, -⟩
      exact absurd hlt (Nat.not_lt.2 hge)

/-- Below depth `d` all that is lowered and declared for a node is another level down. -/
theorem add_lowerDepth_le_iff {d : Nat} : d + lowerDepth source n ≤ k ↔
    d < k ∧ (∀ c ∈ loweredFrom source n, d + 1 + lowerDepth source c ≤ k) ∧
      ∀ c ∈ declaredFrom n, d + 1 + targetDepth c ≤ k := by
  rcases Nat.lt_or_ge d k with hlt | hge
  · obtain ⟨j, rfl⟩ : ∃ j, k = d + (j + 1) := ⟨k - d - 1, by omega⟩
    have hbelow (depth : Nat) : d + 1 + depth ≤ d + (j + 1) ↔ depth ≤ j := by omega
    simp only [hbelow, Nat.add_le_add_iff_left, lowerDepth_le_succ, hlt, true_and]
  · constructor
    · intro h
      exact absurd (show lowerDepth source n ≤ 0 by omega) not_lowerDepth_le_zero
    · rintro ⟨hlt, -⟩
      exact absurd hlt (Nat.not_lt.2 hge)

/-! ### The depth is bounded by the height -/

theorem height_lt_of_mem_nestedTargets {c : Concrete} (h : c ∈ nestedTargets n) :
    c.height < n.height :=
  Concrete.height_lt_of_mem_children (mem_children_of_mem_nestedTargets h)

theorem height_lt_of_mem_loweredFrom {c : Concrete} (h : c ∈ loweredFrom source n) :
    c.height < n.height := by
  rcases mem_children_of_mem_agenda (lower_mem_agenda.2 h) with hc | ⟨between, hbetween, hc⟩
  · exact Concrete.height_lt_of_mem_children hc
  · exact Nat.lt_trans (Concrete.height_lt_of_mem_children hc)
      (Concrete.height_lt_of_mem_children hbetween)

theorem height_lt_of_mem_blockParameters {block c : Concrete} (h : c ∈ blockParameters block) :
    c.height < block.height := by
  obtain ⟨params, hparams, hc⟩ := List.mem_flatMap.1 h
  exact Nat.lt_trans
    (Concrete.height_lt_of_mem_children (Concrete.mem_children_of_mem_parts hc))
    (Concrete.height_lt_of_mem_children
      (Concrete.mem_children_of_childByField? (Option.mem_toList.1 hparams)))

theorem height_lt_of_mem_declaredFrom {c : Concrete} (h : c ∈ declaredFrom n) :
    c.height < n.height := by
  unfold declaredFrom at h
  split at h
  · obtain ⟨block, hblock, hc⟩ := List.mem_flatMap.1 h
    exact Nat.lt_trans (height_lt_of_mem_blockParameters hc)
      (Concrete.height_lt_of_mem_children
        (Concrete.mem_children_of_childByField? (Option.mem_toList.1 hblock)))
  · exact Concrete.height_lt_of_mem_children
      (Concrete.mem_children_of_childByField? (Option.mem_toList.1 h))
  · exact Concrete.height_lt_of_mem_children (Concrete.mem_children_of_mem_parts h)
  · simp at h

theorem targetDepth_le_of_height_le (h : n.height ≤ k) : targetDepth n ≤ k := by
  induction k generalizing n with
  | zero => exact absurd h Concrete.not_height_le_zero
  | succ k ih =>
      refine targetDepth_le_succ.2 fun c hc => ih ?_
      have := height_lt_of_mem_nestedTargets hc
      omega

/-- **Lowering takes no more levels than the tree has.** -/
theorem lowerDepth_le_of_height_le (h : n.height ≤ k) : lowerDepth source n ≤ k := by
  induction k generalizing n with
  | zero => exact absurd h Concrete.not_height_le_zero
  | succ k ih =>
      refine lowerDepth_le_succ.2 ⟨fun c hc => ih ?_, fun c hc => targetDepth_le_of_height_le ?_⟩
      · have := height_lt_of_mem_loweredFrom hc
        omega
      · have := height_lt_of_mem_declaredFrom hc
        omega

/-! ## Texts -/

/-- The nodes below `n` whose text names the method that `n` calls, and `n` itself if it is a
name. -/
def namesRead (n : Concrete) : List Concrete :=
  match n.role with
  | .call => (n.childByField? "method").toList
  | .identifier => [n]
  | .binary =>
      match n.childByField? "left", n.childByField? "operator", n.childByField? "right" with
      | some _, some operator, some _ => [operator]
      | _, _, _ => []
  | .unary =>
      match n.childByField? "operator", n.childByField? "operand" with
      | some operator, some _ => [operator]
      | _, _ => []
  | _ => []

/-- The nodes whose text is read when lowering comes to `n`: the names that it resolves or calls and
the names that it declares. -/
def textsRead (n : Concrete) : List Concrete := namesRead n ++ (declaredFrom n).flatMap targets

/-- Whether the text of every node of `ns` is valid UTF-8. -/
def Valid (source : ByteArray) (ns : List Concrete) : Prop :=
  ∀ t ∈ ns, (t.text? source).isSome

theorem valid_nil : Valid source [] := List.forall_mem_nil _

theorem valid_singleton : Valid source [n] ↔ (n.text? source).isSome := List.forall_mem_singleton

theorem valid_append {ns ms : List Concrete} :
    Valid source (ns ++ ms) ↔ Valid source ns ∧ Valid source ms :=
  List.forall_mem_append

theorem valid_flatMap {ns : List Concrete} {f : Concrete → List Concrete} :
    Valid source (ns.flatMap f) ↔ ∀ c ∈ ns, Valid source (f c) :=
  List.forall_mem_flatMap

/-- Whether every text that lowering reads in the subtree of `n` is valid UTF-8. -/
def Readable (source : ByteArray) (n : Concrete) : Prop :=
  ∀ p, Reached source n p → Valid source (textsRead p)

/-- What is reached takes no more levels. -/
theorem lowerDepth_le_of_reached (h : Reached source n p) (hn : lowerDepth source n ≤ k) :
    lowerDepth source p ≤ k := by
  induction h with
  | root => exact hn
  | lowered _ hc ih =>
      cases k with
      | zero => exact absurd ih not_lowerDepth_le_zero
      | succ k => exact Nat.le_succ_of_le ((lowerDepth_le_succ.1 ih).1 _ hc)

theorem Readable.of_reached (h : Readable source n) (hp : Reached source n p) :
    Readable source p :=
  fun q hq => h q (hp.trans hq)

theorem readable_iff : Readable source n ↔
    (Valid source (namesRead n) ∧ ∀ c ∈ declaredFrom n, Valid source (targets c)) ∧
      ∀ c ∈ loweredFrom source n, Readable source c := by
  rw [← valid_flatMap, ← valid_append]
  constructor
  · intro h
    exact ⟨h n .root, fun c hc p hp => h p (reached_iff.2 (Or.inr ⟨c, hc, hp⟩))⟩
  · rintro ⟨hn, hbelow⟩ p hp
    rcases reached_iff.1 hp with rfl | ⟨c, hc, hp⟩
    · exact hn
    · exact hbelow c hc p hp

end Lowering

end SpecLint
