import SpecLint.Proofs.Replay.Nodes
import SpecLint.Proofs.Replay.Simulation

/-!
# The arena of a source file is a tree in post-order

`Arena.WellFormed` collects what a rule may rely on when it follows the links of an arena: the ids
are the post-order of one tree, parent links and child lists agree, and a block names a call and a
parameter list.  `wellFormed_arenaOf` proves it of every source that is lowered.

* `Arena.Forest.wellFormed` — what follows from the order of the nodes alone.
* `block_fields_replay` — **a block names a call and a parameter list**: the node that wraps a call
  is pushed by the agenda of that call.
-/

namespace SpecLint

/-- What holds of the links between the nodes of an arena that has the given root. -/
structure Arena.WellFormed (a : Arena) (root : NodeId) : Prop where
  /-- The root is the root of the arena. -/
  root_eq : a.root? = some root
  /-- The root is the last node. -/
  root_last : root + 1 = a.size
  /-- The post-order from the root lists all ids in ascending order. -/
  postorder_root : ∀ levels, a.size ≤ levels → a.postorder levels root = List.range a.size
  /-- The pre-order from the root lists each id once. -/
  preorder_perm : a.preorder.Perm (List.range a.size)
  /-- The root has no parent. -/
  parent_root : a.parent? root = none
  /-- Every other node is listed once, by its parent and by no other node. -/
  listed_once : ∀ id, id < a.size → id ≠ root → ∃ p, a.parent? id = some p ∧
    (a.children p).count id = 1 ∧ ∀ q, id ∈ a.children q → q = p
  /-- A child has a smaller id than its parent. -/
  child_lt : ∀ p, ∀ c ∈ a.children p, c < p
  /-- A block names a call and a parameter list. -/
  block_fields : ∀ id b, (a.get? id).map Node.shape = some (.block b) ∨
      (a.get? id).map Node.shape = some (.numBlock b) →
    (∃ call, (a.get? b.call).map Node.shape = some (.send call)) ∧
      ∃ items, (a.get? b.params).map Node.shape = some (.params items)

namespace Arena

/-- The links of an arena that holds one tree in post-order. -/
theorem Forest.wellFormed {a : Arena} {root : NodeId} (h : a.Forest none 0 a.size [root])
    (hroot : a.root? = some root)
    (hblock : ∀ id b, (a.get? id).map Node.shape = some (.block b) ∨
        (a.get? id).map Node.shape = some (.numBlock b) →
      (∃ call, (a.get? b.call).map Node.shape = some (.send call)) ∧
        ∃ items, (a.get? b.params).map Node.shape = some (.params items)) :
    a.WellFormed root := by
  have hlast : root + 1 = a.size := @Forest.last a none 0 a.size [] root h
  have hchild {p c : NodeId} (hc : c ∈ a.children p) :
      a.parent? c = some p ∧ c < p ∧ (a.children p).Nodup :=
    h.parent_of_mem_children (Nat.zero_le p) (lt_size_of_mem_children hc) hc
  refine ⟨hroot, hlast, fun levels => h.postorder_root, h.preorder_perm hroot,
    h.parent?_root (List.mem_singleton_self root), ?_, fun p c hc => (hchild hc).2.1, hblock⟩
  intro id hid hne
  obtain ⟨-, hmem | ⟨p, -, -, hp⟩⟩ := h.listed (Nat.zero_le id) hid
  · exact absurd (List.mem_singleton.1 hmem) hne
  · obtain ⟨hparent, -, hnodup⟩ := hchild hp
    refine ⟨p, hparent, by rw [hnodup.count, if_pos hp], fun q hq => ?_⟩
    have hq := (hchild hq).1
    rw [hparent] at hq
    exact (Option.some.inj hq).symm

end Arena

namespace Lowering

variable {source : ByteArray}

/-! ## The fields of a block -/

/-- Only a call with a block pushes a node that wraps the two. -/
theorem attached_of_wrapped {n : Concrete} {arity : Nat} {span : Span}
    (h : .event (.wrapped arity span) ∈ agenda source n) :
    n.role = .call ∧ ∃ block, n.childByField? "block" = some block := by
  have hform := agenda_form source n
  generalize agenda source n = steps at hform h
  cases hform with
  | read => simp at h
  | flat => simp [overSteps] at h
  | nested => simp [scopedSteps, overSteps] at h
  | params => simp [parameterEvents] at h
  | attached hrole hblock => exact ⟨hrole, _, hblock⟩

/-- The node that wraps call and block is pushed last. -/
theorem agenda_of_attached {n block : Concrete} (hrole : n.role = .call)
    (hblock : n.childByField? "block" = some block) {before after : List Step} {arity : Nat}
    {span : Span} (h : agenda source n = before ++ .event (.wrapped arity span) :: after) :
    stepsCourse source before =
        stepsCourse source (callSending source n).steps ++ blockCourse source block ∧
      arity = (if (blockItems block).isEmpty then 2 else 3) := by
  obtain ⟨inner, hagenda, hinner, hcourse⟩ : ∃ inner,
      agenda source n = inner ++
        [.event (.wrapped (if (blockItems block).isEmpty then 2 else 3) (spanOf n))] ∧
      (∀ arity span, .event (.wrapped arity span) ∉ inner) ∧ stepsCourse source inner =
        stepsCourse source (callSending source n).steps ++ blockCourse source block := by
    refine ⟨(callSending source n).steps ++ .event (.opened (blockScope block)) ::
      (blockParamEvents block).map .event ++ blockBodySteps block, ?_, ?_, ?_⟩
    · simp [agenda, hrole, blockSteps, hblock, attachedSteps]
    · intro arity span hmem
      have hparams : .wrapped arity span ∉ blockParamEvents block := fun hparam => by
        simpa using eq_of_mem_blockParamEvents hparam
      have hbody : .event (.wrapped arity span) ∉ blockBodySteps block := fun hbody => by
        simpa using eq_of_event_mem_blockBodySteps hbody
      simp [Sending.steps, overSteps, hparams, hbody] at hmem
    · simp [blockCourse, stepCourse]
  rw [hagenda] at h
  rcases List.eq_nil_or_concat after with rfl | ⟨more, last, rfl⟩
  · obtain ⟨rfl, hlast⟩ := List.append_inj' h rfl
    refine ⟨hcourse, ?_⟩
    simp only [List.cons.injEq, Step.event.injEq, Event.wrapped.injEq, and_true] at hlast
    exact hlast.1.symm
  · -- nothing else on the agenda wraps
    rw [List.concat_eq_append, ← List.cons_append, ← List.append_assoc] at h
    obtain ⟨rfl, -⟩ := List.append_inj' h rfl
    exact absurd (by simp) (hinner arity span)

/-- **A block names a call and a parameter list.** -/
theorem block_fields_replay (n : Concrete) {id : NodeId} {block : Block} {shape : Shape}
    {span : Span} (hshape : shape = .block block ∨ shape = .numBlock block)
    (h : (replay source ⟨{}, []⟩ (course source n)).state.arena.form? id = some (shape, span)) :
    (∃ call span, (replay source ⟨{}, []⟩ (course source n)).state.arena.form? block.call =
        some (.send call, span)) ∧
      ∃ items span, (replay source ⟨{}, []⟩ (course source n)).state.arena.form? block.params =
        some (.params items, span) := by
  obtain ⟨before, e, after, hevents, he, hid⟩ :=
    exists_push source ⟨{}, []⟩ (Nat.zero_le id) (Arena.lt_size_of_form? h)
  have hpush := form?_of_push source ⟨{}, []⟩ hevents he
  rw [hid, h] at hpush
  -- the node was pushed to wrap a call and its block
  obtain ⟨arity, span', rfl⟩ : ∃ arity span, e = .wrapped arity span := by
    cases e with
    | wrapped arity span => exact ⟨arity, span, rfl⟩
    | enter | opened | closed | bound => simp [Event.pushes] at he
    | read m =>
        exfalso
        simp only [pushedForm, readShape, Option.some.injEq, Prod.mk.injEq] at hpush
        split at hpush <;> rcases hshape with rfl | rfl <;> simp at hpush
    | pushed head arity span =>
        exfalso
        simp only [pushedForm, Option.some.injEq, Prod.mk.injEq] at hpush
        have hne := shape_ne_block head
          ((replay source ⟨{}, []⟩ before).stack.take arity).reverse block
        rcases hshape with rfl | rfl
        · exact hne.1 hpush.1.symm
        · exact hne.2 hpush.1.symm
  obtain ⟨outer, p, done, left, rest, hagenda, rfl, rfl⟩ := exists_visit hevents (by simp)
  obtain ⟨hrole, concrete, hblock⟩ := @attached_of_wrapped source p arity span' (by simp [hagenda])
  obtain ⟨hdone, rfl⟩ := agenda_of_attached hrole hblock hagenda
  have hbefore : replay source ⟨{}, []⟩ (outer ++ .enter p :: stepsCourse source done) =
      replay source (replay source ⟨{}, []⟩ (outer ++ [.enter p]))
        (stepsCourse source (callSending source p).steps ++ blockCourse source concrete) := by
    rw [← replay_append, ← hdone]
    simp
  obtain ⟨call, arguments, params, items, span'', body, hwrapped, hcall, hparams, -, -⟩ :=
    @wrapped_attached source (replay source ⟨{}, []⟩ (outer ++ [.enter p])) (callSending source p)
      concrete span'
  rw [← hbefore] at hwrapped hcall hparams
  have hfields : block.call = call ∧ block.params = params := by
    rw [hwrapped] at hpush
    simp only [wrapShape, Option.some.injEq, Prod.mk.injEq] at hpush
    split at hpush <;> rcases hshape with rfl | rfl <;> simp at hpush
    · rw [hpush.1]
      exact ⟨rfl, rfl⟩
    · rw [hpush.1]
      exact ⟨rfl, rfl⟩
  have hkept {id : NodeId} {form : Shape × Span} (hform : (replay source ⟨{}, []⟩
        (outer ++ .enter p :: stepsCourse source done)).state.arena.form? id = some form) :
      (replay source ⟨{}, []⟩ (course source n)).state.arena.form? id = some form := by
    rw [hevents, replay_append, form?_replay_of_eq_some source hform]
  rw [hfields.1, hfields.2]
  exact ⟨⟨_, _, hkept hcall⟩, ⟨items, _, hkept hparams⟩⟩

/-! ## The whole arena -/

/-- The nodes of a source that is not empty are one tree in post-order. -/
theorem forest_arenaOf {grammar : Grammar} {source : ByteArray} {arena : Arena}
    (hsource : source.isEmpty = false) (h : arenaOf grammar source = .ok arena) :
    ∃ root, arena.root? = some root ∧ arena.Forest none 0 arena.size [root] ∧
      arena.form? =
        (replay source ⟨{}, []⟩ (course source (grammar source))).state.arena.form? := by
  obtain ⟨root, rfl, hstack⟩ := replay_arenaOf hsource h
  -- choosing a root changes no node
  have hrooted := @rooted_replay source _ rooted_empty (course source (grammar source))
  rw [Machine.Rooted, hstack, List.reverse_singleton] at hrooted
  exact ⟨root, rfl, hrooted.congr fun _ _ _ => rfl, rfl⟩

/-- In an arena of at most 2 ^ 32 nodes a word of 32 bits holds every id. -/
theorem toNat_toUInt32_of_lt_size {arena : Arena} {id : NodeId} (hsize : arena.size ≤ 4294967296)
    (h : id < arena.size) : id.toUInt32.toNat = id := by
  rw [Nat.toUInt32, UInt32.toNat_ofNat']
  exact Nat.mod_eq_of_lt (Nat.lt_of_lt_of_le h hsize)

/-- **The arena of a source that is not empty is a tree in post-order** whose links agree.  Its ids
are those below its size, so that words of 32 bits can take their place in an arena of at most
2 ^ 32 nodes (`toNat_toUInt32_of_lt_size`). -/
theorem wellFormed_arenaOf {grammar : Grammar} {source : ByteArray} {arena : Arena}
    (hsource : source.isEmpty = false) (h : arenaOf grammar source = .ok arena) :
    ∃ root, arena.WellFormed root := by
  obtain ⟨root, hroot, hforest, hform⟩ := forest_arenaOf hsource h
  refine ⟨root, hforest.wellFormed hroot fun id block hblock => ?_⟩
  simp only [Arena.map_shape_get?, Option.map_eq_some_iff, Prod.exists, exists_and_right,
    exists_eq_right, hform] at hblock ⊢
  rcases hblock with ⟨span, hform⟩ | ⟨span, hform⟩
  · exact block_fields_replay (grammar source) (Or.inl rfl) hform
  · exact block_fields_replay (grammar source) (Or.inr rfl) hform

/-- The arena of `f {}`: a call with an empty block. -/
theorem wellFormed_arenaOf_block : ∃ arena root,
    arenaOf (fun _ => ⟨"call", true, none, 0, 4, 0, 0,
      [⟨"identifier", true, some "method", 0, 1, 0, 0, []⟩,
        ⟨"block", true, some "block", 2, 4, 0, 2, []⟩]⟩) "f {}".toUTF8 = .ok arena ∧
      Arena.WellFormed arena root := by
  obtain ⟨arena, harena⟩ : ∃ arena, arenaOf (fun _ => ⟨"call", true, none, 0, 4, 0, 0,
      [⟨"identifier", true, some "method", 0, 1, 0, 0, []⟩,
        ⟨"block", true, some "block", 2, 4, 0, 2, []⟩]⟩) "f {}".toUTF8 = .ok arena :=
    ⟨_, rfl⟩
  obtain ⟨root, hroot⟩ := wellFormed_arenaOf (by decide) harena
  exact ⟨arena, root, harena, hroot⟩

end Lowering

end SpecLint
