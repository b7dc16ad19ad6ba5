import SpecLint.Proofs.Compositional

/-!
# What lowering leaves alone

Lowering opens scopes, block frames and levels and closes them again, also when it fails half-way.
Whatever becomes of a node, afterwards the depth is as before, and so are all scopes and frames but
the innermost ones; these have gained names, and noted that an implicit parameter was read.  The
nodes that were there before keep their shapes, spans and parents, as only new nodes are linked to
what is pushed.

* `Marked` — what may become of the block frames.
* `State.Spares`, `Spares` — what a computation that may link to the nodes from some id on does to a
  state, however it ends.
* `spares_lower` — **lowering a subtree spares all that was there**.
* `lower_confined` — **what lowering a node may change**, whether it succeeds or fails.
-/

namespace SpecLint

namespace Arena

/-- An arena that has kept all nodes of another one has them in front of its own. -/
theorem exists_nodes_append {a b : Arena} (h : ∀ id, id < a.size → b.get? id = a.get? id) :
    ∃ added, b.nodes = a.nodes ++ added := by
  refine ⟨b.nodes.extract a.size b.size, Array.ext_getElem? fun id => ?_⟩
  rcases Nat.lt_or_ge id a.size with hold | hnew
  · rw [Array.getElem?_append_left hold]
    exact h id hold
  · have hplace : a.size + (id - a.nodes.size) = id := Nat.add_sub_cancel' hnew
    rw [Array.getElem?_append_right hnew, Array.getElem?_extract, hplace]
    split
    · rfl
    · rename_i hout
      exact Array.getElem?_eq_none (by unfold size at hout hnew; omega)

end Arena

namespace Lowering

/-! ## Scopes and block frames -/

/-- Scopes that have grown are as many, the outer ones the same, and the innermost one has lost no
name. -/
theorem Grown.parts {scopes scopes' : List Scope} (h : Grown scopes scopes') :
    scopes'.length = scopes.length ∧ scopes'.tail = scopes.tail ∧
      ∀ name ∈ scopes.headD [], name ∈ scopes'.headD [] := by
  rcases scopes with _ | ⟨scope, outer⟩ <;> rcases scopes' with _ | ⟨scope', outer'⟩ <;>
    simp only [Grown] at h
  · exact ⟨rfl, rfl, fun _ hname => hname⟩
  · obtain ⟨rfl, hnames⟩ := h
    exact ⟨rfl, rfl, hnames⟩

/-- What may become of the block frames: the innermost one may have noted a read, and those around
it are the same. -/
def Marked : List Frame → List Frame → Prop
  | frame :: outer, frame' :: outer' =>
      outer' = outer ∧ (frame' = frame ∨ frame = .allowed false ∧ frame' = .allowed true)
  | [], [] => True
  | _, _ => False

theorem Marked.refl (frames : List Frame) : Marked frames frames := by
  cases frames with
  | nil => trivial
  | cons frame outer => exact ⟨rfl, Or.inl rfl⟩

theorem Marked.trans {first second third : List Frame} (h : Marked first second)
    (h' : Marked second third) : Marked first third := by
  rcases first with _ | ⟨frame, outer⟩ <;> rcases second with _ | ⟨frame', outer'⟩ <;>
    rcases third with _ | ⟨frame'', outer''⟩ <;> simp only [Marked] at h h' ⊢
  obtain ⟨houter, hframe⟩ := h
  obtain ⟨houter', hframe'⟩ := h'
  refine ⟨houter'.trans houter, ?_⟩
  rcases hframe with rfl | ⟨rfl, rfl⟩
  · exact hframe'
  · rcases hframe' with rfl | ⟨hallowed, -⟩
    · exact Or.inr ⟨rfl, rfl⟩
    · cases hallowed

/-- Frames that were marked are as many, the outer ones the same, and the innermost one has at most
noted a read. -/
theorem Marked.parts {frames frames' : List Frame} (h : Marked frames frames') :
    frames'.length = frames.length ∧ frames'.tail = frames.tail ∧ (frames' = frames ∨
      frames.headD .barred = .allowed false ∧ frames'.headD .barred = .allowed true) := by
  rcases frames with _ | ⟨frame, outer⟩ <;> rcases frames' with _ | ⟨frame', outer'⟩ <;>
    simp only [Marked] at h
  · exact ⟨rfl, rfl, Or.inl rfl⟩
  · obtain ⟨rfl, rfl | hmarked⟩ := h
    · exact ⟨rfl, rfl, Or.inl rfl⟩
    · exact ⟨rfl, rfl, Or.inr hmarked⟩

/-! ## States -/

/-- What is the same in `t` as in `s`, when only the nodes from `k` on were linked to new ones. -/
structure State.Spares (k : Nat) (s t : State) : Prop where
  /-- No level was entered for good. -/
  depth : t.depth = s.depth
  /-- No scope was opened for good, and only the innermost one has gained names. -/
  scopes : Grown s.scopes t.scopes
  /-- No frame was opened for good, and only the innermost one has noted a read. -/
  frames : Marked s.frames t.frames
  /-- No node was removed. -/
  size : s.arena.size ≤ t.arena.size
  /-- The nodes in front of `k` are as they were. -/
  nodes : ∀ id, id < k → t.arena.get? id = s.arena.get? id

namespace State

variable {k : Nat} {s t u : State}

theorem Spares.refl (k : Nat) (s : State) : s.Spares k s :=
  ⟨rfl, .refl _, .refl _, Nat.le_refl _, fun _ _ => rfl⟩

theorem Spares.trans (h : s.Spares k t) (h' : t.Spares k u) : s.Spares k u where
  depth := h'.depth.trans h.depth
  scopes := h.scopes.trans h'.scopes
  frames := h.frames.trans h'.frames
  size := Nat.le_trans h.size h'.size
  nodes id hid := (h'.nodes id hid).trans (h.nodes id hid)

theorem spares_push (hk : k ≤ s.arena.size) {shape : Shape} (h : ∀ id ∈ shape.children, k ≤ id)
    (span : Span) : s.Spares k (s.push shape span).2 where
  depth := rfl
  scopes := .refl _
  frames := .refl _
  size := by
    have hsize : (s.push shape span).2.arena.size = s.arena.size + 1 := Arena.size_push ..
    omega
  nodes id hid := by
    have hnew : id ∉ shape.children := fun hmem => absurd (h id hmem) (Nat.not_le.2 hid)
    have hget := Arena.get?_push_of_lt s.arena shape span (Nat.lt_of_lt_of_le hid hk)
    rw [if_neg hnew] at hget
    exact hget

theorem spares_declare (k : Nat) (s : State) (name : String) : s.Spares k (s.declare name) where
  depth := s.depth_declare name
  scopes := (s.settled_declare name).scopes
  frames := by
    obtain ⟨arena, scopes, frames, depth⟩ := s
    cases scopes <;> exact .refl _
  size := by simp
  nodes id _ := by rw [arena_declare]

theorem spares_useImplicit (k : Nat) (s : State) : s.Spares k s.useImplicit where
  depth := s.depth_useImplicit
  scopes := by
    obtain ⟨arena, scopes, frames, depth⟩ := s
    rcases frames with _ | ⟨_ | _, _⟩ <;> exact .refl _
  frames := by
    obtain ⟨arena, scopes, frames, depth⟩ := s
    rcases frames with _ | ⟨_ | used, outer⟩
    · trivial
    · exact .refl _
    · cases used with
      | false => exact ⟨rfl, Or.inr ⟨rfl, rfl⟩⟩
      | true => exact .refl _
  size := by simp
  nodes id _ := by rw [arena_useImplicit]

/-- A scope that was opened is closed again. -/
theorem Spares.closeScope {inherit : Bool} (h : (s.openScope inherit).Spares k t) :
    t.closeScope.scopes = s.scopes ∧ s.Spares k t.closeScope := by
  obtain ⟨own, hown, -⟩ := Grown.tail h.scopes
  have hscopes : t.closeScope.scopes = s.scopes := by
    rw [State.closeScope, hown]
    rfl
  exact ⟨hscopes, h.depth, hscopes ▸ .refl _, h.frames, h.size, h.nodes⟩

/-- A frame that was opened is closed again. -/
theorem Spares.closeFrame {frame : Frame} (h : (s.openFrame frame).Spares k t) :
    t.closeFrame.frames = s.frames ∧ s.Spares k t.closeFrame :=
  have hframes : t.closeFrame.frames = s.frames := h.frames.parts.2.1
  ⟨hframes, h.depth, h.scopes, hframes ▸ .refl _, h.size, h.nodes⟩

/-- A level that was entered is left again. -/
theorem Spares.ascend (h : s.descend.Spares k t) : s.Spares k t.ascend where
  depth := by rw [State.ascend, h.depth, State.descend, Nat.add_sub_cancel]
  scopes := h.scopes
  frames := h.frames
  size := h.size
  nodes := h.nodes

end State

/-! ## Computations -/

/-- However `act` ends, it spares the nodes in front of `k`, and it returns ids of later nodes. -/
def Spares {α : Type} (k : Nat) (act : LowerM α) (ids : α → List NodeId) : Prop :=
  ∀ s : State, k ≤ s.arena.size → s.Spares k (act.run s).2 ∧
    ∀ a, (act.run s).1 = .ok a → ∀ id ∈ ids a, k ≤ id

section Compose

variable {α β : Type} {k : Nat} {x : LowerM α} {ids : α → List NodeId} {ids' : β → List NodeId}

theorem spares_pure {a : α} (h : ∀ id ∈ ids a, k ≤ id) : Spares k (pure a) ids := by
  intro s _
  refine ⟨.refl k s, fun b hb => ?_⟩
  cases hb
  exact h

theorem spares_throw (failure : Failure) : Spares k (throw failure : LowerM α) ids :=
  fun s _ => ⟨.refl k s, fun _ hb => nomatch hb⟩

theorem spares_modify {f : State → State} (h : ∀ s : State, s.Spares k (f s)) :
    Spares k (modify f) fun _ => [] :=
  fun s _ => ⟨h s, fun _ _ => List.forall_mem_nil _⟩

theorem spares_get : Spares k (get : LowerM State) fun _ => [] :=
  fun s _ => ⟨.refl k s, fun _ _ => List.forall_mem_nil _⟩

/-- A node may be pushed over later nodes. -/
theorem spares_push {shape : Shape} (h : ∀ id ∈ shape.children, k ≤ id) (span : Span) :
    Spares k (push shape span) ([·]) := by
  intro s hk
  refine ⟨State.spares_push hk h span, fun id hid => ?_⟩
  cases hid
  exact List.forall_mem_singleton.2 hk

theorem Spares.bind {f : α → LowerM β} (hx : Spares k x ids)
    (hf : ∀ a, (∀ id ∈ ids a, k ≤ id) → Spares k (f a) ids') : Spares k (x >>= f) ids' := by
  intro s hk
  obtain ⟨hspares, hids⟩ := hx s hk
  rw [run_bind]
  rcases hrun : x.run s with ⟨failure | a, middle⟩
  · rw [hrun] at hspares
    exact ⟨hspares, fun _ hb => nomatch hb⟩
  · rw [hrun] at hspares hids
    obtain ⟨hrest, hids'⟩ := hf a (hids a rfl) middle (Nat.le_trans hk hspares.size)
    exact ⟨hspares.trans hrest, hids'⟩

theorem spares_mapM {act : Concrete → LowerM NodeId} {items : List Concrete}
    (h : ∀ c ∈ items, Spares k (act c) ([·])) : Spares k (items.mapM act) id := by
  induction items with
  | nil => exact spares_pure (List.forall_mem_nil _)
  | cons c items ih =>
      rw [List.mapM_cons]
      refine (h c List.mem_cons_self).bind fun first hfirst => ?_
      refine (ih fun d hd => h d (List.mem_cons_of_mem _ hd)).bind fun rest hrest => ?_
      exact spares_pure (List.forall_mem_cons.2 ⟨List.forall_mem_singleton.1 hfirst, hrest⟩)

theorem spares_forM {act : Concrete → LowerM Unit} {items : List Concrete}
    (h : ∀ c ∈ items, Spares k (act c) fun _ => []) : Spares k (items.forM act) fun _ => [] := by
  induction items with
  | nil => exact spares_pure (List.forall_mem_nil _)
  | cons c items ih =>
      exact (h c List.mem_cons_self).bind fun _ _ => ih fun d hd => h d (List.mem_cons_of_mem _ hd)

theorem spares_inScope (inherit : Bool) (h : Spares k x ids) : Spares k (inScope inherit x) ids := by
  intro s hk
  obtain ⟨hspares, hids⟩ := h (s.openScope inherit) hk
  exact ⟨hspares.closeScope.2, hids⟩

theorem spares_inFrame (frame : Frame) (h : Spares k x ids) :
    Spares k (inFrame frame x) fun result => ids result.1 := by
  intro s hk
  obtain ⟨hspares, hids⟩ := h (s.openFrame frame) hk
  refine ⟨hspares.closeFrame.2, fun result hresult => ?_⟩
  rw [run_inFrame] at hresult
  rcases hrun : (x.run (s.openFrame frame)).1 with failure | a
  · rw [hrun] at hresult
    cases hresult
  · rw [hrun] at hresult
    cases hresult
    exact hids a hrun

theorem spares_inLevel (h : Spares k x ids) : Spares k (inLevel x) ids := by
  intro s hk
  rw [run_inLevel]
  split
  · exact ⟨.refl k s, fun _ hb => nomatch hb⟩
  · obtain ⟨hspares, hids⟩ := h s.descend hk
    exact ⟨hspares.ascend, hids⟩

end Compose

variable {source : ByteArray} {k : Nat}

theorem spares_textOf (n : Concrete) : Spares k (textOf source n) fun _ => [] := by
  unfold textOf
  split
  · exact spares_pure (List.forall_mem_nil _)
  · exact spares_throw _

/-! ## Constructs -/

theorem spares_declareTargets (levels : Nat) (n : Concrete) :
    Spares k (declareTargets source levels n) fun _ => [] := by
  induction levels generalizing n with
  | zero => exact spares_throw _
  | succ levels ih =>
      refine spares_inLevel ?_
      split
      · exact (spares_textOf n).bind fun name _ => spares_modify fun s => s.spares_declare k name
      · split
        · exact spares_forM fun c _ => ih c
        · exact spares_pure (List.forall_mem_nil _)

section Constructs

variable {lower : Concrete → LowerM NodeId} {declare : Concrete → LowerM Unit} {n : Concrete}
  (hlower : ∀ c, Spares k (lower c) ([·])) (hdeclare : ∀ c, Spares k (declare c) fun _ => [])

include hlower in
theorem spares_lowerPlain : Spares k (lowerPlain lower n) ([·]) := by
  refine (spares_mapM fun c _ => hlower c).bind fun ids hids => ?_
  apply spares_push
  exact hids

include hlower in
theorem spares_lowerSequence : Spares k (lowerSequence lower n) ([·]) := by
  refine (spares_mapM fun c _ => hlower c).bind fun ids hids => ?_
  apply spares_push
  exact hids

include hdeclare in
theorem spares_lowerParameters (params : Concrete) :
    Spares k (lowerParameters declare params) ([·]) := by
  refine (spares_mapM fun c _ => ?_).bind fun ids hids => ?_
  · exact (hdeclare c).bind fun _ _ => spares_push (List.forall_mem_nil _) _
  · apply spares_push
    exact hids

include hlower hdeclare in
theorem spares_lowerAssignment : Spares k (lowerAssignment lower declare n) ([·]) := by
  unfold lowerAssignment
  split
  · exact (hdeclare _).bind fun _ _ => spares_lowerPlain hlower
  · exact spares_lowerPlain hlower

include hlower in
theorem spares_lowerClosure : Spares k (lowerClosure lower n) ([·]) :=
  (spares_inFrame _ (spares_inScope _ (spares_lowerPlain hlower))).bind fun _ hid =>
    spares_pure hid

theorem spares_lowerIdentifier : Spares k (lowerIdentifier source n) ([·]) := by
  refine (spares_textOf n).bind fun name _ => spares_get.bind fun s _ => ?_
  split
  · exact spares_push (List.forall_mem_nil _) _
  · split
    · exact (spares_modify (State.spares_useImplicit k)).bind fun _ _ =>
        spares_push (List.forall_mem_nil _) _
    · exact spares_push (List.forall_mem_nil _) _

/-- A call is pushed over its receiver and its arguments. -/
theorem spares_send {receiver : Option NodeId} {arguments : List NodeId}
    (hreceiver : ∀ id ∈ receiver.toList, k ≤ id) (harguments : ∀ id ∈ arguments, k ≤ id)
    (method : String) (selector : Span) (safe : Bool) (span : Span) :
    Spares k (push (.send { receiver, method, arguments, selector, safe }) span) ([·]) := by
  apply spares_push
  exact List.forall_mem_append.2 ⟨hreceiver, harguments⟩

include hlower in
theorem spares_lowerBinary : Spares k (lowerBinary source lower n) ([·]) := by
  unfold lowerBinary
  split
  · refine (spares_textOf _).bind fun method _ => ?_
    split
    · exact spares_lowerPlain hlower
    · refine (hlower _).bind fun receiver hreceiver => (hlower _).bind fun argument hargument => ?_
      apply spares_send
      · exact hreceiver
      · exact hargument
  · exact spares_lowerPlain hlower

include hlower in
theorem spares_lowerUnary : Spares k (lowerUnary source lower n) ([·]) := by
  unfold lowerUnary
  split
  · refine (spares_textOf _).bind fun operator _ => ?_
    split
    · refine (hlower _).bind fun receiver hreceiver => ?_
      apply spares_send
      · exact hreceiver
      · exact List.forall_mem_nil _
    · exact spares_lowerPlain hlower
  · exact spares_lowerPlain hlower

include hlower in
theorem spares_lowerElement : Spares k (lowerElement lower n) ([·]) := by
  unfold lowerElement
  split
  · refine (hlower _).bind fun receiver hreceiver => ?_
    refine (spares_mapM fun c _ => hlower c).bind fun arguments harguments => ?_
    apply spares_send
    · exact hreceiver
    · exact harguments
  · exact spares_lowerPlain hlower

include hdeclare in
theorem spares_lowerBlockParams (block : Concrete) :
    Spares k (lowerBlockParams declare block) ([·]) := by
  unfold lowerBlockParams
  split
  · exact spares_lowerParameters hdeclare _
  · exact spares_push (List.forall_mem_nil _) _

include hlower in
theorem spares_lowerBlockBody (block : Concrete) :
    Spares k (lowerBlockBody lower block) Option.toList := by
  unfold lowerBlockBody
  split
  · exact (hlower _).bind fun body hbody => spares_pure hbody
  · refine (spares_mapM fun c _ => hlower c).bind fun items hitems => ?_
    split
    · exact spares_pure (List.forall_mem_nil _)
    · have hpush : Spares k (push (.sequence items) (spanOf block)) ([·]) := by
        apply spares_push
        exact hitems
      exact hpush.bind fun body hbody => spares_pure hbody

include hlower hdeclare in
/-- The node around a call and its block is pushed over the call, which is a later node too. -/
theorem spares_lowerAttachedBlock {call : NodeId} (hcall : k ≤ call) (block : Concrete)
    (span : Span) : Spares k (lowerAttachedBlock lower declare call block span) ([·]) := by
  have hinner : Spares k (do
      let params ← lowerBlockParams declare block
      let body ← lowerBlockBody lower block
      return (params, body)) fun inner => inner.1 :: inner.2.toList := by
    refine (spares_lowerBlockParams hdeclare block).bind fun params hparams => ?_
    refine (spares_lowerBlockBody hlower block).bind fun body hbody => ?_
    exact spares_pure (List.forall_mem_cons.2 ⟨List.forall_mem_singleton.1 hparams, hbody⟩)
  refine (spares_inFrame _ (spares_inScope true hinner)).bind fun result hresult => ?_
  obtain ⟨⟨params, body⟩, frame⟩ := result
  dsimp only
  split
  · apply spares_push
    exact List.forall_mem_cons.2 ⟨hcall, hresult⟩
  · apply spares_push
    exact List.forall_mem_cons.2 ⟨hcall, hresult⟩

include hlower in
theorem spares_lowerReceiver : Spares k (lowerReceiver lower n) Option.toList := by
  unfold lowerReceiver
  split
  · exact (hlower _).bind fun receiver hreceiver => spares_pure hreceiver
  · exact spares_pure (List.forall_mem_nil _)

theorem spares_calledMethod : Spares k (calledMethod source n) fun _ => [] := by
  unfold calledMethod
  split
  · exact (spares_textOf _).bind fun name _ => spares_pure (List.forall_mem_nil _)
  · exact spares_pure (List.forall_mem_nil _)

include hlower in
theorem spares_lowerArguments : Spares k (lowerArguments lower n) id := by
  unfold lowerArguments
  split
  · exact spares_mapM fun c _ => hlower c
  · exact spares_pure (List.forall_mem_nil _)

include hlower hdeclare in
theorem spares_lowerCall : Spares k (lowerCall source lower declare n) ([·]) := by
  refine (spares_lowerReceiver hlower).bind fun receiver hreceiver => ?_
  refine spares_calledMethod.bind fun called _ => ?_
  obtain ⟨method, selector⟩ := called
  refine (spares_lowerArguments hlower).bind fun arguments harguments => ?_
  refine (spares_send hreceiver harguments _ _ _ _).bind fun call hcall => ?_
  split
  · exact spares_lowerAttachedBlock hlower hdeclare (List.forall_mem_singleton.1 hcall) _ _
  · exact spares_pure hcall

include hlower hdeclare in
theorem spares_lowerNode : Spares k (lowerNode source lower declare n) ([·]) := by
  unfold lowerNode
  cases n.role with
  | call => exact spares_lowerCall hlower hdeclare
  | identifier => exact spares_lowerIdentifier
  | binary => exact spares_lowerBinary hlower
  | unary => exact spares_lowerUnary hlower
  | element => exact spares_lowerElement hlower
  | assignment => exact spares_lowerAssignment hlower hdeclare
  | closure => exact spares_lowerClosure hlower
  | sequence => exact spares_lowerSequence hlower
  | parameterList => exact spares_lowerParameters hdeclare n
  | definition => exact spares_inScope false (spares_lowerPlain hlower)
  | plain => exact spares_lowerPlain hlower

end Constructs

/-- **Lowering a subtree spares all that was there**, and the node that it returns is a new one. -/
theorem spares_lower (levels : Nat) (n : Concrete) : Spares k (lower source levels n) ([·]) := by
  induction levels generalizing n with
  | zero => exact spares_throw _
  | succ levels ih => exact spares_inLevel (spares_lowerNode ih (spares_declareTargets levels))

/-! ## Nodes with a scope of their own -/

/-- Returning something else does not change the state. -/
theorem state_bind_pure {α β : Type} (x : LowerM α) (f : α → β) (s : State) :
    ((x >>= fun a => pure (f a)).run s).2 = (x.run s).2 := by
  rw [run_bind]
  rcases x.run s with ⟨_ | _, _⟩ <;> rfl

section Closed

variable {lower : Concrete → LowerM NodeId} {n : Concrete} {s : State}
  (hlower : ∀ c, Spares k (lower c) ([·])) (hk : k ≤ s.arena.size)

include hlower hk

/-- A closure changes no scope and no frame around it. -/
theorem closed_closure : ((lowerClosure lower n).run s).2.scopes = s.scopes ∧
    ((lowerClosure lower n).run s).2.frames = s.frames := by
  have hstate : ((lowerClosure lower n).run s).2 =
      ((inFrame .barred (inScope true (lowerPlain lower n))).run s).2 :=
    state_bind_pure _ Prod.fst s
  obtain ⟨hplain, -⟩ :=
    @spares_lowerPlain k lower n hlower ((s.openFrame .barred).openScope true) hk
  rw [hstate, run_inFrame, run_inScope]
  exact ⟨hplain.closeScope.1, hplain.closeScope.2.closeFrame.1⟩

/-- A definition changes no scope around it. -/
theorem closed_definition :
    ((inScope false (lowerPlain lower n)).run s).2.scopes = s.scopes := by
  obtain ⟨hplain, -⟩ := @spares_lowerPlain k lower n hlower (s.openScope false) hk
  rw [run_inScope]
  exact hplain.closeScope.1

end Closed

/-- A node that opens a scope or a frame of its own changes none around it. -/
theorem closed_lower (levels : Nat) (n : Concrete) (s : State) :
    (n.role = .closure ∨ n.role = .definition →
      ((lower source levels n).run s).2.scopes = s.scopes) ∧
    (n.role = .closure → ((lower source levels n).run s).2.frames = s.frames) := by
  cases levels with
  | zero => exact ⟨fun _ => rfl, fun _ => rfl⟩
  | succ levels =>
      have hlower (c : Concrete) : Spares s.arena.size (lower source levels c) ([·]) :=
        spares_lower levels c
      have hk : s.arena.size ≤ s.descend.arena.size := Nat.le_refl _
      rw [lower, run_inLevel]
      split
      · exact ⟨fun _ => rfl, fun _ => rfl⟩
      · constructor
        · rintro (hrole | hrole)
          · rw [lowerNode, hrole]
            exact (closed_closure hlower hk).1
          · rw [lowerNode, hrole]
            exact closed_definition hlower hk
        · intro hrole
          rw [lowerNode, hrole]
          exact (closed_closure hlower hk).2

/-! ## Any node -/

/-- The node that lowering returns is the last one. -/
theorem succ_id_of_run {levels : Nat} {n : Concrete} {s t : State} {id : NodeId}
    (h : (lower source levels n).run s = (.ok id, t)) : id + 1 = t.arena.size := by
  have hsame : SameLocals s s := ⟨Iff.rfl, fun _ => Iff.rfl⟩
  obtain ⟨own, outer, _, hscopes, _, hnone⟩ := exists_onTop hsame
  obtain ⟨hgains, root, hroot, rfl⟩ := gains_of_run h hscopes (Or.inr fun hown => (hnone hown).1)
  -- the node on its own is a tree, and its root the last node
  have hempty : Machine.Rooted ⟨{ scopes := own.toList }, []⟩ := Arena.Forest.nil
  have hrooted : (alone source own n).Rooted := rooted_replay hempty _
  rw [Machine.Rooted, hroot] at hrooted
  have hlast : root + 1 = (alone source own n).state.arena.size :=
    @Arena.Forest.last _ _ _ _ [] _ hrooted
  rw [hgains.nodes.size, ← hlast, Nat.add_assoc]

/-- **What lowering a node may change**, whether it succeeds or fails.  The depth and the number of
scopes and of block frames are as before.  Only the innermost scope may have gained names, and has
none if the node is a closure or a definition; only the innermost frame may have noted that an
implicit parameter was read, and has not if the node is a closure.  The nodes that were there are
all as they were, their parents included, with new ones behind them; where lowering succeeds, it
returns the last one. -/
theorem lower_confined {source : ByteArray} {levels : Nat} {n : Concrete} {s t : State}
    {result : Except Failure NodeId} (h : (lower source levels n).run s = (result, t)) :
    t.depth = s.depth ∧
    (t.scopes.length = s.scopes.length ∧ t.scopes.tail = s.scopes.tail ∧
      (∀ name ∈ s.locals, name ∈ t.locals) ∧
      (n.role = .closure ∨ n.role = .definition → t.scopes = s.scopes)) ∧
    (t.frames.length = s.frames.length ∧ t.frames.tail = s.frames.tail ∧
      (t.frames = s.frames ∨ s.frame = .allowed false ∧ t.frame = .allowed true) ∧
      (n.role = .closure → t.frames = s.frames)) ∧
    (∃ added, t.arena.nodes = s.arena.nodes ++ added) ∧
    (∀ id, result = .ok id → id + 1 = t.arena.size) := by
  obtain ⟨hspares, -⟩ := spares_lower levels n s (Nat.le_refl s.arena.size)
  obtain ⟨hscopes, hframes⟩ := @closed_lower source levels n s
  rw [h] at hspares hscopes hframes
  obtain ⟨hscopeCount, houter, hnames⟩ := hspares.scopes.parts
  obtain ⟨hframeCount, houterFrames, hframe⟩ := hspares.frames.parts
  refine ⟨hspares.depth, ⟨hscopeCount, houter, hnames, hscopes⟩,
    ⟨hframeCount, houterFrames, hframe, hframes⟩, Arena.exists_nodes_append hspares.nodes, ?_⟩
  rintro id rfl
  exact succ_id_of_run h

/-- The tree of a block with the statements `a=1` and a name of one byte. -/
def blockWithName : Concrete :=
  ⟨"do_block", true, none, 0, 5, 0, 0,
    [⟨"assignment", true, none, 0, 3, 0, 0,
        [⟨"identifier", true, some "left", 0, 1, 0, 0, []⟩]⟩,
      ⟨"identifier", true, none, 4, 5, 0, 4, []⟩]⟩

/-- A block that fails at a name that is not valid UTF-8, behind a local variable and two nodes of
its own, leaves the depth, the scopes and the frames around it as they were. -/
theorem lower_confined_failed : ∃ t,
    (lower ⟨#[97, 61, 49, 59, 255]⟩ 5 blockWithName).run
      { scopes := [["x"], []], frames := [.allowed false], depth := 3 } =
        (.error .nameNotUtf8, t) ∧
    t.arena.size = 2 ∧ t.depth = 3 ∧ t.scopes = [["x"], []] ∧ t.frames = [.allowed false] := by
  refine ⟨_, rfl, rfl, ?_⟩
  obtain ⟨hdepth, ⟨-, -, -, hscopes⟩, ⟨-, -, -, hframes⟩, -⟩ := @lower_confined
    ⟨#[97, 61, 49, 59, 255]⟩ 5 blockWithName
    { scopes := [["x"], []], frames := [.allowed false], depth := 3 } _ _ rfl
  exact ⟨hdepth, hscopes (Or.inl rfl), hframes rfl⟩

end Lowering

end SpecLint
