import SpecLint.Proofs.Layout
import SpecLint.Proofs.WellFormed

/-!
# The spans of an arena are nested

Where a grammar keeps the nodes of its tree in order, the span of every node of the arena lies in
the source and in the span of its parent.  Spans are not just copied: a call ends before its block,
a missing parameter list stands at the start of the block, and the node around a call and its block
has the extent of both.

* `Arena.Nested` — what is kept by every push.
* `LeavesWithin` — events that keep it and leave nodes between two bytes.
* `leavesWithin_course` — **a course leaves its node where the concrete node lies**.
* `nested_arenaOf` — **every node of an arena lies in the source and encloses its children**.
-/

namespace SpecLint

namespace Arena

/-! ## Nested nodes -/

/-- Whether the node at `id` is there and runs forwards between the bytes `lo` and `hi`. -/
def Within (a : Arena) (id : NodeId) (lo hi : Nat) : Prop :=
  ∃ shape span, a.form? id = some (shape, span) ∧ span.Lies lo hi

/-- Whether every node lies in the first `size` bytes, and its children lie in it. -/
def Nested (a : Arena) (size : Nat) : Prop :=
  ∀ id shape span, a.form? id = some (shape, span) → span.Lies 0 size ∧
    ∀ c ∈ shape.children, a.Within c span.startByte.toNat span.endByte.toNat

variable {a : Arena} {id : NodeId} {lo hi lo' hi' size : Nat} {shape : Shape} {span : Span}

theorem Within.widen (h : a.Within id lo hi) (hlo : lo' ≤ lo) (hhi : hi ≤ hi') :
    a.Within id lo' hi' := by
  obtain ⟨shape, span, hform, hlies⟩ := h
  exact ⟨shape, span, hform, hlies.widen hlo hhi⟩

theorem Within.push (h : a.Within id lo hi) (shape : Shape) (span : Span) :
    (a.push shape span).2.Within id lo hi := by
  obtain ⟨shape', span', hform, hlies⟩ := h
  exact ⟨shape', span', by rw [form?_push_of_lt _ _ _ (lt_size_of_form? hform), hform], hlies⟩

theorem nested_empty (size : Nat) : ({} : Arena).Nested size := by
  intro id shape span h
  exact absurd (lt_size_of_form? h) (Nat.not_lt_zero id)

/-- A node that encloses its children is pushed. -/
theorem Nested.push (h : a.Nested size) (hspan : span.Lies 0 size)
    (hchildren : ∀ c ∈ shape.children, a.Within c span.startByte.toNat span.endByte.toNat) :
    (a.push shape span).2.Nested size := by
  intro id shape' span' hform
  have hlt : id < a.size + 1 := by simpa using lt_size_of_form? hform
  rcases Nat.lt_or_eq_of_le (Nat.le_of_lt_succ hlt) with hold | rfl
  · rw [form?_push_of_lt _ _ _ hold] at hform
    obtain ⟨hlies, hbelow⟩ := h id shape' span' hform
    exact ⟨hlies, fun c hc => (hbelow c hc).push shape span⟩
  · rw [form?_push_size] at hform
    cases hform
    exact ⟨hspan, fun c hc => (hchildren c hc).push shape span⟩

end Arena

namespace Lowering

open Concrete

variable (source : ByteArray)

/-! ## Events that leave nodes between two bytes -/

/-- Events that keep the nodes nested and leave `count` more of them on the stack, all between the
bytes `lo` and `hi`. -/
def LeavesWithin (events : List Event) (count lo hi : Nat) : Prop :=
  ∀ m, m.state.arena.Nested source.size →
    (replay source m events).state.arena.Nested source.size ∧
      ∃ ids, ids.length = count ∧ (replay source m events).stack = ids ++ m.stack ∧
        ∀ id ∈ ids, (replay source m events).state.arena.Within id lo hi

variable {source} {events first second : List Event} {count j k lo hi lo' hi' stop : Nat}
  {n c block : Concrete}

/-- A node that is there already stays where it is. -/
theorem within_replay {m : Machine} {id : NodeId} (h : m.state.arena.Within id lo hi)
    (events : List Event) : (replay source m events).state.arena.Within id lo hi := by
  obtain ⟨shape, span, hform, hlies⟩ := h
  exact ⟨shape, span, form?_replay_of_eq_some source hform events, hlies⟩

namespace LeavesWithin

theorem nil : LeavesWithin source [] 0 lo hi := fun _ hm => ⟨hm, [], rfl, rfl, by simp⟩

theorem widen (h : LeavesWithin source events count lo hi) (hlo : lo' ≤ lo) (hhi : hi ≤ hi') :
    LeavesWithin source events count lo' hi' := by
  intro m hm
  obtain ⟨hnested, ids, hids, hstack, hwithin⟩ := h m hm
  exact ⟨hnested, ids, hids, hstack, fun id hid => (hwithin id hid).widen hlo hhi⟩

theorem append (hfirst : LeavesWithin source first j lo hi)
    (hsecond : LeavesWithin source second k lo hi) :
    LeavesWithin source (first ++ second) (j + k) lo hi := by
  intro m hm
  obtain ⟨hnested, ids, hids, hstack, hwithin⟩ := hfirst m hm
  obtain ⟨hnested', more, hmore, hstack', hwithin'⟩ := hsecond (replay source m first) hnested
  rw [replay_append]
  refine ⟨hnested', more ++ ids, by simp [hids, hmore, Nat.add_comm], by simp [hstack, hstack'],
    fun id hid => ?_⟩
  rcases List.mem_append.1 hid with hid | hid
  · exact hwithin' id hid
  · exact within_replay (hwithin id hid) second

theorem quiet (h : ∀ e ∈ events, e.pushes = false) : LeavesWithin source events 0 lo hi := by
  intro m hm
  obtain ⟨harena, hstack⟩ := replay_quiet m h
  exact ⟨harena ▸ hm, [], rfl, hstack, by simp⟩

/-- A single event that pushes nothing. -/
theorem quiet_one {e : Event} (h : e.pushes = false) : LeavesWithin source [e] 0 lo hi :=
  quiet fun _ he => List.mem_singleton.1 he ▸ h

theorem bound (ns : List Concrete) : LeavesWithin source (ns.map .bound) 0 lo hi := by
  refine quiet fun e he => ?_
  obtain ⟨n, -, rfl⟩ := List.mem_map.1 he
  rfl

/-- A node is pushed over what was left in the extent that it gets. -/
theorem covered (h : LeavesWithin source events count n.startByte stop) {e : Event}
    (he : e.push? = some (count, spanUntil n stop)) (hle : n.startByte ≤ stop)
    (hstop : stop ≤ source.size) (hsize : source.size ≤ maxSourceSize) :
    LeavesWithin source (events ++ [e]) 1 n.startByte stop := by
  have hlies (lo hi : Nat) (hlo : lo ≤ n.startByte) (hhi : stop ≤ hi) :
      (spanUntil n stop).Lies lo hi :=
    lies_spanUntil hlo hle hhi (Nat.le_trans hstop hsize)
  intro m hm
  obtain ⟨hnested, ids, hids, hstack, hwithin⟩ := h m hm
  obtain ⟨shape, hchildren, harena, hpushed⟩ := step_of_push source (replay source m events) he
  rw [hstack, ← hids, List.take_left] at hchildren
  rw [replay_append, replay_cons, replay_nil, harena]
  refine ⟨hnested.push (hlies 0 _ (Nat.zero_le _) hstop) fun c hc => ?_,
    [(replay source m events).state.arena.size], rfl, ?_, ?_⟩
  · rw [hchildren, List.mem_reverse] at hc
    rw [toNat_startByte_spanUntil (Nat.le_trans hle (Nat.le_trans hstop hsize)),
      toNat_endByte_spanUntil (Nat.le_trans hstop hsize)]
    exact hwithin c hc
  · rw [hpushed, hstack, ← hids, List.drop_left]
    rfl
  · rintro id hid
    rw [List.mem_singleton.1 hid]
    exact ⟨shape, _, Arena.form?_push_size _ _ _,
      hlies _ _ (Nat.le_refl _) (Nat.le_refl _)⟩

theorem flatMap {items : List Concrete}
    (h : ∀ c ∈ items, LeavesWithin source (course source c) 1 lo hi) :
    LeavesWithin source (items.flatMap (course source)) items.length lo hi := by
  induction items with
  | nil => exact nil
  | cons c items ih =>
      rw [List.flatMap_cons, List.length_cons, Nat.add_comm]
      exact (h c (by simp)).append (ih fun c hc => h c (by simp [hc]))

theorem overSteps {items : List Concrete}
    (h : ∀ c ∈ items, LeavesWithin source (course source c) 1 n.startByte stop) (head : Head)
    (hle : n.startByte ≤ stop) (hstop : stop ≤ source.size) (hsize : source.size ≤ maxSourceSize) :
    LeavesWithin source (stepsCourse source (overSteps items head (spanUntil n stop))) 1
      n.startByte stop := by
  rw [stepsCourse_overSteps]
  exact (flatMap h).covered rfl hle hstop hsize

theorem scopedSteps {steps : List Step}
    (h : LeavesWithin source (stepsCourse source steps) 1 lo hi) (kind : ScopeKind) :
    LeavesWithin source (stepsCourse source (scopedSteps kind steps)) 1 lo hi := by
  have hopened : LeavesWithin source [.opened kind] 0 lo hi := quiet_one rfl
  have hclosed : LeavesWithin source [.closed kind] 0 lo hi := quiet_one rfl
  simpa [Lowering.scopedSteps, stepCourse] using (hopened.append h).append hclosed

end LeavesWithin

/-! ## Parameters -/

/-- Whether the nodes below `n` are in order and lie in the source. -/
def Placed (source : ByteArray) (n : Concrete) : Prop :=
  n.Everywhere InOrder ∧ n.endByte ≤ source.size

theorem Placed.start_le (h : Placed source n) : n.startByte ≤ n.endByte := h.1.here.start_le

theorem Placed.inside (h : Placed source n) (hc : c ∈ n.children) : n.Inside c :=
  h.1.here.inside c hc

theorem Placed.child (h : Placed source n) (hc : c ∈ n.children) : Placed source c :=
  ⟨h.1.child hc, Nat.le_trans (h.inside hc).2 h.2⟩

theorem Placed.field (h : Placed source n) {field : String}
    (hc : n.childByField? field = some c) : Placed source c ∧ n.Inside c :=
  ⟨h.child (mem_children_of_childByField? hc), h.inside (mem_children_of_childByField? hc)⟩

variable (hsize : source.size ≤ maxSourceSize)

include hsize

theorem leavesWithin_parameters {ps : List Concrete}
    (h : ∀ p ∈ ps, Placed source p ∧ n.Inside p) : LeavesWithin source
      (ps.flatMap fun p => (targets p).map .bound ++ [.pushed (.other p.kind) 0 (spanOf p)])
      ps.length n.startByte n.endByte := by
  induction ps with
  | nil => exact .nil
  | cons p ps ih =>
      obtain ⟨hp, hinside⟩ := h p (by simp)
      have hone : LeavesWithin source
          ((targets p).map .bound ++ [.pushed (.other p.kind) 0 (spanOf p)]) 1
          p.startByte p.endByte :=
        (LeavesWithin.bound (targets p)).covered rfl hp.start_le hp.2 hsize
      rw [List.flatMap_cons, List.length_cons, Nat.add_comm]
      exact (hone.widen hinside.1 hinside.2).append (ih fun p hp => h p (by simp [hp]))

theorem leavesWithin_parameterEvents (h : Placed source n) :
    LeavesWithin source (parameterEvents n) 1 n.startByte n.endByte := by
  refine (leavesWithin_parameters hsize fun p hp => ?_).covered rfl h.start_le h.2 hsize
  have hp := mem_children_of_mem_parts hp
  exact ⟨h.child hp, h.inside hp⟩

/-- Without a parameter list an empty one stands at the start of the block. -/
theorem leavesWithin_blockParamEvents (h : Placed source block) :
    LeavesWithin source (blockParamEvents block) 1 block.startByte block.endByte := by
  unfold blockParamEvents
  split
  · rename_i params hparams
    obtain ⟨hplaced, hinside⟩ := h.field hparams
    exact (leavesWithin_parameterEvents hsize hplaced).widen hinside.1 hinside.2
  · have hstart : LeavesWithin source [.pushed .params 0 (spanUntil block block.startByte)] 1
        block.startByte block.startByte :=
      LeavesWithin.nil.covered rfl (Nat.le_refl _) (Nat.le_trans h.start_le h.2) hsize
    exact hstart.widen (Nat.le_refl _) h.start_le

/-! ## Calls and their blocks -/

omit hsize in
/-- A call ends inside of its node, after its receiver and with its arguments. -/
theorem callEnd_bounds (h : Placed source n) (hrole : n.role = .call) :
    n.startByte ≤ callEnd n ∧ callEnd n ≤ n.endByte ∧
      (∀ r, n.childByField? "receiver" = some r → r.endByte ≤ callEnd n) ∧
      ∀ arguments, n.childByField? "arguments" = some arguments →
        callEnd n = arguments.endByte := by
  have hends {field : String} {last : Concrete} (hlast : n.childByField? field = some last)
      (hfield : field ∈ callFields)
      (hlt : callFields.idxOf "receiver" < callFields.idxOf field) :
      n.startByte ≤ last.endByte ∧ last.endByte ≤ n.endByte ∧
        ∀ r, n.childByField? "receiver" = some r → r.endByte ≤ last.endByte := by
    obtain ⟨hplaced, hinside⟩ := h.field hlast
    refine ⟨Nat.le_trans hinside.1 hplaced.start_le, hinside.2, fun r hr => ?_⟩
    exact Nat.le_trans (h.1.here.le_of_fields hrole (by decide) hfield hlt hr hlast)
      hplaced.start_le
  unfold callEnd
  cases harguments : n.childByField? "arguments" with
  | some arguments =>
      obtain ⟨hstart, hend, hreceiver⟩ := hends harguments (by decide) (by decide)
      exact ⟨hstart, hend, hreceiver, fun _ h => congrArg endByte (Option.some.inj h)⟩
  | none =>
      cases hmethod : n.childByField? "method" with
      | some method =>
          obtain ⟨hstart, hend, hreceiver⟩ := hends hmethod (by decide) (by decide)
          exact ⟨hstart, hend, hreceiver, fun _ h => by cases h⟩
      | none =>
          exact ⟨h.start_le, Nat.le_refl _, fun r hr => (h.field hr).2.2, fun _ h => by cases h⟩

/-- A call stands over its operands, its block left aside. -/
theorem leavesWithin_callSending (h : Placed source n) (hrole : n.role = .call)
    (hlower : ∀ c ∈ (callSending source n).operands,
      LeavesWithin source (course source c) 1 c.startByte c.endByte) :
    LeavesWithin source (stepsCourse source (callSending source n).steps) 1
      n.startByte (callEnd n) := by
  obtain ⟨hstart, hend, hreceiver, harguments⟩ := callEnd_bounds h hrole
  refine LeavesWithin.overSteps (fun c hc => ?_) _ hstart (Nat.le_trans hend h.2) hsize
  have hcourse := hlower c hc
  rcases List.mem_append.1 hc with hr | ha
  · have hr := Option.mem_toList.1 hr
    exact hcourse.widen (h.field hr).2.1 (hreceiver c hr)
  · obtain ⟨arguments, ha, hpart⟩ := mem_callArguments.1 ha
    obtain ⟨hplaced, hinside⟩ := h.field ha
    have hbetween := hplaced.inside (mem_children_of_mem_parts hpart)
    rw [harguments arguments ha]
    exact hcourse.widen (Nat.le_trans hinside.1 hbetween.1) hbetween.2

theorem leavesWithin_blockBodySteps (h : Placed source block)
    (hlower : ∀ c ∈ blockItems block,
      LeavesWithin source (course source c) 1 c.startByte c.endByte) :
    LeavesWithin source (stepsCourse source (blockBodySteps block))
      (if (blockItems block).isEmpty then 0 else 1) block.startByte block.endByte := by
  have hitems : ∀ c ∈ blockItems block,
      LeavesWithin source (course source c) 1 block.startByte block.endByte := fun c hc =>
    (hlower c hc).widen (h.inside (mem_blockItems hc)).1 (h.inside (mem_blockItems hc)).2
  unfold blockBodySteps
  cases hgroups : groupsItems block with
  | true =>
      rw [isEmpty_blockItems_of_groups hgroups]
      exact LeavesWithin.overSteps hitems .sequence h.start_le h.2 hsize
  | false =>
      rw [← length_blockItems_le block hgroups]
      simpa using LeavesWithin.flatMap hitems

/-- The node around a call and its block has the extent of both. -/
theorem leavesWithin_attachedSteps (h : Placed source n)
    (hblock : n.childByField? "block" = some block)
    (hcall : LeavesWithin source events 1 n.startByte n.endByte)
    (hlower : ∀ c ∈ blockItems block,
      LeavesWithin source (course source c) 1 c.startByte c.endByte) :
    LeavesWithin source (events ++ stepsCourse source (attachedSteps block (spanOf n))) 1
      n.startByte n.endByte := by
  obtain ⟨hplaced, hinside⟩ := h.field hblock
  have hopened : LeavesWithin source [.opened (blockScope block)] 0 n.startByte n.endByte :=
    .quiet_one rfl
  have hparams := (leavesWithin_blockParamEvents hsize hplaced).widen hinside.1 hinside.2
  have hbody := (leavesWithin_blockBodySteps hsize hplaced hlower).widen hinside.1 hinside.2
  have hall := ((hcall.append hopened).append hparams).append hbody
  have hcount : 1 + 0 + 1 + (if (blockItems block).isEmpty then 0 else 1) =
      if (blockItems block).isEmpty then 2 else 3 := by
    split <;> rfl
  rw [hcount] at hall
  have hwrapped := hall.covered (e := .wrapped _ (spanOf n)) rfl h.start_le h.2 hsize
  simpa [attachedSteps, stepCourse] using hwrapped

/-! ## Whole courses -/

/-- Nodes of the tree that are lowered over some of their children. -/
theorem leavesWithin_flat (h : Placed source n) {items : List Concrete}
    (hitems : ∀ c ∈ items, c ∈ n.children)
    (hlower : ∀ c ∈ items, LeavesWithin source (course source c) 1 c.startByte c.endByte)
    (head : Head) : LeavesWithin source (stepsCourse source (overSteps items head (spanOf n))) 1
      n.startByte n.endByte := by
  refine LeavesWithin.overSteps (fun c hc => ?_) head h.start_le h.2 hsize
  have hinside := h.inside (hitems c hc)
  exact (hlower c hc).widen hinside.1 hinside.2

theorem leavesWithin_plainSteps (h : Placed source n)
    (hlower : ∀ c, .lower c ∈ plainSteps n →
      LeavesWithin source (course source c) 1 c.startByte c.endByte) :
    LeavesWithin source (stepsCourse source (plainSteps n)) 1 n.startByte n.endByte :=
  leavesWithin_flat hsize h (fun _ => mem_children_of_mem_parts)
    (fun c hc => hlower c (by simpa [plainSteps] using hc)) _

/-- What the agenda of one node keeps once the courses of the nodes on it do. -/
theorem leavesWithin_agenda (h : Placed source n)
    (hlower : ∀ c, .lower c ∈ agenda source n →
      LeavesWithin source (course source c) 1 c.startByte c.endByte) :
    LeavesWithin source (stepsCourse source (agenda source n)) 1 n.startByte n.endByte := by
  cases hrole : n.role with
  | call =>
      obtain ⟨-, hend, -⟩ := callEnd_bounds h hrole
      simp only [agenda, hrole, List.mem_append] at hlower ⊢
      rw [stepsCourse_append]
      have hcall := (leavesWithin_callSending hsize h hrole fun c hc =>
        hlower c (Or.inl (by simpa [Sending.steps] using hc))).widen (Nat.le_refl _) hend
      unfold blockSteps at hlower ⊢
      cases hblock : n.childByField? "block" with
      | none => simpa using hcall
      | some block =>
          rw [hblock] at hlower
          exact leavesWithin_attachedSteps hsize h hblock hcall fun c hc =>
            hlower c (Or.inr (by simpa using hc))
  | identifier =>
      simp only [agenda, hrole]
      exact LeavesWithin.nil.covered rfl h.start_le h.2 hsize
  | binary | unary | element =>
      simp only [agenda, hrole] at hlower ⊢
      cases hcall : operatorSending? source n with
      | none =>
          rw [hcall] at hlower
          exact leavesWithin_plainSteps hsize h hlower
      | some call =>
          rw [hcall] at hlower
          dsimp only [Sending.steps]
          rw [span_of_operatorSending hcall]
          exact leavesWithin_flat hsize h (fun c => mem_operatorSending_operands hcall)
            (fun c hc => hlower c (by simpa [Sending.steps] using hc)) _
  | assignment =>
      simp only [agenda, hrole, List.mem_append] at hlower ⊢
      rw [stepsCourse_append, ← List.map_map, stepsCourse_map_event]
      exact (LeavesWithin.bound _).append
        (leavesWithin_plainSteps hsize h fun c hc => hlower c (Or.inr hc))
  | closure | definition =>
      simp only [agenda, hrole] at hlower ⊢
      exact (leavesWithin_plainSteps hsize h fun c hc =>
        hlower c (by simpa [scopedSteps] using hc)).scopedSteps _
  | sequence =>
      simp only [agenda, hrole] at hlower ⊢
      exact leavesWithin_flat hsize h (fun _ => mem_children_of_mem_parts)
        (fun c hc => hlower c (by simpa using hc)) _
  | parameterList =>
      simp only [agenda, hrole, stepsCourse_map_event]
      exact leavesWithin_parameterEvents hsize h
  | plain =>
      simp only [agenda, hrole] at hlower ⊢
      exact leavesWithin_plainSteps hsize h hlower

omit hsize in
theorem placed_of_mem_loweredFrom (h : Placed source n) (hc : c ∈ loweredFrom source n) :
    Placed source c :=
  have hinside := inside_of_mem_loweredFrom h.1 (fun _ hn => hn.inside) hc
  ⟨everywhere_of_mem_loweredFrom h.1 hc, Nat.le_trans hinside.2 h.2⟩

/-- **A course leaves its node where the concrete node lies.** -/
theorem leavesWithin_course (h : Placed source n) :
    LeavesWithin source (course source n) 1 n.startByte n.endByte := by
  induction n using lowered_induction source with
  | step n ih =>
      have henter : LeavesWithin source [.enter n] 0 n.startByte n.endByte := .quiet_one rfl
      have hagenda := leavesWithin_agenda hsize h fun c hc =>
        ih c hc (placed_of_mem_loweredFrom h (lower_mem_agenda.1 hc))
      rw [course_eq]
      simpa using henter.append hagenda

omit hsize

/-! ## The arena of a source -/

theorem nested_of_ok {grammar : Grammar} {arena : Arena} (h : Placed source (grammar source))
    (harena : arenaOf grammar source = .ok arena) : arena.Nested source.size := by
  cases hsource : source.isEmpty with
  | true =>
      obtain rfl := arenaOf_of_isEmpty hsource harena
      exact Arena.nested_empty _
  | false =>
      obtain ⟨root, -, -, hform⟩ := forest_arenaOf hsource harena
      obtain ⟨hnested, -⟩ :=
        leavesWithin_course (size_le_of_arenaOf harena) h ⟨{}, []⟩ (Arena.nested_empty _)
      simpa only [Arena.Nested, Arena.Within, hform] using hnested

/-- **Every node of an arena lies in the source and encloses its children**, so that its span can
be cut out of the source. -/
theorem nested_arenaOf {grammar : Grammar} {source : ByteArray} {arena : Arena}
    (horder : (grammar source).Everywhere InOrder) (hend : (grammar source).endByte ≤ source.size)
    (h : arenaOf grammar source = .ok arena) {id : NodeId} {node : Node}
    (hnode : arena.get? id = some node) :
    node.span.startByte ≤ node.span.endByte ∧ node.span.endByte.toNat ≤ source.size ∧
      (∃ bytes, node.span.slice? source = some bytes) ∧
      ∀ c ∈ arena.children id, ∃ child, arena.get? c = some child ∧
        node.span.Encloses child.span := by
  have hform : arena.form? id = some (node.shape, node.span) := by rw [Arena.form?, hnode]; rfl
  obtain ⟨⟨-, hle, hlast⟩, hbelow⟩ := nested_of_ok ⟨horder, hend⟩ h id _ _ hform
  refine ⟨hle, hlast, ⟨_, if_pos ⟨hle, hlast⟩⟩, fun c hc => ?_⟩
  rw [Arena.children_of_form? hform] at hc
  obtain ⟨shape, span, hchild, hlies⟩ := hbelow c hc
  obtain ⟨child, hget, heq⟩ := Option.map_eq_some_iff.1 hchild
  cases heq
  exact ⟨child, hget, hlies.encloses⟩

/-- The tree of `a.b(c) {}`: a call with a receiver, an argument and an empty block. -/
def chainWithBlock : Concrete :=
  ⟨"call", true, none, 0, 9, 0, 0,
    [⟨"identifier", true, some "receiver", 0, 1, 0, 0, []⟩, ⟨".", false, none, 1, 2, 0, 1, []⟩,
      ⟨"identifier", true, some "method", 2, 3, 0, 2, []⟩,
      ⟨"argument_list", true, some "arguments", 3, 6, 0, 3,
        [⟨"(", false, none, 3, 4, 0, 3, []⟩, ⟨"identifier", true, none, 4, 5, 0, 4, []⟩,
          ⟨")", false, none, 5, 6, 0, 5, []⟩]⟩,
      ⟨"block", true, some "block", 7, 9, 0, 7,
        [⟨"\x7b", false, none, 7, 8, 0, 7, []⟩, ⟨"\x7d", false, none, 8, 9, 0, 8, []⟩]⟩]⟩

/-- In the arena of `a.b(c) {}` the call ends before its block, and the node around the two has the
extent of both. -/
theorem nested_arenaOf_chainWithBlock : ∃ arena,
    arenaOf (fun _ => chainWithBlock) "a.b(c) {}".toUTF8 = .ok arena ∧
    (arena.nodes.toList.map fun node => (node.span.startByte, node.span.endByte)) =
      [(0, 1), (4, 5), (0, 6), (7, 7), (0, 9)] ∧
    ∀ id node, arena.get? id = some node →
      node.span.startByte ≤ node.span.endByte ∧
        node.span.endByte.toNat ≤ "a.b(c) {}".toUTF8.size ∧
        (∃ bytes, node.span.slice? "a.b(c) {}".toUTF8 = some bytes) ∧
        ∀ c ∈ arena.children id, ∃ child, arena.get? c = some child ∧
          node.span.Encloses child.span := by
  obtain ⟨arena, harena, hspans⟩ : ∃ arena,
      arenaOf (fun _ => chainWithBlock) "a.b(c) {}".toUTF8 = .ok arena ∧
      (arena.nodes.toList.map fun node => (node.span.startByte, node.span.endByte)) =
        [(0, 1), (4, 5), (0, 6), (7, 7), (0, 9)] :=
    ⟨_, rfl, rfl⟩
  exact ⟨arena, harena, hspans, fun _ _ => nested_arenaOf (by decide) (by decide) harena⟩

end Lowering

end SpecLint
