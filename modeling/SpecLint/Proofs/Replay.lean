import SpecLint.Proofs.Arena.Push
import SpecLint.Proofs.Course

/-!
# Replaying a course

A course is a program for a small stack machine.  The machine has the state of lowering and a stack
with the nodes that have no parent yet; an event that pushes a node takes its children from the
stack.

* `step`, `replay` — what one event does, and what a course does.
* `leaves_course` — a whole course leaves one more node on the stack.
* `step_cases` — an event leaves the arena alone or pushes one node.
* `form?_replay` — no event changes the shape or the span of a node that is there already.
* `replay_lower` — **lowering is the replay of its course**: where lowering succeeds, replaying the
  course of the node leads to the same state, with the lowered node on top of the stack.

What the replay of every course keeps is thus kept by lowering.
-/

namespace SpecLint

namespace Lowering

/-! ## The machine -/

/-- The shape of a node with the given head and children. -/
def Head.shape : Head → List NodeId → Shape
  | .send true method selector safe, receiver :: arguments =>
      .send { receiver := some receiver, method, arguments, selector, safe }
  | .send _ method selector safe, arguments =>
      .send { receiver := none, method, arguments, selector, safe }
  | .params, items => .params items
  | .sequence, items => .sequence items
  | .other kind, children => .other kind children

/-- The node that wraps a call and its block. -/
def wrapShape (implicit : Bool) (block : Block) : Shape :=
  if implicit then .numBlock block else .block block

/-- The shape of a wrapping node with the given children: call, parameters, and statements if there
are any.  No course wraps another number of nodes. -/
def wrappedShape (implicit : Bool) : List NodeId → Shape
  | [call, params] => wrapShape implicit { call, params, body := none }
  | [call, params, body] => wrapShape implicit { call, params, body := some body }
  | items => .sequence items

/-- The shape of the node for an identifier. -/
def readShape (isLocal : Bool) (name : String) (span : Span) : Shape :=
  if isLocal then .localRead name
  else .send { receiver := none, method := name, arguments := [], selector := span }

@[simp] theorem children_shape (head : Head) (ids : List NodeId) :
    (head.shape ids).children = ids := by
  cases head with
  | send receiver => cases receiver <;> cases ids <;> rfl
  | params => rfl
  | sequence => rfl
  | other => rfl

/-- Only a wrapping node is a block. -/
theorem shape_ne_block (head : Head) (ids : List NodeId) (block : Block) :
    head.shape ids ≠ .block block ∧ head.shape ids ≠ .numBlock block := by
  cases head with
  | send receiver => cases receiver <;> cases ids <;> simp [Head.shape]
  | params | sequence | other => simp [Head.shape]

/-- A wrapping node is no call. -/
theorem wrappedShape_ne_send {implicit : Bool} {ids : List NodeId} {call : Call} :
    wrappedShape implicit ids ≠ .send call := by
  unfold wrappedShape wrapShape
  split <;> cases implicit <;> simp

@[simp] theorem children_wrappedShape (implicit : Bool) (ids : List NodeId) :
    (wrappedShape implicit ids).children = ids := by
  unfold wrappedShape wrapShape
  split <;> cases implicit <;> rfl

@[simp] theorem children_readShape (isLocal : Bool) (name : String) (span : Span) :
    (readShape isLocal name span).children = [] := by
  cases isLocal <;> rfl

namespace State

/-- Opens a scope, and a block frame with it unless the scope is that of a definition. -/
def enterScope (s : State) : ScopeKind → State
  | .attached explicit =>
      (s.openFrame (if explicit then .barred else .allowed false)).openScope true
  | .closure => (s.openFrame .barred).openScope true
  | .definition => s.openScope false

/-- Closes the innermost scope, and the block frame that was opened with it. -/
def leaveScope (s : State) : ScopeKind → State
  | .attached _ | .closure => s.closeScope.closeFrame
  | .definition => s.closeScope

@[simp] theorem arena_enterScope (s : State) (kind : ScopeKind) :
    (s.enterScope kind).arena = s.arena := by
  cases kind <;> rfl

@[simp] theorem arena_leaveScope (s : State) (kind : ScopeKind) :
    (s.leaveScope kind).arena = s.arena := by
  cases kind <;> rfl

@[simp] theorem arena_declare (s : State) (name : String) :
    (s.declare name).arena = s.arena := by
  obtain ⟨arena, scopes, frames, depth⟩ := s
  cases scopes <;> rfl

@[simp] theorem arena_useImplicit (s : State) : s.useImplicit.arena = s.arena := by
  obtain ⟨arena, scopes, frames, depth⟩ := s
  rcases frames with _ | ⟨_ | _, _⟩ <;> rfl

@[simp] theorem depth_enterScope (s : State) (kind : ScopeKind) :
    (s.enterScope kind).depth = s.depth := by
  cases kind <;> rfl

@[simp] theorem depth_leaveScope (s : State) (kind : ScopeKind) :
    (s.leaveScope kind).depth = s.depth := by
  cases kind <;> rfl

@[simp] theorem depth_declare (s : State) (name : String) :
    (s.declare name).depth = s.depth := by
  obtain ⟨arena, scopes, frames, depth⟩ := s
  cases scopes <;> rfl

@[simp] theorem depth_useImplicit (s : State) : s.useImplicit.depth = s.depth := by
  obtain ⟨arena, scopes, frames, depth⟩ := s
  rcases frames with _ | ⟨_ | _, _⟩ <;> rfl

/-- Notes that the identifier `name` is read where it is no local variable. -/
def noteRead (s : State) (name : String) : State :=
  if isImplicitParameter name then s.useImplicit else s

@[simp] theorem arena_noteRead (s : State) (name : String) :
    (s.noteRead name).arena = s.arena := by
  unfold noteRead
  split <;> simp

@[simp] theorem depth_noteRead (s : State) (name : String) :
    (s.noteRead name).depth = s.depth := by
  unfold noteRead
  split <;> simp

end State

/-- A state of lowering, and the nodes without a parent, the last one first. -/
structure Machine where
  /-- The state of lowering. -/
  state : State
  /-- The nodes without a parent. -/
  stack : List NodeId

namespace Machine

/-- Pushes a node over the top `arity` nodes of the stack. -/
def make (m : Machine) (shape : List NodeId → Shape) (arity : Nat) (span : Span) : Machine where
  state := (m.state.push (shape (m.stack.take arity).reverse) span).2
  stack := m.state.arena.size :: m.stack.drop arity

/-- Pushes the node for the identifier `name`. -/
def resolve (m : Machine) (name : String) (span : Span) : Machine :=
  { m with state := if m.state.isLocal name then m.state else m.state.noteRead name }.make
    (fun _ => readShape (m.state.isLocal name) name span) 0 span

end Machine

variable (source : ByteArray)

/-- What one event does. -/
def step (m : Machine) : Event → Machine
  | .enter _ => m
  | .opened kind => { m with state := m.state.enterScope kind }
  | .closed kind => { m with state := m.state.leaveScope kind }
  | .bound n => { m with state := m.state.declare (nameOf source n) }
  | .read n => m.resolve (nameOf source n) (spanOf n)
  | .pushed head arity span => m.make head.shape arity span
  | .wrapped arity span =>
      { m with state := m.state.leaveScope .closure }.make
        (wrappedShape (m.state.frame == Frame.allowed true)) arity span

/-- What some events do, one after the other. -/
def replay (m : Machine) (events : List Event) : Machine := events.foldl (step source) m

@[simp] theorem replay_nil (m : Machine) : replay source m [] = m := rfl

@[simp] theorem replay_cons (m : Machine) (e : Event) (events : List Event) :
    replay source m (e :: events) = replay source (step source m e) events := rfl

@[simp] theorem replay_append (m : Machine) (first second : List Event) :
    replay source m (first ++ second) = replay source (replay source m first) second :=
  List.foldl_append

/-! ## What one event changes -/

/-- How many children the node has that an event pushes, and the extent of the node. -/
def Event.push? : Event → Option (Nat × Span)
  | .read n => some (0, spanOf n)
  | .pushed _ arity span | .wrapped arity span => some (arity, span)
  | _ => none

/-- An event that pushes a node takes its children from the top of the stack. -/
theorem step_of_push (m : Machine) {e : Event} {arity : Nat} {span : Span}
    (he : e.push? = some (arity, span)) :
    ∃ shape, shape.children = (m.stack.take arity).reverse ∧
      (step source m e).state.arena = (m.state.arena.push shape span).2 ∧
      (step source m e).stack = m.state.arena.size :: m.stack.drop arity := by
  have harena (state : State) (stack : List NodeId) (shape : List NodeId → Shape) (arity : Nat)
      (span : Span) : ((Machine.mk state stack).make shape arity span).state.arena =
        (state.arena.push (shape (stack.take arity).reverse) span).2 := rfl
  cases e with
  | enter | opened | closed | bound => cases he
  | read n =>
      cases he
      refine ⟨readShape (m.state.isLocal (nameOf source n)) (nameOf source n) (spanOf n),
        by simp, ?_, ?_⟩
      · rw [step, Machine.resolve, harena]
        split <;> simp
      · simp only [step, Machine.resolve, Machine.make]
        split <;> simp
  | pushed head arity span =>
      cases he
      exact ⟨head.shape (m.stack.take arity).reverse, by simp, rfl, rfl⟩
  | wrapped arity span =>
      cases he
      exact ⟨wrappedShape (m.state.frame == Frame.allowed true) (m.stack.take arity).reverse,
        by simp, rfl, rfl⟩

/-- An event either leaves arena and stack alone, or it pushes a node over the top of the stack. -/
theorem step_cases (m : Machine) (e : Event) :
    (e.pushes = false ∧ (step source m e).state.arena = m.state.arena ∧
      (step source m e).stack = m.stack) ∨
    (e.pushes = true ∧ ∃ shape arity span, shape.children = (m.stack.take arity).reverse ∧
      (step source m e).state.arena = (m.state.arena.push shape span).2 ∧
      (step source m e).stack = m.state.arena.size :: m.stack.drop arity) := by
  cases he : e.push? with
  | none =>
      left
      cases e with
      | enter | opened | closed | bound => exact ⟨rfl, by simp [step], rfl⟩
      | read | pushed | wrapped => cases he
  | some form =>
      obtain ⟨shape, hstep⟩ := step_of_push source m he
      refine Or.inr ⟨?_, shape, _, _, hstep⟩
      cases e with
      | enter | opened | closed | bound => cases he
      | read | pushed | wrapped => rfl

theorem size_step (m : Machine) (e : Event) : (step source m e).state.arena.size =
    m.state.arena.size + if e.pushes then 1 else 0 := by
  rcases step_cases source m e with ⟨he, harena, -⟩ | ⟨he, shape, arity, span, -, harena, -⟩
  · simp [he, harena]
  · simp [he, harena]

theorem form?_step (m : Machine) (e : Event) {id : NodeId} (h : id < m.state.arena.size) :
    (step source m e).state.arena.form? id = m.state.arena.form? id := by
  rcases step_cases source m e with ⟨-, harena, -⟩ | ⟨-, shape, arity, span, -, harena, -⟩
  · rw [harena]
  · rw [harena, Arena.form?_push_of_lt _ _ _ h]

/-- Number of nodes that some events push. -/
def pushes (events : List Event) : Nat := events.countP Event.pushes

theorem size_replay (m : Machine) (events : List Event) :
    (replay source m events).state.arena.size = m.state.arena.size + pushes events := by
  induction events generalizing m with
  | nil => rfl
  | cons e events ih =>
      rw [replay_cons, ih, size_step, pushes, pushes, List.countP_cons]
      omega

/-- **A pushed node keeps its shape and its span.** -/
theorem form?_replay (m : Machine) (events : List Event) {id : NodeId}
    (h : id < m.state.arena.size) :
    (replay source m events).state.arena.form? id = m.state.arena.form? id := by
  induction events generalizing m with
  | nil => rfl
  | cons e events ih =>
      rw [replay_cons, ih, form?_step source m e h]
      rw [size_step]
      exact Nat.lt_of_lt_of_le h (Nat.le_add_right _ _)

theorem form?_replay_of_eq_some {m : Machine} {id : NodeId} {form : Shape × Span}
    (h : m.state.arena.form? id = some form) (events : List Event) :
    (replay source m events).state.arena.form? id = some form := by
  rw [form?_replay source m events (Arena.lt_size_of_form? h), h]

/-! ## Levels

Events know nothing of levels: a level may be left before they are replayed or afterwards. -/

/-- The machine one level further up. -/
def Machine.ascend (m : Machine) : Machine := { m with state := m.state.ascend }

theorem State.noteRead_ascend (s : State) (name : String) :
    s.ascend.noteRead name = (s.noteRead name).ascend := by
  unfold noteRead
  split
  · obtain ⟨arena, scopes, frames, depth⟩ := s
    rcases frames with _ | ⟨_ | _, _⟩ <;> rfl
  · rfl

theorem step_ascend (m : Machine) (e : Event) :
    step source m.ascend e = (step source m e).ascend := by
  cases e with
  | enter | pushed | wrapped => rfl
  | opened kind | closed kind => cases kind <;> rfl
  | bound n =>
      obtain ⟨⟨arena, scopes, frames, depth⟩, stack⟩ := m
      cases scopes <;> rfl
  | read n =>
      have hlocal : m.ascend.state.isLocal (nameOf source n) =
          m.state.isLocal (nameOf source n) := rfl
      have hnote : m.ascend.state.noteRead (nameOf source n) =
          (m.state.noteRead (nameOf source n)).ascend := m.state.noteRead_ascend _
      rw [step, step, Machine.resolve, Machine.resolve, hlocal, hnote]
      generalize m.state.noteRead (nameOf source n) = noted
      cases m.state.isLocal (nameOf source n) <;> rfl

theorem replay_ascend (m : Machine) (events : List Event) :
    replay source m.ascend events = (replay source m events).ascend := by
  induction events generalizing m with
  | nil => rfl
  | cons e events ih => rw [replay_cons, replay_cons, step_ascend, ih]

theorem depth_step (m : Machine) (e : Event) :
    (step source m e).state.depth = m.state.depth := by
  have hmake (m : Machine) (shape : List NodeId → Shape) (arity : Nat) (span : Span) :
      (m.make shape arity span).state.depth = m.state.depth := rfl
  cases e with
  | enter | pushed => rfl
  | opened | closed | bound => simp [step]
  | read n =>
      rw [step, Machine.resolve, hmake]
      split <;> simp
  | wrapped arity span => rw [step, hmake, State.depth_leaveScope]

/-- Events neither enter nor leave a level. -/
theorem depth_replay (m : Machine) (events : List Event) :
    (replay source m events).state.depth = m.state.depth := by
  induction events generalizing m with
  | nil => rfl
  | cons e events ih => rw [replay_cons, ih, depth_step]

/-! ## What a course leaves on the stack -/

/-- Events that leave `count` more nodes on the stack. -/
def Leaves (events : List Event) (count : Nat) : Prop :=
  ∀ m, ∃ ids, ids.length = count ∧ (replay source m events).stack = ids ++ m.stack

variable {source}

theorem Leaves.append {first second : List Event} {j k : Nat} (hfirst : Leaves source first j)
    (hsecond : Leaves source second k) : Leaves source (first ++ second) (j + k) := by
  intro m
  obtain ⟨ids, hids, hm⟩ := hfirst m
  obtain ⟨more, hmore, hm'⟩ := hsecond (replay source m first)
  exact ⟨more ++ ids, by simp [hids, hmore, Nat.add_comm], by simp [hm, hm']⟩

theorem leaves_nil : Leaves source [] 0 := fun _ => ⟨[], rfl, rfl⟩

theorem leaves_of_not_pushes {e : Event} (h : e.pushes = false) : Leaves source [e] 0 := by
  intro m
  refine ⟨[], rfl, ?_⟩
  cases e <;> first | rfl | simp [Event.pushes] at h

theorem leaves_read (n : Concrete) : Leaves source [.read n] 1 := by
  intro m
  refine ⟨[m.state.arena.size], rfl, ?_⟩
  simp only [replay_cons, replay_nil, step, Machine.resolve, Machine.make]
  split <;> simp

/-- An event that pushes a node over all that was left replaces it by that node. -/
theorem Leaves.over {events : List Event} {count : Nat} (h : Leaves source events count) {e : Event}
    (he : ∀ m, (step source m e).stack = m.state.arena.size :: m.stack.drop count) :
    Leaves source (events ++ [e]) 1 := by
  intro m
  obtain ⟨ids, rfl, hm⟩ := h m
  exact ⟨[(replay source m events).state.arena.size], rfl, by simp [he, hm]⟩

theorem Leaves.pushed {events : List Event} {count : Nat} (h : Leaves source events count)
    (head : Head) (span : Span) : Leaves source (events ++ [.pushed head count span]) 1 :=
  h.over fun _ => rfl

theorem Leaves.wrapped {events : List Event} {count : Nat} (h : Leaves source events count)
    (span : Span) : Leaves source (events ++ [.wrapped count span]) 1 :=
  h.over fun m => by simp [step, Machine.make]

theorem leaves_map_bound (ns : List Concrete) : Leaves source (ns.map .bound) 0 := by
  induction ns with
  | nil => exact leaves_nil
  | cons n ns ih =>
      have hbound : Leaves source [.bound n] 0 := leaves_of_not_pushes rfl
      exact hbound.append ih

theorem leaves_parameters (ps : List Concrete) : Leaves source
    (ps.flatMap fun p => (targets p).map .bound ++ [.pushed (.other p.kind) 0 (spanOf p)])
    ps.length := by
  induction ps with
  | nil => exact leaves_nil
  | cons p ps ih =>
      rw [List.flatMap_cons, List.length_cons, Nat.add_comm]
      exact ((leaves_map_bound (targets p)).pushed _ _).append ih

theorem leaves_parameterEvents (params : Concrete) : Leaves source (parameterEvents params) 1 :=
  (leaves_parameters (params.parts [])).pushed _ _

theorem leaves_blockParamEvents (block : Concrete) : Leaves source (blockParamEvents block) 1 := by
  unfold blockParamEvents
  split
  · exact leaves_parameterEvents _
  · exact leaves_nil.pushed _ _

theorem leaves_flatMap {items : List Concrete}
    (h : ∀ c ∈ items, Leaves source (course source c) 1) :
    Leaves source (items.flatMap (course source)) items.length := by
  induction items with
  | nil => exact leaves_nil
  | cons c items ih =>
      rw [List.flatMap_cons, List.length_cons, Nat.add_comm]
      exact (h c (by simp)).append (ih fun c hc => h c (by simp [hc]))

theorem leaves_overSteps {items : List Concrete}
    (h : ∀ c ∈ items, Leaves source (course source c) 1) (head : Head) (span : Span) :
    Leaves source (stepsCourse source (overSteps items head span)) 1 := by
  rw [stepsCourse_overSteps]
  exact (leaves_flatMap h).pushed head span

theorem leaves_scopedSteps {steps : List Step} (h : Leaves source (stepsCourse source steps) 1)
    (kind : ScopeKind) : Leaves source (stepsCourse source (scopedSteps kind steps)) 1 := by
  have hopened : Leaves source [.opened kind] 0 := leaves_of_not_pushes rfl
  have hclosed : Leaves source [.closed kind] 0 := leaves_of_not_pushes rfl
  simpa [scopedSteps, stepCourse] using (hopened.append h).append hclosed

theorem length_blockItems_le (block : Concrete) (h : groupsItems block = false) :
    (blockItems block).length = if (blockItems block).isEmpty then 0 else 1 := by
  unfold blockItems
  cases hbody : block.childByField? "body" with
  | some body => simp
  | none =>
      have hparts : block.parts ["parameters"] = [] := by simpa [groupsItems, hbody] using h
      simp [hparts]

theorem isEmpty_blockItems_of_groups {block : Concrete} (h : groupsItems block = true) :
    (blockItems block).isEmpty = false := by
  simp only [groupsItems, Bool.and_eq_true, Option.isNone_iff_eq_none] at h
  simpa [blockItems, h.1] using h.2

theorem leaves_blockBodySteps {block : Concrete}
    (h : ∀ c ∈ blockItems block, Leaves source (course source c) 1) :
    Leaves source (stepsCourse source (blockBodySteps block))
      (if (blockItems block).isEmpty then 0 else 1) := by
  unfold blockBodySteps
  cases hgroups : groupsItems block with
  | true =>
      rw [isEmpty_blockItems_of_groups hgroups]
      exact leaves_overSteps h .sequence (spanOf block)
  | false =>
      rw [← length_blockItems_le block hgroups]
      simpa using leaves_flatMap h

/-- A block takes the call it is attached to from the stack and leaves the node that wraps both. -/
theorem leaves_attachedSteps {block : Concrete} (span : Span) {events : List Event}
    (hcall : Leaves source events 1)
    (h : ∀ c ∈ blockItems block, Leaves source (course source c) 1) :
    Leaves source (events ++ stepsCourse source (attachedSteps block span)) 1 := by
  have hopened : Leaves source [.opened (blockScope block)] 0 := leaves_of_not_pushes rfl
  have hall := ((hcall.append hopened).append (leaves_blockParamEvents block)).append
    (leaves_blockBodySteps h)
  have hcount : 1 + 0 + 1 + (if (blockItems block).isEmpty then 0 else 1) =
      if (blockItems block).isEmpty then 2 else 3 := by
    split <;> rfl
  rw [hcount] at hall
  simpa [attachedSteps, stepCourse] using hall.wrapped span

/-- **A course leaves one more node on the stack.** -/
theorem leaves_course (n : Concrete) : Leaves source (course source n) 1 := by
  induction n using lowered_induction source with
  | step n ih =>
      have henter : Leaves source [.enter n] 0 := leaves_of_not_pushes rfl
      suffices h : Leaves source (stepsCourse source (agenda source n)) 1 by
        rw [course_eq]
        simpa using henter.append h
      have hform := agenda_form source n
      generalize agenda source n = steps at hform ih ⊢
      cases hform with
      | read => simpa [stepCourse] using leaves_read n
      | flat names items head span =>
          rw [stepsCourse_append, ← List.map_map, stepsCourse_map_event]
          exact (leaves_map_bound names).append
            (leaves_overSteps (fun c hc => ih c (by simp [hc])) head span)
      | nested kind items head span =>
          exact leaves_scopedSteps
            (leaves_overSteps (fun c hc => ih c (by simp [scopedSteps, hc])) head span) kind
      | params => simpa using leaves_parameterEvents n
      | attached =>
          rw [stepsCourse_append]
          exact leaves_attachedSteps _
            (leaves_overSteps (fun c hc => ih c (by simp [Sending.steps, hc])) _ _)
            (fun c hc => ih c (by simp [hc]))

theorem stack_course (m : Machine) (n : Concrete) :
    ∃ id, (replay source m (course source n)).stack = id :: m.stack := by
  obtain ⟨ids, hids, hstack⟩ := @leaves_course source n m
  obtain ⟨id, rfl⟩ := List.length_eq_one_iff.1 hids
  exact ⟨id, hstack⟩

end Lowering

end SpecLint
