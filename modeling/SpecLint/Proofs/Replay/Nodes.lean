import SpecLint.Proofs.Arena.Forest
import SpecLint.Proofs.Replay

/-!
# The nodes that a replay pushes

Every node of the arena was pushed by one event, whose place in the course tells shape and span of
the node.

* `pushedForm` — shape and span of the node that an event pushes.
* `exists_push`, `form?_of_push` — the event that pushed a node, and the node that an event pushed.
* `rooted_replay` — **the ids of the arena are a post-order**: the nodes on the stack are the roots
  of a forest that fills the arena.
* `root_of_course` — the node that a course leaves on the stack is the one pushed last.
* `replay_blockCourse` — what the parameters and statements of an attached block leave there.
-/

namespace SpecLint

namespace Lowering

variable (source : ByteArray)

/-! ## Events and nodes -/

/-- Shape and span of the node that an event pushes. -/
def pushedForm (m : Machine) : Event → Option (Shape × Span)
  | .read n =>
      some (readShape (m.state.isLocal (nameOf source n)) (nameOf source n) (spanOf n), spanOf n)
  | .pushed head arity span => some (head.shape (m.stack.take arity).reverse, span)
  | .wrapped arity span =>
      some (wrappedShape (m.state.frame == Frame.allowed true) (m.stack.take arity).reverse, span)
  | _ => none

theorem form?_step_size (m : Machine) {e : Event} (he : e.pushes = true) :
    (step source m e).state.arena.form? m.state.arena.size = pushedForm source m e := by
  have hmake (state : State) (stack : List NodeId) (shape : List NodeId → Shape) (arity : Nat)
      (span : Span) : ((Machine.mk state stack).make shape arity span).state.arena.form?
        state.arena.size = some (shape (stack.take arity).reverse, span) :=
    Arena.form?_push_size _ _ _
  cases e with
  | enter | opened | closed | bound => simp [Event.pushes] at he
  | read n =>
      have harena : (if m.state.isLocal (nameOf source n) then m.state
          else m.state.noteRead (nameOf source n)).arena = m.state.arena := by
        split <;> simp
      rw [step, Machine.resolve, ← harena, hmake]
      rfl
  | pushed head arity span =>
      rw [step, hmake]
      rfl
  | wrapped arity span =>
      have harena : (m.state.leaveScope .closure).arena = m.state.arena := by simp
      rw [step, ← harena, hmake]
      rfl

theorem stack_step (m : Machine) {e : Event} (he : e.pushes = true) :
    ∃ rest, (step source m e).stack = m.state.arena.size :: rest := by
  rcases step_cases source m e with ⟨hquiet, -⟩ | ⟨-, shape, arity, span, -, -, hstack⟩
  · simp [hquiet] at he
  · exact ⟨_, hstack⟩

/-- The node that an event pushed stays as it is. -/
theorem form?_of_push (m : Machine) {events before after : List Event} {e : Event}
    (h : events = before ++ e :: after) (he : e.pushes = true) :
    (replay source m events).state.arena.form? (replay source m before).state.arena.size =
      pushedForm source (replay source m before) e := by
  rw [h, replay_append, replay_cons, form?_replay, form?_step_size source _ he]
  rw [size_step, he]
  exact Nat.lt_succ_self _

/-- **Every new node was pushed by one of the events.** -/
theorem exists_push (m : Machine) {events : List Event} {id : Nat}
    (hlo : m.state.arena.size ≤ id) (hhi : id < (replay source m events).state.arena.size) :
    ∃ before e after, events = before ++ e :: after ∧ e.pushes = true ∧
      (replay source m before).state.arena.size = id := by
  induction events generalizing m with
  | nil => exact absurd hhi (Nat.not_lt.2 hlo)
  | cons e events ih =>
      by_cases hnow : e.pushes = true ∧ m.state.arena.size = id
      · exact ⟨[], e, events, rfl, hnow.1, hnow.2⟩
      · have hlo' : (step source m e).state.arena.size ≤ id := by
          rw [size_step]
          cases he : e.pushes with
          | false => simpa using hlo
          | true =>
              have : m.state.arena.size ≠ id := fun h => hnow ⟨he, h⟩
              simp only [if_true]
              omega
        obtain ⟨before, e', after, rfl, he', hid⟩ := ih (step source m e) hlo' hhi
        exact ⟨e :: before, e', after, rfl, he', hid⟩

/-! ## The forest of a machine -/

/-- The nodes on the stack are the roots of a forest that fills the arena. -/
def Machine.Rooted (m : Machine) : Prop :=
  m.state.arena.Forest none 0 m.state.arena.size m.stack.reverse

theorem rooted_empty : Machine.Rooted ⟨{}, []⟩ := Arena.Forest.nil

variable {source}

theorem rooted_step {m : Machine} (h : m.Rooted) (e : Event) : (step source m e).Rooted := by
  unfold Machine.Rooted at h ⊢
  rcases step_cases source m e with
    ⟨-, harena, hstack⟩ | ⟨-, shape, arity, span, hchildren, harena, hstack⟩
  · rwa [harena, hstack]
  · rw [harena, hstack, List.reverse_cons]
    refine Arena.Forest.push span ?_
    rwa [hchildren, ← List.reverse_append, List.take_append_drop]

/-- **The ids of the arena are a post-order** after every replay. -/
theorem rooted_replay {m : Machine} (h : m.Rooted) (events : List Event) :
    (replay source m events).Rooted := by
  induction events generalizing m with
  | nil => exact h
  | cons e events ih => exact ih (rooted_step h e)

/-! ## The node that a course leaves -/

/-- Events that push nothing leave arena and stack alone. -/
theorem replay_quiet (m : Machine) {events : List Event} (h : ∀ e ∈ events, e.pushes = false) :
    (replay source m events).state.arena = m.state.arena ∧
      (replay source m events).stack = m.stack := by
  induction events generalizing m with
  | nil => exact ⟨rfl, rfl⟩
  | cons e events ih =>
      obtain ⟨harena, hstack⟩ := ih (step source m e) fun e' he' => h e' (by simp [he'])
      have hquiet := h e (by simp)
      rcases step_cases source m e with ⟨-, harena', hstack'⟩ | ⟨hpushes, -⟩
      · exact ⟨harena.trans harena', hstack.trans hstack'⟩
      · simp [hquiet] at hpushes

/-- **The node that a course leaves on the stack is the one pushed last.** -/
theorem root_of_course (m : Machine) {n : Concrete} {before after : List Event} {e : Event}
    (h : course source n = before ++ e :: after) (he : e.pushes = true)
    (hafter : ∀ e' ∈ after, e'.pushes = false) :
    (replay source m (course source n)).stack =
        (replay source m before).state.arena.size :: m.stack ∧
      (replay source m (course source n)).state.arena.form?
          (replay source m before).state.arena.size =
        pushedForm source (replay source m before) e := by
  refine ⟨?_, form?_of_push source m h he⟩
  obtain ⟨id, hleft⟩ := @stack_course source m n
  obtain ⟨rest, htop⟩ := stack_step source (replay source m before) he
  have hstack : (replay source m (course source n)).stack =
      (replay source m before).state.arena.size :: rest := by
    rw [h, replay_append, replay_cons, (replay_quiet _ hafter).2, htop]
  rw [hstack] at hleft
  rw [hstack, (List.cons.inj hleft).2]

/-- The call that is pushed for `call` by a machine in the state `m`: its receiver is the node that
the course of the concrete receiver leaves. -/
def pushedCall (source : ByteArray) (m : Machine) (call : Sending) (arguments : List NodeId) :
    Call where
  receiver := call.receiver.bind fun r => (replay source m (course source r)).stack.head?
  method := call.method
  arguments
  selector := call.selector
  safe := call.safe

/-- A call is pushed over its operands. -/
theorem replay_sending (m : Machine) (call : Sending) : ∃ arguments,
    arguments.length = call.arguments.length ∧
    (replay source m (stepsCourse source call.steps)).stack =
      (replay source m (call.operands.flatMap (course source))).state.arena.size :: m.stack ∧
    (replay source m (stepsCourse source call.steps)).state.arena.form?
        (replay source m (call.operands.flatMap (course source))).state.arena.size =
      some (.send (pushedCall source m call arguments), call.span) := by
  obtain ⟨arguments, hlength, ids, hids, hstack, hshape⟩ : ∃ arguments : List NodeId,
      arguments.length = call.arguments.length ∧ ∃ ids, ids.length = call.operands.length ∧
        (replay source m (call.operands.flatMap (course source))).stack = ids ++ m.stack ∧
        call.head.shape ids.reverse = .send (pushedCall source m call arguments) := by
    cases hreceiver : call.receiver with
    | none =>
        have hoperands : call.operands = call.arguments := by simp [Sending.operands, hreceiver]
        obtain ⟨ids, hids, hstack⟩ := leaves_flatMap (fun c _ => leaves_course c) m
        refine ⟨ids.reverse, ?_, ids, hids, hstack, ?_⟩
        · rw [List.length_reverse, hids, hoperands]
        · simp [Sending.head, pushedCall, hreceiver, Head.shape]
    | some r =>
        have hoperands : call.operands = r :: call.arguments := by
          simp [Sending.operands, hreceiver]
        obtain ⟨t, hr⟩ := @stack_course source m r
        obtain ⟨ids, hids, hstack⟩ :=
          leaves_flatMap (fun c _ => leaves_course c) (replay source m (course source r))
        refine ⟨ids.reverse, by rw [List.length_reverse, hids], ids ++ [t], ?_, ?_, ?_⟩
        · simp [hoperands, hids]
        · rw [hoperands, List.flatMap_cons, replay_append, hstack, hr, List.append_assoc]
          rfl
        · simp [Sending.head, pushedCall, hreceiver, Head.shape, hr]
  refine ⟨arguments, hlength, ?_, ?_⟩
  · rw [Sending.steps, stepsCourse_overSteps, replay_append, replay_cons, replay_nil, step,
      Machine.make, hstack, ← hids]
    simp
  · rw [Sending.steps, stepsCourse_overSteps, form?_of_push source m rfl rfl, pushedForm, hstack,
      ← hids, List.take_left', hshape]
    rfl

/-! ## Attached blocks -/

/-- The events between the push of a call and the push of the node that wraps call and block. -/
def blockCourse (source : ByteArray) (block : Concrete) : List Event :=
  .opened (blockScope block) :: (blockParamEvents block ++
    stepsCourse source (blockBodySteps block))

theorem stepsCourse_attachedSteps (block : Concrete) (span : Span) :
    stepsCourse source (attachedSteps block span) = blockCourse source block ++
      [.wrapped (if (blockItems block).isEmpty then 2 else 3) span] := by
  simp [attachedSteps, blockCourse, stepCourse]

/-- The parameters of an attached block. -/
def blockParams (block : Concrete) : List Concrete :=
  match block.childByField? "parameters" with
  | some params => params.parts []
  | none => []

/-- Parameters leave one node, which lists as many children as there are parameters. -/
theorem replay_blockParamEvents (m : Machine) (block : Concrete) :
    ∃ params items span, (replay source m (blockParamEvents block)).stack = params :: m.stack ∧
      (replay source m (blockParamEvents block)).state.arena.form? params =
        some (.params items, span) ∧
      params < (replay source m (blockParamEvents block)).state.arena.size ∧
      items.length = (blockParams block).length := by
  obtain ⟨before, arity, span, hsplit, hleaves, harity⟩ : ∃ before arity span,
      blockParamEvents block = before ++ [.pushed .params arity span] ∧
      Leaves source before arity ∧ arity = (blockParams block).length := by
    unfold blockParamEvents blockParams
    cases block.childByField? "parameters" with
    | some params => exact ⟨_, _, _, rfl, leaves_parameters (params.parts []), rfl⟩
    | none => exact ⟨[], 0, _, rfl, leaves_nil, rfl⟩
  obtain ⟨ids, rfl, hstack⟩ := hleaves m
  refine ⟨(replay source m before).state.arena.size, ids.reverse, span, ?_, ?_, ?_, ?_⟩
  · rw [hsplit, replay_append, replay_cons, replay_nil, step, Machine.make, hstack]
    simp
  · rw [form?_of_push source m hsplit rfl, pushedForm, hstack]
    simp [Head.shape]
  · rw [hsplit, replay_append, replay_cons, replay_nil, size_step]
    exact Nat.lt_succ_self _
  · simpa using harity

/-- An attached block leaves its parameters on the stack, and its statements if it has any. -/
theorem replay_blockCourse (m : Machine) (block : Concrete) :
    ∃ params items span body,
      (replay source m (blockCourse source block)).stack =
        Option.toList body ++ params :: m.stack ∧
      (replay source m (blockCourse source block)).state.arena.form? params =
        some (.params items, span) ∧
      items.length = (blockParams block).length ∧
      body.toList.length = if (blockItems block).isEmpty then 0 else 1 := by
  have hblock : replay source m (blockCourse source block) = replay source
      (replay source (step source m (.opened (blockScope block))) (blockParamEvents block))
      (stepsCourse source (blockBodySteps block)) := by
    rw [blockCourse, replay_cons, replay_append]
  obtain ⟨params, items, span, hstack, hform, hlt, hitems⟩ := replay_blockParamEvents
    (step source m (.opened (blockScope block))) block
  obtain ⟨ids, hids, hbody⟩ := leaves_blockBodySteps (fun c _ => leaves_course c)
    (replay source (step source m (.opened (blockScope block))) (blockParamEvents block))
  have hopened : (step source m (.opened (blockScope block))).stack = m.stack := rfl
  refine ⟨params, items, span, ids.head?, ?_, ?_, hitems, ?_⟩
  · have hhead : ids.head?.toList = ids := by
      rcases ids with _ | ⟨id, _ | ⟨_, _⟩⟩
      · rfl
      · rfl
      · exfalso
        split at hids <;> simp at hids
    rw [hblock, hbody, hstack, hhead, hopened]
  · rw [hblock, form?_replay source _ _ hlt, hform]
  · rw [← hids]
    rcases ids with _ | ⟨id, _ | ⟨_, _⟩⟩
    · rfl
    · rfl
    · exfalso
      split at hids <;> simp at hids

/-- The node that wraps a call, its parameters and its statements. -/
theorem wrappedShape_over (implicit : Bool) (call params : NodeId) (body : Option NodeId)
    (stack : List NodeId) : wrappedShape implicit
      ((body.toList ++ params :: call :: stack).take (2 + body.toList.length)).reverse =
        wrapShape implicit { call, params, body } := by
  cases body <;> rfl

theorem course_of_attached {n block : Concrete} (hrole : n.role = .call)
    (hblock : n.childByField? "block" = some block) : course source n =
      (.enter n :: (stepsCourse source (callSending source n).steps ++ blockCourse source block)) ++
        [.wrapped (if (blockItems block).isEmpty then 2 else 3) (spanOf n)] := by
  rw [course_eq]
  simp [agenda, hrole, blockSteps, hblock, stepsCourse_attachedSteps]

/-- **The node that wraps a call and its block** names the call that was pushed and the parameters
of the block. -/
theorem wrapped_attached (m : Machine) (call : Sending) (block : Concrete) (extent : Span) :
    ∃ id arguments params items span body,
      pushedForm source
          (replay source m (stepsCourse source call.steps ++ blockCourse source block))
          (.wrapped (if (blockItems block).isEmpty then 2 else 3) extent) =
        some (wrapShape ((replay source m (stepsCourse source call.steps ++
          blockCourse source block)).state.frame == Frame.allowed true)
            { call := id, params, body }, extent) ∧
      (replay source m (stepsCourse source call.steps ++
        blockCourse source block)).state.arena.form? id =
          some (.send (pushedCall source m call arguments), call.span) ∧
      (replay source m (stepsCourse source call.steps ++
        blockCourse source block)).state.arena.form? params = some (.params items, span) ∧
      arguments.length = call.arguments.length ∧ items.length = (blockParams block).length := by
  obtain ⟨arguments, harguments, hcall, hform⟩ := @replay_sending source m call
  obtain ⟨params, items, span, body, hstack, hparams, hitems, hbody⟩ :=
    @replay_blockCourse source (replay source m (stepsCourse source call.steps)) block
  have harity : (if (blockItems block).isEmpty then 2 else 3) = 2 + body.toList.length := by
    rw [hbody]
    split <;> rfl
  refine ⟨(replay source m (call.operands.flatMap (course source))).state.arena.size, arguments,
    params, items, span, body, ?_, ?_, ?_, harguments, hitems⟩
  · rw [replay_append, pushedForm, hstack, hcall, harity, wrappedShape_over]
  · rw [replay_append, form?_replay_of_eq_some source hform]
  · rw [replay_append, hparams]

end Lowering

end SpecLint
