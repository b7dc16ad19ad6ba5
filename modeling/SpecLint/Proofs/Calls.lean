import SpecLint.Proofs.LocalNames

/-!
# Where the calls of an arena come from

A call of the arena is pushed for a node of the concrete tree that stands for a call, or for a name
that is no local variable.  A visit of the node in the course tells the id under which it is pushed.

* `sendId` — the id of the call that a visited node stands for.
* `send_of_visit`, `read_of_visit` — the call that is pushed for a visited node.
* `exists_visit_of_send` — **every call of the arena is pushed for a visited node**.
* `call_of_visit` — what the call then says.
-/

namespace SpecLint

namespace Lowering

variable {source : ByteArray} {root p : Concrete} {before after : List Event}

/-- The id under which the call of a node is pushed that is entered after the events `before`. -/
def sendId (source : ByteArray) (before : List Event) (call : Sending) : NodeId :=
  pushes before + pushes (call.operands.flatMap (course source))

/-- The call that a name is where it is no local variable. -/
def readCall (source : ByteArray) (p : Concrete) : Call where
  receiver := none
  method := nameOf source p
  arguments := []
  selector := spanOf p

theorem size_replay_empty (events : List Event) :
    (replay source ⟨{}, []⟩ events).state.arena.size = pushes events := by
  rw [size_replay]
  exact Nat.zero_add _

theorem pushes_append (first second : List Event) :
    pushes (first ++ second) = pushes first + pushes second :=
  List.countP_append

/-! ## Visits of nodes that stand for calls -/

/-- What follows the visit of a node that stands for a call. -/
theorem visit_of_sending (hvisit : course source root = before ++ .enter p :: after)
    {call : Sending} (hcall : sending? source p = some call) : ∃ rest,
    course source root = before ++ .enter p :: (call.operands.flatMap (course source) ++
      .pushed call.head call.operands.length call.span :: rest) := by
  obtain ⟨rest, hrest⟩ := course_of_enter hvisit
  obtain ⟨tail, -, hagenda⟩ := agenda_of_sending hcall
  refine ⟨stepsCourse source tail ++ rest, ?_⟩
  rw [hvisit, hrest, course_eq, hagenda]
  simp [stepCourse]

/-- **The call that is pushed for a visited node.** -/
theorem send_of_visit (hvisit : course source root = before ++ .enter p :: after)
    {call : Sending} (hcall : sending? source p = some call) : ∃ arguments,
    arguments.length = call.arguments.length ∧
    (replay source ⟨{}, []⟩ (course source root)).state.arena.form? (sendId source before call) =
      some (.send (pushedCall source (replay source ⟨{}, []⟩ (before ++ [.enter p])) call
        arguments), call.span) := by
  obtain ⟨rest, hevents⟩ := visit_of_sending hvisit hcall
  obtain ⟨arguments, hlength, -, hform⟩ :=
    @replay_sending source (replay source ⟨{}, []⟩ (before ++ [.enter p])) call
  have hsplit : course source root =
      ((before ++ [.enter p]) ++ stepsCourse source call.steps) ++ rest := by
    rw [hevents, Sending.steps, stepsCourse_overSteps]
    simp
  have hid : (replay source (replay source ⟨{}, []⟩ (before ++ [.enter p]))
      (call.operands.flatMap (course source))).state.arena.size = sendId source before call := by
    rw [← replay_append, size_replay_empty, pushes_append, pushes_append]
    rfl
  rw [← replay_append, hid] at hform
  refine ⟨arguments, hlength, ?_⟩
  rw [hsplit, replay_append _ _ _ rest, form?_replay_of_eq_some source hform]

/-- What is pushed for a visited name. -/
theorem read_of_visit (hvisit : course source root = before ++ .enter p :: after)
    (hrole : p.role = .identifier) :
    (replay source ⟨{}, []⟩ (course source root)).state.arena.form? (pushes before) =
      some (readShape ((replay source ⟨{}, []⟩ before).state.isLocal (nameOf source p))
        (nameOf source p) (spanOf p), spanOf p) := by
  obtain ⟨rest, hrest⟩ := course_of_enter hvisit
  have hcourse : course source p = [.enter p, .read p] := by
    simp [course_eq, agenda, hrole, stepCourse]
  have hevents : course source root = (before ++ [.enter p]) ++ .read p :: rest := by
    rw [hvisit, hrest, hcourse, List.append_assoc]
    rfl
  have hform := form?_of_push source ⟨{}, []⟩ hevents rfl
  rw [size_replay_empty, pushes_append, pushedForm, replay_append] at hform
  exact hform

/-! ## Visits for calls -/

/-- Only a name resolves itself, as the one step of its agenda. -/
theorem agenda_of_read {n x : Concrete} {first second : List Step}
    (h : agenda source n = first ++ .event (.read x) :: second) :
    n.role = .identifier ∧ x = n ∧ first = [] := by
  have hform := agenda_form source n
  have hmem : .event (.read x) ∈ agenda source n := by simp [h]
  generalize agenda source n = steps at hform h hmem
  cases hform with
  | read hrole =>
      cases first with
      | nil => exact ⟨hrole, by simpa using (List.cons.inj h).1.symm, rfl⟩
      | cons => simp at h
  | flat => simp [overSteps] at hmem
  | nested => simp [scopedSteps, overSteps] at hmem
  | params => simp [parameterEvents] at hmem
  | attached =>
      rw [List.mem_append] at hmem
      rcases hmem with hsend | hblock
      · simp [Sending.steps, overSteps] at hsend
      · simpa using eq_of_event_mem_attachedSteps hblock

/-- A node pushes at most one call, right after its operands. -/
theorem agenda_of_send {n : Concrete} {first second : List Step} {receiver safe : Bool}
    {method : String} {selector span : Span} {arity : Nat} (h : agenda source n =
      first ++ .event (.pushed (.send receiver method selector safe) arity span) :: second) :
    ∃ call, sending? source n = some call ∧ first = call.operands.map .lower := by
  cases hcall : sending? source n with
  | none =>
      have hinner := innerSteps_agenda hcall _ (show .event _ ∈ agenda source n by
        rw [h]
        exact List.mem_append_right _ List.mem_cons_self)
      simp [Event.inner] at hinner
  | some call =>
      refine ⟨call, rfl, ?_⟩
      obtain ⟨tail, htail, hagenda⟩ := agenda_of_sending hcall
      rw [hagenda] at h
      rcases List.append_eq_append_iff.1 h with ⟨more, hfirst, hmore⟩ | ⟨more, hlower, hmore⟩
      · cases more with
        | nil => simpa using hfirst
        | cons step more =>
            -- what follows the call pushes no other one
            obtain ⟨-, hrest⟩ := List.cons.inj hmore
            have hinner := htail _ (show .event _ ∈ tail by
              rw [hrest]
              exact List.mem_append_right _ List.mem_cons_self)
            simp [Event.inner] at hinner
      · cases more with
        | nil => simpa using hlower.symm
        | cons step more =>
            -- the operands push no call by themselves
            obtain ⟨rfl, -⟩ := List.cons.inj hmore
            have hmem : .event (.pushed (.send receiver method selector safe) arity span) ∈
                call.operands.map Step.lower := by
              rw [hlower]
              exact List.mem_append_right _ List.mem_cons_self
            simp at hmem

/-- **Every call of the arena is pushed for a visited node**, which stands for a call or is a name
that is no local variable. -/
theorem exists_visit_of_send {id : NodeId} {c : Call} {span : Span}
    (h : (replay source ⟨{}, []⟩ (course source root)).state.arena.form? id =
      some (.send c, span)) :
    ∃ before p after, course source root = before ++ .enter p :: after ∧
      ((∃ call, sending? source p = some call ∧ id = sendId source before call) ∨
        p.role = .identifier ∧ id = pushes before) := by
  obtain ⟨before, e, after, hevents, he, hid⟩ :=
    exists_push source ⟨{}, []⟩ (Nat.zero_le id) (Arena.lt_size_of_form? h)
  have hpush := form?_of_push source ⟨{}, []⟩ hevents he
  rw [hid, h] at hpush
  rw [size_replay_empty] at hid
  cases e with
  | enter | opened | closed | bound => simp [Event.pushes] at he
  | wrapped arity span' =>
      exfalso
      simp only [pushedForm, Option.some.injEq, Prod.mk.injEq] at hpush
      exact wrappedShape_ne_send hpush.1.symm
  | read x =>
      obtain ⟨outer, p, done, left, rest, hagenda, rfl, rfl⟩ := exists_visit hevents (by simp)
      obtain ⟨hrole, -, rfl⟩ := agenda_of_read hagenda
      refine ⟨outer, p, .read x :: (stepsCourse source left ++ rest), ?_, Or.inr ⟨hrole, ?_⟩⟩
      · rw [hevents]
        simp
      · rw [← hid, pushes_append]
        rfl
  | pushed head arity span' =>
      cases head with
      | params | sequence | other => simp [pushedForm, Head.shape] at hpush
      | send receiver method selector safe =>
          obtain ⟨outer, p, done, left, rest, hagenda, rfl, rfl⟩ := exists_visit hevents (by simp)
          obtain ⟨call, hcall, rfl⟩ := agenda_of_send hagenda
          rw [List.append_assoc] at hevents
          refine ⟨outer, p, _, hevents, Or.inl ⟨call, hcall, ?_⟩⟩
          rw [← hid, pushes_append, stepsCourse_map_lower]
          rfl

/-- What a call of the arena says is read off the visited node. -/
theorem call_of_visit {id : NodeId} {c : Call} {span : Span}
    (h : (replay source ⟨{}, []⟩ (course source root)).state.arena.form? id =
      some (.send c, span)) :
    ∃ before p after, course source root = before ++ .enter p :: after ∧
      ((∃ call arguments, sending? source p = some call ∧
          c = pushedCall source (replay source ⟨{}, []⟩ (before ++ [.enter p])) call arguments) ∨
        p.role = .identifier ∧ c = readCall source p) := by
  obtain ⟨before, p, after, hvisit, ⟨call, hcall, rfl⟩ | ⟨hrole, rfl⟩⟩ := exists_visit_of_send h
  · obtain ⟨arguments, -, hpushed⟩ := send_of_visit hvisit hcall
    rw [h] at hpushed
    obtain rfl := Shape.send.inj (Prod.mk.inj (Option.some.inj hpushed)).1
    exact ⟨before, p, after, hvisit, Or.inl ⟨call, arguments, hcall, rfl⟩⟩
  · have hread := read_of_visit hvisit hrole
    rw [h, readShape] at hread
    split at hread
    · simp at hread
    · obtain rfl := Shape.send.inj (Prod.mk.inj (Option.some.inj hread)).1
      exact ⟨before, p, after, hvisit, Or.inr ⟨hrole, rfl⟩⟩

end Lowering

end SpecLint
