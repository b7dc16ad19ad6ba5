import SpecLint.Proofs.Calls
import SpecLint.Proofs.ImplicitParameters
import SpecLint.Proofs.Misuse
import SpecLint.Proofs.WellFormed

/-!
# What is reported for a source

Which calls are reported can be read off the concrete tree: those that are chained onto an
expectation, or onto one with a block that takes no parameters, and whose method is no runner.

* `ExpectsRunner` — the nodes of the concrete tree onto which a runner has to be chained.
* `expectsRunner_iff` — what is pushed for a node expects a runner if the node does.
* `Offends` — the nodes of the concrete tree that are reported, and where.
* `exists_span_lint` — **the reported spans are those of the nodes that offend**.
-/

namespace SpecLint

namespace Lowering

variable {source : ByteArray}

/-! ## What is pushed for a receiver -/

/-- The receiver of a pushed call is missing where that of the concrete call is. -/
theorem receiver_pushedCall_eq_none {m : Machine} {call : Sending} {arguments : List NodeId} :
    (pushedCall source m call arguments).receiver = none ↔ call.receiver = none := by
  unfold pushedCall
  cases call.receiver with
  | none => simp
  | some r =>
      obtain ⟨id, hstack⟩ := @stack_course source m r
      simp [hstack]

/-- A call without a block leaves the node of the call. -/
theorem root_of_steps {n : Concrete} {call : Sending} (h : agenda source n = call.steps)
    (m : Machine) : ∃ id arguments, arguments.length = call.arguments.length ∧
      (replay source m (course source n)).stack = id :: m.stack ∧
      (replay source m (course source n)).state.arena.form? id =
        some (.send (pushedCall source m call arguments), call.span) := by
  obtain ⟨arguments, hlength, hstack, hform⟩ := @replay_sending source m call
  rw [course_eq, h]
  exact ⟨_, arguments, hlength, hstack, hform⟩

/-- A call with a block leaves the node that wraps the two. -/
theorem root_of_attached {n block : Concrete} (hrole : n.role = .call)
    (hblock : n.childByField? "block" = some block) (m : Machine) :
    ∃ id call params body arguments items span,
      (replay source m (course source n)).stack = id :: m.stack ∧
      (replay source m (course source n)).state.arena.form? id =
        some (wrapShape ((replay source m (stepsCourse source (callSending source n).steps ++
          blockCourse source block)).state.frame == Frame.allowed true) { call, params, body },
          spanOf n) ∧
      (replay source m (course source n)).state.arena.form? call =
        some (.send (pushedCall source m (callSending source n) arguments),
          (callSending source n).span) ∧
      (replay source m (course source n)).state.arena.form? params = some (.params items, span) ∧
      arguments.length = (callArguments n).length ∧ items.length = (blockParams block).length := by
  obtain ⟨call, arguments, params, items, span, body, hwrapped, hcall, hparams, hlength, hitems⟩ :=
    @wrapped_attached source m (callSending source n) block (spanOf n)
  have hcourse := @course_of_attached source n block hrole hblock
  obtain ⟨hroot, hform⟩ := root_of_course m hcourse rfl (by simp)
  have henter : replay source m (.enter n :: (stepsCourse source (callSending source n).steps ++
        blockCourse source block)) =
      replay source m (stepsCourse source (callSending source n).steps ++
        blockCourse source block) := rfl
  have hkept {id : NodeId} {form : Shape × Span}
      (h : (replay source m (stepsCourse source (callSending source n).steps ++
        blockCourse source block)).state.arena.form? id = some form) :
      (replay source m (course source n)).state.arena.form? id = some form := by
    rw [hcourse, replay_append, henter, form?_replay_of_eq_some source h]
  rw [henter, hwrapped] at hform
  exact ⟨_, call, params, body, arguments, items, span, hroot, hform, hkept hcall, hkept hparams,
    hlength, hitems⟩

/-- What is no call and no name leaves a node that is neither a call nor a block. -/
theorem root_of_other {n : Concrete} (hcall : sending? source n = none)
    (hrole : n.role ≠ .identifier) (m : Machine) : ∃ id shape span,
      (replay source m (course source n)).stack = id :: m.stack ∧
      (replay source m (course source n)).state.arena.form? id = some (shape, span) ∧
      (∀ call, shape ≠ .send call) ∧ ∀ block, shape ≠ .block block := by
  -- the last node is pushed by the agenda itself
  obtain ⟨before, head, arity, span, after, hcourse, hafter, hmem⟩ :
      ∃ before head arity span after,
        course source n = before ++ .pushed head arity span :: after ∧
        (∀ e ∈ after, e.pushes = false) ∧ .event (.pushed head arity span) ∈ agenda source n := by
    rw [course_eq]
    have hform := agenda_form source n
    generalize agenda source n = steps at hform ⊢
    cases hform with
    | read hrole' => exact absurd hrole' hrole
    | flat names items head span =>
        refine ⟨.enter n :: (names.map .bound ++ items.flatMap (course source)), head,
          items.length, span, [], ?_, by simp, by simp [overSteps]⟩
        rw [stepsCourse_append, ← List.map_map, stepsCourse_map_event, stepsCourse_overSteps]
        simp
    | nested kind items head span =>
        refine ⟨.enter n :: .opened kind :: items.flatMap (course source), head, items.length,
          span, [.closed kind], ?_, by simp [Event.pushes], by simp [scopedSteps, overSteps]⟩
        simp [scopedSteps, stepsCourse_overSteps, stepCourse]
    | params =>
        refine ⟨.enter n :: (n.parts []).flatMap
            (fun p => (targets p).map .bound ++ [.pushed (.other p.kind) 0 (spanOf p)]),
          .params, (n.parts []).length, spanOf n, [], ?_, by simp, by simp [parameterEvents]⟩
        rw [stepsCourse_map_event, parameterEvents, List.cons_append]
    | attached hrole' => simp [sending?, hrole'] at hcall
  obtain ⟨hroot, hform⟩ := root_of_course m hcourse rfl hafter
  refine ⟨_, _, _, hroot, hform, fun call => ?_, fun block => (shape_ne_block head _ block).1⟩
  have hinner := innerSteps_agenda hcall _ hmem
  cases head with
  | send => simp [Event.inner] at hinner
  | params | sequence | other => simp [Head.shape]

/-! ## Expectations in the concrete tree -/

/-- Whether a call is `expect` with any arguments or `is_expected` without, called on nothing. -/
def IsExpectation (source : ByteArray) (r : Concrete) : Prop :=
  r.childByField? "receiver" = none ∧ ((callSending source r).method = "expect" ∨
    (callSending source r).method = "is_expected" ∧ callArguments r = [])

/-- Whether a runner has to be chained onto the node `r`, which is lowered after the events
`before`: `expect` or `is_expected` by name alone, where it is no local variable; or such a call,
whose block, if it has one, takes no parameters of either kind. -/
def ExpectsRunner (source : ByteArray) (before : List Event) (r : Concrete) : Prop :=
  (r.role = .identifier ∧ (nameOf source r = "expect" ∨ nameOf source r = "is_expected") ∧
    ¬ Binds source before (nameOf source r)) ∨
  (r.role = .call ∧ IsExpectation source r ∧ ∀ block, r.childByField? "block" = some block →
    blockParams block = [] ∧ ¬ TakesImplicit source
      (before ++ .enter r :: stepsCourse source (callSending source r).steps) block)

/-- A concrete call is an expectation where the call that is pushed for it is one. -/
theorem isExpectation_pushedCall {m : Machine} {r : Concrete} {arguments : List NodeId}
    (hlength : arguments.length = (callArguments r).length) :
    ((pushedCall source m (callSending source r) arguments).receiver = none ∧
      ((callSending source r).method = "expect" ∨
        (callSending source r).method = "is_expected" ∧ arguments = [])) ↔
      IsExpectation source r := by
  have harguments : arguments = [] ↔ callArguments r = [] := by
    rw [← List.length_eq_zero_iff, hlength, List.length_eq_zero_iff]
  rw [receiver_pushedCall_eq_none, harguments]
  rfl

/-- An operator is called on an operand, and no block is attached to it. -/
theorem agenda_of_operator {n : Concrete} {call : Sending} (h : sending? source n = some call)
    (hrole : n.role ≠ .call) : call.receiver ≠ none ∧ agenda source n = call.steps := by
  rw [sending?, if_neg hrole] at h
  constructor
  · cases operatorForm h <;> simp
  · rcases role_of_operatorSending h with hkind | hkind | hkind <;> simp [agenda, hkind, h]

section Subtree

/-! ### The node that a subtree leaves

The subtree of `r` is lowered after the events `before`, and leaves the node `t`. -/

variable {root r : Concrete} {before rest : List Event} {a : Arena} {t : NodeId}
  (hcourse : course source root = before ++ (course source r ++ rest))
  (hform : a.form? = (replay source ⟨{}, []⟩ (course source root)).state.arena.form?)
  (ht : (replay source (replay source ⟨{}, []⟩ before) (course source r)).stack.head? = some t)

include hcourse hform

/-- What a subtree has pushed stays. -/
theorem form?_of_subtree {id : NodeId} {form : Shape × Span}
    (h : (replay source (replay source ⟨{}, []⟩ before)
      (course source r)).state.arena.form? id = some form) : a.form? id = some form := by
  rw [hform, hcourse, replay_append, replay_append, form?_replay_of_eq_some source h]

include ht

/-- A name expects a runner if it is an expectation by name, and no local variable. -/
theorem expectsRunner_of_name (hrole : r.role = .identifier) : a.ExpectsRunner t ↔
    (nameOf source r = "expect" ∨ nameOf source r = "is_expected") ∧
      ¬ Binds source before (nameOf source r) := by
  have hevents : course source r = [.enter r, .read r] := by
    simp [course_eq, agenda, hrole, stepCourse]
  have hvisit : course source root = before ++ .enter r :: (.read r :: rest) := by
    rw [hcourse, hevents]
    rfl
  obtain ⟨hroot, -⟩ := root_of_course (replay source ⟨{}, []⟩ before)
    (show course source r = [.enter r] ++ .read r :: [] from hevents) rfl (by simp)
  rw [hroot] at ht
  obtain rfl : pushes before = t := by
    rw [← @size_replay_empty source]
    exact Option.some.inj ht
  have hread := read_of_visit hvisit hrole
  rw [← hform] at hread
  have hlocal := isLocal_replay hcourse (nameOf source r)
  cases hisLocal : (replay source ⟨{}, []⟩ before).state.isLocal (nameOf source r) with
  | true =>
      rw [hisLocal] at hread hlocal
      have hnot := Arena.not_expectsRunner hread (by simp [readShape]) (by simp [readShape])
      simp [hnot, hlocal.1 rfl]
  | false =>
      rw [hisLocal] at hread hlocal
      have hbinds : ¬ Binds source before (nameOf source r) :=
        fun hbinds => Bool.false_ne_true (hlocal.2 hbinds)
      rw [Arena.expectsRunner_of_send hread]
      simp [hbinds]

/-- A call alone expects a runner if it is an expectation. -/
theorem expectsRunner_of_call (hrole : r.role = .call)
    (hblock : r.childByField? "block" = none) :
    a.ExpectsRunner t ↔ IsExpectation source r := by
  have hagenda : agenda source r = (callSending source r).steps := by
    simp [agenda, hrole, blockSteps, hblock]
  obtain ⟨id, arguments, hlength, hroot, hsend⟩ :=
    root_of_steps hagenda (replay source ⟨{}, []⟩ before)
  rw [hroot] at ht
  obtain rfl : id = t := Option.some.inj ht
  rw [Arena.expectsRunner_of_send (form?_of_subtree hcourse hform hsend)]
  exact isExpectation_pushedCall hlength

/-- A call with a block expects a runner if it is an expectation and the block takes no
parameters. -/
theorem expectsRunner_of_block (hrole : r.role = .call) {block : Concrete}
    (hblock : r.childByField? "block" = some block) :
    a.ExpectsRunner t ↔ IsExpectation source r ∧ blockParams block = [] ∧ ¬ TakesImplicit source
      (before ++ .enter r :: stepsCourse source (callSending source r).steps) block := by
  obtain ⟨id, sent, params, body, arguments, items, span, hroot, hwrap, hsent, hparams, hlength,
    hitems⟩ := root_of_attached hrole hblock (replay source ⟨{}, []⟩ before)
  rw [hroot] at ht
  obtain rfl : id = t := Option.some.inj ht
  have hevents : course source root =
      (before ++ .enter r :: stepsCourse source (callSending source r).steps) ++
        (blockCourse source block ++ (.wrapped (if (blockItems block).isEmpty then 2 else 3)
          (spanOf r) :: rest)) := by
    rw [hcourse, course_of_attached hrole hblock]
    simp
  have hframe := frame_of_block hevents
  have hmachine : replay source ⟨{}, []⟩
      (before ++ .enter r :: stepsCourse source (callSending source r).steps ++
        blockCourse source block) = replay source (replay source ⟨{}, []⟩ before)
      (stepsCourse source (callSending source r).steps ++ blockCourse source block) := by
    rw [List.append_assoc, replay_append]
    rfl
  rw [hmachine] at hframe
  replace hwrap := form?_of_subtree hcourse hform hwrap
  by_cases himplicit : TakesImplicit source
      (before ++ .enter r :: stepsCourse source (callSending source r).steps) block
  · rw [hframe.2 himplicit] at hwrap
    have hnot := Arena.not_expectsRunner hwrap (by simp [wrapShape]) (by simp [wrapShape])
    simp [hnot, himplicit]
  · have hused : ((replay source (replay source ⟨{}, []⟩ before)
        (stepsCourse source (callSending source r).steps ++
          blockCourse source block)).state.frame == Frame.allowed true) = false := by
      rw [beq_eq_false_iff_ne]
      exact mt hframe.1 himplicit
    rw [hused, wrapShape, if_neg Bool.false_ne_true] at hwrap
    rw [Arena.expectsRunner_of_block hwrap, Arena.isEmptyParams_iff,
      Arena.isExpectation_of_send (form?_of_subtree hcourse hform hsent), and_comm]
    refine and_congr ?_ ?_
    · exact isExpectation_pushedCall hlength
    · rw [form?_of_subtree hcourse hform hparams, ← List.length_eq_zero_iff, ← hitems]
      simp [himplicit]

/-- An operator expects no runner. -/
theorem not_expectsRunner_of_operator {call : Sending} (hcall : sending? source r = some call)
    (hrole : r.role ≠ .call) : ¬ a.ExpectsRunner t := by
  obtain ⟨hreceiver, hagenda⟩ := agenda_of_operator hcall hrole
  obtain ⟨id, arguments, -, hroot, hsend⟩ :=
    root_of_steps hagenda (replay source ⟨{}, []⟩ before)
  rw [hroot] at ht
  obtain rfl : id = t := Option.some.inj ht
  rw [Arena.expectsRunner_of_send (form?_of_subtree hcourse hform hsend),
    receiver_pushedCall_eq_none]
  exact fun h => hreceiver h.1

/-- Nothing else expects a runner. -/
theorem not_expectsRunner_of_other (hcall : sending? source r = none)
    (hrole : r.role ≠ .identifier) : ¬ a.ExpectsRunner t := by
  obtain ⟨id, shape, span, hroot, hshape, hsend, hblock⟩ :=
    root_of_other hcall hrole (replay source ⟨{}, []⟩ before)
  rw [hroot] at ht
  obtain rfl : id = t := Option.some.inj ht
  exact Arena.not_expectsRunner (form?_of_subtree hcourse hform hshape) hsend hblock

/-- **What is pushed for a node expects a runner if the node does.** -/
theorem expectsRunner_iff : a.ExpectsRunner t ↔ ExpectsRunner source before r := by
  unfold ExpectsRunner
  by_cases hcall : r.role = .call
  · have hname : r.role ≠ .identifier := by simp [hcall]
    cases hblock : r.childByField? "block" with
    | none =>
        rw [expectsRunner_of_call hcourse hform ht hcall hblock]
        simp [hcall]
    | some block =>
        rw [expectsRunner_of_block hcourse hform ht hcall hblock]
        simp [hcall]
  · by_cases hname : r.role = .identifier
    · rw [expectsRunner_of_name hcourse hform ht hname]
      simp [hname]
    · have hnot : ¬ a.ExpectsRunner t := by
        cases hsending : sending? source r with
        | none => exact not_expectsRunner_of_other hcourse hform ht hsending hname
        | some call => exact not_expectsRunner_of_operator hcourse hform ht hsending hcall
      simp [hnot, hcall, hname]

end Subtree

/-! ## Offending nodes -/

/-- Whether the node `p`, which is entered after the events `before`, is reported at `selector`: it
stands for a call that is not skipped on nil and whose method is no runner, and its receiver expects
one. -/
def Offends (runners : RunnerSet) (source : ByteArray) (before : List Event) (p : Concrete)
    (selector : Span) : Prop :=
  ∃ call, sending? source p = some call ∧ call.safe = false ∧
    runners.contains call.method = false ∧ call.selector = selector ∧
    ∃ r, call.receiver = some r ∧ ExpectsRunner source (before ++ [.enter p]) r

/-- What follows the visit of a node that stands for a call with a receiver. -/
theorem receiver_of_visit {root p r : Concrete} {before after : List Event}
    (hvisit : course source root = before ++ .enter p :: after) {call : Sending}
    (hcall : sending? source p = some call) (hr : call.receiver = some r) :
    ∃ rest, course source root = (before ++ [.enter p]) ++ (course source r ++ rest) := by
  obtain ⟨rest, hrest⟩ := visit_of_sending hvisit hcall
  refine ⟨call.arguments.flatMap (course source) ++
    .pushed call.head call.operands.length call.span :: rest, ?_⟩
  rw [hrest]
  simp [Sending.operands, hr]

/-- The calls that are found in the arena are pushed for the nodes that offend. -/
theorem misused_iff {root : Concrete} {a : Arena} {runners : RunnerSet} {span : Span}
    (hform : a.form? = (replay source ⟨{}, []⟩ (course source root)).state.arena.form?) :
    (∃ call, a.Misused runners call ∧ call.selector = span) ↔
      ∃ before p after, course source root = before ++ .enter p :: after ∧
        Offends runners source before p span := by
  constructor
  · rintro ⟨c, ⟨⟨id, hid⟩, hsafe, hrunner, t, hreceiver, ht⟩, rfl⟩
    obtain ⟨callSpan, hsend⟩ := Arena.call?_eq_some.1 hid
    rw [hform] at hsend
    obtain ⟨before, p, after, hvisit, ⟨call, arguments, hcall, rfl⟩ | ⟨-, rfl⟩⟩ :=
      call_of_visit hsend
    · obtain ⟨r, hr, hhead⟩ := Option.bind_eq_some_iff.1 hreceiver
      obtain ⟨rest, hcourse⟩ := receiver_of_visit hvisit hcall hr
      exact ⟨before, p, after, hvisit, call, hcall, hsafe, hrunner, rfl, r, hr,
        (expectsRunner_iff hcourse hform hhead).1 ht⟩
    · -- a name is called on nothing
      simp [readCall] at hreceiver
  · rintro ⟨before, p, after, hvisit, call, hcall, hsafe, hrunner, rfl, r, hr, hexpects⟩
    obtain ⟨arguments, -, hsend⟩ := send_of_visit hvisit hcall
    obtain ⟨rest, hcourse⟩ := receiver_of_visit hvisit hcall hr
    obtain ⟨t, hstack⟩ := @stack_course source (replay source ⟨{}, []⟩ (before ++ [.enter p])) r
    have hhead : (replay source (replay source ⟨{}, []⟩ (before ++ [.enter p]))
        (course source r)).stack.head? = some t := by
      rw [hstack]
      rfl
    rw [← hform] at hsend
    refine ⟨_, ⟨⟨_, Arena.call?_eq_some.2 ⟨_, hsend⟩⟩, hsafe, hrunner, t, ?_, ?_⟩, rfl⟩
    · rw [pushedCall, hr]
      exact hhead
    · exact (expectsRunner_iff hcourse hform hhead).2 hexpects

/-! ## The whole source -/

/-- **The reported spans are those of the nodes that offend**, among all that lowering enters. -/
theorem exists_span_lint {grammar : Grammar} {arena : Arena} {config : Config}
    (henabled : (config.settings expectationTarget.name).enabled = true)
    (h : arenaOf grammar source = .ok arena) :
    ∃ offenses, (Dispatcher.ofRules allRules config).lint grammar source = .ok offenses ∧
      ∀ span, (∃ o ∈ offenses.toList, o.span = span) ↔
        ∃ before p after, courseOf grammar source = before ++ .enter p :: after ∧
          Offends config.runners source before p span := by
  refine ⟨(Dispatcher.ofRules allRules config).run arena, ?_, fun span => ?_⟩
  · rw [Dispatcher.lint, h]
    rfl
  · cases hsource : source.isEmpty with
    | true =>
        obtain rfl := arenaOf_of_isEmpty hsource h
        have hempty : Arena.preorder {} = [] := Arena.preorder_eq_nil rfl
        rw [Dispatcher.exists_span_run, courseOf, if_pos hsource]
        simp [hempty]
    | false =>
        obtain ⟨root, hroot, hforest, hform⟩ := forest_arenaOf hsource h
        rw [exists_span_misused henabled (fun id => (hforest.mem_preorder hroot).2)
          fun p c hc => (hforest.parent_of_mem_children (Nat.zero_le p)
            (Arena.lt_size_of_mem_children hc) hc).1]
        rw [misused_iff hform, courseOf_eq hsource]

/-- The tree of `expect { a }`, its braces left out. -/
def expectBlock : Concrete :=
  ⟨"call", true, some "receiver", 0, 12, 0, 0,
    [⟨"identifier", true, some "method", 0, 6, 0, 0, []⟩,
      ⟨"block", true, some "block", 7, 12, 0, 7,
        [⟨"identifier", true, none, 9, 10, 0, 9, []⟩]⟩]⟩

/-- The tree of `expect { a }.foo`, its dot left out. -/
def chainedOntoBlock : Concrete :=
  ⟨"call", true, none, 0, 16, 0, 0,
    [expectBlock, ⟨"identifier", true, some "method", 13, 16, 0, 13, []⟩]⟩

/-- The method of `expect { a }.foo` is reported. -/
theorem exists_span_lint_block : ∃ offenses,
    (Dispatcher.ofRules allRules {}).lint (fun _ => chainedOntoBlock) "expect { a }.foo".toUTF8 =
        .ok offenses ∧
      ∃ o ∈ offenses.toList, o.span = ⟨13, 16, 1, 14⟩ := by
  obtain ⟨arena, harena⟩ : ∃ arena,
      arenaOf (fun _ => chainedOntoBlock) "expect { a }.foo".toUTF8 = .ok arena := ⟨_, rfl⟩
  obtain ⟨offenses, hlint, hspans⟩ := @exists_span_lint _ _ _ {} rfl harena
  refine ⟨offenses, hlint, (hspans _).2 ?_⟩
  have hcourse : courseOf (fun _ => chainedOntoBlock) "expect { a }.foo".toUTF8 = _ :=
    course_eq "expect { a }.foo".toUTF8 chainedOntoBlock
  refine ⟨[], chainedOntoBlock, _, hcourse, _, rfl, rfl, by decide, rfl, expectBlock, rfl,
    Or.inr ⟨rfl, ⟨rfl, Or.inl rfl⟩, ?_⟩⟩
  rintro block hblock
  obtain rfl := Option.some.inj hblock
  refine ⟨rfl, ?_⟩
  -- the one name that is read in the block is no implicit parameter
  rintro ⟨-, earlier, n, later, hevents, himplicit, -⟩
  have hmem : .read n ∈ earlier ++ .read n :: later :=
    List.mem_append_right _ List.mem_cons_self
  rw [← hevents] at hmem
  simp [blockParamEvents, blockBodySteps, groupsItems, blockItems, overSteps, stepCourse, course_eq,
    agenda, Concrete.role, Concrete.Role.ofKind, Concrete.parts, Concrete.childByField?] at hmem
  subst hmem
  exact absurd himplicit (by decide)

end Lowering

end SpecLint
