import SpecLint.Proofs.Replay

/-!
# Lowering is the replay of its course

Where lowering succeeds it does what the events of its course say, one after the other
(`replay_lower`).  The proof follows the definitions: one statement for each construct, all of the
form `Replays act events out`, which says that the computation `act` moves the state as `events`
do and leaves the nodes `out` on the stack.

* `run_bind`, `run_inScope`, `run_inFrame`, `run_inLevel` — what a computation does, whether it
  succeeds or fails, and each with its `_ok` lemma about success.
* `replay_lower` — the theorem for a subtree.
* `replay_arenaOf` — the theorem for a source file.
-/

namespace SpecLint

namespace Lowering

/-! ## When a computation succeeds -/

section Run

variable {α β : Type} {s s' : State}

/-- A failure stops what comes after it. -/
theorem run_bind (x : LowerM α) (f : α → LowerM β) (s : State) :
    (x >>= f).run s = match x.run s with
      | (.ok a, middle) => (f a).run middle
      | (.error failure, middle) => (.error failure, middle) := by
  rw [ExceptT.run_bind]
  simp only [bind, StateT.bind]
  rcases x.run s with ⟨_ | a, middle⟩ <;> rfl

theorem run_bind_ok {x : LowerM α} {f : α → LowerM β} {b : β}
    (h : (x >>= f).run s = (.ok b, s')) :
    ∃ a middle, x.run s = (.ok a, middle) ∧ (f a).run middle = (.ok b, s') := by
  rw [run_bind] at h
  split at h
  · rename_i a middle hx
    exact ⟨a, middle, hx, h⟩
  · cases h

theorem run_pure_ok {a b : α} (h : (pure a : LowerM α).run s = (.ok b, s')) : b = a ∧ s' = s := by
  cases h
  exact ⟨rfl, rfl⟩

theorem run_modify_ok {f : State → State} (h : (modify f : LowerM Unit).run s = (.ok (), s')) :
    s' = f s := by
  cases h
  rfl

theorem run_push_ok {shape : Shape} {span : Span} {id : NodeId}
    (h : (push shape span).run s = (.ok id, s')) :
    id = s.arena.size ∧ s' = (s.push shape span).2 := by
  cases h
  exact ⟨rfl, rfl⟩

theorem run_textOf_ok {source : ByteArray} {n : Concrete} {name : String}
    (h : (textOf source n).run s = (.ok name, s')) :
    n.text? source = some name ∧ s' = s := by
  unfold textOf at h
  split at h
  · rename_i text htext
    obtain ⟨rfl, rfl⟩ := run_pure_ok h
    exact ⟨htext, rfl⟩
  · cases h

/-- What a computation does in a scope of its own. -/
theorem run_inScope (inherit : Bool) (act : LowerM α) (s : State) :
    (inScope inherit act).run s = ((act.run (s.openScope inherit)).1,
      (act.run (s.openScope inherit)).2.closeScope) := rfl

theorem run_inScope_ok {inherit : Bool} {act : LowerM α} {a : α}
    (h : (inScope inherit act).run s = (.ok a, s')) :
    ∃ middle, act.run (s.openScope inherit) = (.ok a, middle) ∧ s' = middle.closeScope := by
  rw [run_inScope] at h
  obtain ⟨hresult, rfl⟩ := Prod.mk.inj h
  exact ⟨_, Prod.ext hresult rfl, rfl⟩

/-- What a computation does one level further down. -/
theorem run_inLevel (act : LowerM α) (s : State) :
    (inLevel act).run s = if maxLevels ≤ s.depth then (.error .nestedTooDeep, s)
      else ((act.run s.descend).1, (act.run s.descend).2.ascend) := by
  have hrun : (inLevel act).run s = (if maxLevels ≤ s.depth then
      (pure (.error .nestedTooDeep) : StateM State (Except Failure α)) else do
        modify State.descend
        let result ← act.run
        modify State.ascend
        return result) s := rfl
  rw [hrun]
  split <;> rfl

theorem run_inLevel_ok {act : LowerM α} {a : α} (h : (inLevel act).run s = (.ok a, s')) :
    ∃ middle, act.run s.descend = (.ok a, middle) ∧ s' = middle.ascend := by
  rw [run_inLevel] at h
  split at h
  · cases h
  · obtain ⟨hresult, rfl⟩ := Prod.mk.inj h
    exact ⟨_, Prod.ext hresult rfl, rfl⟩

/-- What a computation does in a block frame of its own. -/
theorem run_inFrame (frame : Frame) (act : LowerM α) (s : State) :
    (inFrame frame act).run s =
      ((act.run (s.openFrame frame)).1.map (·, (act.run (s.openFrame frame)).2.frame),
        (act.run (s.openFrame frame)).2.closeFrame) := rfl

theorem run_inFrame_ok {frame last : Frame} {act : LowerM α} {a : α}
    (h : (inFrame frame act).run s = (.ok (a, last), s')) :
    ∃ middle, act.run (s.openFrame frame) = (.ok a, middle) ∧ last = middle.frame ∧
      s' = middle.closeFrame := by
  rw [run_inFrame] at h
  rcases hact : act.run (s.openFrame frame) with ⟨_ | result, middle⟩
  · rw [hact] at h
    cases h
  · rw [hact] at h
    cases h
    exact ⟨middle, rfl, rfl, rfl⟩

end Run

/-! ## Computations and their events -/

variable {source : ByteArray} {α : Type}

/-- Where `act` succeeds, `events` move the state as `act` does and leave the nodes `out` on the
stack. -/
def Replays (source : ByteArray) (act : LowerM α) (events : List Event) (out : α → List NodeId) :
    Prop :=
  ∀ s a s', act.run s = (.ok a, s') →
    ∀ stack, replay source ⟨s, stack⟩ events = ⟨s', out a ++ stack⟩

theorem replays_inLevel {act : LowerM α} {events : List Event} {out : α → List NodeId}
    (hact : Replays source act events out) : Replays source (inLevel act) events out := by
  intro s a s' h stack
  obtain ⟨middle, hrun, rfl⟩ := run_inLevel_ok h
  have hstart : (Machine.mk s stack) = (Machine.mk s.descend stack).ascend := rfl
  rw [hstart, replay_ascend, hact _ _ _ hrun stack]
  rfl

/-- What `lower` has to satisfy at the nodes that are lowered. -/
def LowersAll (source : ByteArray) (lower : Concrete → LowerM NodeId) (items : List Concrete) :
    Prop :=
  ∀ c ∈ items, Replays source (lower c) (course source c) ([·])

theorem length_of_run_mapM {act : Concrete → LowerM NodeId} {items : List Concrete} {s s' : State}
    {ids : List NodeId} (h : (items.mapM act).run s = (.ok ids, s')) :
    ids.length = items.length := by
  induction items generalizing s s' ids with
  | nil =>
      obtain ⟨rfl, -⟩ := run_pure_ok h
      rfl
  | cons c items ih =>
      rw [List.mapM_cons] at h
      obtain ⟨id, s₁, -, h₁⟩ := run_bind_ok h
      obtain ⟨rest, s₂, hrest, h₂⟩ := run_bind_ok h₁
      obtain ⟨rfl, -⟩ := run_pure_ok h₂
      rw [List.length_cons, List.length_cons, ih hrest]

theorem replays_mapM {act : Concrete → LowerM NodeId} {events : Concrete → List Event}
    {items : List Concrete} (hact : ∀ c ∈ items, Replays source (act c) (events c) ([·])) :
    Replays source (items.mapM act) (items.flatMap events) List.reverse := by
  induction items with
  | nil =>
      intro s ids s' h stack
      obtain ⟨rfl, rfl⟩ := run_pure_ok h
      rfl
  | cons c items ih =>
      intro s ids s' h stack
      rw [List.mapM_cons] at h
      obtain ⟨id, s₁, hid, h₁⟩ := run_bind_ok h
      obtain ⟨rest, s₂, hrest, h₂⟩ := run_bind_ok h₁
      obtain ⟨rfl, rfl⟩ := run_pure_ok h₂
      rw [List.flatMap_cons, replay_append, hact c (by simp) s id s₁ hid,
        ih (fun c hc => hact c (by simp [hc])) s₁ rest _ hrest]
      simp

/-- Pushing a node over the nodes on top of the stack. -/
theorem make_over (s : State) (shape : List NodeId → Shape) (ids stack : List NodeId)
    (span : Span) : (Machine.mk s (ids.reverse ++ stack)).make shape ids.length span =
      ⟨(s.push (shape ids) span).2, s.arena.size :: stack⟩ := by
  have htake : (ids.reverse ++ stack).take ids.length = ids.reverse :=
    List.take_left' List.length_reverse
  have hdrop : (ids.reverse ++ stack).drop ids.length = stack :=
    List.drop_left' List.length_reverse
  simp [Machine.make, htake, hdrop]

/-- Lowering some nodes and pushing a node over them. -/
theorem replays_over {lower : Concrete → LowerM NodeId} {items : List Concrete}
    (hlower : LowersAll source lower items) (head : Head) (span : Span) :
    Replays source (items.mapM lower >>= fun ids => push (head.shape ids) span)
      (stepsCourse source (overSteps items head span)) ([·]) := by
  intro s id s' h stack
  obtain ⟨ids, s₁, hids, hpush⟩ := run_bind_ok h
  obtain ⟨rfl, rfl⟩ := run_push_ok hpush
  rw [stepsCourse_overSteps, replay_append, replays_mapM hlower s ids s₁ hids,
    ← length_of_run_mapM hids, replay_cons, step, make_over]
  rfl

/-! ## Declarations and parameters -/

theorem replays_declareTargets (levels : Nat) (n : Concrete) :
    Replays source (declareTargets source levels n) ((targets n).map .bound) fun _ => [] := by
  induction levels generalizing n with
  | zero =>
      intro s u s' h
      cases h
  | succ levels ih =>
      refine replays_inLevel ?_
      intro s u s' h stack
      rw [targets_eq]
      by_cases hident : n.role = .identifier
      · rw [if_pos hident] at h ⊢
        obtain ⟨name, s₁, hname, hdeclare⟩ := run_bind_ok h
        obtain ⟨htext, rfl⟩ := run_textOf_ok hname
        rw [run_modify_ok hdeclare]
        simp [step, nameOf, htext]
      · rw [if_neg hident] at h ⊢
        by_cases hbinding : n.isBinding = true
        · rw [if_pos hbinding] at h ⊢
          generalize n.parts ["value"] = parts at h ⊢
          induction parts generalizing s with
          | nil =>
              obtain ⟨-, rfl⟩ := run_pure_ok h
              rfl
          | cons part parts ihparts =>
              obtain ⟨_, s₁, hpart, hrest⟩ := run_bind_ok h
              rw [List.flatMap_cons, List.map_append, replay_append, ih part s _ s₁ hpart]
              exact ihparts s₁ hrest
        · rw [if_neg hbinding] at h ⊢
          obtain ⟨-, rfl⟩ := run_pure_ok h
          rfl

/-- What `declare` has to satisfy. -/
def Declares (source : ByteArray) (declare : Concrete → LowerM Unit) : Prop :=
  ∀ n, Replays source (declare n) ((targets n).map .bound) fun _ => []

section Constructs

variable {lower : Concrete → LowerM NodeId} {declare : Concrete → LowerM Unit}

theorem replays_lowerParameter (hdeclare : Declares source declare) (p : Concrete) :
    Replays source (lowerParameter declare p)
      ((targets p).map .bound ++ [.pushed (.other p.kind) 0 (spanOf p)]) ([·]) := by
  intro s id s' h stack
  obtain ⟨u, s₁, hu, hpush⟩ := run_bind_ok h
  obtain ⟨rfl, rfl⟩ := run_push_ok hpush
  rw [replay_append, hdeclare p s u s₁ hu]
  rfl

theorem replays_lowerParameters (hdeclare : Declares source declare) (params : Concrete) :
    Replays source (lowerParameters declare params) (parameterEvents params) ([·]) := by
  intro s id s' h stack
  obtain ⟨ids, s₁, hids, hpush⟩ := run_bind_ok h
  obtain ⟨rfl, rfl⟩ := run_push_ok hpush
  have hitems := replays_mapM (fun p _ => replays_lowerParameter hdeclare p) s ids s₁ hids stack
  rw [parameterEvents, replay_append, hitems, ← length_of_run_mapM hids, replay_cons, step,
    make_over]
  rfl

/-! ## One construct after the other -/

theorem replays_lowerPlain {n : Concrete} (hlower : LowersAll source lower (n.parts ["name"])) :
    Replays source (lowerPlain lower n) (stepsCourse source (plainSteps n)) ([·]) :=
  replays_over hlower (.other n.kind) (spanOf n)

theorem replays_lowerSequence {n : Concrete} (hlower : LowersAll source lower (n.parts [])) :
    Replays source (lowerSequence lower n)
      (stepsCourse source (overSteps (n.parts []) .sequence (spanOf n))) ([·]) :=
  replays_over hlower .sequence (spanOf n)

theorem replays_lowerAssignment {n : Concrete}
    (hlower : LowersAll source lower (n.parts ["name"])) (hdeclare : Declares source declare) :
    Replays source (lowerAssignment lower declare n)
      (((n.childByField? "left").toList.flatMap targets).map .bound ++
        stepsCourse source (plainSteps n)) ([·]) := by
  intro s id s' h stack
  unfold lowerAssignment at h
  split at h
  · rename_i target htarget
    obtain ⟨u, s₁, hu, hplain⟩ := run_bind_ok h
    have hbound := hdeclare target s u s₁ hu stack
    simp only [htarget, Option.toList_some, List.flatMap_singleton, replay_append, hbound]
    exact replays_lowerPlain hlower s₁ id s' hplain stack
  · rename_i hnone
    have htarget : n.childByField? "left" = none := by
      cases htarget : n.childByField? "left" with
      | none => rfl
      | some target => exact absurd htarget (hnone target)
    simp only [htarget, Option.toList_none, List.flatMap_nil, List.map_nil, List.nil_append]
    exact replays_lowerPlain hlower s id s' h stack

theorem replays_lowerClosure {n : Concrete} (hlower : LowersAll source lower (n.parts ["name"])) :
    Replays source (lowerClosure lower n)
      (stepsCourse source (scopedSteps .closure (plainSteps n))) ([·]) := by
  intro s id s' h stack
  obtain ⟨⟨id', last⟩, s₁, hframe, hreturn⟩ := run_bind_ok h
  obtain ⟨rfl, rfl⟩ := run_pure_ok hreturn
  obtain ⟨s₂, hscope, -, rfl⟩ := run_inFrame_ok hframe
  obtain ⟨s₃, hplain, rfl⟩ := run_inScope_ok hscope
  have hreplay := replays_lowerPlain hlower _ _ s₃ hplain stack
  simp only [scopedSteps, List.cons_append, stepsCourse_cons, stepsCourse_append, stepCourse,
    stepsCourse_nil, replay_append, replay_cons, replay_nil, step]
  exact congrArg (step source · (.closed .closure)) hreplay

theorem replays_definition {n : Concrete} (hlower : LowersAll source lower (n.parts ["name"])) :
    Replays source (inScope false (lowerPlain lower n))
      (stepsCourse source (scopedSteps .definition (plainSteps n))) ([·]) := by
  intro s id s' h stack
  obtain ⟨s₁, hplain, rfl⟩ := run_inScope_ok h
  have hreplay := replays_lowerPlain hlower _ _ s₁ hplain stack
  simp only [scopedSteps, List.cons_append, stepsCourse_cons, stepsCourse_append, stepCourse,
    stepsCourse_nil, replay_append, replay_cons, replay_nil, step]
  exact congrArg (step source · (.closed .definition)) hreplay

theorem replays_lowerIdentifier (n : Concrete) :
    Replays source (lowerIdentifier source n) [.read n] ([·]) := by
  intro s id s' h stack
  obtain ⟨name, s₁, hname, h₁⟩ := run_bind_ok h
  obtain ⟨htext, rfl⟩ := run_textOf_ok hname
  obtain ⟨s₂, s₃, hget, h₂⟩ := run_bind_ok h₁
  obtain ⟨rfl, rfl⟩ : s₂ = s₁ ∧ s₃ = s₁ := by
    cases hget
    exact ⟨rfl, rfl⟩
  have hnameOf : nameOf source n = name := by simp [nameOf, htext]
  simp only [replay_cons, replay_nil, step, hnameOf, Machine.resolve]
  split at h₂
  · -- a local variable
    rename_i hlocal
    obtain ⟨rfl, rfl⟩ := run_push_ok h₂
    simp [hlocal, Machine.make, readShape]
  · -- a call, which may use an implicit parameter
    rename_i hlocal
    by_cases himplicit : isImplicitParameter name = true
    · simp only [himplicit, if_true] at h₂
      obtain ⟨u, s₂, hu, h₃⟩ := run_bind_ok h₂
      rw [run_modify_ok hu] at h₃
      obtain ⟨rfl, rfl⟩ := run_push_ok h₃
      simp [hlocal, Machine.make, readShape, State.noteRead, himplicit]
    · simp only [himplicit, if_false, Bool.false_eq_true] at h₂
      obtain ⟨rfl, rfl⟩ := run_push_ok h₂
      simp [hlocal, Machine.make, readShape, State.noteRead, himplicit]

/-- Lowering the receiver and the arguments of a call and pushing it. -/
theorem replays_send {receiver : Concrete} {arguments : List Concrete}
    (hlower : LowersAll source lower (receiver :: arguments)) (method : String) (selector : Span)
    (safe : Bool) (span : Span) :
    Replays source (do
        let receiver ← lower receiver
        let arguments ← arguments.mapM lower
        push (.send { receiver := some receiver, method, arguments, selector, safe }) span)
      (stepsCourse source
        (overSteps (receiver :: arguments) (.send true method selector safe) span)) ([·]) := by
  have hprogram : (do
      let receiver ← lower receiver
      let arguments ← arguments.mapM lower
      push (.send { receiver := some receiver, method, arguments, selector, safe }) span) =
        (receiver :: arguments).mapM lower >>= fun ids =>
          push ((Head.send true method selector safe).shape ids) span := by
    simp [List.mapM_cons, Head.shape]
  rw [hprogram]
  exact replays_over hlower _ span

/-- The steps of a node that stands for an operator call, or else keeps its parts. -/
def operatorSteps (source : ByteArray) (n : Concrete) : List Step :=
  match operatorSending? source n with
  | some call => call.steps
  | none => plainSteps n

theorem replays_lowerBinary {n : Concrete} (hrole : n.role = .binary)
    (hlower : ∀ c, .lower c ∈ operatorSteps source n →
      Replays source (lower c) (course source c) ([·])) :
    Replays source (lowerBinary source lower n)
      (stepsCourse source (operatorSteps source n)) ([·]) := by
  unfold lowerBinary
  split
  · rename_i left operator right hleft hoperator hright
    intro s id s' h stack
    obtain ⟨method, s₁, hmethod, h₁⟩ := run_bind_ok h
    obtain ⟨htext, rfl⟩ := run_textOf_ok hmethod
    have hname : nameOf source operator = method := by simp [nameOf, htext]
    by_cases hlogical : logicalOperators.contains method = true
    · have hsteps : operatorSteps source n = plainSteps n := by
        simp [operatorSteps, operatorSending?, hrole, hleft, hoperator, hright, hname,
          show method ∈ logicalOperators by simpa using hlogical]
      rw [if_pos hlogical] at h₁
      rw [hsteps] at hlower ⊢
      exact replays_lowerPlain (fun c hc => hlower c (by simpa [plainSteps] using hc))
        s₁ id s' h₁ stack
    · have hsteps : operatorSteps source n =
          overSteps [left, right] (.send true method (spanOf operator) false) (spanOf n) := by
        simp [operatorSteps, operatorSending?, hrole, hleft, hoperator, hright, hname,
          show method ∉ logicalOperators by simpa using hlogical, Sending.steps,
          Sending.operands, Sending.head]
      rw [if_neg hlogical] at h₁
      rw [hsteps] at hlower ⊢
      refine replays_send (fun c hc => hlower c (by simpa using hc)) _ _ _ _ s₁ id s' ?_ stack
      simpa using h₁
  · rename_i hnone
    have hsteps : operatorSteps source n = plainSteps n := by
      unfold operatorSteps operatorSending?
      rw [hrole]
      cases hleft : n.childByField? "left" with
      | none => rfl
      | some left =>
          cases hoperator : n.childByField? "operator" with
          | none => rfl
          | some operator =>
              cases hright : n.childByField? "right" with
              | none => rfl
              | some right => exact absurd hright (hnone left operator right hleft hoperator)
    rw [hsteps] at hlower ⊢
    exact replays_lowerPlain fun c hc => hlower c (by simpa [plainSteps] using hc)

theorem replays_lowerUnary {n : Concrete} (hrole : n.role = .unary)
    (hlower : ∀ c, .lower c ∈ operatorSteps source n →
      Replays source (lower c) (course source c) ([·])) :
    Replays source (lowerUnary source lower n)
      (stepsCourse source (operatorSteps source n)) ([·]) := by
  unfold lowerUnary
  split
  · rename_i operator operand hoperator hoperand
    intro s id s' h stack
    obtain ⟨text, s₁, hread, h₁⟩ := run_bind_ok h
    obtain ⟨htext, rfl⟩ := run_textOf_ok hread
    have hname : nameOf source operator = text := by simp [nameOf, htext]
    cases hmethod : unaryMethod? text with
    | some method =>
        have hsteps : operatorSteps source n =
            overSteps [operand] (.send true method (spanOf operator) false) (spanOf n) := by
          simp [operatorSteps, operatorSending?, hrole, hoperator, hoperand, hname, hmethod,
            Sending.steps, Sending.operands, Sending.head]
        rw [hmethod] at h₁
        rw [hsteps] at hlower ⊢
        refine replays_send (fun c hc => hlower c (by simpa using hc)) _ _ _ _ s₁ id s' ?_ stack
        simpa using h₁
    | none =>
        have hsteps : operatorSteps source n = plainSteps n := by
          simp [operatorSteps, operatorSending?, hrole, hoperator, hoperand, hname, hmethod]
        rw [hmethod] at h₁
        rw [hsteps] at hlower ⊢
        exact replays_lowerPlain (fun c hc => hlower c (by simpa [plainSteps] using hc))
          s₁ id s' h₁ stack
  · rename_i hnone
    have hsteps : operatorSteps source n = plainSteps n := by
      unfold operatorSteps operatorSending?
      rw [hrole]
      cases hoperator : n.childByField? "operator" with
      | none => rfl
      | some operator =>
          cases hoperand : n.childByField? "operand" with
          | none => rfl
          | some operand => exact absurd hoperand (hnone operator operand hoperator)
    rw [hsteps] at hlower ⊢
    exact replays_lowerPlain fun c hc => hlower c (by simpa [plainSteps] using hc)

theorem replays_lowerElement {n : Concrete} (hrole : n.role = .element)
    (hlower : ∀ c, .lower c ∈ operatorSteps source n →
      Replays source (lower c) (course source c) ([·])) :
    Replays source (lowerElement lower n)
      (stepsCourse source (operatorSteps source n)) ([·]) := by
  unfold lowerElement
  split
  · rename_i object hobject
    simp only [operatorSteps, operatorSending?, hrole, hobject, Option.map_some] at hlower ⊢
    exact replays_send (fun c hc => hlower c (mem_overSteps_lower.2 hc)) "[]" _ false (spanOf n)
  · rename_i hobject
    have hsteps : operatorSteps source n = plainSteps n := by
      simp [operatorSteps, operatorSending?, hrole, hobject]
    rw [hsteps] at hlower ⊢
    exact replays_lowerPlain fun c hc => hlower c (by simpa [plainSteps] using hc)

/-! ## Calls and their blocks -/

theorem replays_lowerBlockParams (hdeclare : Declares source declare) (block : Concrete) :
    Replays source (lowerBlockParams declare block) (blockParamEvents block) ([·]) := by
  unfold lowerBlockParams blockParamEvents
  cases block.childByField? "parameters" with
  | some params => exact replays_lowerParameters hdeclare params
  | none =>
      intro s id s' h stack
      obtain ⟨rfl, rfl⟩ := run_push_ok h
      rfl

theorem replays_lowerBlockBody {block : Concrete}
    (hlower : LowersAll source lower (blockItems block)) :
    Replays source (lowerBlockBody lower block) (stepsCourse source (blockBodySteps block))
      Option.toList := by
  intro s body s' h stack
  unfold lowerBlockBody at h
  split at h
  · -- one node holds the statements
    rename_i item hitem
    obtain ⟨id, s₁, hid, hreturn⟩ := run_bind_ok h
    obtain ⟨rfl, rfl⟩ := run_pure_ok hreturn
    have hsteps : blockBodySteps block = [.lower item] := by
      simp [blockBodySteps, groupsItems, blockItems, hitem]
    have hreplay := hlower item (by simp [blockItems, hitem]) s id s' hid stack
    simpa [hsteps, stepCourse] using hreplay
  · rename_i hnone
    obtain ⟨ids, s₁, hids, h₁⟩ := run_bind_ok h
    have hitems : blockItems block = block.parts ["parameters"] := by simp [blockItems, hnone]
    have hlength := length_of_run_mapM hids
    cases ids with
    | nil =>
        -- there are no statements
        obtain ⟨rfl, rfl⟩ := run_pure_ok h₁
        have hparts : block.parts ["parameters"] = [] := List.length_eq_zero_iff.1 hlength.symm
        rw [hparts] at hids
        obtain ⟨-, rfl⟩ := run_pure_ok hids
        simp [blockBodySteps, groupsItems, hitems, hnone, hparts]
    | cons first rest =>
        -- the statements are put into a row
        have hgroups : groupsItems block = true := by
          cases hparts : block.parts ["parameters"] with
          | nil => simp [hparts] at hlength
          | cons => simp [groupsItems, hnone, hparts]
        obtain ⟨id, s₂, hid, hreturn⟩ := run_bind_ok h₁
        obtain ⟨rfl, rfl⟩ := run_pure_ok hreturn
        obtain ⟨rfl, rfl⟩ := run_push_ok hid
        rw [blockBodySteps, if_pos hgroups, stepsCourse_overSteps, replay_append,
          replays_mapM hlower s _ s₁ (by rwa [hitems]), hitems, ← hlength, replay_cons, step,
          make_over]
        rfl

/-- The statements of an attached block have become one node, unless there are none. -/
theorem length_of_run_lowerBlockBody {block : Concrete}
    (hlower : LowersAll source lower (blockItems block)) {s s' : State} {body : Option NodeId}
    (h : (lowerBlockBody lower block).run s = (.ok body, s')) :
    body.toList.length = if (blockItems block).isEmpty then 0 else 1 := by
  obtain ⟨ids, hids, hleft⟩ :=
    leaves_blockBodySteps (fun c _ => @leaves_course source c) ⟨s, []⟩
  rw [replays_lowerBlockBody hlower s body s' h []] at hleft
  rw [← hids, ← List.append_cancel_right hleft]

theorem replays_lowerAttachedBlock {block : Concrete}
    (hlower : LowersAll source lower (blockItems block)) (hdeclare : Declares source declare)
    {call id : NodeId} {span : Span} {s s' : State}
    (h : (lowerAttachedBlock lower declare call block span).run s = (.ok id, s'))
    (stack : List NodeId) :
    replay source ⟨s, call :: stack⟩ (stepsCourse source (attachedSteps block span)) =
      ⟨s', id :: stack⟩ := by
  obtain ⟨⟨⟨params, body⟩, last⟩, s₁, hframe, hwrap⟩ := run_bind_ok h
  obtain ⟨s₂, hscope, rfl, rfl⟩ := run_inFrame_ok hframe
  obtain ⟨s₃, hinner, rfl⟩ := run_inScope_ok hscope
  obtain ⟨params', s₄, hparams, hrest⟩ := run_bind_ok hinner
  obtain ⟨body', s₅, hbody, hreturn⟩ := run_bind_ok hrest
  obtain ⟨heq, rfl⟩ := run_pure_ok hreturn
  obtain ⟨rfl, rfl⟩ := Prod.mk.inj heq
  have hlength := length_of_run_lowerBlockBody hlower hbody
  have hentered : s.enterScope (blockScope block) =
      (s.openFrame (startFrame block)).openScope true := rfl
  have hreplay : replay source ⟨s.enterScope (blockScope block), call :: stack⟩
      (blockParamEvents block ++ stepsCourse source (blockBodySteps block)) =
        ⟨s₃, body.toList ++ params :: call :: stack⟩ := by
    rw [hentered, replay_append, replays_lowerBlockParams hdeclare block _ _ _ hparams]
    exact replays_lowerBlockBody hlower s₄ body s₃ hbody _
  have hwrapped : (push (wrapShape (s₃.frame == Frame.allowed true) { call, params, body })
      span).run s₃.closeScope.closeFrame = (.ok id, s') := by
    have hframe : s₃.closeScope.frame = s₃.frame := rfl
    rw [← hwrap]
    simp only [hframe, wrapShape, beq_iff_eq]
    split <;> rfl
  obtain ⟨rfl, rfl⟩ := run_push_ok hwrapped
  simp only [attachedSteps, List.cons_append, stepsCourse_cons, stepsCourse_append, stepCourse,
    stepsCourse_map_event, stepsCourse_nil, List.append_nil, List.nil_append, replay_cons, step]
  rw [replay_append, hreplay, replay_cons, replay_nil, step]
  cases body with
  | none =>
      have harity : (if (blockItems block).isEmpty then 2 else 3) = 2 := by
        split at hlength <;> simp_all
      rw [harity]
      rfl
  | some body =>
      have harity : (if (blockItems block).isEmpty then 2 else 3) = 3 := by
        split at hlength <;> simp_all
      rw [harity]
      rfl

theorem run_lowerReceiver_ok {n : Concrete} {s s' : State} {receiver : Option NodeId}
    (hlower : LowersAll source lower (n.childByField? "receiver").toList)
    (h : (lowerReceiver lower n).run s = (.ok receiver, s')) (stack : List NodeId) :
    receiver.isSome = (n.childByField? "receiver").isSome ∧
      replay source ⟨s, stack⟩
        ((n.childByField? "receiver").toList.flatMap (course source)) =
          ⟨s', receiver.toList ++ stack⟩ := by
  unfold lowerReceiver at h
  cases hchild : n.childByField? "receiver" with
  | some child =>
      rw [hchild] at h
      obtain ⟨id, s₁, hid, hreturn⟩ := run_bind_ok h
      obtain ⟨rfl, rfl⟩ := run_pure_ok hreturn
      have hreplay := hlower child (by simp [hchild]) s id s' hid stack
      exact ⟨rfl, by simpa using hreplay⟩
  | none =>
      rw [hchild] at h
      obtain ⟨rfl, rfl⟩ := run_pure_ok h
      exact ⟨rfl, rfl⟩

theorem run_calledMethod_ok {n : Concrete} {s s' : State} {method : String} {selector : Span}
    (h : (calledMethod source n).run s = (.ok (method, selector), s')) :
    method = (callSending source n).method ∧ selector = (callSending source n).selector ∧
      s' = s := by
  unfold calledMethod at h
  unfold callSending
  cases hchild : n.childByField? "method" with
  | some child =>
      rw [hchild] at h
      obtain ⟨name, s₁, hname, hreturn⟩ := run_bind_ok h
      obtain ⟨htext, rfl⟩ := run_textOf_ok hname
      obtain ⟨heq, rfl⟩ := run_pure_ok hreturn
      obtain ⟨rfl, rfl⟩ := Prod.mk.inj heq
      exact ⟨by simp [nameOf, htext], rfl, rfl⟩
  | none =>
      rw [hchild] at h
      obtain ⟨heq, rfl⟩ := run_pure_ok h
      obtain ⟨rfl, rfl⟩ := Prod.mk.inj heq
      exact ⟨rfl, rfl, rfl⟩

theorem run_lowerArguments_ok {n : Concrete} {s s' : State} {arguments : List NodeId}
    (h : (lowerArguments lower n).run s = (.ok arguments, s')) :
    ((callArguments n).mapM lower).run s = (.ok arguments, s') := by
  unfold lowerArguments at h
  unfold callArguments
  cases hchild : n.childByField? "arguments" <;> rwa [hchild] at h

theorem replays_lowerCall {n : Concrete}
    (hlower : LowersAll source lower (callSending source n).operands)
    (hblock : ∀ block, n.childByField? "block" = some block →
      LowersAll source lower (blockItems block))
    (hdeclare : Declares source declare) :
    Replays source (lowerCall source lower declare n)
      (stepsCourse source ((callSending source n).steps ++ blockSteps n)) ([·]) := by
  intro s id s' h stack
  have hoperands : (callSending source n).operands =
      (n.childByField? "receiver").toList ++ callArguments n := rfl
  obtain ⟨receiver, s₁, hreceiver, h₁⟩ := run_bind_ok h
  obtain ⟨⟨method, selector⟩, s₂, hmethod, h₂⟩ := run_bind_ok h₁
  obtain ⟨hname, hselector, rfl⟩ := run_calledMethod_ok hmethod
  obtain ⟨arguments, s₃, harguments, h₃⟩ := run_bind_ok h₂
  obtain ⟨call, s₄, hcall, h₄⟩ := run_bind_ok h₃
  obtain ⟨rfl, rfl⟩ := run_push_ok hcall
  -- receiver and arguments are lowered, and the call is pushed over them
  obtain ⟨hsome, hreceiver⟩ := run_lowerReceiver_ok
    (fun c hc => hlower c (by rw [hoperands]; exact List.mem_append_left _ hc)) hreceiver stack
  have harguments' := run_lowerArguments_ok harguments
  have hrest := replays_mapM
    (fun c hc => hlower c (by rw [hoperands]; exact List.mem_append_right _ hc))
    s₂ arguments s₃ harguments' (receiver.toList ++ stack)
  have hcount : (callSending source n).operands.length = (receiver.toList ++ arguments).length := by
    rw [hoperands, List.length_append, List.length_append, length_of_run_mapM harguments']
    cases receiver <;> cases hchild : n.childByField? "receiver" <;> simp_all
  have hshape : (callSending source n).head.shape (receiver.toList ++ arguments) =
      .send ⟨receiver, method, arguments, selector, (n.token? "&.").isSome⟩ := by
    subst hname hselector
    have hhead : (callSending source n).head = .send (n.childByField? "receiver").isSome
      (callSending source n).method (callSending source n).selector
      (n.token? "&.").isSome := rfl
    rw [hhead, ← hsome]
    cases receiver <;> rfl
  have hreverse : arguments.reverse ++ (receiver.toList ++ stack) =
      (receiver.toList ++ arguments).reverse ++ stack := by
    cases receiver <;> simp
  have hsend : replay source ⟨s, stack⟩ (stepsCourse source (callSending source n).steps) =
      ⟨(s₃.push (.send ⟨receiver, method, arguments, selector, (n.token? "&.").isSome⟩)
        (spanUntil n (callEnd n))).2, s₃.arena.size :: stack⟩ := by
    rw [Sending.steps, stepsCourse_overSteps, hoperands, List.flatMap_append, replay_append,
      replay_append, hreceiver, hrest, hreverse, ← hoperands, hcount, replay_cons, step,
      make_over, hshape]
    rfl
  rw [stepsCourse_append, replay_append, hsend]
  unfold blockSteps
  cases hchild : n.childByField? "block" with
  | some block =>
      rw [hchild] at h₄
      exact replays_lowerAttachedBlock (hblock block hchild) hdeclare h₄ stack
  | none =>
      rw [hchild] at h₄
      obtain ⟨rfl, rfl⟩ := run_pure_ok h₄
      rfl

/-! ## Whole subtrees -/

theorem replays_lowerNode {n : Concrete}
    (hlower : ∀ c, .lower c ∈ agenda source n →
      Replays source (lower c) (course source c) ([·]))
    (hdeclare : Declares source declare) :
    Replays source (lowerNode source lower declare n) (stepsCourse source (agenda source n))
      ([·]) := by
  unfold lowerNode
  cases hrole : n.role with
  | call =>
      have hagenda : agenda source n = (callSending source n).steps ++ blockSteps n := by
        simp [agenda, hrole]
      rw [hagenda] at hlower ⊢
      exact replays_lowerCall (fun c hc => hlower c (by simp [Sending.steps, hc]))
        (fun block hchild c hc => hlower c
          (List.mem_append_right _ (mem_blockSteps_lower.2 ⟨block, hchild, hc⟩))) hdeclare
  | identifier =>
      have hagenda : agenda source n = [.event (.read n)] := by simp [agenda, hrole]
      rw [hagenda]
      exact replays_lowerIdentifier n
  | binary =>
      have hagenda : agenda source n = operatorSteps source n := by
        simp only [agenda, hrole]
        rfl
      rw [hagenda] at hlower ⊢
      exact replays_lowerBinary hrole hlower
  | unary =>
      have hagenda : agenda source n = operatorSteps source n := by
        simp only [agenda, hrole]
        rfl
      rw [hagenda] at hlower ⊢
      exact replays_lowerUnary hrole hlower
  | element =>
      have hagenda : agenda source n = operatorSteps source n := by
        simp only [agenda, hrole]
        rfl
      rw [hagenda] at hlower ⊢
      exact replays_lowerElement hrole hlower
  | assignment =>
      have hagenda : agenda source n = (((n.childByField? "left").toList.flatMap targets).map
          .bound).map .event ++ plainSteps n := by
        simp [agenda, hrole]
      rw [hagenda] at hlower ⊢
      rw [stepsCourse_append, stepsCourse_map_event]
      exact replays_lowerAssignment (fun c hc => hlower c (by simp [plainSteps, hc])) hdeclare
  | closure =>
      have hagenda : agenda source n = scopedSteps .closure (plainSteps n) := by
        simp [agenda, hrole]
      rw [hagenda] at hlower ⊢
      exact replays_lowerClosure fun c hc => hlower c (by simp [scopedSteps, plainSteps, hc])
  | sequence =>
      have hagenda : agenda source n = overSteps (n.parts []) .sequence (spanOf n) := by
        simp [agenda, hrole]
      rw [hagenda] at hlower ⊢
      exact replays_lowerSequence fun c hc => hlower c (by simp [hc])
  | parameterList =>
      have hagenda : agenda source n = (parameterEvents n).map .event := by simp [agenda, hrole]
      rw [hagenda, stepsCourse_map_event]
      exact replays_lowerParameters hdeclare n
  | definition =>
      have hagenda : agenda source n = scopedSteps .definition (plainSteps n) := by
        simp [agenda, hrole]
      rw [hagenda] at hlower ⊢
      exact replays_definition fun c hc => hlower c (by simp [scopedSteps, plainSteps, hc])
  | plain =>
      have hagenda : agenda source n = plainSteps n := by simp [agenda, hrole]
      rw [hagenda] at hlower ⊢
      exact replays_lowerPlain fun c hc => hlower c (by simp [plainSteps, hc])

end Constructs

/-- **Lowering is the replay of its course.** -/
theorem replay_lower (levels : Nat) (n : Concrete) :
    Replays source (lower source levels n) (course source n) ([·]) := by
  induction levels generalizing n with
  | zero =>
      intro s id s' h
      cases h
  | succ levels ih =>
      refine replays_inLevel ?_
      intro s id s' h stack
      rw [course_eq, replay_cons]
      exact replays_lowerNode (fun c _ => ih c) (replays_declareTargets levels) s id s' h stack

theorem arenaOf_of_isEmpty {grammar : Grammar} {arena : Arena} (hsource : source.isEmpty = true)
    (h : arenaOf grammar source = .ok arena) : arena = {} := by
  unfold arenaOf at h
  rw [hsource] at h
  split at h
  · cases h
  · exact (Except.ok.inj h).symm

/-- The arena of a source that is not empty is what the course of its tree leads to, and its root
is the one node without a parent. -/
theorem replay_arenaOf {grammar : Grammar} {arena : Arena} (hsource : source.isEmpty = false)
    (h : arenaOf grammar source = .ok arena) :
    ∃ root, arena =
        (replay source ⟨{}, []⟩ (course source (grammar source))).state.arena.setRoot root ∧
      (replay source ⟨{}, []⟩ (course source (grammar source))).stack = [root] := by
  unfold arenaOf at h
  rw [hsource] at h
  split at h
  · cases h
  · simp only [Bool.false_eq_true, if_false] at h
    split at h
    · rename_i root s hrun
      cases h
      rw [replay_lower maxLevels (grammar source) {} root s hrun []]
      exact ⟨root, rfl, rfl⟩
    · cases h

end Lowering

end SpecLint
