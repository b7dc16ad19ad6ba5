import SpecLint.Proofs.LocalNames

/-!
# Which blocks take implicit parameters

A block that is attached to a call has a frame, which notes the reads of implicit parameters while
the statements of the block are lowered.  The frame in front is that of the innermost block: a
definition opens none, so that a read inside of a definition counts for the block around it.

* `ReadsImplicit` — whether the innermost block reads an implicit parameter among some events.
* `frames_along` — **the invariant**: along the events of a block its frame says whether the block
  has read an implicit parameter, and the frames further outside stay as they were.
* `frame_of_block` — at the end of a block its frame says whether the block takes implicit
  parameters.
-/

namespace SpecLint

namespace Lowering

variable {source : ByteArray}

/-! ## The rule -/

/-- Whether a name that is an implicit parameter and no local variable is read among the events
`inside`, with nothing but definitions between the read and the innermost scope open after the
events `before`. -/
def ReadsImplicit (source : ByteArray) (before inside : List Event) : Prop :=
  ∃ earlier n later, inside = earlier ++ .read n :: later ∧
    isImplicitParameter (nameOf source n) = true ∧
    ¬ Binds source (before ++ earlier) (nameOf source n) ∧
    ∃ inner, scopesAround (before ++ earlier) = inner ++ scopesAround before ∧
      ∀ o ∈ inner, o.kind = .definition

/-- Whether a block that is lowered after the events `before` takes implicit parameters: it lists
no parameters, and it reads one. -/
def TakesImplicit (source : ByteArray) (before : List Event) (block : Concrete) : Prop :=
  block.childByField? "parameters" = none ∧
    ReadsImplicit source (before ++ [.opened (blockScope block)])
      (blockParamEvents block ++ stepsCourse source (blockBodySteps block))

/-- One more event reads an implicit parameter if it is a read of one. -/
theorem readsImplicit_concat {before inside : List Event} {e : Event} :
    ReadsImplicit source before (inside ++ [e]) ↔ ReadsImplicit source before inside ∨
      ∃ n, e = .read n ∧ isImplicitParameter (nameOf source n) = true ∧
        ¬ Binds source (before ++ inside) (nameOf source n) ∧
        ∃ inner, scopesAround (before ++ inside) = inner ++ scopesAround before ∧
          ∀ o ∈ inner, o.kind = .definition := by
  constructor
  · rintro ⟨earlier, n, later, hsplit, hread⟩
    rcases split_concat hsplit with ⟨rfl, rfl, -⟩ | ⟨later, rfl, -⟩
    · exact Or.inr ⟨n, rfl, hread⟩
    · exact Or.inl ⟨earlier, n, later, rfl, hread⟩
  · rintro (⟨earlier, n, later, rfl, hread⟩ | ⟨n, rfl, hread⟩)
    · exact ⟨earlier, n, later ++ [e], by simp, hread⟩
    · exact ⟨inside, n, [], rfl, hread⟩

theorem readsImplicit_concat_of_ne {before inside : List Event} {e : Event}
    (he : ∀ n, e ≠ .read n) : ReadsImplicit source before (inside ++ [e]) ↔
      ReadsImplicit source before inside := by
  rw [readsImplicit_concat]
  exact or_iff_left fun ⟨n, hn, _⟩ => he n hn

/-! ## Frames -/

/-- Whether a block frame is opened together with a scope of this kind. -/
def ScopeKind.framed : ScopeKind → Bool
  | .attached _ | .closure => true
  | .definition => false

/-- The frame after an implicit parameter was read. -/
def Frame.use : Frame → Frame
  | .barred => .barred
  | .allowed _ => .allowed true

theorem frames_useImplicit (s : State) :
    s.useImplicit.frames = match s.frames with
      | frame :: outer => frame.use :: outer
      | [] => [] := by
  obtain ⟨arena, scopes, frames, depth⟩ := s
  rcases frames with _ | ⟨_ | _, _⟩ <;> rfl

theorem frames_enterScope (s : State) (kind : ScopeKind) :
    ∃ frame, (s.enterScope kind).frames =
      if kind.framed then frame :: s.frames else s.frames := by
  cases kind with
  | attached explicit => exact ⟨_, rfl⟩
  | closure => exact ⟨_, rfl⟩
  | definition => exact ⟨.barred, rfl⟩

theorem frames_leaveScope (s : State) (kind : ScopeKind) :
    (s.leaveScope kind).frames = if kind.framed then s.frames.tail else s.frames := by
  cases kind <;> rfl

/-- What closes a scope closes its frame, if there is one. -/
theorem frames_step_of_closes (m : Machine) {e : Event} {kind : ScopeKind} (h : e.Closes kind) :
    (step source m e).state.frames =
      if kind.framed then m.state.frames.tail else m.state.frames := by
  cases e with
  | closed kind' =>
      obtain rfl : kind' = kind := h
      exact frames_leaveScope m.state kind'
  | wrapped arity span =>
      cases kind with
      | attached explicit => rfl
      | closure | definition => exact absurd h (by simp [Event.Closes])
  | enter | opened | bound | read | pushed => exact absurd h (by simp [Event.Closes])

/-- The invariant along the events `inside` of a block, where `base` is its frame at the start and
`outer` are the frames around it: in front are the frames of the scopes that were opened inside, and
then comes the frame of the block, which says whether the block has read an implicit parameter. -/
def FramesAlong (source : ByteArray) (base : Frame) (outer : List Frame)
    (before inside : List Event) (frames : List Frame) : Prop :=
  ∃ inner front frame, scopesAround (before ++ inside) = inner ++ scopesAround before ∧
    front.length = (inner.filter (·.kind.framed)).length ∧ frames = front ++ frame :: outer ∧
    (ReadsImplicit source before inside → frame = base.use) ∧
    (¬ ReadsImplicit source before inside → frame = base)

section Step

variable {base : Frame} {outer : List Frame} {before inside : List Event} {m : Machine}

theorem frames_make (m : Machine) (shape : List NodeId → Shape) (arity : Nat) (span : Span) :
    (m.make shape arity span).state.frames = m.state.frames := rfl

/-- An event that reads no name and opens or closes no scope keeps the invariant. -/
theorem FramesAlong.keep (h : FramesAlong source base outer before inside m.state.frames)
    {e : Event} (he : e.delimits = false) (hread : ∀ n, e ≠ .read n)
    (hframes : (step source m e).state.frames = m.state.frames) :
    FramesAlong source base outer before (inside ++ [e]) (step source m e).state.frames := by
  obtain ⟨inner, front, frame, hscopes, hfront, heq, hyes, hno⟩ := h
  refine ⟨inner, front, frame, ?_, hfront, hframes.trans heq, ?_, ?_⟩
  · rw [← List.append_assoc, scopesAround_append, scopesFrom_cons_of_not_delimits he, hscopes]
    rfl
  · rwa [readsImplicit_concat_of_ne hread]
  · rwa [readsImplicit_concat_of_ne hread]

/-- A scope that is opened puts its frame in front. -/
theorem FramesAlong.opened (h : FramesAlong source base outer before inside m.state.frames)
    (kind : ScopeKind) : FramesAlong source base outer before (inside ++ [.opened kind])
      (step source m (.opened kind)).state.frames := by
  obtain ⟨inner, front, frame, hscopes, hfront, heq, hyes, hno⟩ := h
  obtain ⟨first, hfirst⟩ := frames_enterScope m.state kind
  have hreads := @readsImplicit_concat_of_ne source before inside (.opened kind) (by simp)
  refine ⟨⟨(before ++ inside).length, kind⟩ :: inner,
    (if kind.framed then first :: front else front), frame, ?_, ?_, ?_, ?_, ?_⟩
  · rw [← List.append_assoc, scopesAround_append, hscopes]
    rfl
  · cases hkind : kind.framed <;> simp [hkind, hfront]
  · rw [step, hfirst, heq]
    cases kind.framed <;> rfl
  · rwa [hreads]
  · rwa [hreads]

/-- A scope that is closed takes its frame away. -/
theorem FramesAlong.closed (h : FramesAlong source base outer before inside m.state.frames)
    {e : Event} {o : Opened} {rest : List Opened} (hcloses : e.Closes o.kind)
    (hopen : scopesAround (before ++ inside) = o :: rest ++ scopesAround before) :
    FramesAlong source base outer before (inside ++ [e]) (step source m e).state.frames := by
  obtain ⟨inner, front, frame, hscopes, hfront, heq, hyes, hno⟩ := h
  obtain rfl : inner = o :: rest := List.append_cancel_right (hscopes.symm.trans hopen)
  have hreads := @readsImplicit_concat_of_ne source before inside e (by
    rintro n rfl
    exact absurd hcloses (by simp [Event.Closes]))
  have hfronts : (if o.kind.framed then front.tail else front).length =
      (rest.filter (·.kind.framed)).length := by
    cases hkind : o.kind.framed with
    | false => simpa [hkind] using hfront
    | true => simp [hkind, hfront]
  refine ⟨rest, (if o.kind.framed then front.tail else front), frame, ?_, hfronts, ?_, ?_, ?_⟩
  · rw [← List.append_assoc, scopesAround_append, scopesFrom_cons_of_closing hcloses.closing,
      hopen]
    rfl
  · rw [frames_step_of_closes m hcloses, heq]
    cases hkind : o.kind.framed with
    | false => rfl
    | true =>
        cases front with
        | nil => simp [hkind] at hfront
        | cons => rfl
  · rwa [hreads]
  · rwa [hreads]

/-- A read of an implicit parameter is noted in the frame in front. -/
theorem FramesAlong.read (h : FramesAlong source base outer before inside m.state.frames)
    (n : Concrete) (hlocal : m.state.isLocal (nameOf source n) = true ↔
      Binds source (before ++ inside) (nameOf source n)) :
    FramesAlong source base outer before (inside ++ [.read n])
      (step source m (.read n)).state.frames := by
  obtain ⟨inner, front, frame, hscopes, hfront, heq, hyes, hno⟩ := h
  have hscopes' : scopesAround (before ++ (inside ++ [.read n])) =
      inner ++ scopesAround before := by
    rw [← List.append_assoc, scopesAround_append, hscopes]
    rfl
  by_cases hnoted : isImplicitParameter (nameOf source n) = true ∧
      ¬ Binds source (before ++ inside) (nameOf source n)
  · have hframes : (step source m (.read n)).state.frames = m.state.useImplicit.frames := by
      have hnot : m.state.isLocal (nameOf source n) = false :=
        Bool.eq_false_iff.2 (mt hlocal.1 hnoted.2)
      rw [step, Machine.resolve, frames_make]
      simp [hnot, State.noteRead, hnoted.1]
    rw [hframes, frames_useImplicit, heq]
    cases front with
    | nil =>
        -- no block stands between
        have hinner : ∀ o ∈ inner, o.kind = .definition := by
          intro o ho
          have hframed := List.filter_eq_nil_iff.1 (List.length_eq_zero_iff.1 hfront.symm) o ho
          revert hframed
          cases o.kind <;> simp [ScopeKind.framed]
        have hreads : ReadsImplicit source before (inside ++ [.read n]) :=
          readsImplicit_concat.2 (Or.inr ⟨n, rfl, hnoted.1, hnoted.2, inner, hscopes, hinner⟩)
        refine ⟨inner, [], frame.use, hscopes', hfront, rfl, fun _ => ?_, fun h => absurd hreads h⟩
        by_cases hbefore : ReadsImplicit source before inside
        · rw [hyes hbefore]
          cases base <;> rfl
        · rw [hno hbefore]
    | cons first front =>
        have hreads : ReadsImplicit source before (inside ++ [.read n]) ↔
            ReadsImplicit source before inside := by
          rw [readsImplicit_concat]
          refine or_iff_left ?_
          rintro ⟨_, _, _, _, inner', hscopes'', hinner'⟩
          obtain rfl : inner = inner' := List.append_cancel_right (hscopes.symm.trans hscopes'')
          have hnone : inner.filter (·.kind.framed) = [] := by
            refine List.filter_eq_nil_iff.2 fun o ho => ?_
            simp [hinner' o ho, ScopeKind.framed]
          simp [hnone] at hfront
        refine ⟨inner, first.use :: front, frame, hscopes', hfront, rfl, ?_, ?_⟩
        · rwa [hreads]
        · rwa [hreads]
  · have hframes : (step source m (.read n)).state.frames = m.state.frames := by
      rw [step, Machine.resolve, frames_make]
      by_cases hbound : m.state.isLocal (nameOf source n) = true
      · simp [hbound]
      · have himplicit : isImplicitParameter (nameOf source n) = false := by
          rw [Bool.eq_false_iff]
          exact fun himplicit => hnoted ⟨himplicit, mt hlocal.2 hbound⟩
        simp [hbound, State.noteRead, himplicit]
    have hreads : ReadsImplicit source before (inside ++ [.read n]) ↔
        ReadsImplicit source before inside := by
      rw [readsImplicit_concat]
      refine or_iff_left ?_
      rintro ⟨n', hn, himplicit, hbound, -⟩
      cases hn
      exact hnoted ⟨himplicit, hbound⟩
    rw [hframes, heq]
    refine ⟨inner, front, frame, hscopes', hfront, rfl, ?_, ?_⟩
    · rwa [hreads]
    · rwa [hreads]

end Step

/-- **Along the events of a block its frame says whether the block has read an implicit
parameter.** -/
theorem frames_along {root : Concrete} {before inside after : List Event}
    (hcourse : course source root = before ++ (inside ++ after)) (hinside : Balanced inside)
    {base : Frame} {outer : List Frame}
    (hframes : (replay source ⟨{}, []⟩ before).state.frames = base :: outer)
    {first second : List Event} (hsplit : inside = first ++ second) :
    FramesAlong source base outer before first
      (replay source ⟨{}, []⟩ (before ++ first)).state.frames := by
  induction hlength : first.length generalizing first second with
  | zero =>
      obtain rfl := List.length_eq_zero_iff.1 hlength
      refine ⟨[], [], base, by simp, rfl, by rw [List.append_nil, hframes]; rfl, ?_, fun _ => rfl⟩
      rintro ⟨earlier, n, later, hempty, -⟩
      simp at hempty
  | succ length ih =>
      rcases List.eq_nil_or_concat first with rfl | ⟨first, e, rfl⟩
      · simp at hlength
      · rw [List.concat_eq_append] at hsplit hlength ⊢
        rw [List.append_assoc] at hsplit
        have hprefix : course source root = (before ++ first) ++ (e :: second ++ after) := by
          rw [hcourse, hsplit]
          simp
        have hstep := ih hsplit (by simpa using hlength)
        rw [← List.append_assoc, replay_append, replay_cons, replay_nil]
        obtain ⟨inner, hinner, hcloses⟩ :=
          hinside.along hsplit before.length (scopesAround before)
        rw [← scopesAround_append] at hinner
        have hclosing (hclosing : e.closing = true) :
            FramesAlong source base outer before (first ++ [e])
              (step source (replay source ⟨{}, []⟩ (before ++ first)) e).state.frames := by
          obtain ⟨o, rest, rfl, ho⟩ := hcloses e rfl hclosing
          exact hstep.closed ho hinner
        cases e with
        | enter | pushed => exact hstep.keep rfl (by simp) rfl
        | bound b =>
            refine hstep.keep rfl (by simp) ?_
            rw [step]
            generalize (replay source ⟨{}, []⟩ (before ++ first)).state = s
            obtain ⟨arena, scopes, frames, depth⟩ := s
            cases scopes <;> rfl
        | opened kind => exact hstep.opened kind
        | closed | wrapped => exact hclosing rfl
        | read n => exact hstep.read n (isLocal_replay hprefix (nameOf source n))

/-! ## Whole blocks -/

/-- The frame at the end of a block says whether the block takes implicit parameters. -/
theorem frame_of_block {root block : Concrete} {before after : List Event}
    (hcourse : course source root = before ++ (blockCourse source block ++ after)) :
    (replay source ⟨{}, []⟩ (before ++ blockCourse source block)).state.frame =
      .allowed true ↔ TakesImplicit source before block := by
  have hinside : Balanced (blockParamEvents block ++ stepsCourse source (blockBodySteps block)) :=
    (balanced_blockParamEvents block).append
      (balanced_blockBodySteps fun c _ => balanced_course c)
  have hopened : (replay source ⟨{}, []⟩ (before ++ [.opened (blockScope block)])).state.frames =
      startFrame block :: (replay source ⟨{}, []⟩ before).state.frames := by
    rw [replay_append]
    rfl
  have hevents : before ++ blockCourse source block = before ++ [.opened (blockScope block)] ++
      (blockParamEvents block ++ stepsCourse source (blockBodySteps block)) := by
    simp [blockCourse]
  rw [← List.append_assoc, hevents, List.append_assoc] at hcourse
  obtain ⟨inner, front, frame, hscopes, hfront, hframes, hyes, hno⟩ :=
    frames_along hcourse hinside hopened (List.append_nil _).symm
  -- the scopes inside have been closed again, and their frames with them
  rw [scopesAround_append, hinside.scopesFrom_eq, ← List.nil_append (scopesAround _)] at hscopes
  obtain rfl := List.append_cancel_right hscopes
  obtain rfl := List.length_eq_zero_iff.1 hfront
  rw [hevents, State.frame, hframes, TakesImplicit]
  simp only [List.nil_append, List.headD_cons]
  unfold startFrame at hyes hno
  cases hparams : block.childByField? "parameters" with
  | none =>
      simp only [hparams, Option.isSome_none, Bool.false_eq_true, if_false] at hyes hno
      by_cases hreads : ReadsImplicit source (before ++ [.opened (blockScope block)])
          (blockParamEvents block ++ stepsCourse source (blockBodySteps block))
      · simp [hyes hreads, hreads, Frame.use]
      · simp [hno hreads, hreads]
  | some params =>
      simp only [hparams, Option.isSome_some, if_true] at hyes hno
      by_cases hreads : ReadsImplicit source (before ++ [.opened (blockScope block)])
          (blockParamEvents block ++ stepsCourse source (blockBodySteps block))
      · simp [hyes hreads, Frame.use]
      · simp [hno hreads]

end Lowering

end SpecLint
