import SpecLint.Proofs.Arena.Fragment
import SpecLint.Proofs.Course.Scopes
import SpecLint.Proofs.Replay

/-!
# A replay behind other nodes

What a balanced course does depends on the innermost scope only.  A machine `m` is the machine `m₀`
placed behind `base` and inside of `outer` when its arena is that of `m₀` behind `base`, its stack
is that of `m₀` moved, and its scopes and frames are those of `m₀` on top of others.  Names count,
their order in a scope does not.

* `OnTop` — some scopes on top of others.
* `Machine.Placed` — the relation between the two machines.
* `Placed.step` — an event that opens and closes no scope keeps it.
* `Placed.replay` — **balanced events keep it**.
-/

namespace SpecLint

namespace Lowering

/-! ## Scopes on top of others -/

/-- The scopes of the second list are those of the first on top of `outer`, up to the order of their
names. -/
inductive OnTop (outer : List Scope) : List Scope → List Scope → Prop where
  /-- No scopes on top. -/
  | outer : OnTop outer [] outer
  /-- One more scope. -/
  | scope {own own' : Scope} {inner scopes : List Scope} (same : ∀ name, name ∈ own ↔ name ∈ own')
      (rest : OnTop outer inner scopes) : OnTop outer (own :: inner) (own' :: scopes)

/-- What balanced events leave of the scopes: those around the innermost one, which has not lost a
name. -/
def Grown : List Scope → List Scope → Prop
  | scope :: outer, scope' :: outer' => outer' = outer ∧ ∀ name ∈ scope, name ∈ scope'
  | [], [] => True
  | _, _ => False

theorem Grown.refl (scopes : List Scope) : Grown scopes scopes := by
  cases scopes with
  | nil => trivial
  | cons scope outer => exact ⟨rfl, fun _ h => h⟩

theorem Grown.trans {first second third : List Scope} (h : Grown first second)
    (h' : Grown second third) : Grown first third := by
  rcases first with _ | ⟨scope, outer⟩ <;> rcases second with _ | ⟨scope', outer'⟩ <;>
    rcases third with _ | ⟨scope'', outer''⟩ <;> simp only [Grown] at h h' ⊢
  exact ⟨h'.1.trans h.1, fun name hname => h'.2 name (h.2 name hname)⟩

/-- No scopes grow to no scopes. -/
theorem Grown.nil {scopes scopes' : List Scope} {p : Prop} (h : Grown scopes scopes')
    (hp : scopes = [] → p) (hnil : scopes' = []) : p := by
  subst hnil
  cases scopes with
  | nil => exact hp rfl
  | cons => exact h.elim

theorem Grown.tail {scope : Scope} {outer scopes : List Scope} (h : Grown (scope :: outer) scopes) :
    ∃ scope', scopes = scope' :: outer ∧ ∀ name ∈ scope, name ∈ scope' := by
  cases scopes with
  | nil => exact h.elim
  | cons scope' outer' => exact ⟨scope', by rw [h.1], h.2⟩

/-! ## The relation -/

/-- `m` is `m₀` placed behind the nodes of `base` and inside of the scopes `outer`. -/
structure Machine.Placed (base : Arena) (outer : List Scope) (m₀ m : Machine) : Prop where
  /-- The arena of `m` is that of `m₀` behind `base`. -/
  arena : base.Extends m.state.arena m₀.state.arena
  /-- The nodes without a parent are the same. -/
  stack : m.stack = m₀.stack.map (base.size + ·)
  /-- The scopes of `m₀` are the innermost ones of `m`. -/
  scopes : OnTop outer m₀.state.scopes m.state.scopes
  /-- The frames of `m₀` are the innermost ones of `m`. -/
  frames : ∃ rest, m.state.frames = m₀.state.frames ++ rest

/-- What balanced events leave of a state: its scopes, grown, and as many frames. -/
structure State.Settled (s s' : State) : Prop where
  /-- The scopes. -/
  scopes : Grown s.scopes s'.scopes
  /-- The number of frames. -/
  frames : s'.frames.length = s.frames.length

variable {source : ByteArray} {base : Arena} {outer : List Scope} {m₀ m : Machine}

theorem Head.shape_moved (head : Head) (k : Nat) (ids : List NodeId) :
    head.shape (ids.map (k + ·)) = (head.shape ids).moved k := by
  cases head with
  | send receiver => cases receiver <;> cases ids <;> rfl
  | params | sequence | other => rfl

theorem wrappedShape_moved (implicit : Bool) (k : Nat) (ids : List NodeId) :
    wrappedShape implicit (ids.map (k + ·)) = (wrappedShape implicit ids).moved k := by
  rcases ids with _ | ⟨call, _ | ⟨params, _ | ⟨body, _ | ⟨_, _⟩⟩⟩⟩ <;> cases implicit <;> rfl

theorem readShape_moved (isLocal : Bool) (name : String) (span : Span) (k : Nat) :
    readShape isLocal name span = (readShape isLocal name span).moved k := by
  cases isLocal <;> rfl

namespace Machine.Placed

theorem make (h : Placed base outer m₀ m) {shape : List NodeId → Shape}
    (hshape : ∀ ids, shape (ids.map (base.size + ·)) = (shape ids).moved base.size) (arity : Nat)
    (span : Span) : Placed base outer (m₀.make shape arity span) (m.make shape arity span) where
  arena := by
    have hids : shape (m.stack.take arity).reverse =
        (shape (m₀.stack.take arity).reverse).moved base.size := by
      rw [h.stack, ← List.map_take, ← List.map_reverse, hshape]
    have hpush := h.arena.push (shape (m₀.stack.take arity).reverse) span
    rw [← hids] at hpush
    exact hpush
  stack := by
    have hsize : m.state.arena.size = base.size + m₀.state.arena.size := h.arena.size
    rw [Machine.make, Machine.make, List.map_cons, List.map_drop, ← h.stack, hsize]
  scopes := h.scopes
  frames := h.frames

/-- Where `m₀` has no scope at all there is none around it either. -/
theorem isLocal_eq (h : Placed base outer m₀ m) (houter : m₀.state.scopes = [] → outer = [])
    (name : String) : m.state.isLocal name = m₀.state.isLocal name := by
  obtain ⟨⟨arena₀, scopes₀, frames₀, depth₀⟩, stack₀⟩ := m₀
  obtain ⟨⟨arena, scopes, frames, depth⟩, stack⟩ := m
  cases h.scopes with
  | outer =>
      obtain rfl : scopes = [] := houter rfl
      rfl
  | scope same => simp [State.isLocal, same]

theorem declare (h : Placed base outer m₀ m) (houter : m₀.state.scopes = [] → outer = [])
    (name : String) : Placed base outer { m₀ with state := m₀.state.declare name }
      { m with state := m.state.declare name } := by
  obtain ⟨⟨arena₀, scopes₀, frames₀, depth₀⟩, stack₀⟩ := m₀
  obtain ⟨⟨arena, scopes, frames, depth⟩, stack⟩ := m
  obtain ⟨harena, hstack, hscopes, hframes⟩ := h
  cases hscopes with
  | outer =>
      obtain rfl : scopes = [] := houter rfl
      exact ⟨harena, hstack, .outer, hframes⟩
  | scope same rest =>
      refine ⟨harena, hstack, .scope (fun name' => ?_) rest, hframes⟩
      rw [List.mem_insert_iff, List.mem_insert_iff, same]

theorem useImplicit (h : Placed base outer m₀ m) :
    Placed base outer { m₀ with state := m₀.state.useImplicit }
      { m with state := m.state.useImplicit } := by
  obtain ⟨⟨arena₀, scopes₀, frames₀, depth₀⟩, stack₀⟩ := m₀
  obtain ⟨⟨arena, scopes, frames, depth⟩, stack⟩ := m
  obtain ⟨harena, hstack, hscopes, rest, hframes⟩ := h
  obtain rfl : frames = frames₀ ++ rest := hframes
  rcases frames₀ with _ | ⟨_ | _, frames₀⟩
  · -- the frame that takes note is none of `m₀`
    rcases rest with _ | ⟨_ | _, rest⟩ <;> exact ⟨harena, hstack, hscopes, _, rfl⟩
  · exact ⟨harena, hstack, hscopes, rest, rfl⟩
  · exact ⟨harena, hstack, hscopes, rest, rfl⟩

theorem noteRead (h : Placed base outer m₀ m) (name : String) :
    Placed base outer { m₀ with state := m₀.state.noteRead name }
      { m with state := m.state.noteRead name } := by
  unfold State.noteRead
  split
  · exact h.useImplicit
  · exact h

theorem resolve (h : Placed base outer m₀ m) (houter : m₀.state.scopes = [] → outer = [])
    (name : String) (span : Span) :
    Placed base outer (m₀.resolve name span) (m.resolve name span) := by
  unfold Machine.resolve
  rw [h.isLocal_eq houter]
  have hnote : Placed base outer
      { m₀ with state := if m₀.state.isLocal name then m₀.state else m₀.state.noteRead name }
      { m with state := if m₀.state.isLocal name then m.state else m.state.noteRead name } := by
    cases m₀.state.isLocal name with
    | true => exact h
    | false => exact h.noteRead name
  exact hnote.make (fun _ => readShape_moved _ _ _ _) 0 span

/-- An event that opens and closes no scope keeps the relation. -/
theorem step (h : Placed base outer m₀ m) (houter : m₀.state.scopes = [] → outer = []) {e : Event}
    (he : e.delimits = false) :
    Placed base outer (Lowering.step source m₀ e) (Lowering.step source m e) := by
  cases e with
  | enter => exact h
  | bound n => exact h.declare houter _
  | read n => exact h.resolve houter _ _
  | pushed head arity span => exact h.make (fun ids => head.shape_moved _ ids) arity span
  | opened | closed | wrapped => simp [Event.delimits] at he

/-! ### Scopes -/

theorem openScope (h : Placed base outer m₀ m) (houter : m₀.state.scopes = [] → outer = [])
    (inherit : Bool) : Placed base outer { m₀ with state := m₀.state.openScope inherit }
      { m with state := m.state.openScope inherit } where
  arena := h.arena
  stack := h.stack
  scopes := by
    refine .scope (fun name => ?_) h.scopes
    cases inherit with
    | false => rfl
    | true =>
        obtain ⟨⟨arena₀, scopes₀, frames₀, depth₀⟩, stack₀⟩ := m₀
        obtain ⟨⟨arena, scopes, frames, depth⟩, stack⟩ := m
        cases h.scopes with
        | outer =>
            obtain rfl : scopes = [] := houter rfl
            rfl
        | scope same => exact same name
  frames := h.frames

theorem openFrame (h : Placed base outer m₀ m) (frame : Frame) :
    Placed base outer { m₀ with state := m₀.state.openFrame frame }
      { m with state := m.state.openFrame frame } where
  arena := h.arena
  stack := h.stack
  scopes := h.scopes
  frames := by
    obtain ⟨rest, hrest⟩ := h.frames
    exact ⟨rest, congrArg (frame :: ·) hrest⟩

theorem enterScope (h : Placed base outer m₀ m) (houter : m₀.state.scopes = [] → outer = [])
    (kind : ScopeKind) : Placed base outer { m₀ with state := m₀.state.enterScope kind }
      { m with state := m.state.enterScope kind } := by
  cases kind with
  | attached explicit => exact (h.openFrame _).openScope houter true
  | closure => exact (h.openFrame _).openScope houter true
  | definition => exact h.openScope houter false

theorem closeScope (h : Placed base outer m₀ m) (hscopes : m₀.state.scopes ≠ []) :
    Placed base outer { m₀ with state := m₀.state.closeScope }
      { m with state := m.state.closeScope } where
  arena := h.arena
  stack := h.stack
  scopes := by
    obtain ⟨⟨arena₀, scopes₀, frames₀, depth₀⟩, stack₀⟩ := m₀
    obtain ⟨⟨arena, scopes, frames, depth⟩, stack⟩ := m
    cases h.scopes with
    | outer => exact absurd rfl hscopes
    | scope _ rest => exact rest
  frames := h.frames

theorem closeFrame (h : Placed base outer m₀ m) (hframes : m₀.state.frames ≠ []) :
    Placed base outer { m₀ with state := m₀.state.closeFrame }
      { m with state := m.state.closeFrame } where
  arena := h.arena
  stack := h.stack
  scopes := h.scopes
  frames := by
    obtain ⟨rest, hrest⟩ := h.frames
    exact ⟨rest, by simp [State.closeFrame, hrest, List.tail_append_of_ne_nil hframes]⟩

theorem frame_eq (h : Placed base outer m₀ m) (hframes : m₀.state.frames ≠ []) :
    m.state.frame = m₀.state.frame := by
  obtain ⟨rest, hrest⟩ := h.frames
  obtain ⟨frame, frames, hcons⟩ := List.exists_cons_of_ne_nil hframes
  simp [State.frame, hrest, hcons]

/-- An event that closes a scope of `m₀` keeps the relation. -/
theorem close (h : Placed base outer m₀ m) {kind : ScopeKind} {e : Event} (he : e.Closes kind)
    (hscopes : m₀.state.scopes ≠ []) (hframes : kind ≠ .definition → m₀.state.frames ≠ []) :
    Placed base outer (Lowering.step source m₀ e) (Lowering.step source m e) := by
  cases e with
  | closed kind' =>
      obtain rfl : kind' = kind := he
      cases kind' with
      | attached | closure => exact (h.closeScope hscopes).closeFrame (hframes (by simp))
      | definition => exact h.closeScope hscopes
  | wrapped arity span =>
      cases kind with
      | attached explicit =>
          have hframes := hframes (by simp)
          have hmake := ((h.closeScope hscopes).closeFrame hframes).make
            (fun ids => wrappedShape_moved (m₀.state.frame == .allowed true) _ ids) arity span
          rw [Lowering.step, Lowering.step, h.frame_eq hframes]
          exact hmake
      | closure | definition => exact he.elim
  | enter | opened | bound | read | pushed => exact he.elim

end Machine.Placed

/-! ## Balanced events -/

namespace State

theorem Settled.refl (s : State) : s.Settled s := ⟨.refl _, rfl⟩

theorem Settled.trans {s s' s'' : State} (h : s.Settled s') (h' : s'.Settled s'') :
    s.Settled s'' :=
  ⟨h.scopes.trans h'.scopes, h'.frames.trans h.frames⟩

theorem scopes_enterScope_ne_nil (s : State) (kind : ScopeKind) :
    (s.enterScope kind).scopes ≠ [] := by
  cases kind <;> exact List.cons_ne_nil _ _

theorem settled_declare (s : State) (name : String) : s.Settled (s.declare name) := by
  obtain ⟨arena, scopes, frames, depth⟩ := s
  cases scopes with
  | nil => exact .refl _
  | cons scope outer => exact ⟨⟨rfl, fun _ h => List.mem_insert_of_mem h⟩, rfl⟩

theorem settled_noteRead (s : State) (name : String) : s.Settled (s.noteRead name) := by
  unfold noteRead
  split
  · obtain ⟨arena, scopes, frames, depth⟩ := s
    rcases frames with _ | ⟨_ | _, _⟩ <;> exact ⟨.refl _, rfl⟩
  · exact .refl _

end State

theorem settled_make (m : Machine) (shape : List NodeId → Shape) (arity : Nat) (span : Span) :
    m.state.Settled (m.make shape arity span).state :=
  ⟨.refl _, rfl⟩

/-- An event that opens and closes no scope settles. -/
theorem settled_step (m : Machine) {e : Event} (he : e.delimits = false) :
    m.state.Settled (step source m e).state := by
  cases e with
  | enter => exact .refl _
  | pushed head arity span => exact settled_make m _ arity span
  | bound n => exact m.state.settled_declare _
  | read n =>
      rw [step, Machine.resolve]
      refine State.Settled.trans ?_ (settled_make _ _ 0 _)
      dsimp only
      split
      · exact .refl _
      · exact m.state.settled_noteRead _
  | opened | closed | wrapped => simp [Event.delimits] at he

/-- A scope that is opened, settles and is closed leaves nothing behind. -/
theorem settled_scope {m m' : Machine} {kind : ScopeKind} {e : Event}
    (h : (m.state.enterScope kind).Settled m'.state) (he : e.Closes kind) :
    m'.state.scopes ≠ [] ∧ (kind ≠ .definition → m'.state.frames ≠ []) ∧
      m.state.Settled (step source m' e).state := by
  obtain ⟨⟨arena, scopes, frames, depth⟩, stack⟩ := m
  obtain ⟨⟨arena', scopes', frames', depth'⟩, stack'⟩ := m'
  obtain ⟨hscopes, hframes⟩ := h
  cases kind with
  | definition =>
      obtain ⟨own, rfl, -⟩ := Grown.tail hscopes
      cases e with
      | closed kind =>
          obtain rfl : kind = .definition := he
          exact ⟨by simp, by simp, .refl _, hframes⟩
      | wrapped | enter | opened | bound | read | pushed => exact he.elim
  | attached | closure =>
      obtain ⟨own, rfl, -⟩ := Grown.tail hscopes
      cases frames' with
      | nil => cases hframes
      | cons frame frames' =>
          have hlength : frames'.length = frames.length := Nat.succ.inj hframes
          cases e with
          | closed kind =>
              obtain rfl := he
              exact ⟨by simp, by simp, .refl _, hlength⟩
          | wrapped => exact ⟨by simp, by simp, .refl _, hlength⟩
          | enter | opened | bound | read | pushed => exact he.elim

/-- **Balanced events keep the relation**, and settle. -/
theorem Machine.Placed.replay {events : List Event} (hevents : Balanced events) :
    ∀ {m₀ m : Machine}, Placed base outer m₀ m → (m₀.state.scopes = [] → outer = []) →
      Placed base outer (Lowering.replay source m₀ events) (Lowering.replay source m events) ∧
        m₀.state.Settled (Lowering.replay source m₀ events).state := by
  induction hevents with
  | nil => exact fun h _ => ⟨h, .refl _⟩
  | cons unscoped _ ih =>
      intro m₀ m h houter
      have hsettled := @settled_step source m₀ _ unscoped
      have hplaced := @Machine.Placed.step source _ _ _ _ h houter _ unscoped
      obtain ⟨hrest, hsettled'⟩ := ih hplaced (hsettled.scopes.nil houter)
      exact ⟨hrest, hsettled.trans hsettled'⟩
  | nest closes _ _ ihinner ihrest =>
      intro m₀ m h houter
      obtain ⟨hinner, hsettled⟩ := ihinner (h.enterScope houter _) fun hnil =>
        absurd hnil (State.scopes_enterScope_ne_nil _ _)
      obtain ⟨hscopes, hframes, hsettled⟩ := @settled_scope source m₀ _ _ _ hsettled closes
      have hplaced := @Machine.Placed.close source _ _ _ _ hinner _ _ closes hscopes hframes
      obtain ⟨hrest, hsettled'⟩ := ihrest hplaced (hsettled.scopes.nil houter)
      rw [replay_cons, replay_cons, replay_append, replay_append, replay_cons, replay_cons]
      exact ⟨hrest, hsettled.trans hsettled'⟩

end Lowering

end SpecLint
