import SpecLint.Proofs.Course.Scopes
import SpecLint.Proofs.Replay.Nodes
import SpecLint.Proofs.Replay.Simulation

/-!
# Which names are local variables

Lowering keeps the names of each open scope in a list that is copied when a scope is opened and
dropped when it is closed.  `Binds` is the rule that these lists carry out: a name is a local
variable where it was declared before, in a scope that is still open, and no definition stands
between the two places.

* `Binds` — the rule.
* `Resolves` — the invariant: the list of each open scope holds the names that the rule gives it.
* `resolves_step`, `resolves_replay` — one event keeps the invariant, and so does a course.
* `shape_of_identifier` — **an identifier becomes a local variable exactly where the rule says so**,
  and a call without receiver and arguments everywhere else.
-/

namespace SpecLint

namespace Lowering

variable {source : ByteArray}

/-! ## The rule -/

/-- Whether `name` was declared among the events `before`, in one of the scopes of `chain` or in
that of the whole source, and no scope of `chain` further inside is that of a definition. -/
def BindsIn (source : ByteArray) (before : List Event) (chain : List Opened) (name : String) :
    Prop :=
  ∃ earlier b later, before = earlier ++ .bound b :: later ∧ nameOf source b = name ∧
    ∃ inner, chain = inner ++ scopesAround earlier ∧ ∀ o ∈ inner, o.kind ≠ .definition

/-- Whether `name` is a local variable after the events `before`: it was declared among them in a
scope that is open still, and between that scope and the innermost one no definition stands. -/
def Binds (source : ByteArray) (before : List Event) (name : String) : Prop :=
  BindsIn source before (scopesAround before) name

theorem bindsIn_concat {before : List Event} {e : Event} {chain : List Opened} {name : String} :
    BindsIn source (before ++ [e]) chain name ↔ BindsIn source before chain name ∨
      ∃ b, e = .bound b ∧ nameOf source b = name ∧
        ∃ inner, chain = inner ++ scopesAround before ∧ ∀ o ∈ inner, o.kind ≠ .definition := by
  constructor
  · rintro ⟨earlier, b, later, hsplit, hname, hscope⟩
    rcases split_concat hsplit with ⟨rfl, rfl, -⟩ | ⟨later, rfl, -⟩
    · exact Or.inr ⟨b, rfl, hname, hscope⟩
    · exact Or.inl ⟨earlier, b, later, rfl, hname, hscope⟩
  · rintro (⟨earlier, b, later, rfl, hname, hscope⟩ | ⟨b, rfl, hname, hscope⟩)
    · exact ⟨earlier, b, later ++ [e], by simp, hname, hscope⟩
    · exact ⟨before, b, [], rfl, hname, hscope⟩

/-- An event that declares no name changes nothing. -/
theorem bindsIn_concat_of_ne {before : List Event} {e : Event} (he : ∀ b, e ≠ .bound b)
    (chain : List Opened) (name : String) :
    BindsIn source (before ++ [e]) chain name ↔ BindsIn source before chain name := by
  rw [bindsIn_concat]
  exact or_iff_left fun ⟨b, hb, _⟩ => he b hb

/-- A declaration is not seen in the scopes further outside. -/
theorem bindsIn_concat_of_lt {before : List Event} (b : Concrete) {chain : List Opened}
    (hchain : chain.length < (scopesAround before).length) (name : String) :
    BindsIn source (before ++ [.bound b]) chain name ↔ BindsIn source before chain name := by
  rw [bindsIn_concat]
  refine or_iff_left ?_
  rintro ⟨_, _, _, inner, rfl, _⟩
  rw [List.length_append] at hchain
  omega

/-- A declaration is seen in the innermost scope. -/
theorem bindsIn_concat_self {before : List Event} (b : Concrete) (name : String) :
    BindsIn source (before ++ [.bound b]) (scopesAround before) name ↔
      BindsIn source before (scopesAround before) name ∨ nameOf source b = name := by
  rw [bindsIn_concat]
  refine or_congr_right ⟨?_, fun hname => ⟨b, rfl, hname, [], rfl, by simp⟩⟩
  rintro ⟨b', hb, hname, -⟩
  cases hb
  exact hname

/-- In a scope that has just been opened the names around it are seen, unless it is the scope of a
definition. -/
theorem bindsIn_opened {before : List Event} (kind : ScopeKind) (name : String) :
    BindsIn source before (⟨before.length, kind⟩ :: scopesAround before) name ↔
      kind ≠ .definition ∧ BindsIn source before (scopesAround before) name := by
  constructor
  · rintro ⟨earlier, b, later, rfl, hname, inner, hchain, hinner⟩
    cases inner with
    | nil =>
        -- the scope was not open yet
        have hmem : ⟨(earlier ++ .bound b :: later).length, kind⟩ ∈ scopesAround earlier := by
          rw [← show _ = scopesAround earlier from hchain]
          exact List.mem_cons_self
        have hlt := place_lt hmem (by simp)
        simp only [List.length_append, List.length_cons] at hlt
        omega
    | cons o inner =>
        obtain ⟨rfl, houter⟩ := List.cons.inj hchain
        exact ⟨hinner _ List.mem_cons_self, earlier, b, later, rfl, hname, inner, houter,
          fun o ho => hinner o (List.mem_cons_of_mem _ ho)⟩
  · rintro ⟨hkind, earlier, b, later, hbefore, hname, inner, hchain, hinner⟩
    refine ⟨earlier, b, later, hbefore, hname, ⟨before.length, kind⟩ :: inner,
      by rw [hchain, List.cons_append], fun o ho => ?_⟩
    rcases List.mem_cons.1 ho with rfl | ho
    · exact hkind
    · exact hinner o ho

/-! ## The invariant -/

/-- The lists of names that lowering keeps hold what the rule says, scope by scope. -/
inductive Resolves (source : ByteArray) (before : List Event) :
    List Opened → List Scope → Prop where
  /-- The scope of the whole source. -/
  | whole {scope : Scope} (names : ∀ name, name ∈ scope ↔ BindsIn source before [] name) :
      Resolves source before [] [scope]
  /-- A scope that was opened, and those around it. -/
  | opened {o : Opened} {chain : List Opened} {scope : Scope} {scopes : List Scope}
      (names : ∀ name, name ∈ scope ↔ BindsIn source before (o :: chain) name)
      (outer : Resolves source before chain scopes) :
      Resolves source before (o :: chain) (scope :: scopes)

namespace Resolves

variable {before before' : List Event} {chain : List Opened} {scopes : List Scope}

theorem congr (h : Resolves source before chain scopes)
    (hbinds : ∀ chain' name, chain'.length ≤ chain.length →
      (BindsIn source before' chain' name ↔ BindsIn source before chain' name)) :
    Resolves source before' chain scopes := by
  induction h with
  | whole names => exact whole fun name => (names name).trans (hbinds [] name (Nat.le_refl _)).symm
  | opened names _ ih =>
      refine opened (fun name => (names name).trans (hbinds _ name (Nat.le_refl _)).symm)
        (ih fun chain' name hle => hbinds chain' name ?_)
      rw [List.length_cons]
      omega

/-- The innermost list, and what can be put in its place. -/
theorem head (h : Resolves source before chain scopes) : ∃ scope outer, scopes = scope :: outer ∧
    (∀ name, name ∈ scope ↔ BindsIn source before chain name) ∧
    ∀ before' scope', (∀ name, name ∈ scope' ↔ BindsIn source before' chain name) →
      (∀ chain' name, chain'.length < chain.length →
        (BindsIn source before' chain' name ↔ BindsIn source before chain' name)) →
      Resolves source before' chain (scope' :: outer) := by
  cases h with
  | whole names => exact ⟨_, [], rfl, names, fun _ _ hscope _ => whole hscope⟩
  | opened names outer =>
      exact ⟨_, _, rfl, names, fun _ _ hscope hlt => opened hscope
        (outer.congr fun chain' name hle => hlt chain' name (Nat.lt_succ_of_le hle))⟩

end Resolves

/-! ## What an event does to the lists -/

@[simp] theorem State.scopes_push (s : State) (shape : Shape) (span : Span) :
    (s.push shape span).2.scopes = s.scopes := rfl

@[simp] theorem State.scopes_noteRead (s : State) (name : String) :
    (s.noteRead name).scopes = s.scopes := by
  obtain ⟨arena, scopes, frames, depth⟩ := s
  unfold State.noteRead
  split
  · rcases frames with _ | ⟨_ | _, _⟩ <;> rfl
  · rfl

theorem State.isLocal_iff {s : State} {before : List Event} {chain : List Opened} {name : String}
    (h : Resolves source before chain s.scopes) :
    s.isLocal name = true ↔ BindsIn source before chain name := by
  obtain ⟨scope, outer, hscopes, hnames, -⟩ := h.head
  rw [State.isLocal, hscopes, List.contains_iff_mem, hnames]

/-- **One event keeps the invariant**, if it closes no scope where none is open. -/
theorem resolves_step {m : Machine} {before : List Event} {e : Event}
    (h : Resolves source before (scopesAround before) m.state.scopes)
    (hclosing : e.closing = true → ∃ o outer, scopesAround before = o :: outer) :
    Resolves source (before ++ [e]) (scopesAround (before ++ [e]))
      (step source m e).state.scopes := by
  rw [scopesAround_append]
  have hkeep (he : ∀ b, e ≠ .bound b) :
      Resolves source (before ++ [e]) (scopesAround before) m.state.scopes :=
    h.congr fun chain name _ => bindsIn_concat_of_ne he chain name
  have hclose (hclosing : e.closing = true) (he : ∀ b, e ≠ .bound b)
      (hopen : ∃ o outer, scopesAround before = o :: outer) :
      Resolves source (before ++ [e]) (scopesAround before).tail m.state.scopes.tail := by
    obtain ⟨o, outer, hchain⟩ := hopen
    have hkept := hkeep he
    rw [hchain] at hkept ⊢
    generalize m.state.scopes = scopes at hkept ⊢
    cases hkept with
    | opened _ houter => exact houter
  cases e with
  | enter | pushed => exact hkeep (by simp)
  | read n =>
      have hscopes : (step source m (.read n)).state.scopes = m.state.scopes := by
        rw [step, Machine.resolve, Machine.make, State.scopes_push]
        split <;> simp
      rw [hscopes]
      exact hkeep (by simp)
  | opened kind =>
      have hscopes : (step source m (.opened kind)).state.scopes =
          (if kind = .definition then [] else m.state.scopes.headD []) :: m.state.scopes := by
        cases kind <;> rfl
      rw [hscopes]
      refine .opened (fun name => ?_) (hkeep (by simp))
      rw [bindsIn_concat_of_ne (by simp), bindsIn_opened]
      obtain ⟨scope, outer, hhead, hnames, -⟩ := h.head
      by_cases hkind : kind = .definition
      · simp [hkind]
      · simp [hkind, hhead, hnames]
  | closed kind =>
      have hscopes : (step source m (.closed kind)).state.scopes = m.state.scopes.tail := by
        cases kind <;> rfl
      rw [hscopes]
      exact hclose rfl (by simp) (hclosing rfl)
  | wrapped arity span => exact hclose rfl (by simp) (hclosing rfl)
  | bound b =>
      obtain ⟨scope, outer, hhead, hnames, hreplace⟩ := h.head
      have hscopes : (step source m (.bound b)).state.scopes =
          scope.insert (nameOf source b) :: outer := by
        obtain ⟨⟨arena, scopes, frames, depth⟩, stack⟩ := m
        obtain rfl : scopes = scope :: outer := hhead
        rfl
      rw [hscopes]
      refine hreplace _ _ (fun name => ?_) fun chain name hlt => bindsIn_concat_of_lt b hlt name
      rw [bindsIn_concat_self, List.mem_insert_iff, hnames, or_comm, eq_comm]

/-- **A course keeps the invariant.** -/
theorem resolves_replay {n : Concrete} {before after : List Event}
    (h : course source n = before ++ after) :
    Resolves source before (scopesAround before) (replay source ⟨{}, []⟩ before).state.scopes := by
  induction hlength : before.length generalizing before after with
  | zero =>
      obtain rfl := List.length_eq_zero_iff.1 hlength
      refine .whole fun name => ⟨fun hmem => absurd hmem List.not_mem_nil, ?_⟩
      rintro ⟨earlier, b, later, hsplit, -⟩
      simp at hsplit
  | succ length ih =>
      rcases List.eq_nil_or_concat before with rfl | ⟨before, e, rfl⟩
      · simp at hlength
      · rw [List.concat_eq_append, List.append_assoc] at h
        rw [List.concat_eq_append, replay_append]
        refine resolves_step (ih h (by simpa using hlength)) fun hclosing => ?_
        obtain ⟨inner, hinner, hcloses⟩ := (balanced_course n).along h 0 []
        obtain ⟨o, outer, rfl, -⟩ := hcloses e rfl hclosing
        exact ⟨o, outer, by simpa [scopesAround] using hinner⟩

/-- Lowering takes a name for a local variable exactly where the rule says so. -/
theorem isLocal_replay {n : Concrete} {before after : List Event}
    (h : course source n = before ++ after) (name : String) :
    (replay source ⟨{}, []⟩ before).state.isLocal name = true ↔ Binds source before name :=
  State.isLocal_iff (resolves_replay h)

/-! ## Identifiers -/

/-- **What becomes of an identifier**: a read of a local variable where the rule says so, and else a
call without receiver and arguments.  Its node is pushed after those of all events before. -/
theorem shape_of_identifier {grammar : Grammar} {source : ByteArray} {arena : Arena}
    (h : arenaOf grammar source = .ok arena) {before after : List Event} {n : Concrete}
    (hrole : n.role = .identifier)
    (hvisit : courseOf grammar source = before ++ .enter n :: after) :
    (Binds source before (nameOf source n) →
      arena.form? (pushes before) = some (.localRead (nameOf source n), spanOf n)) ∧
    (¬ Binds source before (nameOf source n) →
      arena.form? (pushes before) = some (.send {
        receiver := none, method := nameOf source n, arguments := [], selector := spanOf n },
        spanOf n)) := by
  have hsource := isEmpty_of_courseOf hvisit
  rw [courseOf_eq hsource] at hvisit
  obtain ⟨root, rfl, -⟩ := replay_arenaOf hsource h
  obtain ⟨rest, hrest⟩ := course_of_enter hvisit
  have hcourse : course source n = [.enter n, .read n] := by
    simp [course_eq, agenda, hrole, stepCourse]
  have hevents : course source (grammar source) = (before ++ [.enter n]) ++ .read n :: rest := by
    rw [hvisit, hrest, hcourse, List.append_assoc]
    rfl
  have hbinds : Binds source (before ++ [.enter n]) (nameOf source n) ↔
      Binds source before (nameOf source n) := by
    rw [Binds, scopesAround_append]
    exact bindsIn_concat_of_ne (by simp) _ _
  have hsize : (replay source ⟨{}, []⟩ (before ++ [.enter n])).state.arena.size =
      pushes before := by
    rw [size_replay, pushes, List.countP_append]
    exact Nat.zero_add _
  have hform := form?_of_push source ⟨{}, []⟩ hevents rfl
  rw [hsize, pushedForm] at hform
  have hlocal := isLocal_replay hevents (nameOf source n)
  rw [hbinds] at hlocal
  refine ⟨fun hbound => ?_, fun hbound => ?_⟩
  · rw [hlocal.2 hbound] at hform
    exact hform
  · rw [Bool.eq_false_iff.2 (mt hlocal.1 hbound)] at hform
    exact hform

/-- The tree of `a = 1` with `a` on the next line. -/
def assignedThenRead : Concrete :=
  ⟨"program", true, none, 0, 7, 0, 0,
    [⟨"assignment", true, none, 0, 5, 0, 0,
      [⟨"identifier", true, some "left", 0, 1, 0, 0, []⟩,
        ⟨"integer", true, some "right", 4, 5, 0, 4, []⟩]⟩,
      ⟨"identifier", true, none, 6, 7, 1, 0, []⟩]⟩

/-- The name on the second line is a local variable. -/
theorem shape_of_identifier_assigned : ∃ arena,
    arenaOf (fun _ => assignedThenRead) "a = 1\na".toUTF8 = .ok arena ∧
      arena.form? 3 = some (.localRead "a", ⟨6, 7, 2, 1⟩) := by
  obtain ⟨arena, harena⟩ : ∃ arena,
      arenaOf (fun _ => assignedThenRead) "a = 1\na".toUTF8 = .ok arena := ⟨_, rfl⟩
  obtain ⟨before, after, hvisit, hpushes, hbound⟩ : ∃ before after,
      courseOf (fun _ => assignedThenRead) "a = 1\na".toUTF8 =
        before ++ .enter ⟨"identifier", true, none, 6, 7, 1, 0, []⟩ :: after ∧
      pushes before = 3 ∧ Binds "a = 1\na".toUTF8 before "a" := by
    rw [courseOf_eq (by decide)]
    simp [assignedThenRead, course_eq, agenda, Concrete.role, Concrete.Role.ofKind, overSteps,
      stepCourse, Concrete.parts, plainSteps, Concrete.childByField?, targets_eq]
    refine ⟨[_, _, _, _, _, _, _, _], ⟨_, rfl⟩, rfl, ?_⟩
    exact ⟨[_, _], _, _, rfl, rfl, [], rfl, by simp⟩
  have hshape := (shape_of_identifier harena (by rfl) hvisit).1 hbound
  rw [hpushes] at hshape
  exact ⟨arena, harena, hshape⟩

end Lowering

end SpecLint
