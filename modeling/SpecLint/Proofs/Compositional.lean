import SpecLint.Proofs.Course.Texts
import SpecLint.Proofs.Misuse
import SpecLint.Proofs.Outcome
import SpecLint.Proofs.Replay.Nodes
import SpecLint.Proofs.Replay.Placement
import SpecLint.Proofs.WellFormed

/-!
# Lowering is compositional

What lowering makes of a node depends on the names of the innermost scope and on nothing else: not
on the arena, the scopes further outside, the frames or the levels that are left.  For a definition
not even these names count.

* `alone` — the node lowered on its own, inside of at most one scope.
* `State.Gains` — a state that has gained some nodes and some names.
* `gains_of_run` — from every state lowering adds what it makes of the node alone.
* `holds_arenaOf` — the nodes of a definition in the arena of a source file.
* `lower_compositional` — **two runs add the same nodes and names**, and the rule reports the same
  inside of a definition wherever it stands.
-/

namespace SpecLint

namespace Lowering

variable {source : ByteArray} {n : Concrete} {s t : State}

/-! ## A node on its own -/

/-- Lowers `n` with an empty arena, inside of the scope `own` or of none. -/
def alone (source : ByteArray) (own : Option Scope) (n : Concrete) : Machine :=
  replay source ⟨{ scopes := own.toList }, []⟩ (course source n)

/-- The local variables of the innermost scope. -/
def State.locals (s : State) : Scope := s.scopes.headD []

/-- Whether the innermost scopes of two states hold the same names. -/
def SameLocals (s s' : State) : Prop :=
  (s.scopes = [] ↔ s'.scopes = []) ∧ ∀ name, name ∈ s.locals ↔ name ∈ s'.locals

/-- `t` is `s` with the nodes of `fragment` behind those of `s` and the names `added` in the
innermost scope. -/
structure State.Gains (s t : State) (fragment : Arena) (added : Scope) : Prop where
  /-- The nodes. -/
  nodes : s.arena.Extends t.arena fragment
  /-- The names of the innermost scope. -/
  names : ∀ name, name ∈ t.locals ↔ name ∈ s.locals ∨ name ∈ added
  /-- The scopes further outside are as they were. -/
  outer : t.scopes.tail = s.scopes.tail

/-- A definition needs no scope around it. -/
theorem placed_definition {base : Arena} {outer : List Scope} {m₀ m : Machine}
    (hrole : n.role = .definition) (h : m₀.Placed base outer m) :
    (replay source m₀ (course source n)).Placed base outer (replay source m (course source n)) ∧
      m₀.state.Settled (replay source m₀ (course source n)).state := by
  have hcourse : course source n = .enter n :: .opened .definition ::
      (stepsCourse source (plainSteps n) ++ [.closed .definition]) := by
    rw [course_eq, agenda, hrole]
    simp [scopedSteps, stepCourse]
  have hplain : Balanced (stepsCourse source (plainSteps n)) :=
    balanced_overSteps (fun c _ => balanced_course c) _ _
  have hopened : Machine.Placed base outer (step source m₀ (.opened .definition))
      (step source m (.opened .definition)) :=
    ⟨h.arena, h.stack, .scope (fun _ => Iff.rfl) h.scopes, h.frames⟩
  obtain ⟨hinner, hsettled⟩ := @Machine.Placed.replay source _ _ _ hplain _ _ hopened
    fun hnil => absurd hnil (List.cons_ne_nil _ _)
  have hclosed : Event.Closes (.closed .definition) .definition := rfl
  obtain ⟨hscopes, hframes, hsettled⟩ := @settled_scope source m₀ _ .definition _ hsettled hclosed
  rw [hcourse]
  simp only [replay_cons, replay_append, replay_nil]
  exact ⟨hinner.close hclosed hscopes hframes, hsettled⟩

/-- The names in the innermost scope, when the scopes `own` on top of `outer` have grown to those of
`m₀`. -/
theorem gained_names {own : Option Scope} {outer : List Scope} {s₀ : State}
    (hscopes : OnTop outer own.toList s.scopes) (hnames : OnTop outer s₀.scopes t.scopes)
    (hgrown : Grown own.toList s₀.scopes) :
    (∀ name, name ∈ t.locals ↔ name ∈ s.locals ∨ name ∈ s₀.locals) ∧
      t.scopes.tail = s.scopes.tail := by
  unfold State.locals
  cases own with
  | none =>
      -- there is no scope that could gain a name
      generalize s.scopes = scopes at hscopes ⊢
      generalize t.scopes = scopes' at hnames ⊢
      generalize s₀.scopes = scopes₀ at hnames hgrown ⊢
      cases hscopes
      cases scopes₀ with
      | nil =>
          cases hnames
          simp
      | cons => exact hgrown.elim
  | some scope =>
      obtain ⟨scope', hscope', hkept⟩ := Grown.tail hgrown
      rw [hscope'] at hnames ⊢
      generalize s.scopes = scopes at hscopes ⊢
      generalize t.scopes = scopes' at hnames ⊢
      cases hscopes with
      | scope same rest =>
          cases rest
          cases hnames with
          | scope same' rest' =>
              cases rest'
              refine ⟨fun name => ?_, rfl⟩
              simp only [List.headD_cons, ← same, ← same']
              exact ⟨Or.inr, fun h => h.elim (hkept name) id⟩

theorem gains_of_run {levels : Nat} {id : NodeId} {own : Option Scope} {outer : List Scope}
    (h : (lower source levels n).run s = (.ok id, t)) (hscopes : OnTop outer own.toList s.scopes)
    (hown : n.role = .definition ∨ (own = none → outer = [])) :
    s.Gains t (alone source own n).state.arena (alone source own n).state.locals ∧
      ∃ root, (alone source own n).stack = [root] ∧ id = s.arena.size + root := by
  have hrun : replay source ⟨s, []⟩ (course source n) = ⟨t, [id]⟩ :=
    replay_lower levels n s id t h []
  have hstart : Machine.Placed s.arena outer ⟨{ scopes := own.toList }, []⟩ ⟨s, []⟩ :=
    ⟨.refl _, rfl, hscopes, s.frames, rfl⟩
  obtain ⟨hplaced, hsettled⟩ : (alone source own n).Placed s.arena outer ⟨t, [id]⟩ ∧
      State.Settled { scopes := own.toList } (alone source own n).state := by
    rw [← hrun]
    rcases hown with hrole | hown
    · exact placed_definition hrole hstart
    · exact hstart.replay (balanced_course n) fun hnil => hown (by simpa using hnil)
  obtain ⟨root, hroot⟩ := @stack_course source ⟨{ scopes := own.toList }, []⟩ n
  have hstack : (alone source own n).stack = [root] := hroot
  obtain ⟨hnames, houter⟩ : (∀ name, name ∈ t.locals ↔ name ∈ s.locals ∨
        name ∈ (alone source own n).state.locals) ∧ t.scopes.tail = s.scopes.tail :=
    gained_names hscopes hplaced.scopes hsettled.scopes
  refine ⟨⟨hplaced.arena, hnames, houter⟩, root, hstack, ?_⟩
  have hid := hplaced.stack
  rw [hstack] at hid
  exact List.singleton_inj.1 hid

end Lowering

/-! ## The rule inside of a tree -/

namespace Arena

theorem lt_size_of_expectsRunner {a : Arena} {t : NodeId} (h : a.ExpectsRunner t) :
    t < a.size := by
  rcases h with hexpect | ⟨block, hblock, -⟩
  · obtain ⟨call, span, hform, -⟩ := isExpectation_iff.1 hexpect
    exact lt_size_of_form? hform
  · obtain ⟨span, hform⟩ := block?_eq_some.1 hblock
    exact lt_size_of_form? hform

/-- A node that expects a runner has a parent in its tree when the root is neither a call nor a
block. -/
theorem Forest.exists_parent_of_expectsRunner {a : Arena} {root : Nat} {kind : String}
    {children : List NodeId} {span : Span} (h : a.Forest none 0 a.size [root])
    (hroot : a.form? root = some (.other kind children, span)) {t : NodeId}
    (ht : a.ExpectsRunner t) : ∃ p, a.parent? t = some p := by
  obtain ⟨-, hmem | ⟨p, -, hp, hmem⟩⟩ := h.listed (Nat.zero_le t) (lt_size_of_expectsRunner ht)
  · obtain rfl := List.mem_singleton.1 hmem
    exact absurd ht (not_expectsRunner hroot (by simp) (by simp))
  · exact ⟨p, (h.parent_of_mem_children (Nat.zero_le p) hp hmem).1⟩

section Inside

variable {a fragment : Arena} {k root i p : Nat} (h : a.Holds k fragment)
  (hforest : fragment.Forest none 0 fragment.size [root])

include h

theorem Holds.isExpectation (hi : i < fragment.size) :
    a.isExpectation (k + i) = fragment.isExpectation i := by
  rw [Arena.isExpectation, Arena.isExpectation, h.call? hi]
  cases fragment.call? i with
  | none => rfl
  | some call => simp [Call.moved]

theorem Holds.isEmptyParams (hi : i < fragment.size) :
    a.isEmptyParams (k + i) = fragment.isEmptyParams i := by
  rw [Arena.isEmptyParams, Arena.isEmptyParams, h.shape hi]
  cases (fragment.get? i).map Node.shape with
  | none => rfl
  | some shape => cases shape <;> simp [Shape.moved]

include hforest

theorem Holds.isBareBlockOf (hp : p < fragment.size) :
    a.isBareBlockOf (k + p) (k + i) = fragment.isBareBlockOf p i := by
  rw [Arena.isBareBlockOf, Arena.isBareBlockOf, h.block? hp]
  cases hblock : fragment.block? p with
  | none => rfl
  | some block =>
      -- the parameters of a block stand before it
      obtain ⟨span, hform⟩ := block?_eq_some.1 hblock
      have hparams : block.params ∈ fragment.children p := by
        rw [children_of_form? hform]
        simp [Shape.children]
      have hlt := (hforest.parent_of_mem_children (Nat.zero_le p) hp hparams).2.1
      have hempty := h.isEmptyParams (Nat.lt_trans hlt hp)
      have hcall : (k + block.call == k + i) = (block.call == i) :=
        Bool.eq_iff_iff.2 (by simp)
      simp [Block.moved, hempty, hcall]

theorem Holds.chainedOnto (hp : fragment.parent? i = some p) :
    a.chainedOnto (k + i) = k + fragment.chainedOnto i := by
  have hlt := (hforest.mem_children_of_parent? hp).2.2
  rw [Arena.chainedOnto, Arena.chainedOnto, h.links i p hp, hp]
  dsimp only
  rw [h.isBareBlockOf hforest hlt]
  split <;> rfl

theorem Holds.offendingCall? (hp : fragment.parent? i = some p) (runners : RunnerSet) :
    a.offendingCall? runners (k + i) = (fragment.offendingCall? runners i).map (Call.moved k) := by
  have hlt := (hforest.mem_children_of_parent? hp).2.2
  rw [Arena.offendingCall?, Arena.offendingCall?, h.links i p hp, hp, Option.bind_some,
    Option.bind_some, h.call? hlt]
  cases fragment.call? p with
  | none => rfl
  | some call =>
      have hreceiver : ((call.moved k).receiver == some (k + i)) = (call.receiver == some i) := by
        refine Bool.eq_iff_iff.2 ?_
        cases hreceiver : call.receiver <;> simp [Call.moved, hreceiver]
      simp only [Option.map_some, hreceiver]
      rw [apply_ite (Option.map (Call.moved k))]
      rfl

/-- **The rule finds the same inside of a tree wherever the tree stands**, when the root of the tree
is neither a call nor a block. -/
theorem Holds.findings {kind : String} {children : List NodeId} {span : Span}
    (hroot : fragment.form? root = some (.other kind children, span)) (runners : RunnerSet)
    (hi : i < fragment.size) :
    expectationTarget.findings { arena := a, runners } (k + i) =
      expectationTarget.findings { arena := fragment, runners } i := by
  simp only [expectationTarget, h.isExpectation hi]
  cases hexpect : fragment.isExpectation i with
  | false => rfl
  | true =>
      obtain ⟨p, hp⟩ := hforest.exists_parent_of_expectsRunner hroot (Or.inl hexpect)
      obtain ⟨q, hq⟩ := hforest.exists_parent_of_expectsRunner hroot
        (expectsRunner_chainedOnto hexpect)
      rw [h.chainedOnto hforest hp, h.offendingCall? hforest hq]
      cases fragment.offendingCall? runners (fragment.chainedOnto i) <;> rfl

end Inside

end Arena

namespace Lowering

variable {source : ByteArray} {n : Concrete}

/-! ## Definitions in a source file -/

/-- A definition on its own is one tree, and its root is neither a call nor a block. -/
theorem forest_alone (hrole : n.role = .definition) (own : Option Scope) : ∃ root children,
    (alone source own n).state.arena.Forest none 0 (alone source own n).state.arena.size [root] ∧
      (alone source own n).state.arena.form? root = some (.other n.kind children, spanOf n) := by
  have hcourse : course source n = (.enter n :: .opened .definition ::
      (n.parts ["name"]).flatMap (course source)) ++
        .pushed (.other n.kind) (n.parts ["name"]).length (spanOf n) :: [.closed .definition] := by
    rw [course_eq, agenda, hrole]
    simp [scopedSteps, plainSteps, stepsCourse_overSteps, stepCourse]
  obtain ⟨hstack, hform⟩ := @root_of_course source ⟨{ scopes := own.toList }, []⟩ _ _ _ _ hcourse
    rfl (by simp [Event.pushes])
  have hempty : Machine.Rooted ⟨{ scopes := own.toList }, []⟩ := Arena.Forest.nil
  have hrooted : (alone source own n).Rooted := rooted_replay hempty _
  rw [Machine.Rooted, alone, hstack] at hrooted
  exact ⟨_, _, hrooted, hform⟩

/-- **The nodes of a definition in the arena of a source file** are those of the definition on its
own. -/
theorem holds_arenaOf {grammar : Grammar} {arena : Arena} {before after : List Event}
    (h : arenaOf grammar source = .ok arena)
    (hvisit : courseOf grammar source = before ++ .enter n :: after)
    (hrole : n.role = .definition) :
    arena.Holds (pushes before) (alone source none n).state.arena := by
  have hsource := isEmpty_of_courseOf hvisit
  rw [courseOf_eq hsource] at hvisit
  obtain ⟨root, -, hforest, hform⟩ := forest_arenaOf hsource h
  obtain ⟨root', -, hfragment, -⟩ := @forest_alone source n hrole none
  refine hforest.holds hfragment fun i hi => ?_
  -- the definition is lowered from the state that the events before it lead to
  obtain ⟨-, hfits, hreadable⟩ := (arenaOf_eq_ok_iff hsource).1 ⟨arena, h⟩
  have hreached : Reached source (grammar source) n := enter_mem_course.1 (by simp [hvisit])
  obtain ⟨id, t, hrun⟩ := run_lower_ok (depth_replay source ⟨{}, []⟩ before)
    (lowerDepth_le_of_reached hreached hfits) (hreadable.of_reached hreached)
  obtain ⟨rest, hrest⟩ := course_of_enter hvisit
  have hreplay := replay_lower maxLevels n _ id t hrun (replay source ⟨{}, []⟩ before).stack
  obtain ⟨hgains, -⟩ := @gains_of_run source n _ _ _ _ none _ hrun .outer (Or.inl hrole)
  have hsize : (replay source ⟨{}, []⟩ before).state.arena.size = pushes before := by
    rw [size_replay]
    exact Nat.zero_add _
  have hnode := hgains.nodes.new i
  have hlt : pushes before + i < t.arena.size := by
    rw [hgains.nodes.size, hsize]
    exact Nat.add_lt_add_left hi _
  rw [hsize] at hnode
  rw [hform, hvisit, hrest, replay_append, replay_append, hreplay, form?_replay source _ _ hlt,
    Arena.form?, hnode, Arena.form?, Option.map_map, Option.map_map]
  rfl

/-- The scope inside of which two states with the same local variables lower a node. -/
theorem exists_onTop {s s' : State} (h : SameLocals s s') :
    ∃ (own : Option Scope) (outer outer' : List Scope), OnTop outer own.toList s.scopes ∧
      OnTop outer' own.toList s'.scopes ∧ (own = none → outer = [] ∧ outer' = []) := by
  obtain ⟨arena, scopes, frames, depth⟩ := s
  obtain ⟨arena', scopes', frames', depth'⟩ := s'
  obtain ⟨hnil, hnames⟩ := h
  cases scopes with
  | nil =>
      obtain rfl : scopes' = [] := hnil.1 rfl
      exact ⟨none, [], [], .outer, .outer, fun _ => ⟨rfl, rfl⟩⟩
  | cons scope outer =>
      cases scopes' with
      | nil => exact absurd (hnil.2 rfl) (List.cons_ne_nil _ _)
      | cons scope' outer' =>
          exact ⟨some scope, outer, outer', .scope (fun _ => Iff.rfl) .outer,
            .scope hnames .outer, fun h => nomatch h⟩

/-- **Lowering is compositional.**  From two states whose innermost scopes hold the same names, and
for a definition from any two states, lowering adds the same nodes, moved behind those that were
there, and the same names to the innermost scope.  The rule therefore reports the same inside of a
definition in every file that holds it, whatever stands around it and wherever its nodes begin. -/
theorem lower_compositional (source : ByteArray) (n : Concrete) :
    (∀ {levels levels' : Nat} {s s' t t' : State} {id id' : NodeId},
      n.role = .definition ∨ SameLocals s s' →
      (lower source levels n).run s = (.ok id, t) →
      (lower source levels' n).run s' = (.ok id', t') →
      ∃ fragment root added, s.Gains t fragment added ∧ s'.Gains t' fragment added ∧
        id = s.arena.size + root ∧ id' = s'.arena.size + root) ∧
    (n.role = .definition → ∀ {source' : ByteArray} {grammar grammar' : Grammar}
      {arena arena' : Arena} {before after before' after' : List Event},
      SameTexts source source' n →
      arenaOf grammar source = .ok arena → courseOf grammar source = before ++ .enter n :: after →
      arenaOf grammar' source' = .ok arena' →
      courseOf grammar' source' = before' ++ .enter n :: after' →
      ∀ runners i, i < pushes (course source n) →
        expectationTarget.findings { arena, runners } (pushes before + i) =
          expectationTarget.findings { arena := arena', runners } (pushes before' + i)) := by
  constructor
  · intro levels levels' s s' t t' id id' hscope h h'
    obtain ⟨own, outer, outer', hs, hs', hown, hown'⟩ : ∃ (own : Option Scope)
        (outer outer' : List Scope), OnTop outer own.toList s.scopes ∧
          OnTop outer' own.toList s'.scopes ∧
          (n.role = .definition ∨ (own = none → outer = [])) ∧
          (n.role = .definition ∨ (own = none → outer' = [])) := by
      rcases hscope with hrole | hsame
      · exact ⟨none, _, _, .outer, .outer, Or.inl hrole, Or.inl hrole⟩
      · obtain ⟨own, outer, outer', hs, hs', hnone⟩ := exists_onTop hsame
        exact ⟨own, outer, outer', hs, hs', Or.inr fun h => (hnone h).1,
          Or.inr fun h => (hnone h).2⟩
    obtain ⟨hgains, root, hroot, hid⟩ := gains_of_run h hs hown
    obtain ⟨hgains', root', hroot', hid'⟩ := gains_of_run h' hs' hown'
    obtain rfl : root = root' := List.singleton_inj.1 (hroot.symm.trans hroot')
    exact ⟨_, root, _, hgains, hgains', hid, hid'⟩
  · intro hrole source' grammar grammar' arena arena' before after before' after' htexts h hvisit h'
      hvisit' runners i hi
    obtain ⟨root, children, hforest, hroot⟩ := @forest_alone source n hrole none
    have hsize : (alone source none n).state.arena.size = pushes (course source n) := by
      rw [alone, size_replay]
      exact Nat.zero_add _
    have hholds' := holds_arenaOf h' hvisit' hrole
    have halone : alone source' none n = alone source none n :=
      (replay_course_congr htexts _).symm
    rw [halone] at hholds'
    rw [(holds_arenaOf h hvisit hrole).findings hforest hroot runners (hsize ▸ hi),
      hholds'.findings hforest hroot runners (hsize ▸ hi)]

/-- The tree of the method in `a;def m;expect.b;end`, its tokens left out. -/
def methodWithCall : Concrete :=
  ⟨"method", true, none, 2, 20, 0, 2,
    [⟨"identifier", true, some "name", 6, 7, 0, 6, []⟩,
      ⟨"call", true, none, 8, 16, 0, 8,
        [⟨"identifier", true, some "receiver", 8, 14, 0, 8, []⟩,
          ⟨"identifier", true, some "method", 15, 16, 0, 15, []⟩]⟩]⟩

/-- A file with that method behind the nodes `others`. -/
def programAround (others : List Concrete) : Concrete :=
  ⟨"program", true, none, 0, 20, 0, 0, others ++ [methodWithCall]⟩

/-- The course of a file comes to the method behind the courses of the other nodes. -/
theorem visit_methodWithCall {others : List Concrete}
    (hparts : (programAround others).parts [] = others ++ [methodWithCall])
    (hsource : source.isEmpty = false) : ∃ after,
      courseOf (fun _ => programAround others) source =
        (.enter (programAround others) :: others.flatMap (course source)) ++
          .enter methodWithCall :: after := by
  have hrole : (programAround others).role = .sequence := rfl
  refine ⟨stepsCourse source (agenda source methodWithCall) ++
    [.pushed .sequence (others.length + 1) (spanOf (programAround others))], ?_⟩
  rw [courseOf_eq hsource, course_eq, agenda, hrole]
  simp [hparts, stepsCourse_overSteps, course_eq source methodWithCall]

/-- The method is reported alike in two files, and lowered alike where `b` is a local variable and
inside of a block. -/
theorem lower_compositional_moved : ∃ arena arena',
    arenaOf (fun _ => programAround []) "a;def m;expect.b;end".toUTF8 = .ok arena ∧
    arenaOf (fun _ => programAround [⟨"identifier", true, none, 0, 1, 0, 0, []⟩])
      "a;def m;expect.b;end".toUTF8 = .ok arena' ∧
    (∀ runners i, i < pushes (course "a;def m;expect.b;end".toUTF8 methodWithCall) →
      expectationTarget.findings { arena, runners } (0 + i) =
        expectationTarget.findings { arena := arena', runners } (1 + i)) ∧
    ∃ t t' fragment added, State.Gains { scopes := [["b"]] } t fragment added ∧
      State.Gains { frames := [.allowed false] } t' fragment added := by
  obtain ⟨hruns, hreports⟩ := lower_compositional "a;def m;expect.b;end".toUTF8 methodWithCall
  refine ⟨_, _, rfl, rfl, fun runners i hi => ?_, ?_⟩
  · obtain ⟨after, hvisit⟩ := @visit_methodWithCall "a;def m;expect.b;end".toUTF8 [] rfl (by decide)
    obtain ⟨after', hvisit'⟩ := @visit_methodWithCall "a;def m;expect.b;end".toUTF8
      [⟨"identifier", true, none, 0, 1, 0, 0, []⟩] rfl (by decide)
    have hreport := hreports rfl (fun _ _ => rfl) rfl hvisit rfl hvisit' runners i hi
    rw [List.flatMap_singleton, course_eq] at hreport
    exact hreport
  · obtain ⟨fragment, root, added, hgains, hgains', -, -⟩ :=
      @hruns 3 4 { scopes := [["b"]] } { frames := [.allowed false] } _ _ _ _ (Or.inl rfl) rfl rfl
    exact ⟨_, _, fragment, added, hgains, hgains'⟩

end Lowering

end SpecLint
