import SpecLint.Proofs.Outcome
import SpecLint.Proofs.Selectors

/-!
# Misuses and offenses correspond

The rule reports at most one call for each expectation, and every report is stored: no two of them
share a selector.  The offenses of a source are therefore its misused expectations, one offense for
each, in the order in which the walk over the arena comes to them.

* `Arena.misuse?` — the call that misuses an expectation.
* `toList_run_of_injective` — **the offenses of an arena whose misuses have different selectors**.
* `id_eq_of_selector_eq` — **misuses have different selectors**.
* `lint_eq_misuses` — **the offenses of a source are its misuses**.
* `exists_misuse_not_reported` — a misuse that is hidden where a dot holds the arguments of a call.
-/

namespace SpecLint

namespace Arena

/-- The call that is chained onto the expectation `id`, when its method is no runner. -/
def misuse? (a : Arena) (runners : RunnerSet) (id : NodeId) : Option Call :=
  if a.isExpectation id then a.offendingCall? runners (a.chainedOnto id) else none

theorem misuse?_eq_some {a : Arena} {runners : RunnerSet} {id : NodeId} {call : Call} :
    a.misuse? runners id = some call ↔
      a.isExpectation id = true ∧ a.offendingCall? runners (a.chainedOnto id) = some call := by
  unfold misuse?
  cases a.isExpectation id <;> simp

/-- A runner is chained onto the expectation itself or onto its block. -/
theorem chainedOnto_cases (a : Arena) (id : NodeId) : a.chainedOnto id = id ∨
    ∃ block, a.block? (a.chainedOnto id) = some block ∧ block.call = id := by
  unfold chainedOnto
  split
  · rename_i parent _
    split
    · rename_i hblock
      unfold isBareBlockOf at hblock
      split at hblock
      · rename_i block hparent
        simp only [Bool.and_eq_true, beq_iff_eq] at hblock
        exact Or.inr ⟨block, hparent, hblock.1⟩
      · simp at hblock
    · exact Or.inl rfl
  · exact Or.inl rfl

/-- An expectation is no block. -/
theorem block?_of_isExpectation {a : Arena} {id : NodeId} (h : a.isExpectation id = true) :
    a.block? id = none := by
  obtain ⟨call, span, hform, -⟩ := isExpectation_iff.1 h
  cases hblock : a.block? id with
  | none => rfl
  | some block =>
      obtain ⟨span', hform'⟩ := block?_eq_some.1 hblock
      simp [hform] at hform'

/-- Different expectations have different nodes onto which a runner is chained. -/
theorem eq_of_chainedOnto_eq {a : Arena} {id id' : NodeId} (h : a.isExpectation id = true)
    (h' : a.isExpectation id' = true) (heq : a.chainedOnto id = a.chainedOnto id') : id = id' := by
  rcases a.chainedOnto_cases id with hid | ⟨block, hblock, rfl⟩ <;>
    rcases a.chainedOnto_cases id' with hid' | ⟨block', hblock', rfl⟩
  · rw [← hid, heq, hid']
  · rw [← heq, hid, block?_of_isExpectation h] at hblock'
    cases hblock'
  · rw [heq, hid', block?_of_isExpectation h'] at hblock
    cases hblock
  · rw [heq, hblock'] at hblock
    rw [Option.some.inj hblock]

end Arena

/-! ## The offenses of an arena -/

/-- The offense that is reported for the misuse `call`. -/
def misuseOffense (config : Config) (call : Call) : Offense where
  rule := expectationTarget.name
  severity := (config.settings expectationTarget.name).severity.getD
    expectationTarget.defaultSeverity
  span := call.selector
  message := "Use `.to`, `.not_to` or `.to_not` to set an expectation."

section Run

variable {a : Arena} {config : Config}

/-- The rule is asked once, or not at all where there is no expectation. -/
theorem questions_cases (henabled : (config.settings expectationTarget.name).enabled = true)
    (a : Arena) (id : NodeId) :
    (Dispatcher.ofRules allRules config).questions a id =
        [{ position := 0, active := activeExpectationTarget config, node := id }] ∨
      (Dispatcher.ofRules allRules config).questions a id = [] ∧ a.isExpectation id = false := by
  cases hcall : a.call? id with
  | none => exact Or.inr ⟨by rw [Dispatcher.questions, hcall], by rw [Arena.isExpectation, hcall]⟩
  | some call =>
      rw [Dispatcher.questions_ofRules hcall, activeRules_allRules henabled, Arena.isExpectation,
        hcall]
      by_cases hexpect : call.method = "expect"
      · simp [activeExpectationTarget, expectationTarget, hexpect]
      · by_cases hexpected : call.method = "is_expected"
        · simp [activeExpectationTarget, expectationTarget, hexpected]
        · have hcount : expectationTarget.methods.count call.method = 0 := by
            simp [expectationTarget, List.count_eq_zero, hexpect, hexpected]
          simp [activeExpectationTarget, hcount, hexpect, hexpected]

/-- What the rule answers about one node. -/
theorem answers_eq (henabled : (config.settings expectationTarget.name).enabled = true)
    (id : NodeId) :
    ((Dispatcher.ofRules allRules config).questions a id).flatMap
        ((Dispatcher.ofRules allRules config).answer a) =
      ((a.misuse? config.runners id).map (misuseOffense config)).toList := by
  have hanswer : (Dispatcher.ofRules allRules config).answer a
      { position := 0, active := activeExpectationTarget config, node := id } =
        ((a.misuse? config.runners id).map (misuseOffense config)).toList := by
    rw [Dispatcher.answer_ofRules]
    simp only [activeExpectationTarget, expectationTarget, Arena.misuse?]
    cases a.isExpectation id with
    | false => rfl
    | true =>
        simp only [if_true]
        cases a.offendingCall? config.runners (a.chainedOnto id) <;> rfl
  rcases questions_cases henabled a id with hquestions | ⟨hquestions, hexpect⟩
  · rw [hquestions, List.flatMap_singleton, hanswer]
  · rw [hquestions, Arena.misuse?, hexpect]
    rfl

/-- **The reports on an arena are those of its misuses.** -/
theorem flatMap_answer (henabled : (config.settings expectationTarget.name).enabled = true) :
    ((Dispatcher.ofRules allRules config).invocations a).flatMap
        ((Dispatcher.ofRules allRules config).answer a) =
      (a.preorder.filterMap (a.misuse? config.runners)).map (misuseOffense config) := by
  rw [Dispatcher.invocations_eq]
  induction a.preorder with
  | nil => rfl
  | cons id ids ih =>
      rw [List.flatMap_cons, List.flatMap_append, ih, answers_eq henabled]
      cases hmisuse : a.misuse? config.runners id with
      | none =>
          rw [List.filterMap_cons_none hmisuse]
          rfl
      | some call =>
          rw [List.filterMap_cons_some hmisuse]
          rfl

/-- **The offenses of an arena whose misuses have different selectors**: none is refused. -/
theorem toList_run_of_injective (henabled : (config.settings expectationTarget.name).enabled = true)
    (hnodup : a.preorder.Nodup)
    (hselectors : ∀ id id' call call', a.misuse? config.runners id = some call →
      a.misuse? config.runners id' = some call' → call.selector = call'.selector → id = id') :
    ((Dispatcher.ofRules allRules config).run a).toList =
      (a.preorder.filterMap (a.misuse? config.runners)).map (misuseOffense config) := by
  rw [Dispatcher.run_eq, flatMap_answer henabled]
  refine Offenses.toList_addAll ?_
  rw [show Offenses.empty.toList = [] from rfl, List.nil_append, List.pairwise_map,
    List.pairwise_filterMap]
  refine hnodup.imp fun {id id'} hne call hcall call' hcall' hkey => hne ?_
  exact hselectors id id' call call' hcall hcall' (Prod.mk.inj hkey).2

end Run

namespace Lowering

/-! ## Misuses in a source file -/

section Source

variable {source : ByteArray} {root : Concrete} {a : Arena} {runners : RunnerSet}
  {id id' : NodeId} {c c' : Call}

/-- A misuse is a call that was pushed for a node which chains, and is found at the id of that
node. -/
theorem visit_of_misuse
    (hform : a.form? = (replay source ⟨{}, []⟩ (course source root)).state.arena.form?)
    (h : a.misuse? runners id = some c) :
    ∃ before p after call, course source root = before ++ .enter p :: after ∧
      Chains source p call ∧ c.selector = call.selector ∧
      a.call? (sendId source before call) = some c ∧ c.receiver = some (a.chainedOnto id) := by
  obtain ⟨hexpect, hoffends⟩ := Arena.misuse?_eq_some.1 h
  obtain ⟨q, -, hq, -, hreceiver, -⟩ := Arena.offendingCall?_eq_some.1 hoffends
  obtain ⟨span, hsend⟩ := Arena.call?_eq_some.1 hq
  rw [hform] at hsend
  obtain ⟨before, p, after, hvisit, ⟨call, hcall, rfl⟩ | ⟨hrole, rfl⟩⟩ := exists_visit_of_send hsend
  · obtain ⟨arguments, -, hpushed⟩ := send_of_visit hvisit hcall
    rw [hsend] at hpushed
    obtain rfl := Shape.send.inj (Prod.mk.inj (Option.some.inj hpushed)).1
    obtain ⟨r, hr, hhead⟩ := Option.bind_eq_some_iff.1 hreceiver
    obtain ⟨rest, hcourse⟩ := receiver_of_visit hvisit hcall hr
    have hexpects := (expectsRunner_iff hcourse hform hhead).1
      (Arena.expectsRunner_chainedOnto hexpect)
    exact ⟨before, p, after, call, hvisit, ⟨hcall, r, hr, mayExpect_of_expectsRunner hexpects⟩,
      rfl, hq, hreceiver⟩
  · -- a name is called on nothing
    have hread := read_of_visit hvisit hrole
    rw [hsend, readShape] at hread
    split at hread
    · simp at hread
    · obtain rfl := Shape.send.inj (Prod.mk.inj (Option.some.inj hread)).1
      cases hreceiver

/-- **Misuses have different selectors.** -/
theorem id_eq_of_selector_eq (hroot : root.WellNested)
    (hdots : root.Everywhere Concrete.BareDots) (hsize : root.endByte ≤ maxSourceSize)
    (hform : a.form? = (replay source ⟨{}, []⟩ (course source root)).state.arena.form?)
    (h : a.misuse? runners id = some c) (h' : a.misuse? runners id' = some c')
    (heq : c.selector = c'.selector) : id = id' := by
  obtain ⟨before, p, after, call, hvisit, hchains, hselector, hcall, hreceiver⟩ :=
    visit_of_misuse hform h
  obtain ⟨before', p', after', call', hvisit', hchains', hselector', hcall', hreceiver'⟩ :=
    visit_of_misuse hform h'
  rw [hselector, hselector'] at heq
  obtain ⟨rfl, rfl⟩ := visit_eq_of_selector_eq hroot hdots hsize hvisit hvisit' hchains hchains' heq
  obtain rfl : call = call' := Option.some.inj (hchains.1.symm.trans hchains'.1)
  obtain rfl : c = c' := Option.some.inj (hcall.symm.trans hcall')
  exact Arena.eq_of_chainedOnto_eq (Arena.misuse?_eq_some.1 h).1 (Arena.misuse?_eq_some.1 h').1
    (Option.some.inj (hreceiver.symm.trans hreceiver'))

section Nested

variable {grammar : Grammar} {source : ByteArray} {arena : Arena}
  (hnested : (grammar source).WellNested) (hdots : (grammar source).Everywhere Concrete.BareDots)
  (hinside : (grammar source).endByte ≤ source.size) (h : arenaOf grammar source = .ok arena)

include hnested hdots hinside h

/-- Misuses in a source have different selectors, and the walk comes to each node once. -/
theorem misuses_of_wellNested {runners : RunnerSet} : arena.preorder.Nodup ∧
    ∀ id id' call call', arena.misuse? runners id = some call →
      arena.misuse? runners id' = some call' → call.selector = call'.selector → id = id' := by
  have hcovers := hnested.covers
  have hsource : source.isEmpty = false := by
    rw [ByteArray.isEmpty, beq_eq_false_iff_ne]
    omega
  obtain ⟨_, hroot, hforest, hform⟩ := forest_arenaOf hsource h
  have hsize : source.size ≤ maxSourceSize := ((arenaOf_eq_ok_iff hsource).1 ⟨arena, h⟩).1
  refine ⟨(hforest.preorder_perm hroot).nodup_iff.2 List.nodup_range, ?_⟩
  intro id id' call call' hcall hcall'
  exact id_eq_of_selector_eq hnested hdots (Nat.le_trans hinside hsize) hform hcall hcall'

/-- **The offenses of a source are its misuses**, one for each misused expectation, in pre-order of
the expectations; no two misuses share a selector, so that no report is refused.  The dots of the
tree have to be leaves for it. -/
theorem lint_eq_misuses {config : Config}
    (henabled : (config.settings expectationTarget.name).enabled = true) :
    ∃ offenses, (Dispatcher.ofRules allRules config).lint grammar source = .ok offenses ∧
      offenses.toList = (arena.preorder.filterMap (arena.misuse? config.runners)).map
        (misuseOffense config) ∧
      arena.preorder.Nodup ∧
      ∀ id id' call call', arena.misuse? config.runners id = some call →
        arena.misuse? config.runners id' = some call' → call.selector = call'.selector →
        id = id' := by
  obtain ⟨hnodup, hselectors⟩ :=
    @misuses_of_wellNested grammar source arena hnested hdots hinside h config.runners
  refine ⟨(Dispatcher.ofRules allRules config).run arena, ?_,
    toList_run_of_injective henabled hnodup hselectors, hnodup, hselectors⟩
  rw [Dispatcher.lint, h]
  rfl

end Nested

end Source

/-- The tree of `expect.a` where it starts at the byte 7. -/
def innerMisuse : Concrete :=
  ⟨"call", true, none, 7, 15, 0, 7,
    [⟨"identifier", true, some "receiver", 7, 13, 0, 7, []⟩,
      ⟨".", false, some "operator", 13, 14, 0, 13, []⟩,
      ⟨"identifier", true, some "method", 14, 15, 0, 14, []⟩]⟩

/-- The tree of `expect(expect.a)`. -/
def outerExpectation : Concrete :=
  ⟨"call", true, some "receiver", 0, 16, 0, 0,
    [⟨"identifier", true, some "method", 0, 6, 0, 0, []⟩,
      ⟨"argument_list", true, some "arguments", 6, 16, 0, 6,
        [⟨"(", false, none, 6, 7, 0, 6, []⟩, innerMisuse, ⟨")", false, none, 15, 16, 0, 15, []⟩]⟩]⟩

/-- The tree of `expect(expect.a).b`. -/
def nestedMisuses : Concrete :=
  ⟨"call", true, none, 0, 18, 0, 0,
    [outerExpectation, ⟨".", false, some "operator", 16, 17, 0, 16, []⟩,
      ⟨"identifier", true, some "method", 17, 18, 0, 17, []⟩]⟩

theorem wellNested_nestedMisuses : nestedMisuses.WellNested := by decide +kernel

theorem bareDots_nestedMisuses : nestedMisuses.Everywhere Concrete.BareDots := by decide +kernel

/-- Both calls of `expect(expect.a).b` are reported, the outer one first. -/
theorem lint_eq_misuses_nested : ∃ offenses,
    (Dispatcher.ofRules allRules {}).lint (fun _ => nestedMisuses) "expect(expect.a).b".toUTF8 =
        .ok offenses ∧
      offenses.toList.map Offense.span = [⟨17, 18, 1, 18⟩, ⟨14, 15, 1, 15⟩] := by
  obtain ⟨arena, harena, hmisuses⟩ : ∃ arena,
      arenaOf (fun _ => nestedMisuses) "expect(expect.a).b".toUTF8 = .ok arena ∧
        (arena.preorder.filterMap (arena.misuse? ({} : Config).runners)).map Call.selector =
          [⟨17, 18, 1, 18⟩, ⟨14, 15, 1, 15⟩] := ⟨_, rfl, by decide +kernel⟩
  obtain ⟨offenses, hlint, hoffenses, -⟩ := @lint_eq_misuses (fun _ => nestedMisuses)
    "expect(expect.a).b".toUTF8 _ wellNested_nestedMisuses bareDots_nestedMisuses (by decide) harena
    {} rfl
  refine ⟨offenses, hlint, ?_⟩
  rw [hoffenses, List.map_map]
  exact hmisuses

/-- A tree for `expect expect` in which a dot holds the argument of its call.  The call has no name
and is reported at its dot; its argument is an element access without a bracket, which is reported
whole. -/
def dotWithArguments : Concrete :=
  ⟨"call", true, none, 0, 13, 0, 0,
    [⟨"identifier", true, some "receiver", 0, 6, 0, 0, []⟩,
      ⟨".", false, some "arguments", 7, 13, 0, 7,
        [⟨"element_reference", true, none, 7, 13, 0, 7,
          [⟨"identifier", true, some "object", 7, 13, 0, 7, []⟩]⟩]⟩]⟩

/-- The call that is reported at that dot. -/
def callAtDot : Call where
  receiver := some 0
  method := "call"
  arguments := [2]
  selector := ⟨7, 13, 1, 8⟩
  safe := false

/-- The element access in it. -/
def accessInDot : Call where
  receiver := some 1
  method := "[]"
  arguments := []
  selector := ⟨7, 13, 1, 8⟩
  safe := false

theorem wellNested_dotWithArguments : dotWithArguments.WellNested := by decide +kernel

/-- The misuses for these runners, and what is reported. -/
theorem lint_dotWithArguments : ∃ arena,
    arenaOf (fun _ => dotWithArguments) "expect expect".toUTF8 = .ok arena ∧
    arena.preorder.filterMap (arena.misuse? ({} : Config).runners) = [callAtDot, accessInDot] ∧
    ((Dispatcher.ofRules allRules {}).run arena).toList = [misuseOffense {} callAtDot] :=
  ⟨_, rfl, by decide +kernel, by decide +kernel⟩

/-- **A dot that is no leaf can hide a misuse**: two misuses have one selector, and only one of them
is stored. -/
theorem exists_misuse_not_reported : ∃ (arena : Arena) (offenses : Offenses) (call call' : Call),
    dotWithArguments.WellNested ∧ dotWithArguments.endByte ≤ "expect expect".toUTF8.size ∧
    arenaOf (fun _ => dotWithArguments) "expect expect".toUTF8 = .ok arena ∧
    (Dispatcher.ofRules allRules {}).lint (fun _ => dotWithArguments) "expect expect".toUTF8 =
      .ok offenses ∧
    arena.preorder.filterMap (arena.misuse? ({} : Config).runners) = [call, call'] ∧
    call.method ≠ call'.method ∧ call.selector = call'.selector ∧ offenses.toList.length = 1 := by
  obtain ⟨arena, harena, hmisuses, hreported⟩ := lint_dotWithArguments
  refine ⟨arena, (Dispatcher.ofRules allRules {}).run arena, callAtDot, accessInDot,
    wellNested_dotWithArguments, by decide, harena, ?_, hmisuses, by decide, rfl, ?_⟩
  · rw [Dispatcher.lint, harena]
    rfl
  · rw [hreported]
    rfl

end Lowering

end SpecLint
