import SpecLint.Proofs.Arena.Push
import SpecLint.Proofs.Reports

/-!
# What is reported for an arena

The rule follows the parent links of the arena upwards from an expectation: to its block, if it has
one without parameters, and to the call that is chained onto it.  Where the parent links agree with
the child lists, the same calls are found downwards: those whose receiver expects a runner.

* `Arena.ExpectsRunner` — the nodes onto which a runner has to be chained.
* `Arena.exists_offendingCall` — **upwards and downwards are the same**.
* `exists_span_misused` — **the reported spans are those of the calls that are found downwards**.
-/

namespace SpecLint

namespace Arena

/-! ## Expectations in an arena -/

theorem isExpectation_iff {a : Arena} {id : NodeId} : a.isExpectation id = true ↔
    ∃ c span, a.form? id = some (.send c, span) ∧ c.receiver = none ∧
      (c.method = "expect" ∨ c.method = "is_expected" ∧ c.arguments = []) := by
  unfold isExpectation
  cases hcall : a.call? id with
  | none =>
      refine ⟨fun h => by simp at h, ?_⟩
      rintro ⟨c, span, hform, -⟩
      rw [call?_eq_some.2 ⟨span, hform⟩] at hcall
      simp at hcall
  | some c =>
      obtain ⟨span, hform⟩ := call?_eq_some.1 hcall
      simp [hform]

theorem isExpectation_of_send {a : Arena} {id : NodeId} {c : Call} {span : Span}
    (h : a.form? id = some (.send c, span)) : a.isExpectation id = true ↔ c.receiver = none ∧
      (c.method = "expect" ∨ c.method = "is_expected" ∧ c.arguments = []) := by
  rw [isExpectation_iff]
  simp [h]

theorem block?_eq_some {a : Arena} {id : NodeId} {block : Block} :
    a.block? id = some block ↔ ∃ span, a.form? id = some (.block block, span) := by
  rw [block?, map_shape_get?]
  cases a.form? id with
  | none => simp
  | some form =>
      obtain ⟨shape, span⟩ := form
      cases shape <;> simp

theorem isEmptyParams_iff {a : Arena} {id : NodeId} :
    a.isEmptyParams id = true ↔ ∃ span, a.form? id = some (.params [], span) := by
  rw [isEmptyParams, map_shape_get?]
  cases a.form? id with
  | none => simp
  | some form =>
      obtain ⟨shape, span⟩ := form
      cases shape <;> simp

/-- Whether a runner has to be chained onto the node `t`: an expectation, or a block without
parameters that is attached to one. -/
def ExpectsRunner (a : Arena) (t : NodeId) : Prop :=
  a.isExpectation t = true ∨
    ∃ block, a.block? t = some block ∧ a.isEmptyParams block.params = true ∧
      a.isExpectation block.call = true

/-- A call expects a runner where it is an expectation. -/
theorem expectsRunner_of_send {a : Arena} {t : NodeId} {c : Call} {span : Span}
    (h : a.form? t = some (.send c, span)) : a.ExpectsRunner t ↔ c.receiver = none ∧
      (c.method = "expect" ∨ c.method = "is_expected" ∧ c.arguments = []) := by
  have hblock : ¬ ∃ block, a.block? t = some block ∧ a.isEmptyParams block.params = true ∧
      a.isExpectation block.call = true := by
    rintro ⟨block, hblock, -⟩
    obtain ⟨span', hform⟩ := block?_eq_some.1 hblock
    simp [h] at hform
  rw [ExpectsRunner, or_iff_left hblock, isExpectation_of_send h]

/-- A block expects a runner where it has no parameters and its call is an expectation. -/
theorem expectsRunner_of_block {a : Arena} {t : NodeId} {block : Block} {span : Span}
    (h : a.form? t = some (.block block, span)) : a.ExpectsRunner t ↔
      a.isEmptyParams block.params = true ∧ a.isExpectation block.call = true := by
  have hcall : ¬ a.isExpectation t = true := by
    rw [isExpectation_iff]
    simp [h]
  rw [ExpectsRunner, or_iff_right hcall]
  simp [block?_eq_some, h]

/-- No other node expects a runner. -/
theorem not_expectsRunner {a : Arena} {t : NodeId} {shape : Shape} {span : Span}
    (h : a.form? t = some (shape, span)) (hsend : ∀ call, shape ≠ .send call)
    (hblock : ∀ block, shape ≠ .block block) : ¬ a.ExpectsRunner t := by
  rintro (hexpect | ⟨block, hmem, -⟩)
  · obtain ⟨c, span', hform, -⟩ := isExpectation_iff.1 hexpect
    rw [h] at hform
    exact hsend c (Prod.mk.inj (Option.some.inj hform)).1
  · obtain ⟨span', hform⟩ := block?_eq_some.1 hmem
    rw [h] at hform
    exact hblock block (Prod.mk.inj (Option.some.inj hform)).1

/-- Whether `call` is a call of `a` on a node that expects a runner, and its method is no runner. -/
def Misused (a : Arena) (runners : RunnerSet) (call : Call) : Prop :=
  (∃ id, a.call? id = some call) ∧ call.safe = false ∧ runners.contains call.method = false ∧
    ∃ t, call.receiver = some t ∧ a.ExpectsRunner t

theorem offendingCall?_eq_some {a : Arena} {runners : RunnerSet} {target : NodeId} {call : Call} :
    a.offendingCall? runners target = some call ↔ ∃ id, a.parent? target = some id ∧
      a.call? id = some call ∧ call.safe = false ∧ call.receiver = some target ∧
      runners.contains call.method = false := by
  unfold offendingCall?
  cases hparent : a.parent? target with
  | none => simp
  | some id =>
      cases hcall : a.call? id with
      | none => simp [hcall]
      | some c =>
          simp only [Option.bind_some, hcall, Option.some.injEq, exists_eq_left']
          constructor
          · intro h
            split at h
            · rename_i hcond
              obtain rfl := Option.some.inj h
              simp only [Bool.and_eq_true, Bool.not_eq_true', beq_iff_eq] at hcond
              exact ⟨rfl, hcond.1.1, hcond.1.2, hcond.2⟩
            · simp at h
          · rintro ⟨rfl, hsafe, hreceiver, hrunner⟩
            simp [hsafe, hreceiver, hrunner]

/-- The node onto which a runner is chained expects one. -/
theorem expectsRunner_chainedOnto {a : Arena} {id : NodeId} (h : a.isExpectation id = true) :
    a.ExpectsRunner (a.chainedOnto id) := by
  unfold chainedOnto
  split
  · rename_i parent _
    split
    · rename_i hblock
      unfold isBareBlockOf at hblock
      split at hblock
      · rename_i block hparent
        simp only [Bool.and_eq_true, beq_iff_eq] at hblock
        obtain ⟨rfl, hparams⟩ := hblock
        exact Or.inr ⟨block, hparent, hparams, h⟩
      · simp at hblock
    · exact Or.inl h
  · exact Or.inl h

/-- **Upwards and downwards are the same**: the calls that are found from the expectations by parent
links are those whose receiver expects a runner. -/
theorem exists_offendingCall {a : Arena} {runners : RunnerSet} {call : Call}
    (hparent : ∀ p c, c ∈ a.children p → a.parent? c = some p) :
    (∃ id, a.isExpectation id = true ∧
      a.offendingCall? runners (a.chainedOnto id) = some call) ↔ a.Misused runners call := by
  constructor
  · rintro ⟨id, hid, hcall⟩
    obtain ⟨q, -, hq, hsafe, hreceiver, hrunner⟩ := offendingCall?_eq_some.1 hcall
    exact ⟨⟨q, hq⟩, hsafe, hrunner, _, hreceiver, expectsRunner_chainedOnto hid⟩
  · rintro ⟨⟨q, hq⟩, hsafe, hrunner, t, hreceiver, ht⟩
    obtain ⟨span, hform⟩ := call?_eq_some.1 hq
    have hchild : t ∈ a.children q := by
      rw [children_of_form? hform]
      simp [Shape.children, hreceiver]
    have hlink := hparent q t hchild
    have hcall := (@offendingCall?_eq_some a runners t call).2
      ⟨q, hlink, hq, hsafe, hreceiver, hrunner⟩
    rcases ht with ht | ⟨block, hblock, hparams, hexpect⟩
    · -- the parent of the expectation is a call and no block
      have hnot : a.isBareBlockOf q t = false := by
        unfold isBareBlockOf
        cases hb : a.block? q with
        | none => rfl
        | some b =>
            obtain ⟨span', hform'⟩ := block?_eq_some.1 hb
            simp [hform] at hform'
      refine ⟨t, ht, ?_⟩
      rw [chainedOnto, hlink]
      simpa [hnot] using hcall
    · -- the parent of the expectation is its block
      obtain ⟨span', hform'⟩ := block?_eq_some.1 hblock
      have hlink' : a.parent? block.call = some t := by
        refine hparent t block.call ?_
        rw [children_of_form? hform']
        simp [Shape.children]
      have hbare : a.isBareBlockOf t block.call = true := by
        simp [isBareBlockOf, hblock, hparams]
      refine ⟨block.call, hexpect, ?_⟩
      rw [chainedOnto, hlink']
      simpa [hbare] using hcall

end Arena

/-! ## Reports -/

section Reports

variable {a : Arena} {config : Config} {span : Span}

/-- What is found at a call is the method chained onto it. -/
theorem exists_finding {runners : RunnerSet} {id : NodeId} :
    (∃ finding ∈ expectationTarget.findings { arena := a, runners } id, finding.span = span) ↔
      a.isExpectation id = true ∧
        ∃ call, a.offendingCall? runners (a.chainedOnto id) = some call ∧ call.selector = span := by
  simp only [expectationTarget]
  split
  · rename_i hexpect
    cases a.offendingCall? runners (a.chainedOnto id) <;> simp [hexpect]
  · rename_i hexpect
    simp [hexpect]

/-- The rule as it is enabled by `config`. -/
def activeExpectationTarget (config : Config) : ActiveRule where
  rule := expectationTarget
  severity := (config.settings expectationTarget.name).severity.getD
    expectationTarget.defaultSeverity

theorem activeRules_allRules (henabled : (config.settings expectationTarget.name).enabled = true) :
    Dispatcher.activeRules allRules config = [activeExpectationTarget config] := by
  simp [Dispatcher.activeRules, allRules, henabled, activeExpectationTarget]

/-- The methods of the rule are those of expectations. -/
theorem method_mem_of_isExpectation {id : NodeId} (h : a.isExpectation id = true) :
    ∃ call, a.call? id = some call ∧ call.method ∈ expectationTarget.methods := by
  obtain ⟨call, callSpan, hform, -, hmethod⟩ := Arena.isExpectation_iff.1 h
  refine ⟨call, Arena.call?_eq_some.2 ⟨callSpan, hform⟩, ?_⟩
  rcases hmethod with hmethod | ⟨hmethod, -⟩ <;> simp [expectationTarget, hmethod]

/-- The spans that are reported for an arena whose links agree. -/
theorem exists_span_misused (henabled : (config.settings expectationTarget.name).enabled = true)
    (hpreorder : ∀ id < a.size, id ∈ a.preorder)
    (hparent : ∀ p c, c ∈ a.children p → a.parent? c = some p) :
    (∃ o ∈ ((Dispatcher.ofRules allRules config).run a).toList, o.span = span) ↔
      ∃ call, a.Misused config.runners call ∧ call.selector = span := by
  rw [Dispatcher.exists_span_run, activeRules_allRules henabled]
  constructor
  · rintro ⟨active, hactive, id, -, -, -, -, hfinding⟩
    obtain rfl := List.mem_singleton.1 hactive
    obtain ⟨hexpect, call, hcall, rfl⟩ := exists_finding.1 hfinding
    exact ⟨call, (Arena.exists_offendingCall hparent).1 ⟨id, hexpect, hcall⟩, rfl⟩
  · rintro ⟨call, hmisused, rfl⟩
    obtain ⟨id, hexpect, hcall⟩ := (Arena.exists_offendingCall hparent).2 hmisused
    obtain ⟨target, htarget, hmethod⟩ := method_mem_of_isExpectation hexpect
    obtain ⟨callSpan, hform⟩ := Arena.call?_eq_some.1 htarget
    exact ⟨_, List.mem_singleton_self _, id, hpreorder id (Arena.lt_size_of_form? hform), target,
      htarget, hmethod, exists_finding.2 ⟨hexpect, call, hcall, rfl⟩⟩

end Reports

end SpecLint
