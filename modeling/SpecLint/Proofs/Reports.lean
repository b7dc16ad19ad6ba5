import SpecLint.Dispatcher

/-!
# Which findings are reported

A dispatcher puts each call to the rules at the positions that its index lists under the method of
the call, and collects their findings without repetition.  Neither the index nor the collection
loses anything.

* `Offenses.exists_key_addAll` — **a report is stored, or an earlier one of its rule at its span**.
* `Dispatcher.positions_ofRules` — **the index lists the positions of the enabled rules**, each one
  under the methods of its own rule.
* `Dispatcher.questions_ofRules` — **every position leads back to the rule that listed it**.
* `Dispatcher.pass_eq` — the questions and the offenses of a pass.
* `Dispatcher.mem_invocations` — which rules are asked about which calls.
* `Dispatcher.exists_span_run` — the spans that are reported are those of the findings.
-/

namespace SpecLint

/-! ## Collecting offenses -/

namespace Offenses

theorem mem_toList_add {os : Offenses} {o p : Offense} :
    o ∈ (os.add p).toList → o ∈ os.toList ∨ o = p := by
  rw [toList_add]
  split
  · exact Or.inl
  · rw [List.mem_append, List.mem_singleton]
    exact id

theorem mem_toList_add_of_mem {os : Offenses} {o : Offense} (h : o ∈ os.toList) (p : Offense) :
    o ∈ (os.add p).toList := by
  rw [toList_add]
  split
  · exact h
  · exact List.mem_append_left _ h

theorem exists_key_add (os : Offenses) (p : Offense) : ∃ o ∈ (os.add p).toList, o.key = p.key := by
  rw [toList_add]
  split
  · rename_i hreported
    exact reported_eq_true.1 hreported
  · exact ⟨p, List.mem_append_right _ (List.mem_singleton_self p), rfl⟩

/-- Nothing is stored that was not reported. -/
theorem mem_toList_addAll {os : Offenses} {more : List Offense} {o : Offense}
    (h : o ∈ (os.addAll more).toList) : o ∈ os.toList ∨ o ∈ more := by
  induction more generalizing os with
  | nil => exact Or.inl h
  | cons p more ih =>
      rcases ih h with hmem | hmem
      · rcases mem_toList_add hmem with hold | rfl
        · exact Or.inl hold
        · exact Or.inr List.mem_cons_self
      · exact Or.inr (List.mem_cons_of_mem _ hmem)

theorem mem_toList_addAll_of_mem {os : Offenses} {o : Offense} (h : o ∈ os.toList)
    (more : List Offense) : o ∈ (os.addAll more).toList := by
  induction more generalizing os with
  | nil => exact h
  | cons p more ih => exact ih (mem_toList_add_of_mem h p)

/-- **A report is stored**, or an earlier one of its rule at its span is. -/
theorem exists_key_addAll {more : List Offense} {p : Offense} (h : p ∈ more) (os : Offenses) :
    ∃ o ∈ (os.addAll more).toList, o.key = p.key := by
  induction more generalizing os with
  | nil => simp at h
  | cons q more ih =>
      rcases List.mem_cons.1 h with rfl | hmem
      · obtain ⟨o, ho, hkey⟩ := exists_key_add os p
        exact ⟨o, mem_toList_addAll_of_mem ho more, hkey⟩
      · exact ih hmem (os.add q)

/-- **Nothing is refused** where no two reports share rule and span. -/
theorem toList_addAll {os : Offenses} {more : List Offense}
    (h : (os.toList ++ more).Pairwise fun a b => a.key ≠ b.key) :
    (os.addAll more).toList = os.toList ++ more := by
  induction more generalizing os with
  | nil => exact (List.append_nil _).symm
  | cons p more ih =>
      have hnew : os.reported p = false :=
        reported_eq_false.2 fun o ho => (List.pairwise_append.1 h).2.2 o ho p List.mem_cons_self
      have hadd : (os.add p).toList = os.toList ++ [p] := by
        rw [toList_add, hnew, if_neg Bool.false_ne_true]
      have hrest : ((os.add p).toList ++ more).Pairwise fun a b => a.key ≠ b.key := by
        rwa [hadd, List.append_assoc]
      have hcons : os.addAll (p :: more) = (os.add p).addAll more := rfl
      rw [hcons, ih hrest, hadd, List.append_assoc]
      rfl

/-- Several reports are collected in parts. -/
theorem addAll_append (os : Offenses) (first second : List Offense) :
    os.addAll (first ++ second) = (os.addAll first).addAll second := List.foldl_append

end Offenses

namespace Dispatcher

variable {rules : List Rule} {config : Config} {arena : Arena}

/-! ## The index of the rules -/

/-- An enabled rule is registered and enabled, and has the configured severity or its own. -/
theorem mem_activeRules {active : ActiveRule} : active ∈ activeRules rules config ↔
    active.rule ∈ rules ∧ (config.settings active.rule.name).enabled = true ∧
      active.severity = (config.settings active.rule.name).severity.getD
        active.rule.defaultSeverity := by
  rw [activeRules, List.mem_filterMap]
  constructor
  · rintro ⟨rule, hrule, hactive⟩
    dsimp only at hactive
    split at hactive
    · rename_i henabled
      cases hactive
      exact ⟨hrule, henabled, rfl⟩
    · cases hactive
  · rintro ⟨hrule, henabled, hseverity⟩
    refine ⟨active.rule, hrule, ?_⟩
    obtain ⟨rule, severity⟩ := active
    dsimp only at henabled hseverity ⊢
    rw [if_pos henabled, hseverity]

theorem rules_foldl_add (actives : List ActiveRule) (d : Dispatcher) :
    (actives.foldl add d).rules = d.rules ++ actives := by
  induction actives generalizing d with
  | nil => simp
  | cons active actives ih =>
      rw [List.foldl_cons, ih, add, List.append_assoc, List.singleton_append]

theorem runners_foldl_add (actives : List ActiveRule) (d : Dispatcher) :
    (actives.foldl add d).runners = d.runners := by
  induction actives generalizing d with
  | nil => rfl
  | cons active actives ih => rw [List.foldl_cons, ih, add]

theorem positions_foldl_add (actives : List ActiveRule) (d : Dispatcher) (m : String) :
    (actives.foldl add d).interest.positions m = d.interest.positions m ++
      (actives.zipIdx d.rules.length).flatMap fun (active, position) =>
        List.replicate (active.rule.methods.count m) position := by
  induction actives generalizing d with
  | nil => simp
  | cons active actives ih =>
      have hlength : (d.add active).rules.length = d.rules.length + 1 := List.length_append
      rw [List.foldl_cons, ih, hlength, List.zipIdx_cons, List.flatMap_cons, ← List.append_assoc]
      congr 1
      exact Interest.positions_addAll _ _ _ _

@[simp] theorem rules_ofRules (rules : List Rule) (config : Config) :
    (ofRules rules config).rules = activeRules rules config := rules_foldl_add _ _

@[simp] theorem runners_ofRules (rules : List Rule) (config : Config) :
    (ofRules rules config).runners = config.runners := runners_foldl_add _ _

/-- **The index lists the positions of the enabled rules in their order**, each one as often as its
rule mentions the method. -/
theorem positions_ofRules (rules : List Rule) (config : Config) (m : String) :
    (ofRules rules config).interest.positions m =
      (activeRules rules config).zipIdx.flatMap fun (active, position) =>
        List.replicate (active.rule.methods.count m) position :=
  positions_foldl_add _ _ _

/-! ## A pass over an arena -/

/-- Going to positions that are in bounds is going to those where something is found. -/
theorem pmap_get_eq_filterMap {α β : Type} (as : List α) (f : Nat → α → β) (positions : List Nat)
    (h : ∀ position ∈ positions, position < as.length) :
    List.pmap (fun position h => f position (as.get ⟨position, h⟩)) positions h =
      positions.filterMap fun position => as[position]?.map (f position) := by
  induction positions with
  | nil => rfl
  | cons position positions ih =>
      have hlt : position < as.length := h position List.mem_cons_self
      have hfound : as[position]?.map (f position) =
          some (f position (as.get ⟨position, hlt⟩)) := by
        rw [List.getElem?_eq_getElem hlt]
        rfl
      simp only [List.pmap_cons, List.filterMap_cons, hfound]
      rw [ih fun other hother => h other (List.mem_cons_of_mem _ hother)]

/-- The questions about a call, by the positions that are listed under its method. -/
theorem questions_of_call (d : Dispatcher) {id : NodeId} {call : Call}
    (h : arena.call? id = some call) : d.questions arena id =
      (d.interest.positions call.method).filterMap fun position =>
        d.rules[position]?.map fun active => { position, active, node := id } := by
  rw [questions, h]
  exact pmap_get_eq_filterMap d.rules
    (fun position active => { position, active, node := id : Invocation }) _ _

/-- **Every position leads back to the rule that listed it.** -/
theorem questions_ofRules {id : NodeId} {call : Call} (h : arena.call? id = some call) :
    (ofRules rules config).questions arena id =
      (activeRules rules config).zipIdx.flatMap fun (active, position) =>
        List.replicate (active.rule.methods.count call.method)
          { position, active, node := id } := by
  rw [questions_of_call _ h, positions_ofRules, List.filterMap_flatMap, rules_ofRules,
    List.flatMap_def, List.flatMap_def]
  refine congrArg List.flatten (List.map_congr_left fun (active, position) hentry => ?_)
  have hat : (activeRules rules config)[position]? = some active :=
    List.mem_zipIdx_iff_getElem?.1 hentry
  exact List.filterMap_replicate_of_some (by rw [hat]; rfl)

/-- What has been done after some more questions. -/
theorem foldl_ask (d : Dispatcher) (arena : Arena) (p : Pass) (more : List Invocation) :
    more.foldl (d.ask arena) p =
      { invocations := p.invocations ++ more
        offenses := p.offenses.addAll (more.flatMap (d.answer arena)) } := by
  induction more generalizing p with
  | nil => simp [Offenses.addAll]
  | cons i more ih =>
      rw [List.foldl_cons, ih, ask, List.append_assoc, List.singleton_append, List.flatMap_cons,
        Offenses.addAll_append]

/-- **What a pass does**: it puts the questions about each node in pre-order, and collects the
answers in the same order. -/
theorem pass_eq (d : Dispatcher) (arena : Arena) : d.pass arena =
    { invocations := arena.preorder.flatMap (d.questions arena)
      offenses := Offenses.empty.addAll
        ((arena.preorder.flatMap (d.questions arena)).flatMap (d.answer arena)) } := by
  have hwalk : arena.preorder.foldl (d.visit arena) {} =
      (arena.preorder.flatMap (d.questions arena)).foldl (d.ask arena) {} :=
    List.foldl_flatMap.symm
  rw [pass]
  split
  · -- where no method is listed, no question is put
    rename_i hempty
    have hnone : ∀ id ∈ arena.preorder, d.questions arena id = [] := by
      intro id _
      unfold questions
      split
      · rename_i call _
        have hpositions : d.interest.positions call.method = [] := by
          rw [List.isEmpty_iff.1 hempty]
          rfl
        simp [hpositions]
      · rfl
    rw [List.flatMap_eq_nil_iff.2 hnone]
    rfl
  · rw [hwalk, foldl_ask]
    rfl

theorem invocations_eq (d : Dispatcher) (arena : Arena) :
    d.invocations arena = arena.preorder.flatMap (d.questions arena) := by
  rw [invocations, pass_eq]

/-- **The answers are stored in the order of the questions.** -/
theorem run_eq (d : Dispatcher) (arena : Arena) : d.run arena =
    Offenses.empty.addAll ((d.invocations arena).flatMap (d.answer arena)) := by
  rw [run, invocations, pass_eq]

/-- **Which rules are asked about which calls**: each enabled rule, by its position, about the calls
of its methods. -/
theorem mem_invocations {i : Invocation} : i ∈ (ofRules rules config).invocations arena ↔
    (activeRules rules config)[i.position]? = some i.active ∧ i.node ∈ arena.preorder ∧
      ∃ call, arena.call? i.node = some call ∧ call.method ∈ i.active.rule.methods := by
  rw [invocations_eq, List.mem_flatMap]
  constructor
  · rintro ⟨id, hid, hi⟩
    cases hcall : arena.call? id with
    | none => simp [questions, hcall] at hi
    | some call =>
        rw [questions_ofRules hcall, List.mem_flatMap] at hi
        obtain ⟨⟨active, position⟩, hentry, hi⟩ := hi
        obtain ⟨hmentioned, rfl⟩ := List.mem_replicate.1 hi
        exact ⟨List.mem_zipIdx_iff_getElem?.1 hentry, hid, call, hcall,
          List.count_pos_iff.1 (Nat.pos_of_ne_zero hmentioned)⟩
  · rintro ⟨hrule, hid, call, hcall, hmethod⟩
    refine ⟨i.node, hid, ?_⟩
    rw [questions_ofRules hcall, List.mem_flatMap]
    refine ⟨(i.active, i.position), List.mem_zipIdx_iff_getElem?.2 hrule, ?_⟩
    exact List.mem_replicate.2 ⟨Nat.ne_of_gt (List.count_pos_iff.2 hmethod), rfl⟩

/-- The answer of a rule, which is told of the configured runners. -/
theorem answer_ofRules (i : Invocation) : (ofRules rules config).answer arena i =
    (i.active.rule.findings { arena, runners := config.runners } i.node).map
      (·.toOffense i.active.rule.name i.active.severity) := by
  rw [answer, runners_ofRules]

/-- **The reported spans are those of the findings** of the enabled rules at the calls of their
methods. -/
theorem exists_span_run {span : Span} :
    (∃ o ∈ ((ofRules rules config).run arena).toList, o.span = span) ↔
      ∃ active ∈ activeRules rules config, ∃ id ∈ arena.preorder, ∃ call,
        arena.call? id = some call ∧ call.method ∈ active.rule.methods ∧
        ∃ finding ∈ active.rule.findings { arena, runners := config.runners } id,
          finding.span = span := by
  rw [run_eq]
  constructor
  · rintro ⟨o, ho, rfl⟩
    rcases Offenses.mem_toList_addAll ho with hnone | hmore
    · exact absurd hnone List.not_mem_nil
    · obtain ⟨i, hi, hanswer⟩ := List.mem_flatMap.1 hmore
      obtain ⟨hrule, hid, call, hcall, hmethod⟩ := mem_invocations.1 hi
      rw [answer_ofRules] at hanswer
      obtain ⟨finding, hfinding, rfl⟩ := List.mem_map.1 hanswer
      exact ⟨i.active, List.mem_of_getElem? hrule, i.node, hid, call, hcall, hmethod, finding,
        hfinding, rfl⟩
  · rintro ⟨active, hrule, id, hid, call, hcall, hmethod, finding, hfinding, rfl⟩
    obtain ⟨position, hposition⟩ := List.mem_iff_getElem?.1 hrule
    have hi : { position, active, node := id } ∈ (ofRules rules config).invocations arena :=
      mem_invocations.2 ⟨hposition, hid, call, hcall, hmethod⟩
    have hanswer : finding.toOffense active.rule.name active.severity ∈
        (ofRules rules config).answer arena { position, active, node := id } := by
      rw [answer_ofRules]
      exact List.mem_map.2 ⟨finding, hfinding, rfl⟩
    obtain ⟨o, ho, hkey⟩ :=
      Offenses.exists_key_addAll (List.mem_flatMap.2 ⟨_, hi, hanswer⟩) Offenses.empty
    exact ⟨o, ho, (Prod.mk.inj hkey).2⟩

end Dispatcher

end SpecLint
