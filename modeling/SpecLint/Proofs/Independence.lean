import SpecLint.Proofs.Reports

/-!
# Rules do not interfere

The rules of a dispatcher share one index and one collection of offenses.  A rule that is disabled
moves those behind it to other positions, but at every position the rule is found that was listed
there, so that a rule is asked the same questions whatever stands beside it; and only its own
reports can make the collection refuse one of its reports.  What is reported for a rule is therefore
what it reports alone.

* `Dispatcher.answers_questions` — the reports on one node, whatever the positions of the rules.
* `Dispatcher.reports_eq` — **the reports of a pass, rule by rule**, without index and positions.
* `Offenses.filter_addAll` — the collection of one rule does not depend on other reports.
* `Dispatcher.filter_run` — **the offenses of one rule among many are those of the rule alone**.
-/

namespace SpecLint

/-! ## Collecting the offenses of one rule -/

namespace Offenses

/-- Where a rule has the same offenses in two collections, a report of the rule is refused by both
or by neither. -/
theorem reported_congr {os alone : Offenses} {o : Offense}
    (h : os.toList.filter (fun p => p.rule == o.rule) = alone.toList) :
    os.reported o = alone.reported o := by
  rw [Bool.eq_iff_iff, reported_eq_true, reported_eq_true, ← h]
  constructor
  · rintro ⟨p, hp, hkey⟩
    have hrule : p.rule = o.rule := (Prod.mk.inj hkey).1
    exact ⟨p, List.mem_filter.2 ⟨hp, beq_iff_eq.2 hrule⟩, hkey⟩
  · rintro ⟨p, hp, hkey⟩
    exact ⟨p, (List.mem_filter.1 hp).1, hkey⟩

/-- A report of a rule is stored as it is in the collection of the rule alone. -/
theorem filter_add {os alone : Offenses} {o : Offense}
    (h : os.toList.filter (fun p => p.rule == o.rule) = alone.toList) :
    (os.add o).toList.filter (fun p => p.rule == o.rule) = (alone.add o).toList := by
  rw [toList_add, toList_add, reported_congr h]
  split
  · exact h
  · rw [List.filter_append, h]
    simp

/-- A report of another rule leaves the offenses of a rule as they are. -/
theorem filter_add_of_ne {os : Offenses} {o : Offense} {rule : String} (h : o.rule ≠ rule) :
    (os.add o).toList.filter (fun p => p.rule == rule) =
      os.toList.filter (fun p => p.rule == rule) := by
  rw [toList_add]
  split
  · rfl
  · rw [List.filter_append]
    simp [h]

/-- **The collection of one rule does not depend on other reports.** -/
theorem filter_addAll {os alone : Offenses} {rule : String}
    (h : os.toList.filter (fun p => p.rule == rule) = alone.toList) (more : List Offense) :
    (os.addAll more).toList.filter (fun p => p.rule == rule) =
      (alone.addAll (more.filter fun p => p.rule == rule)).toList := by
  -- both collections grow together, the second one by the reports of the rule only
  induction more generalizing os alone with
  | nil => exact h
  | cons o more ih =>
      by_cases hrule : o.rule = rule
      · subst hrule
        have hkept : (o :: more).filter (fun p => p.rule == o.rule) =
            o :: more.filter (fun p => p.rule == o.rule) := List.filter_cons_of_pos (by simp)
        rw [hkept]
        exact ih (filter_add h)
      · have hdropped : (o :: more).filter (fun p => p.rule == rule) =
            more.filter (fun p => p.rule == rule) := List.filter_cons_of_neg (by simpa using hrule)
        rw [hdropped]
        exact ih ((filter_add_of_ne hrule).trans h)

end Offenses

/-! ## The reports of a pass -/

/-- The severity at which a rule reports. -/
def Config.severityOf (config : Config) (rule : Rule) : Severity :=
  (config.settings rule.name).severity.getD rule.defaultSeverity

namespace Dispatcher

variable {rules : List Rule} {config : Config} {arena : Arena}

/-- What is done for each enabled rule, given the rule and its severity. -/
theorem flatMap_activeRules {α : Type} (f : Rule → Severity → List α) :
    (activeRules rules config).flatMap (fun active => f active.rule active.severity) =
      rules.flatMap fun rule =>
        if (config.settings rule.name).enabled then f rule (config.severityOf rule) else [] := by
  unfold activeRules
  induction rules with
  | nil => rfl
  | cons rule rules ih =>
      rw [List.flatMap_cons, ← ih]
      cases henabled : (config.settings rule.name).enabled with
      | false =>
          rw [List.filterMap_cons_none (by simp [henabled])]
          simp
      | true =>
          rw [List.filterMap_cons_some (by simp [henabled]; rfl), List.flatMap_cons]
          simp [Config.severityOf]

/-- What a rule reports about one node: its findings at a call, once for each time it mentions the
method of the call. -/
def reportsOn (config : Config) (arena : Arena) (id : NodeId) (rule : Rule) : List Offense :=
  match arena.call? id with
  | some call =>
      if (config.settings rule.name).enabled then
        (List.replicate (rule.methods.count call.method)
          ((rule.findings { arena, runners := config.runners } id).map
            (·.toOffense rule.name (config.severityOf rule)))).flatten
      else []
  | none => []

/-- The reports on one node, whatever the positions of the rules that are asked. -/
theorem answers_questions (id : NodeId) :
    ((ofRules rules config).questions arena id).flatMap ((ofRules rules config).answer arena) =
      rules.flatMap (reportsOn config arena id) := by
  unfold reportsOn
  cases hcall : arena.call? id with
  | none => simp [questions, hcall]
  | some call =>
      have hentry (entry : ActiveRule × Nat) :
          (List.replicate (entry.1.rule.methods.count call.method)
              (Invocation.mk entry.2 entry.1 id)).flatMap ((ofRules rules config).answer arena) =
            (List.replicate (entry.1.rule.methods.count call.method)
              ((entry.1.rule.findings { arena, runners := config.runners } id).map
                (·.toOffense entry.1.rule.name entry.1.severity))).flatten := by
        rw [List.flatMap_replicate, answer_ofRules]
      rw [questions_ofRules hcall, List.flatMap_assoc]
      simp only [hentry]
      rw [← flatMap_activeRules fun rule severity =>
        (List.replicate (rule.methods.count call.method)
          ((rule.findings { arena, runners := config.runners } id).map
            (·.toOffense rule.name severity))).flatten]
      conv => rhs; rw [← List.zipIdx_map_fst 0 (activeRules rules config), List.flatMap_map]

/-- **The reports of a pass, rule by rule.** -/
theorem reports_eq :
    ((ofRules rules config).invocations arena).flatMap ((ofRules rules config).answer arena) =
      arena.preorder.flatMap fun id => rules.flatMap (reportsOn config arena id) := by
  rw [invocations_eq, List.flatMap_assoc]
  exact congrArg (List.flatMap · _) (funext answers_questions)

theorem rule_of_mem_reportsOn {rule : Rule} {id : NodeId} {o : Offense}
    (h : o ∈ reportsOn config arena id rule) : o.rule = rule.name := by
  unfold reportsOn at h
  split at h
  · split at h
    · obtain ⟨os, hos, ho⟩ := List.mem_flatten.1 h
      rw [List.eq_of_mem_replicate hos] at ho
      obtain ⟨finding, -, rfl⟩ := List.mem_map.1 ho
      rfl
    · cases h
  · cases h

/-- Among rules of different names, only the rule itself makes reports under its name. -/
theorem filter_reportsOn {A : Rule} {id : NodeId} (hnames : (rules.map Rule.name).Nodup)
    (hA : A ∈ rules) :
    (rules.flatMap (reportsOn config arena id)).filter (fun o => o.rule == A.name) =
      reportsOn config arena id A := by
  have hother : ∀ rule : Rule, rule.name ≠ A.name →
      (reportsOn config arena id rule).filter (fun o => o.rule == A.name) = [] := by
    intro rule hne
    rw [List.filter_eq_nil_iff]
    intro o ho
    simpa [rule_of_mem_reportsOn ho] using hne
  have hself : (reportsOn config arena id A).filter (fun o => o.rule == A.name) =
      reportsOn config arena id A := by
    rw [List.filter_eq_self]
    intro o ho
    simp [rule_of_mem_reportsOn ho]
  rw [List.filter_flatMap]
  induction rules with
  | nil => cases hA
  | cons rule rules ih =>
      rw [List.map_cons, List.nodup_cons] at hnames
      rw [List.flatMap_cons]
      rcases List.mem_cons.1 hA with rfl | hmem
      · have hrest : rules.flatMap
            (fun rule => (reportsOn config arena id rule).filter fun o => o.rule == A.name) =
              [] := by
          rw [List.flatMap_eq_nil_iff]
          intro rule hrule
          exact hother rule fun heq => hnames.1 (heq ▸ List.mem_map_of_mem hrule)
        rw [hself, hrest, List.append_nil]
      · have hne : rule.name ≠ A.name := fun heq => hnames.1 (heq ▸ List.mem_map_of_mem hmem)
        rw [hother rule hne, List.nil_append, ih hnames.2 hmem]

/-- What a rule reports depends on the configuration through its own settings and the runners. -/
theorem reportsOn_congr {config' : Config} {A : Rule}
    (hsettings : config'.settings A.name = config.settings A.name)
    (hrunners : config'.runners = config.runners) (id : NodeId) :
    reportsOn config' arena id A = reportsOn config arena id A := by
  rw [reportsOn, reportsOn, Config.severityOf, Config.severityOf, hsettings, hrunners]

/-- The offenses that are stored for one rule among rules of different names. -/
theorem filter_toList_run {A : Rule} (hnames : (rules.map Rule.name).Nodup) (hA : A ∈ rules) :
    ((ofRules rules config).run arena).toList.filter (fun o => o.rule == A.name) =
      (Offenses.empty.addAll
        (arena.preorder.flatMap fun id => reportsOn config arena id A)).toList := by
  have hempty : Offenses.empty.toList.filter (fun o => o.rule == A.name) =
      Offenses.empty.toList := rfl
  rw [run_eq, reports_eq, Offenses.filter_addAll hempty, List.filter_flatMap]
  congr 3
  funext id
  exact filter_reportsOn hnames hA

theorem toList_run_singleton (A : Rule) : ((ofRules [A] config).run arena).toList =
    (Offenses.empty.addAll
      (arena.preorder.flatMap fun id => reportsOn config arena id A)).toList := by
  rw [run_eq, reports_eq]
  simp

/-- **The offenses of one rule among many are those of the rule alone**, in the same order and with
the same severities, spans and messages.  They stay the same when other rules are added, removed,
moved, disabled or set to another severity. -/
theorem filter_run {A : Rule} (hnames : (rules.map Rule.name).Nodup) (hA : A ∈ rules) :
    ((ofRules rules config).run arena).toList.filter (fun o => o.rule == A.name) =
      ((ofRules [A] config).run arena).toList ∧
    ∀ (rules' : List Rule) (config' : Config), (rules'.map Rule.name).Nodup → A ∈ rules' →
      config'.settings A.name = config.settings A.name → config'.runners = config.runners →
      ((ofRules rules' config').run arena).toList.filter (fun o => o.rule == A.name) =
        ((ofRules rules config).run arena).toList.filter (fun o => o.rule == A.name) := by
  constructor
  · rw [filter_toList_run hnames hA, toList_run_singleton]
  · intro rules' config' hnames' hA' hsettings hrunners
    rw [filter_toList_run hnames hA, filter_toList_run hnames' hA']
    congr 3
    funext id
    exact reportsOn_congr hsettings hrunners id

/-- A rule that reports every comparison. -/
def noComparison : Rule where
  name := "Style/NoComparison"
  methods := ["=="]
  findings := fun context id =>
    match context.arena.call? id with
    | some call => [{ span := call.selector, message := "Use `eql?`." }]
    | none => []

/-- The tree of `is_expected == 1`. -/
def comparedTarget : Concrete :=
  ⟨"binary", true, none, 0, 16, 0, 0,
    [⟨"identifier", true, some "left", 0, 11, 0, 0, []⟩,
      ⟨"==", false, some "operator", 12, 14, 0, 12, []⟩,
      ⟨"integer", true, some "right", 15, 16, 0, 15, []⟩]⟩

/-- Two rules report the same operator, and neither takes the place of the other. -/
theorem filter_run_compared : ∃ arena,
    Lowering.arenaOf (fun _ => comparedTarget) "is_expected == 1".toUTF8 = .ok arena ∧
      ((ofRules [noComparison, expectationTarget] {}).run arena).toList.map Offense.span =
        [⟨12, 14, 1, 13⟩, ⟨12, 14, 1, 13⟩] ∧
      ((ofRules [noComparison, expectationTarget] {}).run arena).toList.filter
          (fun o => o.rule == expectationTarget.name) =
        ((ofRules [expectationTarget] {}).run arena).toList := by
  have hnames : ([noComparison, expectationTarget].map Rule.name).Nodup := by decide
  have hmem : expectationTarget ∈ [noComparison, expectationTarget] :=
    List.mem_cons_of_mem _ List.mem_cons_self
  refine ⟨_, rfl, ?_, ?_⟩
  · decide +kernel
  · exact (filter_run hnames hmem).1

end Dispatcher

end SpecLint
