import SpecLint.Proofs.Independence

/-!
# The index is a short cut only

A dispatcher does not ask every rule about every node.  It looks up, by the method of a call, the
positions of the rules that are interested in it.  The questions that come out are those of a
dispatcher without an index, which goes through all enabled rules at each call: the same rules,
about the same calls, in the same order and as often.

* `Dispatcher.asked` — the questions of a dispatcher without an index.
* `Dispatcher.invocations_eq_asked` — **the questions with the index are those without it**, and the
  offenses are the answers to them.
-/

namespace SpecLint

namespace Dispatcher

variable {rules : List Rule} {config : Config} {arena : Arena}

/-- The questions about the call `call` at `id` when every enabled rule is looked at, in the order
of registration: each one is asked as often as it mentions the method of the call. -/
def askedAbout (rules : List Rule) (config : Config) (id : NodeId) (call : Call) :
    List Invocation :=
  (activeRules rules config).zipIdx.flatMap fun (active, position) =>
    List.replicate (active.rule.methods.count call.method) { position, active, node := id }

/-- The questions of a dispatcher without an index. -/
def asked (rules : List Rule) (config : Config) (arena : Arena) : List Invocation :=
  arena.preorder.flatMap fun id =>
    match arena.call? id with
    | some call => askedAbout rules config id call
    | none => []

theorem invocations_ofRules :
    (ofRules rules config).invocations arena = asked rules config arena := by
  rw [invocations_eq]
  refine congrArg (List.flatMap · _) (funext fun id => ?_)
  cases hcall : arena.call? id with
  | none => rw [questions, hcall]
  | some call => exact questions_ofRules hcall

/-- **The questions with the index are those without it**: at each call in pre-order, each enabled
rule in the order of registration is asked as often as it mentions the method of the call.  The
position by which a rule is asked leads to that rule, which is registered and enabled.  The offenses
of a pass are the answers, collected in the order of the questions; what is reported in an answer
carries the name of the rule that was asked, and the severity that is configured for it or else its
own. -/
theorem invocations_eq_asked (rules : List Rule) (config : Config) (arena : Arena) :
    (ofRules rules config).invocations arena = asked rules config arena ∧
    (ofRules rules config).run arena = Offenses.empty.addAll
      ((asked rules config arena).flatMap ((ofRules rules config).answer arena)) ∧
    (∀ i ∈ (ofRules rules config).invocations arena,
      (ofRules rules config).rules[i.position]? = some i.active ∧ i.active.rule ∈ rules ∧
        (config.settings i.active.rule.name).enabled = true) ∧
    (∀ i ∈ (ofRules rules config).invocations arena,
      ∀ o ∈ (ofRules rules config).answer arena i, o.rule = i.active.rule.name ∧
        o.severity = (config.settings i.active.rule.name).severity.getD
          i.active.rule.defaultSeverity) ∧
    ∀ o ∈ ((ofRules rules config).run arena).toList,
      ∃ i ∈ (ofRules rules config).invocations arena,
        o ∈ (ofRules rules config).answer arena i := by
  have hactive : ∀ i ∈ (ofRules rules config).invocations arena,
      (activeRules rules config)[i.position]? = some i.active ∧ i.active.rule ∈ rules ∧
        (config.settings i.active.rule.name).enabled = true ∧
        i.active.severity = (config.settings i.active.rule.name).severity.getD
          i.active.rule.defaultSeverity := by
    intro i hi
    have hposition := (mem_invocations.1 hi).1
    exact ⟨hposition, mem_activeRules.1 (List.mem_of_getElem? hposition)⟩
  refine ⟨invocations_ofRules, ?_, ?_, ?_, ?_⟩
  · rw [run_eq, invocations_ofRules]
  · intro i hi
    obtain ⟨hposition, hrule, henabled, -⟩ := hactive i hi
    rw [rules_ofRules]
    exact ⟨hposition, hrule, henabled⟩
  · intro i hi o ho
    obtain ⟨-, -, -, hseverity⟩ := hactive i hi
    obtain ⟨finding, -, rfl⟩ := List.mem_map.1 ho
    exact ⟨rfl, hseverity⟩
  · intro o ho
    rw [run_eq] at ho
    rcases Offenses.mem_toList_addAll ho with hempty | hreport
    · cases hempty
    · exact List.mem_flatMap.1 hreport

end Dispatcher

end SpecLint
