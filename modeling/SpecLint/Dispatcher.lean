import SpecLint.Config.Basic
import SpecLint.Expectation
import SpecLint.Lowering

/-!
# Routing calls to rules

A `Dispatcher` knows, for each method name, at which positions of its list of enabled rules those
stand that look at calls of that method.  The list and the index are built together, once, and serve
any number of files: a pass over a file looks each call up by its method, goes to the rules at the
positions that are listed there, and collects what they report.

* `Dispatcher.ofRules` — the enabled rules at their resolved severities, with their index.
* `Dispatcher.pass` — the questions that are put to the rules, in order, and the offenses.
* `Dispatcher.run` — the offenses of one file.
* `Dispatcher.lint` — the offenses of one source.
-/

namespace SpecLint

/-- A rule that is enabled. -/
structure ActiveRule where
  /-- The rule. -/
  rule : Rule
  /-- The configured severity, or else the rule's own. -/
  severity : Severity

/-- The positions at which a method is listened for.  A method is listed once. -/
abbrev Interest := List (String × List Nat)

namespace Interest

/-- The positions that are listed under `method`, in the order in which they were added. -/
def positions (interest : Interest) (method : String) : List Nat :=
  (interest.lookup method).getD []

/-- Adds a position to those listed under `method`. -/
def add (interest : Interest) (method : String) (position : Nat) : Interest :=
  match interest with
  | [] => [(method, [position])]
  | (key, positions) :: rest =>
      if key = method then (key, positions ++ [position]) :: rest
      else (key, positions) :: add rest method position

/-- Adds a position under each of some methods, once for each mention. -/
def addAll (interest : Interest) (methods : List String) (position : Nat) : Interest :=
  methods.foldl (fun interest method => interest.add method position) interest

theorem positions_cons (key : String) (positions : List Nat) (rest : Interest) (m : String) :
    Interest.positions ((key, positions) :: rest) m =
      if m = key then positions else Interest.positions rest m := by
  by_cases hm : m = key
  · simp [Interest.positions, hm]
  · have hne : (m == key) = false := beq_eq_false_iff_ne.2 hm
    simp [Interest.positions, List.lookup_cons, hm, hne]

theorem positions_add (interest : Interest) (method : String) (position : Nat) (m : String) :
    (interest.add method position).positions m =
      interest.positions m ++ if m = method then [position] else [] := by
  induction interest with
  | nil =>
      rw [add, positions_cons]
      rfl
  | cons entry rest ih =>
      obtain ⟨key, positions⟩ := entry
      rw [add]
      by_cases hkey : key = method
      · subst hkey
        rw [if_pos rfl, positions_cons, positions_cons]
        by_cases hm : m = key <;> simp [hm]
      · rw [if_neg hkey, positions_cons, positions_cons, ih]
        by_cases hm : m = key
        · subst hm
          simp [hkey]
        · simp [hm]

/-- A position is listed as often as its rule mentions the method. -/
theorem positions_addAll (interest : Interest) (methods : List String) (position : Nat)
    (m : String) : (interest.addAll methods position).positions m =
      interest.positions m ++ List.replicate (methods.count m) position := by
  unfold addAll
  induction methods generalizing interest with
  | nil => simp
  | cons method methods ih =>
      rw [List.foldl_cons, ih, positions_add, List.append_assoc]
      by_cases hm : m = method
      · subst hm
        simp [List.replicate_succ]
      · simp [hm, List.count_cons_of_ne (Ne.symm hm)]

end Interest

/-- The enabled rules with their index, and the runners that they are told of. -/
structure Dispatcher where
  /-- The enabled rules in the order of registration. -/
  rules : List ActiveRule
  /-- The index of the enabled rules. -/
  interest : Interest
  /-- The configured runners. -/
  runners : RunnerSet
  /-- A position that is listed under a method leads back to a rule that mentions the method. -/
  listed : ∀ method, ∀ position ∈ interest.positions method,
    ∃ active, rules[position]? = some active ∧ method ∈ active.rule.methods

/-- One question put to a rule. -/
structure Invocation where
  /-- The position of the rule among the enabled ones. -/
  position : Nat
  /-- The rule that is asked. -/
  active : ActiveRule
  /-- The call that it is asked about. -/
  node : NodeId

namespace Dispatcher

/-! ## Building a dispatcher -/

/-- The enabled rules at their resolved severities. -/
def activeRules (rules : List Rule) (config : Config) : List ActiveRule :=
  rules.filterMap fun rule =>
    let settings := config.settings rule.name
    if settings.enabled then
      some { rule, severity := settings.severity.getD rule.defaultSeverity }
    else
      none

/-- A dispatcher without rules. -/
def idle (runners : RunnerSet) : Dispatcher where
  rules := []
  interest := []
  runners := runners
  listed := by simp [Interest.positions]

/-- Adds a rule behind the others and lists its position under each of its methods. -/
def add (d : Dispatcher) (active : ActiveRule) : Dispatcher where
  rules := d.rules ++ [active]
  interest := d.interest.addAll active.rule.methods d.rules.length
  runners := d.runners
  listed := by
    intro method position hposition
    rw [Interest.positions_addAll, List.mem_append, List.mem_replicate] at hposition
    rcases hposition with hold | ⟨hmentioned, rfl⟩
    · obtain ⟨other, hother, hmethod⟩ := d.listed method position hold
      have hlt : position < d.rules.length := (List.getElem?_eq_some_iff.1 hother).1
      exact ⟨other, by rw [List.getElem?_append_left hlt, hother], hmethod⟩
    · refine ⟨active, by simp, ?_⟩
      exact List.count_pos_iff.1 (Nat.pos_of_ne_zero hmentioned)

/-- Resolves the rules against the configuration and builds their index. -/
def ofRules (rules : List Rule) (config : Config) : Dispatcher :=
  (activeRules rules config).foldl add (idle config.runners)

/-- The methods in which a rule is interested, ascending. -/
def methods (d : Dispatcher) : List String :=
  (d.interest.map Prod.fst).mergeSort fun a b => decide (a ≤ b)

/-! ## A pass over an arena -/

/-- The position of a rule is one of the list. -/
theorem lt_length_of_listed (d : Dispatcher) {method : String} {position : Nat}
    (h : position ∈ d.interest.positions method) : position < d.rules.length := by
  obtain ⟨active, hactive, -⟩ := d.listed method position h
  exact (List.getElem?_eq_some_iff.1 hactive).1

/-- The questions that are put about one node: at a call one for each position that is listed under
its method. -/
def questions (d : Dispatcher) (arena : Arena) (id : NodeId) : List Invocation :=
  match arena.call? id with
  | some call =>
      List.pmap
        (fun position h => { position, active := d.rules.get ⟨position, h⟩, node := id })
        (d.interest.positions call.method) fun _ => d.lt_length_of_listed
  | none => []

/-- What a rule reports when it is asked. -/
def answer (d : Dispatcher) (arena : Arena) (i : Invocation) : List Offense :=
  (i.active.rule.findings { arena, runners := d.runners } i.node).map
    (·.toOffense i.active.rule.name i.active.severity)

/-- What a pass has done so far. -/
structure Pass where
  /-- The questions that were put. -/
  invocations : List Invocation := []
  /-- What was reported. -/
  offenses : Offenses := .empty

/-- Puts one question and collects what is reported. -/
def ask (d : Dispatcher) (arena : Arena) (p : Pass) (i : Invocation) : Pass where
  invocations := p.invocations ++ [i]
  offenses := p.offenses.addAll (d.answer arena i)

/-- Comes to one node. -/
def visit (d : Dispatcher) (arena : Arena) (p : Pass) (id : NodeId) : Pass :=
  (d.questions arena id).foldl (d.ask arena) p

/-- Walks over an arena.  Without a method to look for there is no walk. -/
def pass (d : Dispatcher) (arena : Arena) : Pass :=
  if d.interest.isEmpty then {} else arena.preorder.foldl (d.visit arena) {}

/-- The questions that a pass puts to the rules, in order. -/
def invocations (d : Dispatcher) (arena : Arena) : List Invocation := (d.pass arena).invocations

/-- The offenses of one arena, in the order of their first report. -/
def run (d : Dispatcher) (arena : Arena) : Offenses := (d.pass arena).offenses

/-- The offenses of one source, or why it cannot be lowered. -/
def lint (d : Dispatcher) (grammar : Lowering.Grammar) (source : ByteArray) :
    Except Lowering.Failure Offenses :=
  (Lowering.arenaOf grammar source).map d.run

end Dispatcher

end SpecLint
