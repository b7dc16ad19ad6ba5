import Mathlib
import SpecLint.Prefilter
import SpecLint.Text.Lossy
import SpecLint.Proofs.Coverage
import SpecLint.Proofs.Reports

/-!
# What the prefilter clears

The prefilter clears a source in which none of the dispatched method names occurs.  Lowering reads
nearly every method name off the source, and such a name stands there byte for byte.  A few names it
supplies by itself: `a.()` calls `call`, `a[i]` calls `[]`, `not a` calls `!`, and the signs of `-a`
and `+a` call `-@` and `+@`.  A cleared source can hold calls of these and of no other dispatched
method.

* `Dispatcher.mem_methods` — **the sought names are those of the enabled rules**.
* `Lowering.bytesOf_nameOf` — **a name that lowering reads occurs in the source**.
* `Lowering.occurs_or_supplied` — every method of a call occurs in the source or is supplied.
* `Lowering.supplied_of_invocation` — what a rule can be asked about in a cleared source.
* `Lowering.invocations_of_cleared` — **a cleared source holds no offense** of rules that listen for
  none of the supplied names.
* `Lowering.exists_invocation_of_cleared` — a rule that listens for one of them can miss a call.
-/

namespace SpecLint

/-- The prefilter lets a source pass exactly when one of the sought names is an infix of it. -/
theorem Prefilter.mightMatch_iff {p : Prefilter} {source : ByteArray} :
    p.mightMatch source = true ↔
      ∃ method ∈ p.methods, Text.bytesOf method <:+: source.data.toList := by
  simp [mightMatch, occursIn_iff, Text.bytesOf]

/-! ## The sought names -/

namespace Interest

theorem mem_keys_add {interest : Interest} {method m : String} {position : Nat} :
    m ∈ (interest.add method position).map Prod.fst ↔
      m ∈ interest.map Prod.fst ∨ m = method := by
  induction interest with
  | nil => simp [add]
  | cons entry rest ih =>
      obtain ⟨key, positions⟩ := entry
      unfold add
      by_cases hkey : key = method
      · subst hkey
        simp only [if_true, List.map_cons, List.mem_cons]
        grind
      · rw [if_neg hkey, List.map_cons, List.mem_cons, ih, List.map_cons, List.mem_cons, or_assoc]

theorem mem_keys_addAll {interest : Interest} {methods : List String} {position : Nat}
    {m : String} : m ∈ (interest.addAll methods position).map Prod.fst ↔
      m ∈ interest.map Prod.fst ∨ m ∈ methods := by
  unfold addAll
  induction methods generalizing interest with
  | nil => simp
  | cons method methods ih =>
      rw [List.foldl_cons, ih, mem_keys_add, List.mem_cons, or_assoc]

end Interest

namespace Dispatcher

theorem mem_keys_foldl_add {actives : List ActiveRule} {d : Dispatcher} {m : String} :
    m ∈ (actives.foldl add d).interest.map Prod.fst ↔
      m ∈ d.interest.map Prod.fst ∨ ∃ active ∈ actives, m ∈ active.rule.methods := by
  induction actives generalizing d with
  | nil => simp
  | cons active actives ih =>
      rw [List.foldl_cons, ih, add, Interest.mem_keys_addAll, or_assoc]
      simp

/-- **The sought names are those of the enabled rules.** -/
theorem mem_methods {rules : List Rule} {config : Config} {m : String} :
    m ∈ (ofRules rules config).methods ↔
      ∃ active ∈ activeRules rules config, m ∈ active.rule.methods := by
  rw [methods, List.mem_mergeSort, ofRules, mem_keys_foldl_add]
  simp [idle]

end Dispatcher

namespace Lowering

variable {source : ByteArray} {p : Concrete} {call : Sending}

/-! ## Where a method name comes from -/

/-- **A name that lowering reads occurs in the source.** -/
theorem bytesOf_nameOf (source : ByteArray) (n : Concrete) :
    Text.bytesOf (nameOf source n) <:+: source.data.toList := by
  unfold nameOf
  cases htext : n.text? source with
  | none => exact List.nil_infix
  | some text =>
      have hbytes : text.toByteArray = source.extract n.startByte n.endByte := by
        unfold Concrete.text? String.fromUTF8? at htext
        split at htext
        · exact (Option.some.inj htext) ▸ rfl
        · cases htext
      rw [Option.getD_some, Text.bytesOf, String.toUTF8_eq_toByteArray, hbytes,
        ByteArray.data_extract, Array.toList_extract, List.extract_eq_take_drop]
      exact (List.take_prefix _ _).isInfix.trans (List.drop_suffix _ _).isInfix

/-- The method names that lowering supplies, with the nodes for which it does. -/
inductive Supplied (source : ByteArray) (p : Concrete) : String → Prop where
  /-- In `a.()` there is no name. -/
  | call (hrole : p.role = .call) (hmethod : p.childByField? "method" = none) :
      Supplied source p "call"
  /-- In `a[i]` the arguments stand between the two halves of the name. -/
  | element (hrole : p.role = .element) : Supplied source p "[]"
  /-- In `not a` the name is spelt out. -/
  | negation (hrole : p.role = .unary) {operator : Concrete}
      (hoperator : p.childByField? "operator" = some operator)
      (hname : nameOf source operator = "not") : Supplied source p "!"
  /-- In `-a` the name is the one of the sign with a mark added. -/
  | minus (hrole : p.role = .unary) {operator : Concrete}
      (hoperator : p.childByField? "operator" = some operator)
      (hname : nameOf source operator = "-") : Supplied source p "-@"
  /-- So it is in `+a`. -/
  | plus (hrole : p.role = .unary) {operator : Concrete}
      (hoperator : p.childByField? "operator" = some operator)
      (hname : nameOf source operator = "+") : Supplied source p "+@"

/-- The names that lowering can supply. -/
def suppliedMethods : List String := ["call", "[]", "!", "-@", "+@"]

theorem Supplied.mem {method : String} (h : Supplied source p method) :
    method ∈ suppliedMethods := by
  cases h <;> decide

/-- The method of an operator before one operand is the operator itself or is supplied. -/
theorem unary_occurs_or_supplied {operator : Concrete} {method : String} (hrole : p.role = .unary)
    (hoperator : p.childByField? "operator" = some operator)
    (h : unaryMethod? (nameOf source operator) = some method) :
    method = nameOf source operator ∨ Supplied source p method := by
  unfold unaryMethod? at h
  split at h
  · rename_i hname
    obtain rfl := Option.some.inj h
    rcases hname with hname | hname
    · exact Or.inl hname.symm
    · exact Or.inr (.negation hrole hoperator hname)
  · split at h
    · rename_i hname
      obtain rfl := Option.some.inj h
      exact Or.inr (.minus hrole hoperator hname)
    · split at h
      · rename_i hname
        obtain rfl := Option.some.inj h
        exact Or.inr (.plus hrole hoperator hname)
      · split at h
        · rename_i hname
          obtain rfl := Option.some.inj h
          exact Or.inl hname.symm
        · cases h

/-- The method of an operator or of an element access occurs in the source or is supplied. -/
theorem operator_occurs_or_supplied (h : operatorSending? source p = some call) :
    Text.bytesOf call.method <:+: source.data.toList ∨ Supplied source p call.method := by
  cases operatorForm h with
  | @binary _ _ operator => exact Or.inl (bytesOf_nameOf source operator)
  | @unary hrole operator _ _ hoperator _ hmethod =>
      rcases unary_occurs_or_supplied hrole hoperator hmethod with rfl | hsupplied
      · exact Or.inl (bytesOf_nameOf source operator)
      · exact Or.inr hsupplied
  | element hrole => exact Or.inr (.element hrole)

/-- **Every method of a call occurs in the source or is supplied.** -/
theorem occurs_or_supplied (h : sending? source p = some call) :
    Text.bytesOf call.method <:+: source.data.toList ∨ Supplied source p call.method := by
  unfold sending? at h
  split at h
  · rename_i hrole
    cases h
    cases hmethod : p.childByField? "method" with
    | some method =>
        simp only [callSending, hmethod]
        exact Or.inl (bytesOf_nameOf source method)
    | none =>
        simp only [callSending, hmethod]
        exact Or.inr (.call hrole hmethod)
  · exact operator_occurs_or_supplied h

/-! ## Cleared sources -/

section Cleared

variable {grammar : Grammar} {arena : Arena} {rules : List Rule} {config : Config}

/-- What a rule is asked about in a cleared source: calls whose methods are supplied. -/
theorem supplied_of_invocation (h : arenaOf grammar source = .ok arena)
    (hcleared : (Prefilter.mk (Dispatcher.ofRules rules config).methods).mightMatch source = false)
    {i : Invocation} (hi : i ∈ (Dispatcher.ofRules rules config).invocations arena) :
    ∃ p c, Reached source (grammar source) p ∧ Supplied source p c.method ∧
      arena.call? i.node = some c ∧ c.method ∈ i.active.rule.methods := by
  obtain ⟨hactive, hnode, c, hc, hmethod⟩ := Dispatcher.mem_invocations.1 hi
  have habsent : ¬ Text.bytesOf c.method <:+: source.data.toList := by
    intro hoccurs
    have hsought : c.method ∈ (Dispatcher.ofRules rules config).methods :=
      Dispatcher.mem_methods.2 ⟨i.active, List.mem_of_getElem? hactive, hmethod⟩
    exact Bool.eq_false_iff.1 hcleared
      (Prefilter.mightMatch_iff.2 ⟨c.method, hsought, hoccurs⟩)
  cases hsource : source.isEmpty with
  | true =>
      -- an empty source has no nodes
      obtain rfl := arenaOf_of_isEmpty hsource h
      rw [Arena.preorder_eq_nil rfl] at hnode
      cases hnode
  | false =>
      obtain ⟨root, -, -, hform⟩ := forest_arenaOf hsource h
      obtain ⟨span, hsend⟩ := Arena.call?_eq_some.1 hc
      rw [hform] at hsend
      obtain ⟨before, p, after, hvisit, hp⟩ := call_of_visit hsend
      have hreached : Reached source (grammar source) p := by
        apply enter_mem_course.1
        rw [hvisit]
        exact List.mem_append_right _ List.mem_cons_self
      refine ⟨p, c, hreached, ?_, hc, hmethod⟩
      rcases hp with ⟨call, arguments, hcall, rfl⟩ | ⟨-, rfl⟩
      · exact (occurs_or_supplied hcall).resolve_left habsent
      · -- a name is its own method
        exact absurd (bytesOf_nameOf source p) habsent

/-- In a cleared source no rule is asked that listens for none of the supplied names. -/
theorem invocations_eq_nil_of_cleared (h : arenaOf grammar source = .ok arena)
    (hcleared : (Prefilter.mk (Dispatcher.ofRules rules config).methods).mightMatch source = false)
    (hmethods : ∀ active ∈ Dispatcher.activeRules rules config, ∀ method ∈ active.rule.methods,
      method ∉ suppliedMethods) :
    (Dispatcher.ofRules rules config).invocations arena = [] := by
  rw [List.eq_nil_iff_forall_not_mem]
  intro i hi
  obtain ⟨p, c, -, hsupplied, -, hmethod⟩ := supplied_of_invocation h hcleared hi
  have hactive := List.mem_of_getElem? (Dispatcher.mem_invocations.1 hi).1
  exact hmethods i.active hactive c.method hmethod hsupplied.mem

theorem toList_run_of_invocations {d : Dispatcher} (h : d.invocations arena = []) :
    (d.run arena).toList = [] := by
  rw [Dispatcher.run_eq, h]
  rfl

/-- **A cleared source holds no offense** of rules that listen for none of the supplied names; and
whatever the rules, they can only be asked about calls whose names are supplied. -/
theorem invocations_of_cleared (h : arenaOf grammar source = .ok arena)
    (hcleared : (Prefilter.mk (Dispatcher.ofRules rules config).methods).mightMatch source =
      false) :
    (∀ i ∈ (Dispatcher.ofRules rules config).invocations arena, ∃ p c,
      Reached source (grammar source) p ∧ Supplied source p c.method ∧
        arena.call? i.node = some c ∧ c.method ∈ i.active.rule.methods) ∧
    ((∀ active ∈ Dispatcher.activeRules rules config, ∀ method ∈ active.rule.methods,
        method ∉ suppliedMethods) →
      (Dispatcher.ofRules rules config).invocations arena = [] ∧
        ((Dispatcher.ofRules rules config).run arena).toList = []) := by
  constructor
  · intro i hi
    exact supplied_of_invocation h hcleared hi
  · intro hmethods
    have hnone := invocations_eq_nil_of_cleared h hcleared hmethods
    exact ⟨hnone, toList_run_of_invocations hnone⟩

end Cleared

/-- The tree of `a[1]`. -/
def elementAccess : Concrete :=
  ⟨"element_reference", true, none, 0, 4, 0, 0,
    [⟨"identifier", true, some "object", 0, 1, 0, 0, []⟩,
      ⟨"[", false, none, 1, 2, 0, 1, []⟩,
      ⟨"integer", true, none, 2, 3, 0, 2, []⟩,
      ⟨"]", false, none, 3, 4, 0, 3, []⟩]⟩

/-- The rules of the linter have nothing to say about `a[1]`. -/
theorem invocations_of_cleared_element : ∃ arena,
    arenaOf (fun _ => elementAccess) "a[1]".toUTF8 = .ok arena ∧
      (Prefilter.mk (Dispatcher.ofRules allRules {}).methods).mightMatch "a[1]".toUTF8 = false ∧
      (Dispatcher.ofRules allRules {}).invocations arena = [] := by
  obtain ⟨arena, harena⟩ : ∃ arena,
      arenaOf (fun _ => elementAccess) "a[1]".toUTF8 = .ok arena := ⟨_, rfl⟩
  have hcleared : (Prefilter.mk (Dispatcher.ofRules allRules {}).methods).mightMatch
      "a[1]".toUTF8 = false := by cbv
  obtain ⟨-, hnone⟩ := invocations_of_cleared harena hcleared
  exact ⟨arena, harena, hcleared, (hnone (by decide)).1⟩

/-- A rule that reports every element access. -/
def noElementAccess : Rule where
  name := "Style/NoElementAccess"
  methods := ["[]"]
  findings := fun context id =>
    match context.arena.call? id with
    | some call => [{ span := call.selector, message := "Use `fetch`." }]
    | none => []

/-- **A rule can miss a call.**  The source `a[1]` is cleared of `[]`, and yet it holds an offense
of a rule that listens for `[]`. -/
theorem exists_invocation_of_cleared : ∃ arena,
    arenaOf (fun _ => elementAccess) "a[1]".toUTF8 = .ok arena ∧
      (Prefilter.mk (Dispatcher.ofRules [noElementAccess] {}).methods).mightMatch "a[1]".toUTF8 =
        false ∧
      ((Dispatcher.ofRules [noElementAccess] {}).invocations arena).map Invocation.node = [2] ∧
      ((Dispatcher.ofRules [noElementAccess] {}).run arena).toList.map Offense.span =
        [⟨1, 4, 1, 2⟩] := by
  refine ⟨_, rfl, ?_, ?_, ?_⟩
  · cbv
  · cbv
  · cbv

end Lowering

end SpecLint
