import SpecLint.Proofs.Correspondence
import SpecLint.Proofs.Layout

/-!
# Selectors beside receivers

The selector of a call is meant to cover the name of the method only.  Where the grammar keeps the
parts of a call apart it has no byte in common with the receiver, and lies in the call, with two
exceptions: a call `a::(b)` has no name, and its operator is not taken for one, so that the whole
call stands in; and in an element access everything from the bracket on counts as the name.

* `Concrete.Laid` — what is assumed of the tree.
* `Concrete.NameApart`, `Concrete.NameFirst` — when the name of a call has a place of its own.
* `selector_places` — **where the selector of a node stands**.
* `selectors_of_arena` — **when the selectors of an arena, and so its offenses, avoid receivers**.
-/

namespace SpecLint

namespace Concrete

/-! ## Nodes with room for a name -/

/-- The tokens that stand between a receiver and what is called on it. -/
def operatorKinds : List String := [".", "&.", "::"]

/-- The call operators among the children of a node. -/
def callOperators (n : Concrete) : List Concrete :=
  n.children.filter fun d => !d.named && operatorKinds.contains d.kind

/-- Whether there is one call operator, after the receiver and before the arguments. -/
def OperatorBetween (n : Concrete) : Prop :=
  match n.callOperators with
  | [d] => (∀ r ∈ n.childByField? "receiver", r.endByte ≤ d.startByte) ∧
      ∀ a ∈ n.childByField? "arguments", d.endByte ≤ a.startByte
  | _ => False

/-- Whether a node covers some bytes, its children lie apart from each other inside of it, and a
call without a name has a call operator. -/
structure Laid (n : Concrete) : Prop where
  /-- The node is not empty. -/
  covers : n.startByte < n.endByte
  /-- The children lie in the node. -/
  inside : ∀ c ∈ n.children, n.Inside c
  /-- The children do not overlap. -/
  apart : n.children.Pairwise Apart
  /-- Without a name there is an operator. -/
  operator : n.role = .call → n.childByField? "method" = none → n.OperatorBetween

instance (n m : Concrete) : Decidable (n.Apart m) := inferInstanceAs (Decidable (_ ∨ _))

instance : DecidablePred OperatorBetween := fun n => by
  unfold OperatorBetween
  split <;> infer_instance

theorem laid_iff {n : Concrete} : n.Laid ↔ n.startByte < n.endByte ∧
    (∀ c ∈ n.children, n.Inside c) ∧ n.children.Pairwise Apart ∧
    (n.role = .call → (n.childByField? "method").isNone → n.OperatorBetween) := by
  rw [Option.isNone_iff_eq_none]
  exact ⟨fun h => ⟨h.covers, h.inside, h.apart, h.operator⟩,
    fun h => ⟨h.1, h.2.1, h.2.2.1, h.2.2.2⟩⟩

instance : DecidablePred Laid := fun _ => decidable_of_iff' _ laid_iff

/-- Whether what is called on the receiver of `p` has a name of its own: `a::(b)` has none, and the
name of an element access begins with the bracket. -/
def NameApart (p : Concrete) : Prop :=
  match p.role with
  | .call => p.childByField? "method" = none → p.token? "::" = none
  | .element => ∀ object, p.childByField? "object" = some object →
      ∃ bracket, p.token? "[" = some bracket ∧ object.endByte ≤ bracket.startByte
  | _ => True

/-- Whether the name of a call stands before its arguments. -/
def NameFirst (p : Concrete) : Prop :=
  p.role = .call → ∀ method arguments, p.childByField? "method" = some method →
    p.childByField? "arguments" = some arguments → method.endByte ≤ arguments.startByte

variable {n d : Concrete}

/-- A node with one call operator has no other one. -/
theorem token?_of_callOperators (h : n.callOperators = [d]) {text : String}
    (htext : text ∈ operatorKinds) : n.token? text = if d.kind = text then some d else none := by
  have hd : d ∈ n.callOperators := by simp [h]
  have hnamed : d.named = false := by
    simpa using (Bool.and_eq_true_iff.1 (List.mem_filter.1 hd).2).1
  have hfind : n.token? text =
      n.callOperators.find? fun c => !c.named && c.kind == text := by
    rw [callOperators, List.find?_filter, token?]
    congr 1
    funext c
    by_cases hkind : c.kind = text
    · simp [hkind, htext]
    · simp [hkind]
  rw [hfind, h]
  by_cases hkind : d.kind = text <;> simp [hkind, hnamed]

end Concrete

namespace Lowering

open Concrete

variable {source : ByteArray} {p r x : Concrete} {call : Sending} {stop : Nat}

/-! ## The selector of one node -/

section Node

variable (h : p.Everywhere Laid) (hsize : p.endByte ≤ maxSourceSize)

include h hsize

theorem bounds_of_mem (hx : x ∈ p.children) :
    p.startByte ≤ x.startByte ∧ x.startByte < x.endByte ∧ x.endByte ≤ p.endByte ∧
      x.startByte ≤ maxSourceSize ∧ x.endByte ≤ maxSourceSize := by
  obtain ⟨hlo, hhi⟩ := h.here.inside x hx
  have hcovers := (h.child hx).here.covers
  exact ⟨hlo, hcovers, hhi, by omega, by omega⟩

theorem avoids_spanOf (hx : x ∈ p.children) : (spanOf x).Avoids r ↔ x.Apart r := by
  obtain ⟨-, -, -, hstart, hend⟩ := bounds_of_mem h hsize hx
  exact avoids_spanUntil hstart hend

/-- A selector that runs up to the end of its node avoids what comes before. -/
theorem avoids_spanUntil_end (hr : r ∈ p.children) (hx : x.startByte ≤ maxSourceSize) :
    (spanUntil x p.endByte).Avoids r ↔ r.endByte ≤ x.startByte := by
  obtain ⟨-, hcovers, hend, -⟩ := bounds_of_mem h hsize hr
  rw [avoids_spanUntil hx hsize]
  exact or_iff_right (by omega)

/-- A call ends with its arguments, or else with its name or its node. -/
theorem encloses_spanOf (hx : x ∈ p.children) :
    (callSending source p).span.Encloses (spanOf x) ↔ x.endByte ≤ callEnd p := by
  obtain ⟨hlo, -, -, hstart, hend⟩ := bounds_of_mem h hsize hx
  have hstop : callEnd p ≤ p.endByte := by
    unfold callEnd
    cases hlast : (p.childByField? "arguments").or (p.childByField? "method") with
    | none => exact Nat.le_refl _
    | some last =>
        rcases Option.or_eq_some_iff.1 hlast with hlast | ⟨-, hlast⟩ <;>
          exact (h.here.inside _ (mem_children_of_childByField? hlast)).2
  refine (encloses_spanUntil (by omega) hstart (by omega) hend).trans ?_
  exact and_iff_right hlo

/-- The selector of a call with a name. -/
theorem named_places (hrole : p.role = .call) {method : Concrete}
    (hmethod : p.childByField? "method" = some method) (hr : p.childByField? "receiver" = some r) :
    (spanOf method).Avoids r ∧
      ((callSending source p).span.Encloses (spanOf method) ↔ NameFirst p) := by
  have hmem := mem_children_of_childByField? hmethod
  have hapart {x : Concrete} {field : String} (hx : p.childByField? field = some x)
      (hne : "method" ≠ field) : method.Apart x :=
    apart_of_mem h.here.apart hmem (mem_children_of_childByField? hx) (ne_of_fields hmethod hx hne)
  refine ⟨(avoids_spanOf h hsize hmem).2 (hapart hr (by decide)), ?_⟩
  rw [encloses_spanOf h hsize hmem, callEnd]
  cases harguments : p.childByField? "arguments" with
  | none => simp [NameFirst, hmethod, harguments]
  | some arguments =>
      have hfirst : NameFirst p ↔ method.endByte ≤ arguments.startByte := by
        simp [NameFirst, hrole, hmethod, harguments]
      obtain ⟨-, hmcovers, -⟩ := bounds_of_mem h hsize hmem
      obtain ⟨-, hacovers, -⟩ := bounds_of_mem h hsize (mem_children_of_childByField? harguments)
      rw [hfirst, Option.some_or, Option.getD_some]
      rcases hapart harguments (by decide) with hbefore | hafter <;> omega

omit hsize in
/-- A call without a name is called at its operator, but `::` is not taken for one. -/
theorem exists_operator (hrole : p.role = .call) (hmethod : p.childByField? "method" = none) :
    ∃ d ∈ p.children, (∀ r, p.childByField? "receiver" = some r → r.endByte ≤ d.startByte) ∧
      (∀ a, p.childByField? "arguments" = some a → d.endByte ≤ a.startByte) ∧
      (callSending source p).selector = (if p.token? "::" = none then spanOf d else spanOf p) := by
  have hoperator := h.here.operator hrole hmethod
  unfold OperatorBetween at hoperator
  split at hoperator
  · rename_i d hd
    have hmem : d ∈ p.callOperators := by simp [hd]
    obtain ⟨hchild, hkind⟩ := List.mem_filter.1 hmem
    refine ⟨d, hchild, hoperator.1, hoperator.2, ?_⟩
    have hkind : d.kind ∈ operatorKinds := by simpa using (Bool.and_eq_true_iff.1 hkind).2
    have htoken {text : String} (htext : text ∈ operatorKinds) :=
      token?_of_callOperators hd htext
    simp only [callSending, hmethod, @htoken "." (by decide), @htoken "&." (by decide),
      @htoken "::" (by decide)]
    simp only [operatorKinds, List.mem_cons, List.not_mem_nil, or_false] at hkind
    rcases hkind with hkind | hkind | hkind <;> simp [hkind]
  · exact hoperator.elim

/-- The selector of a call without a name. -/
theorem unnamed_places (hrole : p.role = .call) (hmethod : p.childByField? "method" = none)
    (hr : p.childByField? "receiver" = some r) :
    ((callSending source p).selector.Avoids r ↔ p.token? "::" = none) ∧
      (p.token? "::" = none →
        (callSending source p).span.Encloses (callSending source p).selector) := by
  obtain ⟨d, hd, hafter, hbefore, hselector⟩ := @exists_operator source _ h hrole hmethod
  rw [hselector]
  split
  · rename_i hdot
    refine ⟨iff_of_true ((avoids_spanOf h hsize hd).2 (Or.inr (hafter r hr))) hdot, fun _ => ?_⟩
    rw [encloses_spanOf h hsize hd, callEnd, hmethod]
    cases harguments : p.childByField? "arguments" with
    | none => exact (h.here.inside d hd).2
    | some arguments =>
        obtain ⟨-, hcovers, -⟩ :=
          bounds_of_mem h hsize (mem_children_of_childByField? harguments)
        exact Nat.le_trans (hbefore arguments harguments) (Nat.le_of_lt hcovers)
  · -- the whole call stands in for the name
    rename_i hcolons
    refine ⟨iff_of_false ?_ hcolons, fun hnone => absurd hnone hcolons⟩
    have hmem := mem_children_of_childByField? hr
    have hpcovers := h.here.covers
    obtain ⟨hlo, hcovers, -⟩ := bounds_of_mem h hsize hmem
    rw [spanOf, avoids_spanUntil_end h hsize hmem (by omega)]
    omega

theorem call_places (hrole : p.role = .call) (hr : p.childByField? "receiver" = some r) :
    ((callSending source p).selector.Avoids r ↔ NameApart p) ∧
      (NameApart p → ((callSending source p).span.Encloses (callSending source p).selector ↔
        NameFirst p)) := by
  cases hmethod : p.childByField? "method" with
  | some method =>
      have hselector : (callSending source p).selector = spanOf method := by
        simp [callSending, hmethod]
      have hname : NameApart p := by simp [NameApart, hrole, hmethod]
      obtain ⟨havoids, hencloses⟩ := @named_places source _ _ h hsize hrole _ hmethod hr
      rw [hselector]
      exact ⟨iff_of_true havoids hname, fun _ => hencloses⟩
  | none =>
      have hname : NameApart p ↔ p.token? "::" = none := by simp [NameApart, hrole, hmethod]
      obtain ⟨havoids, hencloses⟩ := @unnamed_places source _ _ h hsize hrole hmethod hr
      rw [hname]
      exact ⟨havoids, fun hdot => iff_of_true (hencloses hdot) (by simp [NameFirst, hmethod])⟩

/-- **Where the selector of a node stands**: it avoids the receiver if the name has a place of its
own, and then lies in the call if it stands before the arguments. -/
theorem selector_places (hcall : sending? source p = some call) (hr : call.receiver = some r) :
    (call.selector.Avoids r ↔ NameApart p) ∧
      (NameApart p → (call.span.Encloses call.selector ↔ NameFirst p)) := by
  have hcovers := h.here.covers
  by_cases hrole : p.role = .call
  · rw [sending?, if_pos hrole] at hcall
    cases hcall
    exact call_places h hsize hrole hr
  rw [sending?, if_neg hrole] at hcall
  have hfirst : NameFirst p := fun hcall => absurd hcall hrole
  have hwhole {x : Concrete} {stop : Nat} (hx : p.startByte ≤ x.startByte)
      (hx' : x.startByte ≤ p.endByte) (hstop : stop ≤ p.endByte) :
      (spanOf p).Encloses (spanUntil x stop) :=
    (encloses_spanUntil (by omega) (by omega) hsize (by omega)).2 ⟨hx, hstop⟩
  have hoperator {operator : Concrete} {field : String} (hne : "operator" ≠ field)
      (hname : p.childByField? "operator" = some operator)
      (hr : p.childByField? field = some r) :
      (spanOf operator).Avoids r ∧ (spanOf p).Encloses (spanOf operator) := by
    have hmem := mem_children_of_childByField? hname
    obtain ⟨hlo, hxcovers, hhi, -⟩ := bounds_of_mem h hsize hmem
    exact ⟨(avoids_spanOf h hsize hmem).2 (apart_of_mem h.here.apart hmem
      (mem_children_of_childByField? hr) (ne_of_fields hname hr hne)),
      hwhole hlo (by omega) hhi⟩
  cases operatorForm hcall with
  | binary hrole hleft hname =>
      cases hr
      obtain ⟨havoids, hencloses⟩ := hoperator (by decide) hname hleft
      exact ⟨iff_of_true havoids (by simp [NameApart, hrole]),
        fun _ => iff_of_true hencloses hfirst⟩
  | unary hrole hname hoperand =>
      cases hr
      obtain ⟨havoids, hencloses⟩ := hoperator (by decide) hname hoperand
      exact ⟨iff_of_true havoids (by simp [NameApart, hrole]),
        fun _ => iff_of_true hencloses hfirst⟩
  | element hrole hobject =>
      cases hr
      have hmem := mem_children_of_childByField? hobject
      simp only [NameApart, hrole, hobject, Option.some.injEq, forall_eq']
      cases hbracket : p.token? "[" with
      | none =>
          obtain ⟨hlo, hrcovers, -⟩ := bounds_of_mem h hsize hmem
          refine ⟨iff_of_false ?_ (by simp), by simp⟩
          rw [spanOf, avoids_spanUntil_end h hsize hmem (by omega)]
          omega
      | some bracket =>
          obtain ⟨hlo, hxcovers, hhi, hstart, -⟩ :=
            bounds_of_mem h hsize (token_of_token? hbracket).1
          refine ⟨?_, fun _ => iff_of_true (hwhole hlo (by omega) (Nat.le_refl _)) hfirst⟩
          simpa using avoids_spanUntil_end h hsize hmem hstart

end Node

/-! ## The selectors of an arena -/

/-- Whether the call `c` of an arena is pushed for the node `p`, and called on what is lowered from
the node `r`. -/
def SentFrom (grammar : Grammar) (source : ByteArray) (c : Call) (p r : Concrete) : Prop :=
  ∃ before after call arguments, courseOf grammar source = before ++ .enter p :: after ∧
    sending? source p = some call ∧ call.receiver = some r ∧
    c = pushedCall source (replay source ⟨{}, []⟩ (before ++ [.enter p])) call arguments

/-- **Every call on a receiver is pushed for a node**, whose extent and selector it has. -/
theorem exists_sentFrom {grammar : Grammar} {arena : Arena} {id : NodeId} {c : Call} {span : Span}
    {t : NodeId} (h : arenaOf grammar source = .ok arena)
    (hsend : arena.form? id = some (.send c, span)) (ht : c.receiver = some t) :
    ∃ p r call, SentFrom grammar source c p r ∧ Reached source (grammar source) p ∧
      sending? source p = some call ∧ call.receiver = some r ∧ c.selector = call.selector ∧
      span = call.span := by
  cases hsource : source.isEmpty with
  | true =>
      obtain rfl := arenaOf_of_isEmpty hsource h
      exact absurd (Arena.lt_size_of_form? hsend) (Nat.not_lt_zero id)
  | false =>
      obtain ⟨-, -, -, hform⟩ := forest_arenaOf hsource h
      rw [hform] at hsend
      obtain ⟨before, p, after, hvisit, ⟨call, hcall, rfl⟩ | ⟨hrole, rfl⟩⟩ :=
        exists_visit_of_send hsend
      · obtain ⟨arguments, -, hpushed⟩ := send_of_visit hvisit hcall
        rw [hsend] at hpushed
        obtain ⟨hshape, rfl⟩ := Prod.mk.inj (Option.some.inj hpushed)
        obtain rfl := Shape.send.inj hshape
        obtain ⟨r, hr, -⟩ := Option.bind_eq_some_iff.1 ht
        refine ⟨p, r, call, ⟨before, after, call, arguments, ?_, hcall, hr, rfl⟩,
          enter_mem_course.1 (by simp [hvisit]), hcall, hr, rfl, rfl⟩
        rw [courseOf_eq hsource, hvisit]
      · -- a name is called on nothing
        have hread := read_of_visit hvisit hrole
        rw [hsend, readShape] at hread
        split at hread
        · simp at hread
        · obtain rfl := Shape.send.inj (Prod.mk.inj (Option.some.inj hread)).1
          cases ht

/-- What is reported for an arena is a misuse. -/
theorem exists_misuse_of_mem_run {a : Arena} {config : Config} {o : Offense}
    (ho : o ∈ ((Dispatcher.ofRules allRules config).run a).toList) :
    ∃ id c, a.misuse? config.runners id = some c ∧ o.span = c.selector := by
  obtain ⟨active, hactive, id, -, -, -, -, hfinding⟩ :=
    Dispatcher.exists_span_run.1 ⟨o, ho, rfl⟩
  have hrule : active.rule = expectationTarget :=
    List.mem_singleton.1 (Dispatcher.mem_activeRules.1 hactive).1
  rw [hrule] at hfinding
  obtain ⟨hexpect, c, hoffends, hselector⟩ := exists_finding.1 hfinding
  exact ⟨id, c, Arena.misuse?_eq_some.2 ⟨hexpect, hoffends⟩, hselector.symm⟩

/-- **When the selectors of an arena avoid receivers**: that of a call does if the name of the call
has a place of its own, and it then lies in the call if it stands before the arguments.  So an
offense avoids the expectation that it is about if the name does. -/
theorem selectors_of_arena {grammar : Grammar} {arena : Arena}
    (hlaid : (grammar source).Everywhere Laid) (hend : (grammar source).endByte ≤ source.size)
    (h : arenaOf grammar source = .ok arena) :
    (∀ id c span t, arena.form? id = some (.send c, span) → c.receiver = some t →
      ∃ p r, SentFrom grammar source c p r ∧ (c.selector.Avoids r ↔ NameApart p) ∧
        (NameApart p → (span.Encloses c.selector ↔ NameFirst p))) ∧
    ∀ config, ∀ o ∈ ((Dispatcher.ofRules allRules config).run arena).toList,
      ∃ id c p r, arena.isExpectation id = true ∧ c.receiver = some (arena.chainedOnto id) ∧
        SentFrom grammar source c p r ∧ o.span = c.selector ∧
        (o.span.Avoids r ↔ NameApart p) := by
  have hcalls : ∀ id c span t, arena.form? id = some (.send c, span) → c.receiver = some t →
      ∃ p r, SentFrom grammar source c p r ∧ (c.selector.Avoids r ↔ NameApart p) ∧
        (NameApart p → (span.Encloses c.selector ↔ NameFirst p)) := by
    intro id c span t hsend ht
    obtain ⟨p, r, call, hsent, hreached, hcall, hr, hselector, rfl⟩ := exists_sentFrom h hsend ht
    have hinside := inside_of_reached hlaid (fun n hn => hn.inside) hreached
    rw [hselector]
    exact ⟨p, r, hsent, selector_places (everywhere_of_reached hlaid hreached)
      (Nat.le_trans hinside.2 (Nat.le_trans hend (size_le_of_arenaOf h))) hcall hr⟩
  refine ⟨hcalls, fun config o ho => ?_⟩
  obtain ⟨id, c, hmisuse, hspan⟩ := exists_misuse_of_mem_run ho
  obtain ⟨hexpect, hoffends⟩ := Arena.misuse?_eq_some.1 hmisuse
  obtain ⟨q, -, hq, -, hreceiver, -⟩ := Arena.offendingCall?_eq_some.1 hoffends
  obtain ⟨span, hsend⟩ := Arena.call?_eq_some.1 hq
  obtain ⟨p, r, hsent, havoids, -⟩ := hcalls q c span _ hsend hreceiver
  rw [hspan]
  exact ⟨id, c, p, r, hexpect, hreceiver, hsent, rfl, havoids⟩

/-! ## Calls without a name -/

/-- The tree of `expect(x)`, as the receiver of a call. -/
def expectName : Concrete :=
  ⟨"call", true, some "receiver", 0, 9, 0, 0,
    [⟨"identifier", true, some "method", 0, 6, 0, 0, []⟩,
      ⟨"argument_list", true, some "arguments", 6, 9, 0, 6,
        [⟨"(", false, none, 6, 7, 0, 6, []⟩, ⟨"identifier", true, none, 7, 8, 0, 7, []⟩,
          ⟨")", false, none, 8, 9, 0, 8, []⟩]⟩]⟩

/-- The tree of `expect(x)` with an operator of `width` bytes and an empty argument list. -/
def emptyCall (operator : String) (width : Nat) : Concrete :=
  ⟨"call", true, none, 0, 11 + width, 0, 0,
    [expectName, ⟨operator, false, some "operator", 9, 9 + width, 0, 9, []⟩,
      ⟨"argument_list", true, some "arguments", 9 + width, 11 + width, 0, 9 + width,
        [⟨"(", false, none, 9 + width, 10 + width, 0, 9 + width, []⟩,
          ⟨")", false, none, 10 + width, 11 + width, 0, 10 + width, []⟩]⟩]⟩

/-- The only call on a receiver is the outer one. -/
theorem eq_of_sentFrom_emptyCall {operator : String} {width : Nat} {c : Call}
    (h : SentFrom (fun _ => emptyCall operator width) source c p r) :
    p = emptyCall operator width ∧ r = expectName := by
  obtain ⟨before, after, call, arguments, hvisit, hcall, hr, -⟩ := h
  rw [courseOf_eq (isEmpty_of_courseOf hvisit)] at hvisit
  have hreached : Reached source (emptyCall operator width) p :=
    enter_mem_course.1 (by simp [hvisit])
  rcases reached_iff.1 hreached with rfl | ⟨q, hq, hreached⟩
  · cases hcall
    cases hr
    exact ⟨rfl, rfl⟩
  · obtain rfl := List.mem_singleton.1 (show q ∈ [expectName] from hq)
    rcases reached_iff.1 hreached with rfl | ⟨q, hq, hreached⟩
    · cases hcall
      cases hr
    · obtain rfl := List.mem_singleton.1
        (show q ∈ [⟨"identifier", true, none, 7, 8, 0, 7, []⟩] from hq)
      rcases reached_iff.1 hreached with rfl | ⟨q, hq, -⟩
      · cases hcall
      · cases hq

/-- The offense of `expect(x).()` stands at the dot, apart from the expectation. -/
theorem selectors_of_arena_dot : ∃ arena, ∃ o ∈ ((Dispatcher.ofRules allRules {}).run arena).toList,
    arenaOf (fun _ => emptyCall "." 1) "expect(x).()".toUTF8 = .ok arena ∧
      o.span = ⟨9, 10, 1, 10⟩ ∧ o.span.Avoids expectName := by
  obtain ⟨arena, harena, hspans⟩ : ∃ arena,
      arenaOf (fun _ => emptyCall "." 1) "expect(x).()".toUTF8 = .ok arena ∧
        ((Dispatcher.ofRules allRules {}).run arena).toList.map Offense.span = [⟨9, 10, 1, 10⟩] :=
    ⟨_, rfl, by decide +kernel⟩
  obtain ⟨o, ho, hspan⟩ := List.mem_map.1 (show ⟨9, 10, 1, 10⟩ ∈
    ((Dispatcher.ofRules allRules {}).run arena).toList.map Offense.span by simp [hspans])
  obtain ⟨-, hoffenses⟩ := selectors_of_arena (by decide) (by decide) harena
  obtain ⟨-, c, p, r, -, -, hsent, -, havoids⟩ := hoffenses {} o ho
  obtain ⟨rfl, rfl⟩ := eq_of_sentFrom_emptyCall hsent
  exact ⟨arena, o, ho, harena, hspan, havoids.2 fun _ => rfl⟩

/-- The selector of `expect(x)::()` is the whole call, although there is room for the name at the
operator: it is reported over the expectation. -/
theorem exists_selector_over_receiver : ∃ arena c span,
    (emptyCall "::" 2).Everywhere Laid ∧
      (emptyCall "::" 2).endByte ≤ "expect(x)::()".toUTF8.size ∧
      arenaOf (fun _ => emptyCall "::" 2) "expect(x)::()".toUTF8 = .ok arena ∧
      arena.form? 2 = some (.send c, span) ∧ c.receiver = some 1 ∧
      SentFrom (fun _ => emptyCall "::" 2) "expect(x)::()".toUTF8 c (emptyCall "::" 2) expectName ∧
      ¬ c.selector.Avoids expectName ∧
      ∃ o ∈ ((Dispatcher.ofRules allRules {}).run arena).toList, o.span = c.selector := by
  obtain ⟨arena, c, span, harena, hsend, hreceiver, hselector, hspans⟩ : ∃ arena c span,
      arenaOf (fun _ => emptyCall "::" 2) "expect(x)::()".toUTF8 = .ok arena ∧
        arena.form? 2 = some (.send c, span) ∧ c.receiver = some 1 ∧
        c.selector = ⟨0, 13, 1, 1⟩ ∧
        ((Dispatcher.ofRules allRules {}).run arena).toList.map Offense.span = [⟨0, 13, 1, 1⟩] :=
    ⟨_, _, _, rfl, rfl, rfl, rfl, by decide +kernel⟩
  obtain ⟨p, r, -, hsent, -⟩ := exists_sentFrom harena hsend hreceiver
  obtain ⟨rfl, rfl⟩ := eq_of_sentFrom_emptyCall hsent
  refine ⟨arena, c, span, by decide, by decide, harena, hsend, hreceiver, hsent, ?_, ?_⟩
  · rw [hselector]
    simp [Span.Avoids, expectName]
  · rw [hselector]
    exact List.mem_map.1 (by simp [hspans])

end Lowering

end SpecLint
