import SpecLint.Proofs.Coverage

/-!
# The extents of the nodes that are lowered

In the tree of a source every node covers some bytes, children lie inside of their parent, and
siblings do not overlap.  So do the nodes that lowering enters, which skips some levels of the tree:
of two of them one is lowered from the other, or they stand apart.

* `Concrete.Everywhere` — a property of every node of a tree.
* `Concrete.WellNested` — what is assumed of the tree.
* `pairwise_loweredFrom` — the nodes that are lowered from one node stand apart.
* `pairwise_entered` — **of two nodes that are entered, the later one is lowered from the earlier
  one, or they stand apart**.
-/

namespace SpecLint

namespace Concrete

/-! ## Properties of all nodes -/

/-- Whether `P` holds of a node and of all nodes below it. -/
inductive Everywhere (P : Concrete → Prop) : Concrete → Prop where
  /-- A node and its subtrees. -/
  | node {n : Concrete} (holds : P n) (below : ∀ c ∈ n.children, Everywhere P c) : Everywhere P n

namespace Everywhere

variable {P : Concrete → Prop} {n c : Concrete}

theorem here (h : n.Everywhere P) : P n := by
  cases h
  assumption

theorem child (h : n.Everywhere P) (hc : c ∈ n.children) : c.Everywhere P := by
  cases h with
  | node _ below => exact below c hc

theorem iff_children : n.Everywhere P ↔ P n ∧ ∀ c ∈ n.children, c.Everywhere P :=
  ⟨fun h => ⟨h.here, fun _ => h.child⟩, fun h => .node h.1 h.2⟩

mutual

/-- Decides a property of all nodes of a tree by asking for it at each of them. -/
def decideTree (P : Concrete → Prop) [DecidablePred P] :
    (n : Concrete) → Decidable (n.Everywhere P)
  | ⟨kind, named, field, startByte, endByte, row, column, children⟩ =>
      have := decideTrees P children
      decidable_of_iff' (P ⟨kind, named, field, startByte, endByte, row, column, children⟩ ∧
        ∀ c ∈ children, c.Everywhere P) iff_children

/-- Decides a property of all nodes of some trees. -/
def decideTrees (P : Concrete → Prop) [DecidablePred P] :
    (children : List Concrete) → Decidable (∀ c ∈ children, c.Everywhere P)
  | [] => .isTrue (by simp)
  | c :: children =>
      have := decideTree P c
      have := decideTrees P children
      decidable_of_iff' (c.Everywhere P ∧ ∀ d ∈ children, d.Everywhere P) List.forall_mem_cons

end

instance [DecidablePred P] : DecidablePred (Everywhere P) := decideTree P

end Everywhere

/-! ## Places of nodes -/

/-- Two nodes that have no byte in common. -/
def Apart (n m : Concrete) : Prop := n.endByte ≤ m.startByte ∨ m.endByte ≤ n.startByte

instance (n m : Concrete) : Decidable (n.Apart m) := inferInstanceAs (Decidable (_ ∨ _))

theorem Apart.symm {n m : Concrete} (h : n.Apart m) : m.Apart n := Or.symm h

/-- Of two different members of a list one comes before the other. -/
theorem related_of_mem {R : Concrete → Concrete → Prop} {children : List Concrete}
    (h : children.Pairwise R) {c d : Concrete} (hc : c ∈ children) (hd : d ∈ children)
    (hne : c ≠ d) : R c d ∨ R d c := by
  induction h with
  | nil => simp at hc
  | cons hfirst _ ih =>
      rcases List.mem_cons.1 hc with rfl | hc' <;> rcases List.mem_cons.1 hd with rfl | hd'
      · exact absurd rfl hne
      · exact Or.inl (hfirst d hd')
      · exact Or.inr (hfirst c hc')
      · exact ih hc' hd'

/-- Two different members of a list of nodes that stand apart. -/
theorem apart_of_mem {children : List Concrete} (h : children.Pairwise Apart) {c d : Concrete}
    (hc : c ∈ children) (hd : d ∈ children) (hne : c ≠ d) : c.Apart d :=
  (related_of_mem h hc hd hne).elim id Apart.symm

/-- `c` lies inside of `n`. -/
def Inside (n c : Concrete) : Prop := n.startByte ≤ c.startByte ∧ c.endByte ≤ n.endByte

instance (n c : Concrete) : Decidable (n.Inside c) := inferInstanceAs (Decidable (_ ∧ _))

theorem Inside.trans {n c d : Concrete} (h : n.Inside c) (hd : c.Inside d) : n.Inside d :=
  ⟨Nat.le_trans h.1 hd.1, Nat.le_trans hd.2 h.2⟩

theorem Apart.of_inside {n m c d : Concrete} (h : n.Apart m) (hc : n.Inside c) (hd : m.Inside d) :
    c.Apart d :=
  h.imp (fun h => Nat.le_trans hc.2 (Nat.le_trans h hd.1))
    (fun h => Nat.le_trans hd.2 (Nat.le_trans h hc.1))

/-- Whether a node covers some bytes and its children lie inside of it without overlapping. -/
structure Nests (n : Concrete) : Prop where
  /-- The node is not empty. -/
  covers : n.startByte < n.endByte
  /-- The children lie in the node. -/
  inside : ∀ c ∈ n.children, n.Inside c
  /-- The children stand apart. -/
  pairwise : n.children.Pairwise Apart

theorem nests_iff {n : Concrete} : n.Nests ↔ n.startByte < n.endByte ∧
    (∀ c ∈ n.children, n.Inside c) ∧ n.children.Pairwise Apart :=
  ⟨fun h => ⟨h.covers, h.inside, h.pairwise⟩, fun h => ⟨h.1, h.2.1, h.2.2⟩⟩

instance : DecidablePred Nests := fun _ => decidable_of_iff' _ nests_iff

/-- A tree in which every node covers some bytes, children lie inside of their parent and siblings
do not overlap. -/
def WellNested (n : Concrete) : Prop := n.Everywhere Nests

instance : DecidablePred WellNested := inferInstanceAs (DecidablePred (Everywhere Nests))

namespace WellNested

variable {n c d : Concrete}

theorem covers (h : n.WellNested) : n.startByte < n.endByte := h.here.covers

theorem inside (h : n.WellNested) (hc : c ∈ n.children) : n.Inside c := h.here.inside c hc

theorem pairwise (h : n.WellNested) : n.children.Pairwise Apart := h.here.pairwise

theorem child (h : n.WellNested) (hc : c ∈ n.children) : c.WellNested := Everywhere.child h hc

/-- Two different children stand apart. -/
theorem apart (h : n.WellNested) (hc : c ∈ n.children) (hd : d ∈ n.children) (hne : c ≠ d) :
    c.Apart d :=
  apart_of_mem h.pairwise hc hd hne

end WellNested

/-- A child in a field. -/
theorem field_of_childByField? {n c : Concrete} {field : String}
    (h : n.childByField? field = some c) : c.field = some field := by
  simpa using List.find?_some h

/-- A child stands in one field only. -/
theorem ne_of_fields {n c d : Concrete} {field field' : String}
    (hc : n.childByField? field = some c) (hd : n.childByField? field' = some d)
    (hne : field ≠ field') : c ≠ d := by
  rintro rfl
  exact hne (Option.some.inj ((field_of_childByField? hc).symm.trans (field_of_childByField? hd)))

/-- Children in different fields stand apart. -/
theorem WellNested.apart_of_fields {n c d : Concrete} (h : n.WellNested) {field field' : String}
    (hc : n.childByField? field = some c) (hd : n.childByField? field' = some d)
    (hne : field ≠ field') : c.Apart d :=
  h.apart (mem_children_of_childByField? hc) (mem_children_of_childByField? hd)
    (ne_of_fields hc hd hne)

theorem WellNested.pairwise_parts {n : Concrete} (h : n.WellNested) (skipped : List String) :
    (n.parts skipped).Pairwise Apart :=
  h.pairwise.filter _

end Concrete

namespace Lowering

open Concrete

variable {source : ByteArray} {n c p q root : Concrete} {P : Concrete → Prop}

/-! ## What is lowered from one node -/

theorem everywhere_of_mem_loweredFrom (h : n.Everywhere P) (hc : c ∈ loweredFrom source n) :
    c.Everywhere P := by
  rcases mem_children_of_mem_agenda (lower_mem_agenda.2 hc) with hc | ⟨between, hbetween, hc⟩
  · exact h.child hc
  · exact (h.child hbetween).child hc

theorem everywhere_of_reached (h : root.Everywhere P) (hp : Reached source root p) :
    p.Everywhere P := by
  induction hp with
  | root => exact h
  | lowered _ hc ih => exact everywhere_of_mem_loweredFrom ih hc

/-- What is lowered for a node lies in it, where children lie in their parents. -/
theorem inside_of_mem_loweredFrom (h : n.Everywhere P)
    (hinside : ∀ n, P n → ∀ c ∈ n.children, n.Inside c) (hc : c ∈ loweredFrom source n) :
    n.Inside c := by
  rcases mem_children_of_mem_agenda (lower_mem_agenda.2 hc) with hc | ⟨between, hbetween, hc⟩
  · exact hinside n h.here c hc
  · exact (hinside n h.here between hbetween).trans
      (hinside between (h.child hbetween).here c hc)

theorem inside_of_reached (h : root.Everywhere P)
    (hinside : ∀ n, P n → ∀ c ∈ n.children, n.Inside c) (hp : Reached source root p) :
    root.Inside p := by
  induction hp with
  | root => exact ⟨Nat.le_refl _, Nat.le_refl _⟩
  | lowered hn hc ih =>
      exact ih.trans (inside_of_mem_loweredFrom (everywhere_of_reached h hn) hinside hc)

theorem wellNested_of_mem_loweredFrom (h : n.WellNested) (hc : c ∈ loweredFrom source n) :
    c.WellNested ∧ n.Inside c :=
  ⟨everywhere_of_mem_loweredFrom h hc, inside_of_mem_loweredFrom h (fun _ hn => hn.inside) hc⟩

theorem wellNested_of_reached (h : n.WellNested) (hp : Reached source n p) :
    p.WellNested ∧ n.Inside p :=
  ⟨everywhere_of_reached h hp, inside_of_reached h (fun _ hn => hn.inside) hp⟩

theorem mem_callArguments : c ∈ callArguments n ↔
    ∃ arguments, n.childByField? "arguments" = some arguments ∧ c ∈ arguments.parts [] := by
  unfold callArguments
  cases n.childByField? "arguments" <;> simp

theorem pairwise_callArguments (h : n.WellNested) : (callArguments n).Pairwise Apart := by
  unfold callArguments
  split
  · rename_i arguments harguments
    exact (h.child (mem_children_of_childByField? harguments)).pairwise_parts []
  · exact List.Pairwise.nil

theorem pairwise_blockItems (h : n.WellNested) : (blockItems n).Pairwise Apart := by
  unfold blockItems
  split
  · exact List.pairwise_singleton _ _
  · exact h.pairwise_parts _

/-- What is lowered from a child in one field stands apart from what is lowered from a child in
another one. -/
theorem apart_of_fields {d m m' : Concrete} {field field' : String} (h : n.WellNested)
    (hm : n.childByField? field = some m) (hm' : n.childByField? field' = some m')
    (hne : field ≠ field') (hc : m.Inside c) (hd : m'.Inside d) : c.Apart d :=
  (h.apart_of_fields hm hm' hne).of_inside hc hd

/-- What is lowered from a call. -/
theorem mem_loweredFrom_call (hc : c ∈ (callSending source n).operands ++
      (n.childByField? "block").toList.flatMap blockItems) :
    n.childByField? "receiver" = some c ∨
      (∃ arguments, n.childByField? "arguments" = some arguments ∧ c ∈ arguments.children) ∨
      ∃ block, n.childByField? "block" = some block ∧ c ∈ block.children := by
  have hoperands : (callSending source n).operands =
      (n.childByField? "receiver").toList ++ callArguments n := rfl
  rw [hoperands] at hc
  rcases List.mem_append.1 hc with hc | hc
  · rcases List.mem_append.1 hc with hc | hc
    · exact Or.inl (Option.mem_toList.1 hc)
    · obtain ⟨arguments, harguments, hc⟩ := mem_callArguments.1 hc
      exact Or.inr (Or.inl ⟨arguments, harguments, mem_children_of_mem_parts hc⟩)
  · obtain ⟨block, hblock, hc⟩ := List.mem_flatMap.1 hc
    exact Or.inr (Or.inr ⟨block, Option.mem_toList.1 hblock, mem_blockItems hc⟩)

theorem pairwise_call (h : n.WellNested) : ((callSending source n).operands ++
    (n.childByField? "block").toList.flatMap blockItems).Pairwise Apart := by
  have hoperands : (callSending source n).operands =
      (n.childByField? "receiver").toList ++ callArguments n := rfl
  have hself (m : Concrete) : m.Inside m := ⟨Nat.le_refl _, Nat.le_refl _⟩
  have hbelow {field : String} {m d : Concrete} (hm : n.childByField? field = some m)
      (hd : d ∈ m.children) : m.Inside d :=
    (h.child (mem_children_of_childByField? hm)).inside hd
  rw [hoperands, List.pairwise_append, List.pairwise_append]
  refine ⟨⟨?_, pairwise_callArguments h, ?_⟩, ?_, ?_⟩
  · cases n.childByField? "receiver" <;> simp
  · intro r hr a ha
    obtain ⟨arguments, harguments, ha⟩ := mem_callArguments.1 ha
    exact apart_of_fields h (Option.mem_toList.1 hr) harguments (by decide) (hself r)
      (hbelow harguments (mem_children_of_mem_parts ha))
  · cases hblock : n.childByField? "block" with
    | none => exact List.Pairwise.nil
    | some block =>
        rw [Option.toList_some, List.flatMap_singleton]
        exact pairwise_blockItems (h.child (mem_children_of_childByField? hblock))
  · intro c hc d hd
    obtain ⟨block, hblock, hd⟩ := List.mem_flatMap.1 hd
    have hinside := hbelow (Option.mem_toList.1 hblock) (mem_blockItems hd)
    rcases List.mem_append.1 hc with hr | ha
    · exact apart_of_fields h (Option.mem_toList.1 hr) (Option.mem_toList.1 hblock) (by decide)
        (hself c) hinside
    · obtain ⟨arguments, harguments, ha⟩ := mem_callArguments.1 ha
      exact apart_of_fields h harguments (Option.mem_toList.1 hblock) (by decide)
        (hbelow harguments (mem_children_of_mem_parts ha)) hinside

/-- A part does not stand in a skipped field. -/
theorem ne_of_mem_parts {object part : Concrete} {field : String}
    (hobject : n.childByField? field = some object) (hpart : part ∈ n.parts [field]) :
    object ≠ part := by
  rintro rfl
  have hskipped := (List.mem_filter.1 hpart).2
  simp [field_of_childByField? hobject] at hskipped

theorem pairwise_operator {call : Sending} (hcall : operatorSending? source n = some call)
    (h : n.WellNested) : call.operands.Pairwise Apart := by
  cases operatorForm hcall with
  | binary _ hleft _ hright =>
      simpa [Sending.operands] using h.apart_of_fields hleft hright (by decide)
  | unary => simp [Sending.operands]
  | element _ hobject =>
      refine List.pairwise_cons.2 ⟨fun part hpart => ?_, h.pairwise_parts _⟩
      exact h.apart (mem_children_of_childByField? hobject) (mem_children_of_mem_parts hpart)
        (ne_of_mem_parts hobject hpart)

/-- **The nodes that are lowered from one node stand apart.** -/
theorem pairwise_loweredFrom (h : n.WellNested) : (loweredFrom source n).Pairwise Apart := by
  unfold loweredFrom
  split
  · exact pairwise_call h
  · exact List.Pairwise.nil
  · exact List.Pairwise.nil
  all_goals first
    | exact h.pairwise_parts _
    | (split
       · rename_i call hcall
         exact pairwise_operator hcall h
       · exact h.pairwise_parts _)

theorem apart_of_mem_loweredFrom {d : Concrete} (h : n.WellNested) (hc : c ∈ loweredFrom source n)
    (hd : d ∈ loweredFrom source n) (hne : c ≠ d) : c.Apart d :=
  apart_of_mem (pairwise_loweredFrom h) hc hd hne

/-! ## The nodes that are entered -/

/-- The node that an event enters. -/
def Event.entered? : Event → Option Concrete
  | .enter n => some n
  | _ => none

/-- The nodes that some events enter, in order. -/
def entered (events : List Event) : List Concrete := events.filterMap Event.entered?

/-- The node that a step lowers. -/
def Step.lowered? : Step → Option Concrete
  | .lower n => some n
  | .event _ => none

theorem entered_stepsCourse {steps : List Step} (h : ∀ p, .event (.enter p) ∉ steps) :
    entered (stepsCourse source steps) =
      (steps.filterMap Step.lowered?).flatMap fun c => entered (course source c) := by
  induction steps with
  | nil => rfl
  | cons step steps ih =>
      have hrest := ih fun p hp => h p (List.mem_cons_of_mem _ hp)
      rw [stepsCourse_cons, entered, List.filterMap_append]
      cases step with
      | lower c =>
          exact congrArg (entered (course source c) ++ ·) hrest
      | event e =>
          have hnone : e.entered? = none := by
            cases e with
            | enter p => exact absurd List.mem_cons_self (h p)
            | opened | closed | bound | read | pushed | wrapped => rfl
          rw [stepCourse, List.filterMap_cons_none hnone]
          exact hrest

@[simp] theorem lowered_overSteps (items : List Concrete) (head : Head) (span : Span) :
    (overSteps items head span).filterMap Step.lowered? = items := by
  simp [overSteps, List.filterMap_map, Function.comp_def, Step.lowered?]

@[simp] theorem lowered_events (events : List Event) :
    (events.map Step.event).filterMap Step.lowered? = [] := by
  simp [List.filterMap_map, Function.comp_def, Step.lowered?]

theorem lowered_blockSteps (n : Concrete) : (blockSteps n).filterMap Step.lowered? =
    (n.childByField? "block").toList.flatMap blockItems := by
  unfold blockSteps
  cases n.childByField? "block" with
  | none => rfl
  | some block =>
      have hbody : (blockBodySteps block).filterMap Step.lowered? = blockItems block := by
        unfold blockBodySteps
        split
        · exact lowered_overSteps _ _ _
        · simp [List.filterMap_map, Function.comp_def, Step.lowered?]
      simp [attachedSteps, hbody, List.filterMap_cons, Step.lowered?]

/-- The nodes on an agenda are those that are lowered, in order. -/
theorem lowered_agenda (source : ByteArray) (n : Concrete) :
    (agenda source n).filterMap Step.lowered? = loweredFrom source n := by
  unfold agenda loweredFrom
  cases n.role with
  | call =>
      rw [List.filterMap_append, lowered_blockSteps, Sending.steps, lowered_overSteps]
  | binary | unary | element =>
      dsimp only
      cases operatorSending? source n <;> exact lowered_overSteps _ _ _
  | identifier => rfl
  | assignment =>
      dsimp only
      rw [List.filterMap_append, ← List.map_map, lowered_events, plainSteps, lowered_overSteps]
      rfl
  | closure | definition => simp [scopedSteps, plainSteps, List.filterMap_cons, Step.lowered?]
  | sequence | plain => exact lowered_overSteps _ _ _
  | parameterList => exact lowered_events _

theorem entered_course (source : ByteArray) (n : Concrete) : entered (course source n) =
    n :: (loweredFrom source n).flatMap fun c => entered (course source c) := by
  rw [course_eq, ← lowered_agenda, ← entered_stepsCourse fun p => not_enter_of_mem_agenda]
  rfl

theorem mem_entered : p ∈ entered (course source n) ↔ Reached source n p := by
  rw [← enter_mem_course, entered, List.mem_filterMap]
  constructor
  · rintro ⟨e, he, hp⟩
    cases e with
    | enter q =>
        obtain rfl := Option.some.inj hp
        exact he
    | opened | closed | bound | read | pushed | wrapped => cases hp
  · exact fun h => ⟨_, h, rfl⟩

/-- **Of two nodes that are entered, the later one is lowered from the earlier one, or they stand
apart.** -/
theorem pairwise_entered (h : n.WellNested) :
    (entered (course source n)).Pairwise fun p q => Below source p q ∨ p.Apart q := by
  induction n using lowered_induction source with
  | step n ih =>
      rw [entered_course, List.pairwise_cons, List.pairwise_flatMap]
      refine ⟨fun q hq => ?_, fun c hc => ?_, ?_⟩
      · obtain ⟨c, hc, hq⟩ := List.mem_flatMap.1 hq
        exact Or.inl ⟨c, hc, mem_entered.1 hq⟩
      · exact ih c (lower_mem_agenda.2 hc) (wellNested_of_mem_loweredFrom h hc).1
      · refine (@pairwise_loweredFrom source _ h).imp_of_mem
          fun {c d} hc hd hapart p hp q hq => Or.inr ?_
        have hc := (wellNested_of_mem_loweredFrom h hc).1
        have hd := (wellNested_of_mem_loweredFrom h hd).1
        exact hapart.of_inside (wellNested_of_reached hc (mem_entered.1 hp)).2
          (wellNested_of_reached hd (mem_entered.1 hq)).2

/-- Of two visits in a course the one that comes first is of a node from which the other is
lowered, or the two nodes stand apart. -/
theorem below_or_apart (h : n.WellNested) {before between after : List Event}
    (hvisits : course source n = before ++ .enter p :: (between ++ .enter q :: after)) :
    Below source p q ∨ p.Apart q := by
  have hentered : entered (course source n) =
      entered before ++ p :: (entered between ++ q :: entered after) := by
    rw [hvisits]
    simp [entered, Event.entered?]
  have hpairwise := @pairwise_entered source _ h
  rw [hentered, List.pairwise_append, List.pairwise_cons] at hpairwise
  exact hpairwise.2.1.1 q (by simp)

/-- Two visits are one, or one of the two nodes is lowered from the other, or they stand apart. -/
theorem visits_cases (h : n.WellNested) {before before' after after' : List Event}
    (hp : course source n = before ++ .enter p :: after)
    (hq : course source n = before' ++ .enter q :: after') :
    before = before' ∧ p = q ∨ Below source p q ∨ Below source q p ∨ p.Apart q := by
  rcases List.append_eq_append_iff.1 (hp.symm.trans hq) with ⟨more, rfl, hmore⟩ | ⟨more, rfl, hmore⟩
  · cases more with
    | nil =>
        obtain ⟨heq, -⟩ := List.cons.inj hmore
        exact Or.inl ⟨(List.append_nil _).symm, Event.enter.inj heq⟩
    | cons e more =>
        obtain ⟨-, rfl⟩ := List.cons.inj hmore
        exact Or.inr ((below_or_apart h hp).imp_right Or.inr)
  · cases more with
    | nil =>
        obtain ⟨heq, -⟩ := List.cons.inj hmore
        exact Or.inl ⟨List.append_nil _, (Event.enter.inj heq).symm⟩
    | cons e more =>
        obtain ⟨-, rfl⟩ := List.cons.inj hmore
        rcases below_or_apart h hq with hbelow | hapart
        · exact Or.inr (Or.inr (Or.inl hbelow))
        · exact Or.inr (Or.inr (Or.inr hapart.symm))

end Lowering

end SpecLint
