import SpecLint.Proofs.Replay

/-!
# A course depends on the texts of its nodes only

Of a source a course reads nothing but the texts of the nodes in the tree.  Two sources that agree
on these have the same course and the same replay of it, whatever else they hold.

* `Concrete.Within` — the nodes of a tree.
* `SameTexts` — two sources that agree on the texts of a tree.
* `course_congr`, `replay_course_congr` — the course and its replay are the same.
-/

namespace SpecLint

/-- The nodes of the tree of `n`. -/
inductive Concrete.Within (n : Concrete) : Concrete → Prop where
  /-- The node itself. -/
  | self : Within n n
  /-- A child of a node of the tree. -/
  | child {p c : Concrete} (outer : Within n p) (hc : c ∈ p.children) : Within n c

theorem Concrete.Within.trans {n p q : Concrete} (h : n.Within p) (hq : p.Within q) :
    n.Within q := by
  induction hq with
  | self => exact h
  | child _ hc ih => exact ih.child hc

namespace Lowering

variable {source source' : ByteArray} {n : Concrete}

/-- Whether two sources hold the same texts for the nodes of `n`. -/
def SameTexts (source source' : ByteArray) (n : Concrete) : Prop :=
  ∀ p, n.Within p → p.text? source = p.text? source'

theorem SameTexts.of_within {p : Concrete} (h : SameTexts source source' n) (hp : n.Within p) :
    SameTexts source source' p :=
  fun q hq => h q (hp.trans hq)

theorem SameTexts.nameOf_eq (h : SameTexts source source' n) {p : Concrete} (hp : n.Within p) :
    nameOf source p = nameOf source' p := by
  rw [nameOf, nameOf, h p hp]

/-! ## The course -/

theorem callSending_congr (h : SameTexts source source' n) :
    callSending source n = callSending source' n := by
  unfold callSending
  cases hmethod : n.childByField? "method" with
  | none => rfl
  | some method =>
      have hname := h.nameOf_eq (.child .self (Concrete.mem_children_of_childByField? hmethod))
      simp only [hname]

theorem operatorSending?_congr (h : SameTexts source source' n) :
    operatorSending? source n = operatorSending? source' n := by
  have hname {operator : Concrete} (hoperator : n.childByField? "operator" = some operator) :
      nameOf source operator = nameOf source' operator :=
    h.nameOf_eq (.child .self (Concrete.mem_children_of_childByField? hoperator))
  unfold operatorSending?
  split
  · split
    · rename_i hoperator _
      rw [hname hoperator]
    · rfl
  · split
    · rename_i hoperator _
      rw [hname hoperator]
    · rfl
  · rfl
  · rfl

theorem agenda_congr (h : SameTexts source source' n) : agenda source n = agenda source' n := by
  unfold agenda
  rw [callSending_congr h, operatorSending?_congr h]

theorem within_of_mem_agenda {c : Concrete} (h : .lower c ∈ agenda source n) : n.Within c := by
  rcases mem_children_of_mem_agenda h with hc | ⟨between, hbetween, hc⟩
  · exact .child .self hc
  · exact .child (.child .self hbetween) hc

theorem course_congr (h : SameTexts source source' n) : course source n = course source' n := by
  induction n using lowered_induction source with
  | step n ih =>
      rw [course_eq, course_eq, ← agenda_congr h]
      refine congrArg _ ?_
      rw [stepsCourse, stepsCourse, List.flatMap_def, List.flatMap_def]
      refine congrArg List.flatten (List.map_congr_left fun step hstep => ?_)
      cases step with
      | lower c => exact ih c hstep (h.of_within (within_of_mem_agenda hstep))
      | event e => rfl

/-! ## The replay -/

theorem within_of_mem_targets {n p : Concrete} (h : p ∈ targets n) : n.Within p := by
  rw [targets_eq] at h
  split at h
  · obtain rfl := List.mem_singleton.1 h
    exact .self
  · split at h
    · obtain ⟨part, hpart, hp⟩ := List.mem_flatMap.1 h
      have hchild := Concrete.mem_children_of_mem_parts hpart
      exact (Concrete.Within.child .self hchild).trans (within_of_mem_targets hp)
    · simp at h
termination_by sizeOf n
decreasing_by exact Concrete.sizeOf_lt_of_mem_children hchild

/-- The identifier that an event declares or resolves. -/
def Event.named? : Event → Option Concrete
  | .bound n | .read n => some n
  | _ => none

variable {e : Event} {p : Concrete}

theorem within_of_mem_parameterEvents {params : Concrete} (h : e ∈ parameterEvents params)
    (hp : e.named? = some p) : params.Within p := by
  simp only [parameterEvents, List.mem_append, List.mem_flatMap, List.mem_map,
    List.mem_singleton] at h
  rcases h with ⟨part, hpart, ⟨b, hb, rfl⟩ | rfl⟩ | rfl
  · obtain rfl : b = p := Option.some.inj hp
    exact (Concrete.Within.child .self (Concrete.mem_children_of_mem_parts hpart)).trans
      (within_of_mem_targets hb)
  · cases hp
  · cases hp

theorem not_named_of_mem_overSteps {items : List Concrete} {head : Head} {span : Span}
    (h : .event e ∈ overSteps items head span) : e.named? = none := by
  obtain rfl : e = .pushed head items.length span := by simpa [overSteps] using h
  rfl

theorem within_of_mem_blockSteps (h : .event e ∈ blockSteps n) (hp : e.named? = some p) :
    n.Within p := by
  unfold blockSteps at h
  split at h
  · rename_i block hblock
    have hchild : n.Within block :=
      .child .self (Concrete.mem_children_of_childByField? hblock)
    simp only [attachedSteps, List.cons_append, List.mem_cons, Step.event.injEq, List.mem_append,
      List.mem_map, exists_eq_right, List.not_mem_nil, or_false] at h
    rcases h with rfl | (hparams | hbody) | rfl
    · cases hp
    · unfold blockParamEvents at hparams
      split at hparams
      · rename_i params hfield
        exact hchild.trans ((Concrete.Within.child .self
          (Concrete.mem_children_of_childByField? hfield)).trans
            (within_of_mem_parameterEvents hparams hp))
      · obtain rfl := List.mem_singleton.1 hparams
        cases hp
    · obtain ⟨arity, span, rfl⟩ := eq_of_event_mem_blockBodySteps hbody
      cases hp
    · cases hp
  · simp at h

/-- The names on the agenda of a node stand in its tree. -/
theorem within_of_event_mem_agenda (h : .event e ∈ agenda source n) (hp : e.named? = some p) :
    n.Within p := by
  have hover {items : List Concrete} {head : Head} {span : Span}
      (h : .event e ∈ overSteps items head span) : n.Within p := by
    rw [not_named_of_mem_overSteps h] at hp
    cases hp
  have hscoped {kind : ScopeKind} (h : .event e ∈ scopedSteps kind (plainSteps n)) :
      n.Within p := by
    simp only [scopedSteps, List.cons_append, List.mem_cons, Step.event.injEq, List.mem_append,
      List.not_mem_nil, or_false] at h
    rcases h with rfl | h | rfl
    · cases hp
    · exact hover h
    · cases hp
  unfold agenda at h
  split at h
  · rcases List.mem_append.1 h with h | h
    · exact hover h
    · exact within_of_mem_blockSteps h hp
  · obtain rfl : e = .read n := by simpa using h
    obtain rfl : n = p := Option.some.inj hp
    exact .self
  · split at h <;> exact hover h
  · split at h <;> exact hover h
  · split at h <;> exact hover h
  · rcases List.mem_append.1 h with h | h
    · obtain ⟨b, hb, heq⟩ := List.mem_map.1 h
      obtain rfl : .bound b = e := Step.event.inj heq
      obtain rfl : b = p := Option.some.inj hp
      obtain ⟨target, htarget, hb⟩ := List.mem_flatMap.1 hb
      exact (Concrete.Within.child .self
        (Concrete.mem_children_of_childByField? (Option.mem_toList.1 htarget))).trans
          (within_of_mem_targets hb)
    · exact hover h
  · exact hscoped h
  · exact hover h
  · exact within_of_mem_parameterEvents (by simpa using h) hp
  · exact hscoped h
  · exact hover h

/-- The names along a course stand in its tree. -/
theorem within_of_named (h : e ∈ course source n) (hp : e.named? = some p) : n.Within p := by
  induction n using lowered_induction source with
  | step n ih =>
      rw [course_eq, List.mem_cons] at h
      rcases h with rfl | h
      · cases hp
      · obtain ⟨step, hstep, he⟩ := List.mem_flatMap.1 h
        cases step with
        | lower c => exact (within_of_mem_agenda hstep).trans (ih c hstep he)
        | event e' =>
            obtain rfl : e = e' := List.mem_singleton.1 he
            exact within_of_event_mem_agenda hstep hp

theorem step_congr {e : Event} (h : ∀ p, e.named? = some p → nameOf source p = nameOf source' p)
    (m : Machine) : step source m e = step source' m e := by
  cases e with
  | bound n | read n => simp only [step, h n rfl]
  | enter | opened | closed | pushed | wrapped => rfl

theorem replay_congr {events : List Event} (h : ∀ e ∈ events, ∀ p, e.named? = some p →
    nameOf source p = nameOf source' p) (m : Machine) :
    replay source m events = replay source' m events := by
  induction events generalizing m with
  | nil => rfl
  | cons e events ih =>
      rw [replay_cons, replay_cons, step_congr (h e List.mem_cons_self)]
      exact ih (fun e' he' => h e' (List.mem_cons_of_mem _ he')) _

/-- **The replay of a course depends on the texts of its nodes only.** -/
theorem replay_course_congr (h : SameTexts source source' n) (m : Machine) :
    replay source m (course source n) = replay source' m (course source' n) := by
  rw [← course_congr h]
  exact replay_congr (fun e he p hp => h.nameOf_eq (within_of_named he hp)) m

end Lowering

end SpecLint
