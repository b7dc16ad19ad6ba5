import SpecLint.Proofs.Calls
import SpecLint.Proofs.WellFormed

/-!
# Which calls of a source file reach its arena

Lowering goes from a node to the nodes listed by `loweredFrom`.  A call of the source is in the
arena where such a way leads to it from the root, and the arena has no other calls.

What no way leads to stands below a child that lowering passes over.  Among these are all
parameters: a call in the default value of a parameter is lost
(`exists_call_not_lowered`).

* `Reached` — the nodes to which lowering comes.
* `enter_mem_course` — these are the nodes that are entered.
* `reached_or_passedOver` — **what is not reached stands below a child that is passed over**.
* `calls_of_arena` — **the calls of an arena are those of the reached nodes**.
-/

namespace SpecLint

namespace Lowering

variable {source : ByteArray} {root n c p : Concrete}

/-! ## Reached nodes -/

/-- The nodes that are lowered from `n`. -/
def loweredFrom (source : ByteArray) (n : Concrete) : List Concrete :=
  match n.role with
  | .call => (callSending source n).operands ++ (n.childByField? "block").toList.flatMap blockItems
  | .identifier | .parameterList => []
  | .binary | .unary | .element =>
      match operatorSending? source n with
      | some call => call.operands
      | none => n.parts ["name"]
  | .sequence => n.parts []
  | .assignment | .closure | .definition | .plain => n.parts ["name"]

theorem lower_mem_agenda : .lower c ∈ agenda source n ↔ c ∈ loweredFrom source n := by
  cases hrole : n.role with
  | call =>
      simp only [agenda, loweredFrom, hrole, List.mem_append, Sending.steps, mem_overSteps_lower,
        mem_blockSteps_lower, List.mem_flatMap, Option.mem_toList]
  | binary | unary | element =>
      simp only [agenda, loweredFrom, hrole]
      cases operatorSending? source n <;> simp [plainSteps, Sending.steps]
  | identifier | parameterList | sequence | plain => simp [agenda, loweredFrom, hrole, plainSteps]
  | assignment => simp [agenda, loweredFrom, hrole, plainSteps]
  | closure | definition => simp [agenda, loweredFrom, hrole, scopedSteps, plainSteps]

/-- The nodes to which lowering comes from `root`. -/
inductive Reached (source : ByteArray) (root : Concrete) : Concrete → Prop where
  /-- The root. -/
  | root : Reached source root root
  /-- A node that is lowered from one that is reached. -/
  | lowered {n c : Concrete} (outer : Reached source root n) (hc : c ∈ loweredFrom source n) :
      Reached source root c

theorem Reached.trans (h : Reached source root n) (hp : Reached source n p) :
    Reached source root p := by
  induction hp with
  | root => exact h
  | lowered _ hc ih => exact ih.lowered hc

/-- Whether lowering comes from `n` to `p` by way of a node that is lowered from `n`. -/
def Below (source : ByteArray) (n p : Concrete) : Prop :=
  ∃ c ∈ loweredFrom source n, Reached source c p

/-- What is reached from a node is the node itself or lies below it. -/
theorem reached_iff : Reached source n p ↔ p = n ∨ Below source n p := by
  constructor
  · intro h
    induction h with
    | root => exact Or.inl rfl
    | @lowered m c _ hc ih =>
        rcases ih with rfl | ⟨d, hd, hm⟩
        · exact Or.inr ⟨c, hc, .root⟩
        · exact Or.inr ⟨d, hd, hm.lowered hc⟩
  · rintro (rfl | ⟨c, hc, hp⟩)
    · exact .root
    · exact (Reached.root.lowered hc).trans hp

/-- **The nodes that are entered are those that are reached.** -/
theorem enter_mem_course : .enter p ∈ course source root ↔ Reached source root p := by
  constructor
  · intro h
    induction root using lowered_induction source with
    | step root ih =>
        rw [course_eq, List.mem_cons] at h
        rcases h with heq | h
        · cases heq
          exact .root
        · obtain ⟨step, hstep, hp⟩ := List.mem_flatMap.1 h
          cases step with
          | lower c =>
              have houter := Reached.root.lowered (lower_mem_agenda.1 hstep)
              exact houter.trans (ih c hstep hp)
          | event e =>
              obtain rfl : .enter p = e := List.mem_singleton.1 hp
              exact absurd hstep not_enter_of_mem_agenda
  · intro h
    induction h with
    | root =>
        rw [course_eq]
        exact List.mem_cons_self
    | @lowered n c _ hc ih =>
        obtain ⟨before, after, hvisit⟩ := List.append_of_mem ih
        obtain ⟨rest, hrest⟩ := course_of_enter hvisit
        have hinner : .enter c ∈ course source n := by
          rw [course_eq]
          refine List.mem_cons_of_mem _ (List.mem_flatMap.2 ⟨.lower c, lower_mem_agenda.2 hc, ?_⟩)
          rw [stepCourse, course_eq]
          exact List.mem_cons_self
        rw [hvisit, hrest]
        exact List.mem_append_right _ (List.mem_append_left _ hinner)

/-! ## Nodes that are not reached -/

/-- Descendants of `root`, `root` itself included, that are no part of a comment and do not stand
below a child in the field `name`. -/
inductive Stands (root : Concrete) : Concrete → Prop where
  /-- The root. -/
  | root : Stands root root
  /-- A child of a descendant. -/
  | child {n c : Concrete} (outer : Stands root n) (hc : c ∈ n.children)
      (hcomment : c.kind ≠ "comment") (hname : c.field ≠ some "name") : Stands root c

/-- Whether `c` holds the arguments or the block of the call `n`.  Its children are lowered in its
place. -/
def Unwrapped (n c : Concrete) : Prop :=
  n.role = .call ∧ (n.childByField? "arguments" = some c ∨ n.childByField? "block" = some c)

/-- Whether lowering `n` passes over `c`, a child of `n` or of its arguments or block, for another
reason than that it is a comment or a name. -/
def PassedOver (source : ByteArray) (n c : Concrete) : Prop :=
  match n.role with
  | .identifier | .parameterList => c ∈ n.children
  | .call =>
      (c ∈ n.children ∧ ∀ field ∈ ["receiver", "arguments", "block"],
        n.childByField? field ≠ some c) ∨
      (∃ arguments, n.childByField? "arguments" = some arguments ∧ c ∈ arguments.children ∧
        c.named = false) ∨
      ∃ block, n.childByField? "block" = some block ∧ c ∈ block.children ∧ c ∉ blockItems block
  | .binary | .unary | .element =>
      match operatorSending? source n with
      | some call => c ∈ n.children ∧ c ∉ call.operands
      | none => c ∈ n.children ∧ c.named = false
  | .assignment | .closure | .sequence | .definition | .plain => c ∈ n.children ∧ c.named = false

theorem mem_parts_or_token {skipped : List String} (hc : c ∈ n.children)
    (hcomment : c.kind ≠ "comment") (hfield : c.field.any skipped.contains = false) :
    c ∈ n.parts skipped ∨ c.named = false := by
  cases hnamed : c.named with
  | false => exact Or.inr rfl
  | true => exact Or.inl (List.mem_filter.2 ⟨hc, by simp [hnamed, hcomment, hfield]⟩)

/-- What becomes of a child. -/
theorem child_cases (hc : c ∈ n.children) (hcomment : c.kind ≠ "comment")
    (hname : c.field ≠ some "name") :
    c ∈ loweredFrom source n ∨ Unwrapped n c ∨ PassedOver source n c := by
  have hfield : c.field.any (["name"] : List String).contains = false := by
    cases hfield : c.field with
    | none => rfl
    | some field =>
        have : field ≠ "name" := fun h => hname (h ▸ hfield)
        simp [this]
  have hplain := mem_parts_or_token hc hcomment hfield
  have hsequence := @mem_parts_or_token _ _ [] hc hcomment (by cases c.field <;> rfl)
  unfold loweredFrom Unwrapped PassedOver
  cases hrole : n.role with
  | call =>
      by_cases hreceiver : n.childByField? "receiver" = some c
      · refine Or.inl (List.mem_append_left _ (List.mem_append_left _ ?_))
        simpa [callSending] using hreceiver
      · by_cases hunwrapped : n.childByField? "arguments" = some c ∨
            n.childByField? "block" = some c
        · exact Or.inr (Or.inl ⟨rfl, hunwrapped⟩)
        · rw [not_or] at hunwrapped
          refine Or.inr (Or.inr (Or.inl ⟨hc, ?_⟩))
          simp [hreceiver, hunwrapped]
  | identifier | parameterList => exact Or.inr (Or.inr hc)
  | binary | unary | element =>
      cases hcall : operatorSending? source n with
      | none => exact hplain.imp id fun htoken => Or.inr ⟨hc, htoken⟩
      | some call =>
          by_cases hoperand : c ∈ call.operands
          · exact Or.inl hoperand
          · exact Or.inr (Or.inr ⟨hc, hoperand⟩)
  | sequence => exact hsequence.imp id fun htoken => Or.inr ⟨hc, htoken⟩
  | assignment | closure | definition | plain =>
      exact hplain.imp id fun htoken => Or.inr ⟨hc, htoken⟩

/-- What becomes of an argument, or of a child of an attached block. -/
theorem unwrapped_cases {b : Concrete} (hb : Unwrapped n b) (hc : c ∈ b.children)
    (hcomment : c.kind ≠ "comment") : c ∈ loweredFrom source n ∨ PassedOver source n c := by
  obtain ⟨hrole, harguments | hblock⟩ := hb
  · unfold loweredFrom PassedOver
    rw [hrole]
    rcases @mem_parts_or_token _ _ [] hc hcomment (by cases c.field <;> rfl) with
      hpart | htoken
    · refine Or.inl (List.mem_append_left _ (List.mem_append_right _ ?_))
      simpa [callSending, callArguments, harguments] using hpart
    · exact Or.inr (Or.inr (Or.inl ⟨b, harguments, hc, htoken⟩))
  · unfold loweredFrom PassedOver
    rw [hrole]
    by_cases hitem : c ∈ blockItems b
    · exact Or.inl (List.mem_append_right _ (by simpa [hblock] using hitem))
    · exact Or.inr (Or.inr (Or.inr ⟨b, hblock, hc, hitem⟩))

/-- **What is not reached stands below a child that is passed over**, unless it holds the arguments
or the block of a call. -/
theorem reached_or_passedOver (h : Stands root p) :
    Reached source root p ∨ (∃ n, Reached source root n ∧ Unwrapped n p) ∨
      ∃ n c, Reached source root n ∧ PassedOver source n c ∧ Stands c p := by
  induction h with
  | root => exact Or.inl .root
  | @child n c _ hc hcomment hname ih =>
      rcases ih with hn | ⟨m, hm, hn⟩ | ⟨m, d, hm, hd, hn⟩
      · rcases @child_cases source _ _ hc hcomment hname with hlower | hheld | hpassed
        · exact Or.inl (hn.lowered hlower)
        · exact Or.inr (Or.inl ⟨n, hn, hheld⟩)
        · exact Or.inr (Or.inr ⟨n, c, hn, hpassed, .root⟩)
      · rcases @unwrapped_cases source _ _ _ hn hc hcomment with hlower | hpassed
        · exact Or.inl (hm.lowered hlower)
        · exact Or.inr (Or.inr ⟨m, c, hm, hpassed, .root⟩)
      · exact Or.inr (Or.inr ⟨m, d, hm, hd, hn.child hc hcomment hname⟩)

/-! ## The calls of an arena -/

/-- **The calls of an arena are those of the reached nodes.**  A node that stands for a call is in
the arena where lowering comes to it; every call of the arena stands for such a node, or for a name;
and where lowering does not come, it has passed over a child further up, or the node itself only
holds the arguments or the block of a call. -/
theorem calls_of_arena {grammar : Grammar} {source : ByteArray} {arena : Arena}
    (hsource : source.isEmpty = false) (h : arenaOf grammar source = .ok arena) :
    (∀ p call, Reached source (grammar source) p → sending? source p = some call →
      ∃ id ∈ arena.preorder, ∃ c, arena.call? id = some c ∧ c.method = call.method ∧
        c.selector = call.selector) ∧
    (∀ id ∈ arena.preorder, ∀ c, arena.call? id = some c →
      ∃ p, Reached source (grammar source) p ∧
        ((∃ call, sending? source p = some call ∧ c.method = call.method ∧
            c.selector = call.selector) ∨
          p.role = .identifier ∧ c.method = nameOf source p ∧ c.selector = spanOf p)) ∧
    ∀ p, Stands (grammar source) p →
      Reached source (grammar source) p ∨
        (∃ n, Reached source (grammar source) n ∧ Unwrapped n p) ∨
        ∃ n c, Reached source (grammar source) n ∧ PassedOver source n c ∧ Stands c p := by
  obtain ⟨root, hroot, hforest, hform⟩ := forest_arenaOf hsource h
  refine ⟨fun p call hp hcall => ?_, fun id _ c hc => ?_, fun p => reached_or_passedOver⟩
  · obtain ⟨before, after, hvisit⟩ := List.append_of_mem (enter_mem_course.2 hp)
    obtain ⟨arguments, -, hsend⟩ := send_of_visit hvisit hcall
    rw [← hform] at hsend
    refine ⟨sendId source before call, ?_, _, Arena.call?_eq_some.2 ⟨_, hsend⟩, rfl, rfl⟩
    exact (hforest.mem_preorder hroot).2 (Arena.lt_size_of_form? hsend)
  · obtain ⟨span, hsend⟩ := Arena.call?_eq_some.1 hc
    rw [hform] at hsend
    obtain ⟨before, p, after, hvisit, hp⟩ := call_of_visit hsend
    have hreached : Reached source (grammar source) p :=
      enter_mem_course.1 (by rw [hvisit]; exact List.mem_append_right _ List.mem_cons_self)
    refine ⟨p, hreached, ?_⟩
    rcases hp with ⟨call, arguments, hcall, rfl⟩ | ⟨hrole, rfl⟩
    · exact Or.inl ⟨call, hcall, rfl, rfl⟩
    · exact Or.inr ⟨hrole, rfl, rfl⟩

/-- The tree of `b.c`, its dot left out. -/
def dottedCall (field : Option String) (start : Nat) : Concrete :=
  ⟨"call", true, field, start, start + 3, 0, start,
    [⟨"identifier", true, some "receiver", start, start + 1, 0, start, []⟩,
      ⟨"identifier", true, some "method", start + 2, start + 3, 0, start + 2, []⟩]⟩

/-- The arena of `b.c` has a call of `c`. -/
theorem calls_of_arena_dotted : ∃ arena,
    arenaOf (fun _ => dottedCall none 0) "b.c".toUTF8 = .ok arena ∧
      ∃ id ∈ arena.preorder, ∃ c, arena.call? id = some c ∧ c.method = "c" ∧
        c.selector = ⟨2, 3, 1, 3⟩ := by
  obtain ⟨arena, harena⟩ : ∃ arena,
      arenaOf (fun _ => dottedCall none 0) "b.c".toUTF8 = .ok arena := ⟨_, rfl⟩
  obtain ⟨hcalls, -, -⟩ := calls_of_arena (by decide) harena
  exact ⟨arena, harena, hcalls _ _ .root rfl⟩

/-- The tree of `def m(a = b.c)` with `end` on the next line, its tokens left out. -/
def defaultValue : Concrete :=
  ⟨"program", true, none, 0, 18, 0, 0,
    [⟨"method", true, none, 0, 18, 0, 0,
      [⟨"identifier", true, some "name", 4, 5, 0, 4, []⟩,
        ⟨"method_parameters", true, some "parameters", 5, 14, 0, 5,
          [⟨"optional_parameter", true, none, 6, 13, 0, 6,
            [⟨"identifier", true, some "name", 6, 7, 0, 6, []⟩,
              dottedCall (some "value") 10]⟩]⟩]⟩]⟩

/-- **A call in the default value of a parameter is lost**: no call of the arena has its
selector. -/
theorem exists_call_not_lowered : ∃ arena,
    arenaOf (fun _ => defaultValue) "def m(a = b.c)\nend".toUTF8 = .ok arena ∧
      Stands defaultValue (dottedCall (some "value") 10) ∧
      ∀ id c, arena.call? id = some c →
        c.selector ≠ (callSending "def m(a = b.c)\nend".toUTF8
          (dottedCall (some "value") 10)).selector := by
  refine ⟨_, rfl, ?_, ?_⟩
  · have hmethod : Stands defaultValue _ :=
      Stands.root.child List.mem_cons_self (by decide) (by decide)
    have hparameters := hmethod.child (List.mem_cons_of_mem _ List.mem_cons_self) (by decide)
      (by decide)
    have hparameter := hparameters.child List.mem_cons_self (by decide) (by decide)
    exact hparameter.child (List.mem_cons_of_mem _ List.mem_cons_self) (by decide) (by decide)
  · -- the four nodes are a parameter, the parameter list, the definition and the program
    intro id c hcall
    exfalso
    rcases id with _ | _ | _ | _ | id <;> cases hcall

end Lowering

end SpecLint
