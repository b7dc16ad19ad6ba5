import SpecLint.Lowering

/-!
# The course of lowering

Which nodes of a concrete tree lowering enters, which names it declares and which nodes it pushes,
and in what order, does not depend on the arena or on the names that are local: the tree and its
source decide it.  `course source n` lists these events for the subtree of `n`.

* `agenda` — what lowering a node amounts to, one level deep: nodes to be lowered in turn, and
  events in between.
* `course` — the events of a whole subtree; the agenda with each node replaced by its own course.
* `courseOf` — the events of a source file.
* `Sending` — the call that lowering makes of a node, with its operands still concrete.
* `course_of_enter` — from the place where a node is entered on, its own course follows.
* `exists_visit` — every other event belongs to the agenda of a node that was entered before it.

A course is a program for the stack machine of `SpecLint.Proofs.Replay`: a node that is pushed
takes its children from the top of the stack.
-/

namespace SpecLint

namespace Concrete

theorem sizeOf_lt_of_mem_children {n c : Concrete} (h : c ∈ n.children) : sizeOf c < sizeOf n := by
  cases n with
  | mk kind named field startByte endByte row column children =>
      have hc : sizeOf c < sizeOf children := List.sizeOf_lt_of_mem h
      simp only [Concrete.mk.sizeOf_spec]
      omega

theorem mem_children_of_mem_parts {n c : Concrete} {skipped : List String}
    (h : c ∈ n.parts skipped) : c ∈ n.children :=
  (List.mem_filter.1 h).1

theorem mem_children_of_childByField? {n c : Concrete} {field : String}
    (h : n.childByField? field = some c) : c ∈ n.children :=
  List.mem_of_find?_eq_some h

end Concrete

namespace Lowering

/-! ## Events -/

/-- A scope that lowering opens below the scope of the whole source. -/
inductive ScopeKind where
  /-- The scope of a block that is attached to a call, with or without a parameter list. -/
  | attached (explicit : Bool)
  /-- The scope of a block or lambda on its own. -/
  | closure
  /-- The scope of a definition, which starts without local variables. -/
  | definition
  deriving DecidableEq, Repr

/-- What a pushed node is, its children left aside. -/
inductive Head where
  /-- A method call; `receiver` says whether its first child is its receiver. -/
  | send (receiver : Bool) (method : String) (selector : Span) (safe : Bool)
  /-- A parameter list. -/
  | params
  /-- Statements in a row. -/
  | sequence
  /-- Any other construct. -/
  | other (kind : String)
  deriving DecidableEq, Repr

/-- One event in the course of lowering. -/
inductive Event where
  /-- The lowering of `n` begins. -/
  | enter (n : Concrete)
  /-- A scope is opened. -/
  | opened (kind : ScopeKind)
  /-- The scope of a closure or of a definition is closed. -/
  | closed (kind : ScopeKind)
  /-- The identifier `n` is declared as a local variable of the innermost scope. -/
  | bound (n : Concrete)
  /-- The identifier `n` is resolved, and the node for it is pushed. -/
  | read (n : Concrete)
  /-- A node is pushed whose children are the last `arity` nodes that have no parent yet. -/
  | pushed (head : Head) (arity : Nat) (span : Span)
  /-- The scope of an attached block is closed, and the node that wraps call and block is pushed. -/
  | wrapped (arity : Nat) (span : Span)

/-- Whether an event pushes a node. -/
def Event.pushes : Event → Bool
  | .read _ | .pushed .. | .wrapped .. => true
  | _ => false

/-! ## What lowering makes of one node -/

/-- The source text of `n`, empty where it is not valid UTF-8. -/
def nameOf (source : ByteArray) (n : Concrete) : String := (n.text? source).getD ""

/-- A call with its operands still concrete. -/
structure Sending where
  /-- What the method is called on. -/
  receiver : Option Concrete
  /-- The arguments in source order. -/
  arguments : List Concrete
  /-- Name of the called method. -/
  method : String
  /-- Place of the method name alone. -/
  selector : Span
  /-- Whether the call is skipped on a nil receiver. -/
  safe : Bool
  /-- The extent of the call, an attached block left aside. -/
  span : Span

/-- The operands of a call in the order in which they are lowered. -/
def Sending.operands (c : Sending) : List Concrete := c.receiver.toList ++ c.arguments

/-- The head of the node that is pushed for a call. -/
def Sending.head (c : Sending) : Head := .send c.receiver.isSome c.method c.selector c.safe

/-- The arguments of a call. -/
def callArguments (n : Concrete) : List Concrete :=
  match n.childByField? "arguments" with
  | some arguments => arguments.parts []
  | none => []

/-- The call that a node of kind `call` stands for. -/
def callSending (source : ByteArray) (n : Concrete) : Sending where
  receiver := n.childByField? "receiver"
  arguments := callArguments n
  method := match n.childByField? "method" with
    | some method => nameOf source method
    | none => "call"
  selector := match n.childByField? "method" with
    | some method => spanOf method
    | none => spanOf (((n.token? ".").or (n.token? "&.")).getD n)
  safe := (n.token? "&.").isSome
  span := spanUntil n (callEnd n)

/-- The call that an operator or an element access stands for. -/
def operatorSending? (source : ByteArray) (n : Concrete) : Option Sending :=
  match n.role with
  | .binary =>
      match n.childByField? "left", n.childByField? "operator", n.childByField? "right" with
      | some left, some operator, some right =>
          if logicalOperators.contains (nameOf source operator) then none
          else some {
            receiver := some left, arguments := [right], method := nameOf source operator,
            selector := spanOf operator, safe := false, span := spanOf n }
      | _, _, _ => none
  | .unary =>
      match n.childByField? "operator", n.childByField? "operand" with
      | some operator, some operand =>
          (unaryMethod? (nameOf source operator)).map fun method => {
            receiver := some operand, arguments := [], method, selector := spanOf operator,
            safe := false, span := spanOf n }
      | _, _ => none
  | .element =>
      (n.childByField? "object").map fun object => {
        receiver := some object, arguments := n.parts ["object"], method := "[]",
        selector := match n.token? "[" with
          | some bracket => spanUntil bracket n.endByte
          | none => spanOf n
        safe := false, span := spanOf n }
  | _ => none

/-- The forms that the call of an operator or an element access takes. -/
inductive OperatorForm (source : ByteArray) (n : Concrete) : Sending → Prop where
  /-- An operator between two operands is its own method. -/
  | binary (hrole : n.role = .binary) {left operator right : Concrete}
      (hleft : n.childByField? "left" = some left)
      (hoperator : n.childByField? "operator" = some operator)
      (hright : n.childByField? "right" = some right) : OperatorForm source n {
        receiver := some left, arguments := [right], method := nameOf source operator,
        selector := spanOf operator, safe := false, span := spanOf n }
  /-- An operator before one operand. -/
  | unary (hrole : n.role = .unary) {operator operand : Concrete} {method : String}
      (hoperator : n.childByField? "operator" = some operator)
      (hoperand : n.childByField? "operand" = some operand)
      (hmethod : unaryMethod? (nameOf source operator) = some method) : OperatorForm source n {
        receiver := some operand, arguments := [], method, selector := spanOf operator,
        safe := false, span := spanOf n }
  /-- An element access. -/
  | element (hrole : n.role = .element) {object : Concrete}
      (hobject : n.childByField? "object" = some object) : OperatorForm source n {
        receiver := some object, arguments := n.parts ["object"], method := "[]",
        selector := match n.token? "[" with
          | some bracket => spanUntil bracket n.endByte
          | none => spanOf n
        safe := false, span := spanOf n }

theorem operatorForm {source : ByteArray} {n : Concrete} {call : Sending}
    (h : operatorSending? source n = some call) : OperatorForm source n call := by
  unfold operatorSending? at h
  split at h
  · rename_i hrole
    split at h
    · rename_i hleft hoperator hright
      split at h
      · cases h
      · cases h
        exact .binary hrole hleft hoperator hright
    · cases h
  · rename_i hrole
    split at h
    · rename_i hoperator hoperand
      obtain ⟨method, hmethod, rfl⟩ := Option.map_eq_some_iff.1 h
      exact .unary hrole hoperator hoperand hmethod
    · cases h
  · rename_i hrole
    obtain ⟨object, hobject, rfl⟩ := Option.map_eq_some_iff.1 h
    exact .element hrole hobject
  · cases h

/-- The call that a node stands for, where it stands for one.  A bare name is left aside: it is a
call only where it is no local variable. -/
def sending? (source : ByteArray) (n : Concrete) : Option Sending :=
  if n.role = .call then some (callSending source n) else operatorSending? source n

/-- The identifiers that are declared with an assignment target or a parameter. -/
def targets (n : Concrete) : List Concrete :=
  if n.role = .identifier then [n]
  else if n.isBinding then
    (n.parts ["value"]).attach.flatMap fun ⟨part, _⟩ => targets part
  else []
termination_by sizeOf n
decreasing_by
  rename_i h
  exact Concrete.sizeOf_lt_of_mem_children (Concrete.mem_children_of_mem_parts h)

/-- The events of a parameter list: each parameter is declared and kept without children. -/
def parameterEvents (params : Concrete) : List Event :=
  (params.parts []).flatMap
      (fun p => (targets p).map .bound ++ [.pushed (.other p.kind) 0 (spanOf p)]) ++
    [.pushed .params (params.parts []).length (spanOf params)]

/-- The events of the parameters of an attached block. -/
def blockParamEvents (block : Concrete) : List Event :=
  match block.childByField? "parameters" with
  | some params => parameterEvents params
  | none => [.pushed .params 0 (spanUntil block block.startByte)]

/-- The statements of an attached block that are lowered. -/
def blockItems (block : Concrete) : List Concrete :=
  match block.childByField? "body" with
  | some body => [body]
  | none => block.parts ["parameters"]

/-- Whether the statements of an attached block are put into a row of their own. -/
def groupsItems (block : Concrete) : Bool :=
  (block.childByField? "body").isNone && !(block.parts ["parameters"]).isEmpty

/-- The kind of scope that an attached block has. -/
def blockScope (block : Concrete) : ScopeKind :=
  .attached (block.childByField? "parameters").isSome

/-! ## The agenda of a node -/

/-- One item on the agenda of a node. -/
inductive Step where
  /-- A node is lowered. -/
  | lower (n : Concrete)
  /-- A single event. -/
  | event (e : Event)

/-- Lowers some nodes and pushes a node over them. -/
def overSteps (items : List Concrete) (head : Head) (span : Span) : List Step :=
  items.map .lower ++ [.event (.pushed head items.length span)]

/-- Lowers the parts of a node and keeps it. -/
def plainSteps (n : Concrete) : List Step :=
  overSteps (n.parts ["name"]) (.other n.kind) (spanOf n)

/-- Takes some steps in a scope of their own. -/
def scopedSteps (kind : ScopeKind) (steps : List Step) : List Step :=
  .event (.opened kind) :: steps ++ [.event (.closed kind)]

/-- Lowers the statements of an attached block. -/
def blockBodySteps (block : Concrete) : List Step :=
  if groupsItems block then overSteps (blockItems block) .sequence (spanOf block)
  else (blockItems block).map .lower

/-- Lowers the block that is attached to a call and wraps the two. -/
def attachedSteps (block : Concrete) (span : Span) : List Step :=
  .event (.opened (blockScope block)) :: (blockParamEvents block).map .event ++
    blockBodySteps block ++
    [.event (.wrapped (if (blockItems block).isEmpty then 2 else 3) span)]

/-- The steps after a call has been pushed. -/
def blockSteps (n : Concrete) : List Step :=
  match n.childByField? "block" with
  | some block => attachedSteps block (spanOf n)
  | none => []

/-- Lowers the operands of a call and pushes it. -/
def Sending.steps (c : Sending) : List Step := overSteps c.operands c.head c.span

/-- What lowering a node amounts to. -/
def agenda (source : ByteArray) (n : Concrete) : List Step :=
  match n.role with
  | .call => (callSending source n).steps ++ blockSteps n
  | .identifier => [.event (.read n)]
  | .binary | .unary | .element =>
      match operatorSending? source n with
      | some c => c.steps
      | none => plainSteps n
  | .assignment =>
      ((n.childByField? "left").toList.flatMap targets).map (.event ∘ .bound) ++ plainSteps n
  | .closure => scopedSteps .closure (plainSteps n)
  | .sequence => overSteps (n.parts []) .sequence (spanOf n)
  | .parameterList => (parameterEvents n).map .event
  | .definition => scopedSteps .definition (plainSteps n)
  | .plain => plainSteps n

/-- The forms that an agenda takes. -/
inductive AgendaForm (source : ByteArray) (n : Concrete) : List Step → Prop where
  /-- A name is resolved. -/
  | read (hrole : n.role = .identifier) : AgendaForm source n [.event (.read n)]
  /-- Names are declared, some nodes are lowered, and a node is pushed over these. -/
  | flat (names items : List Concrete) (head : Head) (span : Span) :
      AgendaForm source n (names.map (.event ∘ .bound) ++ overSteps items head span)
  /-- The same in a scope of its own, with no name declared. -/
  | nested (kind : ScopeKind) (items : List Concrete) (head : Head) (span : Span) :
      AgendaForm source n (scopedSteps kind (overSteps items head span))
  /-- Parameters are declared. -/
  | params : AgendaForm source n ((parameterEvents n).map .event)
  /-- A call is lowered, and the block attached to it. -/
  | attached (hrole : n.role = .call) {block : Concrete}
      (hblock : n.childByField? "block" = some block) :
      AgendaForm source n ((callSending source n).steps ++ attachedSteps block (spanOf n))

theorem agenda_form (source : ByteArray) (n : Concrete) :
    AgendaForm source n (agenda source n) := by
  have hover (items : List Concrete) (head : Head) (span : Span) :
      AgendaForm source n (overSteps items head span) := .flat [] items head span
  cases hrole : n.role with
  | call =>
      cases hblock : n.childByField? "block" with
      | none =>
          have hagenda : agenda source n = (callSending source n).steps := by
            simp [agenda, hrole, blockSteps, hblock]
          exact hagenda ▸ hover _ _ _
      | some block =>
          have hagenda : agenda source n =
              (callSending source n).steps ++ attachedSteps block (spanOf n) := by
            simp [agenda, hrole, blockSteps, hblock]
          exact hagenda ▸ .attached hrole hblock
  | identifier =>
      simp only [agenda, hrole]
      exact .read hrole
  | binary | unary | element =>
      simp only [agenda, hrole]
      cases operatorSending? source n <;> exact hover _ _ _
  | assignment =>
      simp only [agenda, hrole]
      exact .flat _ _ _ _
  | closure | definition =>
      simp only [agenda, hrole]
      exact .nested _ _ _ _
  | sequence | plain =>
      simp only [agenda, hrole]
      exact hover _ _ _
  | parameterList =>
      simp only [agenda, hrole]
      exact .params

/-! ### What stands on an agenda -/

@[simp] theorem mem_overSteps_lower {items : List Concrete} {head : Head} {span : Span}
    {c : Concrete} : .lower c ∈ overSteps items head span ↔ c ∈ items := by
  simp [overSteps]

theorem mem_callSending_operands {source : ByteArray} {n c : Concrete}
    (h : c ∈ (callSending source n).operands) :
    c ∈ n.children ∨ ∃ arguments ∈ n.children, c ∈ arguments.children := by
  simp only [Sending.operands, callSending, List.mem_append, Option.mem_toList] at h
  rcases h with hreceiver | hargument
  · exact Or.inl (Concrete.mem_children_of_childByField? hreceiver)
  · unfold callArguments at hargument
    split at hargument
    · rename_i arguments harguments
      exact Or.inr ⟨arguments, Concrete.mem_children_of_childByField? harguments,
        Concrete.mem_children_of_mem_parts hargument⟩
    · simp at hargument

theorem mem_operatorSending_operands {source : ByteArray} {n c : Concrete} {call : Sending}
    (hcall : operatorSending? source n = some call) (h : c ∈ call.operands) : c ∈ n.children := by
  cases operatorForm hcall with
  | binary _ hleft _ hright =>
      simp only [Sending.operands, Option.toList_some, List.mem_append, List.mem_singleton] at h
      rcases h with rfl | rfl
      · exact Concrete.mem_children_of_childByField? hleft
      · exact Concrete.mem_children_of_childByField? hright
  | unary _ _ hoperand =>
      simp only [Sending.operands, Option.toList_some, List.append_nil, List.mem_singleton] at h
      exact h ▸ Concrete.mem_children_of_childByField? hoperand
  | element _ hobject =>
      simp only [Sending.operands, Option.toList_some, List.mem_append, List.mem_singleton] at h
      rcases h with rfl | hpart
      · exact Concrete.mem_children_of_childByField? hobject
      · exact Concrete.mem_children_of_mem_parts hpart

theorem mem_blockItems {block c : Concrete} (h : c ∈ blockItems block) : c ∈ block.children := by
  unfold blockItems at h
  split at h
  · rename_i body hbody
    rw [List.mem_singleton] at h
    exact h ▸ Concrete.mem_children_of_childByField? hbody
  · exact Concrete.mem_children_of_mem_parts h

@[simp] theorem mem_blockBodySteps_lower {block c : Concrete} :
    .lower c ∈ blockBodySteps block ↔ c ∈ blockItems block := by
  unfold blockBodySteps
  split <;> simp

@[simp] theorem mem_attachedSteps_lower {block c : Concrete} {span : Span} :
    .lower c ∈ attachedSteps block span ↔ c ∈ blockItems block := by
  simp [attachedSteps]

theorem mem_blockSteps_lower {n c : Concrete} :
    .lower c ∈ blockSteps n ↔ ∃ block, n.childByField? "block" = some block ∧
      c ∈ blockItems block := by
  unfold blockSteps
  split <;> simp_all

theorem eq_of_mem_parameterEvents {params : Concrete} {e : Event} (h : e ∈ parameterEvents params) :
    (∃ b, e = .bound b) ∨ (∃ kind span, e = .pushed (.other kind) 0 span) ∨
      ∃ arity span, e = .pushed .params arity span := by
  simp only [parameterEvents, List.mem_append, List.mem_flatMap, List.mem_map,
    List.mem_singleton] at h
  rcases h with ⟨p, _, ⟨b, _, rfl⟩ | rfl⟩ | rfl
  · exact Or.inl ⟨b, rfl⟩
  · exact Or.inr (Or.inl ⟨_, _, rfl⟩)
  · exact Or.inr (Or.inr ⟨_, _, rfl⟩)

theorem eq_of_mem_blockParamEvents {block : Concrete} {e : Event}
    (h : e ∈ blockParamEvents block) :
    (∃ b, e = .bound b) ∨ (∃ kind span, e = .pushed (.other kind) 0 span) ∨
      ∃ arity span, e = .pushed .params arity span := by
  unfold blockParamEvents at h
  split at h
  · exact eq_of_mem_parameterEvents h
  · exact Or.inr (Or.inr ⟨_, _, List.mem_singleton.1 h⟩)

theorem eq_of_event_mem_blockBodySteps {block : Concrete} {e : Event}
    (h : .event e ∈ blockBodySteps block) : ∃ arity span, e = .pushed .sequence arity span := by
  unfold blockBodySteps at h
  split at h
  · simp only [overSteps, List.mem_append, List.mem_map, reduceCtorEq, and_false, exists_false,
      List.mem_singleton, Step.event.injEq, false_or] at h
    exact ⟨_, _, h⟩
  · simp at h

/-- The events on the agenda of an attached block. -/
theorem eq_of_event_mem_attachedSteps {block : Concrete} {span : Span} {e : Event}
    (h : .event e ∈ attachedSteps block span) :
    e = .opened (blockScope block) ∨ (∃ b, e = .bound b) ∨
      (∃ kind span, e = .pushed (.other kind) 0 span) ∨
      (∃ arity span, e = .pushed .params arity span) ∨
      (∃ arity span, e = .pushed .sequence arity span) ∨ ∃ arity, e = .wrapped arity span := by
  simp only [attachedSteps, List.cons_append, List.mem_cons, Step.event.injEq, List.mem_append,
    List.mem_map, exists_eq_right, List.not_mem_nil, or_false] at h
  rcases h with rfl | (hparams | hbody) | rfl
  · exact Or.inl rfl
  · rcases eq_of_mem_blockParamEvents hparams with hbound | hother | hparams
    · exact Or.inr (Or.inl hbound)
    · exact Or.inr (Or.inr (Or.inl hother))
    · exact Or.inr (Or.inr (Or.inr (Or.inl hparams)))
  · exact Or.inr (Or.inr (Or.inr (Or.inr (Or.inl (eq_of_event_mem_blockBodySteps hbody)))))
  · exact Or.inr (Or.inr (Or.inr (Or.inr (Or.inr ⟨_, rfl⟩))))

/-- What is lowered from a node is a child of it, or a child of its arguments or of its block. -/
theorem mem_children_of_mem_agenda {source : ByteArray} {n c : Concrete}
    (h : .lower c ∈ agenda source n) :
    c ∈ n.children ∨ ∃ between ∈ n.children, c ∈ between.children := by
  have hplain : ∀ {skipped}, c ∈ n.parts skipped →
      c ∈ n.children ∨ ∃ between ∈ n.children, c ∈ between.children :=
    fun hc => Or.inl (Concrete.mem_children_of_mem_parts hc)
  have hoperator : .lower c ∈ (match operatorSending? source n with
        | some call => call.steps
        | none => plainSteps n) →
      c ∈ n.children ∨ ∃ between ∈ n.children, c ∈ between.children := by
    intro h
    cases hcall : operatorSending? source n with
    | none =>
        rw [hcall] at h
        exact hplain (by simpa [plainSteps] using h)
    | some call =>
        rw [hcall] at h
        exact Or.inl (mem_operatorSending_operands hcall (by simpa [Sending.steps] using h))
  unfold agenda at h
  split at h
  · rw [List.mem_append] at h
    rcases h with h | h
    · exact mem_callSending_operands (by simpa [Sending.steps] using h)
    · obtain ⟨block, hblock, hc⟩ := mem_blockSteps_lower.1 h
      exact Or.inr ⟨block, Concrete.mem_children_of_childByField? hblock, mem_blockItems hc⟩
  · simp at h
  · exact hoperator h
  · exact hoperator h
  · exact hoperator h
  · exact hplain (by simpa [plainSteps] using h)
  · exact hplain (by simpa [scopedSteps, plainSteps] using h)
  · exact hplain (by simpa using h)
  · simp at h
  · exact hplain (by simpa [scopedSteps, plainSteps] using h)
  · exact hplain (by simpa [plainSteps] using h)

theorem sizeOf_lt_of_mem_agenda {source : ByteArray} {n c : Concrete}
    (h : .lower c ∈ agenda source n) : sizeOf c < sizeOf n := by
  rcases mem_children_of_mem_agenda h with hc | ⟨between, hbetween, hc⟩
  · exact Concrete.sizeOf_lt_of_mem_children hc
  · have h1 := Concrete.sizeOf_lt_of_mem_children hc
    have h2 := Concrete.sizeOf_lt_of_mem_children hbetween
    omega

/-- A statement holds of a node once it holds of the nodes that are lowered from it. -/
theorem lowered_induction (source : ByteArray) {motive : Concrete → Prop}
    (step : ∀ n, (∀ c, .lower c ∈ agenda source n → motive c) → motive n) (n : Concrete) :
    motive n :=
  step n fun c _ => lowered_induction source step c
termination_by sizeOf n
decreasing_by
  rename_i h
  exact sizeOf_lt_of_mem_agenda h

/-! ## The course -/

/-- The events of lowering `n` and its subtree, in order. -/
def course (source : ByteArray) (n : Concrete) : List Event :=
  .enter n :: (agenda source n).attach.flatMap fun ⟨step, _⟩ =>
    match step with
    | .lower c => course source c
    | .event e => [e]
termination_by sizeOf n
decreasing_by
  rename_i h
  exact sizeOf_lt_of_mem_agenda h

/-- The events of one step. -/
def stepCourse (source : ByteArray) : Step → List Event
  | .lower c => course source c
  | .event e => [e]

/-- The events of some steps. -/
def stepsCourse (source : ByteArray) (steps : List Step) : List Event :=
  steps.flatMap (stepCourse source)

theorem course_eq (source : ByteArray) (n : Concrete) :
    course source n = .enter n :: stepsCourse source (agenda source n) := by
  rw [course, stepsCourse]
  conv => rhs; rw [← List.attach_map_subtype_val (agenda source n), List.flatMap_map]
  congr 2
  funext ⟨step, _⟩
  cases step <;> rfl

theorem targets_eq (n : Concrete) :
    targets n = if n.role = .identifier then [n]
      else if n.isBinding then (n.parts ["value"]).flatMap targets
      else [] := by
  rw [targets]
  conv => rhs; rw [← List.attach_map_subtype_val (n.parts ["value"]), List.flatMap_map]

@[simp] theorem stepsCourse_nil (source : ByteArray) : stepsCourse source [] = [] := rfl

@[simp] theorem stepsCourse_cons (source : ByteArray) (step : Step) (steps : List Step) :
    stepsCourse source (step :: steps) = stepCourse source step ++ stepsCourse source steps := rfl

@[simp] theorem stepsCourse_append (source : ByteArray) (first second : List Step) :
    stepsCourse source (first ++ second) =
      stepsCourse source first ++ stepsCourse source second :=
  List.flatMap_append

@[simp] theorem stepsCourse_map_lower (source : ByteArray) (items : List Concrete) :
    stepsCourse source (items.map .lower) = items.flatMap (course source) := by
  rw [stepsCourse, List.flatMap_map]
  rfl

@[simp] theorem stepsCourse_map_event (source : ByteArray) (events : List Event) :
    stepsCourse source (events.map .event) = events := by
  rw [stepsCourse, List.flatMap_map]
  exact List.flatMap_singleton' events

theorem stepsCourse_overSteps (source : ByteArray) (items : List Concrete) (head : Head)
    (span : Span) : stepsCourse source (overSteps items head span) =
      items.flatMap (course source) ++ [.pushed head items.length span] := by
  simp [overSteps, stepCourse]

/-! ## Visits -/

/-- An event among those of some steps belongs to one of the steps. -/
theorem stepsCourse_split {source : ByteArray} {steps : List Step} {before after : List Event}
    {e : Event} (h : stepsCourse source steps = before ++ e :: after) :
    ∃ first step second u v, steps = first ++ step :: second ∧
      stepCourse source step = u ++ e :: v ∧
      before = stepsCourse source first ++ u ∧ after = v ++ stepsCourse source second := by
  induction steps generalizing before with
  | nil => simp at h
  | cons step steps ih =>
      rw [stepsCourse_cons] at h
      rcases List.append_eq_append_iff.1 h with ⟨more, hbefore, hrest⟩ | ⟨more, hstep, hafter⟩
      · obtain ⟨first, step', second, u, v, rfl, hu, hmore, hv⟩ := ih hrest
        exact ⟨step :: first, step', second, u, v, rfl, hu, by simp [hbefore, hmore], hv⟩
      · cases more with
        | nil =>
            -- the event is the first one of the steps that are left
            have hnow : stepsCourse source steps = [] ++ e :: after := by simpa using hafter.symm
            obtain ⟨first, step', second, u, v, rfl, hu, hmore, hv⟩ := ih hnow
            refine ⟨step :: first, step', second, u, v, rfl, hu, ?_, hv⟩
            rw [stepsCourse_cons, hstep, List.append_assoc, ← hmore, List.append_nil,
              List.append_nil]
        | cons e' more =>
            obtain ⟨rfl, rfl⟩ : e = e' ∧ after = more ++ stepsCourse source steps := by
              simpa using hafter
            exact ⟨[], step, steps, before, more, rfl, hstep, rfl, rfl⟩

/-- Whether an event neither enters a node nor pushes a call. -/
def Event.inner : Event → Bool
  | .enter _ | .pushed (.send ..) _ _ => false
  | _ => true

/-- Steps none of which enters a node or pushes a call by itself. -/
def InnerSteps (steps : List Step) : Prop := ∀ e, .event e ∈ steps → e.inner = true

@[simp] theorem innerSteps_append {first second : List Step} :
    InnerSteps (first ++ second) ↔ InnerSteps first ∧ InnerSteps second := by
  simp only [InnerSteps, List.mem_append]
  exact ⟨fun h => ⟨fun e he => h e (Or.inl he), fun e he => h e (Or.inr he)⟩,
    fun h e he => he.elim (h.1 e) (h.2 e)⟩

@[simp] theorem innerSteps_cons_event {e : Event} {steps : List Step} :
    InnerSteps (.event e :: steps) ↔ e.inner = true ∧ InnerSteps steps := by
  simp only [InnerSteps, List.mem_cons, Step.event.injEq]
  exact ⟨fun h => ⟨h e (Or.inl rfl), fun e' he => h e' (Or.inr he)⟩,
    fun h e' he => he.elim (fun heq => heq ▸ h.1) (h.2 e')⟩

@[simp] theorem innerSteps_nil : InnerSteps [] := fun _ he => absurd he List.not_mem_nil

@[simp] theorem innerSteps_map_lower {items : List Concrete} :
    InnerSteps (items.map .lower) := by
  intro e he
  simp at he

theorem innerSteps_map_event {events : List Event} (h : ∀ e ∈ events, e.inner = true) :
    InnerSteps (events.map .event) := by
  intro e he
  obtain ⟨e', he', heq⟩ := List.mem_map.1 he
  exact Step.event.inj heq ▸ h e' he'

theorem innerSteps_map_bound (ns : List Concrete) : InnerSteps (ns.map (.event ∘ .bound)) := by
  intro e he
  obtain ⟨n, -, heq⟩ := List.mem_map.1 he
  exact Step.event.inj heq ▸ rfl

theorem inner_of_mem_parameterEvents {params : Concrete} {e : Event}
    (h : e ∈ parameterEvents params) : e.inner = true := by
  rcases eq_of_mem_parameterEvents h with ⟨b, rfl⟩ | ⟨kind, span, rfl⟩ | ⟨arity, span, rfl⟩ <;> rfl

theorem innerSteps_plainSteps (n : Concrete) : InnerSteps (plainSteps n) := by
  simp [plainSteps, overSteps, Event.inner]

theorem innerSteps_blockSteps (n : Concrete) : InnerSteps (blockSteps n) := by
  unfold blockSteps
  cases n.childByField? "block" with
  | none => exact innerSteps_nil
  | some block =>
      intro e he
      rcases eq_of_event_mem_attachedSteps he with
        rfl | ⟨b, rfl⟩ | ⟨kind, span, rfl⟩ | ⟨arity, span, rfl⟩ | ⟨arity, span, rfl⟩ |
        ⟨arity, rfl⟩ <;> rfl

theorem role_of_operatorSending {source : ByteArray} {n : Concrete} {call : Sending}
    (h : operatorSending? source n = some call) :
    n.role = .binary ∨ n.role = .unary ∨ n.role = .element := by
  cases operatorForm h with
  | binary hrole => exact Or.inl hrole
  | unary hrole => exact Or.inr (Or.inl hrole)
  | element hrole => exact Or.inr (Or.inr hrole)

/-- An operator and its operands have the extent of their node. -/
theorem span_of_operatorSending {source : ByteArray} {n : Concrete} {call : Sending}
    (h : operatorSending? source n = some call) : call.span = spanOf n := by
  cases operatorForm h <;> rfl

/-- A node that stands for a call lowers the operands of the call and pushes it.  Whatever follows
pushes no further call. -/
theorem agenda_of_sending {source : ByteArray} {n : Concrete} {call : Sending}
    (h : sending? source n = some call) : ∃ tail, InnerSteps tail ∧
      agenda source n = call.operands.map .lower ++
        .event (.pushed call.head call.operands.length call.span) :: tail := by
  unfold sending? at h
  split at h
  · rename_i hrole
    cases h
    exact ⟨blockSteps n, innerSteps_blockSteps n, by
      simp [agenda, hrole, Sending.steps, overSteps]⟩
  · refine ⟨[], innerSteps_nil, ?_⟩
    rcases role_of_operatorSending h with hrole | hrole | hrole <;>
      simp [agenda, hrole, h, Sending.steps, overSteps]

/-- A node that stands for no call pushes none by itself. -/
theorem innerSteps_agenda {source : ByteArray} {n : Concrete} (h : sending? source n = none) :
    InnerSteps (agenda source n) := by
  have hplain := innerSteps_plainSteps n
  have hscoped : ∀ kind, InnerSteps (scopedSteps kind (plainSteps n)) := by
    intro kind
    simp [scopedSteps, hplain, Event.inner]
  have hcall : n.role ≠ .call := fun hrole => by simp [sending?, hrole] at h
  have hoperator : operatorSending? source n = none := by simpa [sending?, hcall] using h
  unfold agenda
  split
  · exact absurd ‹_› hcall
  · simp [Event.inner]
  · rwa [hoperator]
  · rwa [hoperator]
  · rwa [hoperator]
  · rw [innerSteps_append]
    exact ⟨innerSteps_map_bound _, hplain⟩
  · exact hscoped .closure
  · simp [overSteps, Event.inner]
  · exact innerSteps_map_event fun e he => inner_of_mem_parameterEvents he
  · exact hscoped .definition
  · exact hplain

theorem not_enter_of_mem_agenda {source : ByteArray} {n p : Concrete} :
    .event (.enter p) ∉ agenda source n := by
  intro h
  cases hcall : sending? source n with
  | none => simpa [Event.inner] using innerSteps_agenda hcall _ h
  | some call =>
      obtain ⟨tail, htail, hagenda⟩ := agenda_of_sending hcall
      rw [hagenda] at h
      simp only [List.mem_append, List.mem_map, reduceCtorEq, and_false, exists_false,
        List.mem_cons, Step.event.injEq, false_or] at h
      simpa [Event.inner] using htail _ h

/-- From the place where a node is entered on, its own course follows. -/
theorem course_of_enter {source : ByteArray} {root p : Concrete} {before after : List Event}
    (h : course source root = before ++ .enter p :: after) :
    ∃ rest, .enter p :: after = course source p ++ rest := by
  induction root using lowered_induction source generalizing before after with
  | step root ih =>
      rw [course_eq] at h
      cases before with
      | nil =>
          obtain ⟨rfl, rfl⟩ : root = p ∧ stepsCourse source (agenda source root) = after := by
            simpa using h
          exact ⟨[], by rw [course_eq, List.append_nil]⟩
      | cons e before =>
          obtain ⟨first, step, second, u, v, hagenda, hstep, -, rfl⟩ :=
            stepsCourse_split (List.cons.inj h).2
          have hmem : step ∈ agenda source root := by simp [hagenda]
          cases step with
          | lower c =>
              obtain ⟨rest, hrest⟩ := ih c hmem hstep
              refine ⟨rest ++ stepsCourse source second, ?_⟩
              rw [← List.append_assoc, ← hrest, List.cons_append]
          | event e =>
              have he : .enter p ∈ stepCourse source (.event e) := by simp [hstep]
              rw [stepCourse, List.mem_singleton] at he
              exact absurd (he ▸ hmem) not_enter_of_mem_agenda

/-- Every event but the entering of a node belongs to the agenda of a node that was entered
before it. -/
theorem exists_visit {source : ByteArray} {root : Concrete} {before after : List Event} {e : Event}
    (h : course source root = before ++ e :: after) (he : ∀ p, e ≠ .enter p) :
    ∃ outer n done left rest, agenda source n = done ++ .event e :: left ∧
      before = outer ++ .enter n :: stepsCourse source done ∧
      after = stepsCourse source left ++ rest := by
  induction root using lowered_induction source generalizing before after with
  | step root ih =>
      rw [course_eq] at h
      cases before with
      | nil => exact absurd (List.cons.inj h).1.symm (he root)
      | cons e' before =>
          obtain ⟨rfl, hsteps⟩ : .enter root = e' ∧
              stepsCourse source (agenda source root) = before ++ e :: after := List.cons.inj h
          obtain ⟨first, step, second, u, v, hagenda, hstep, rfl, rfl⟩ := stepsCourse_split hsteps
          cases step with
          | lower c =>
              obtain ⟨outer, n, done, left, rest, hn, rfl, rfl⟩ := ih c (by simp [hagenda]) hstep
              exact ⟨.enter root :: stepsCourse source first ++ outer, n, done, left,
                rest ++ stepsCourse source second, hn, by simp, by simp⟩
          | event e' =>
              have hu : u = [] ∧ e' = e ∧ v = [] := by
                cases u with
                | nil => simpa [stepCourse] using hstep
                | cons => simp [stepCourse] at hstep
              obtain ⟨rfl, rfl, rfl⟩ := hu
              exact ⟨[], root, first, second, [], hagenda, by simp, by simp⟩

/-! ## The course of a source -/

/-- The events of a source.  An empty source is not lowered. -/
def courseOf (grammar : Grammar) (source : ByteArray) : List Event :=
  if source.isEmpty then [] else course source (grammar source)

theorem courseOf_eq {grammar : Grammar} {source : ByteArray} (h : source.isEmpty = false) :
    courseOf grammar source = course source (grammar source) :=
  if_neg (by simp [h])

/-- Where anything happens in a source, it is not empty. -/
theorem isEmpty_of_courseOf {grammar : Grammar} {source : ByteArray} {before after : List Event}
    {e : Event} (h : courseOf grammar source = before ++ e :: after) : source.isEmpty = false := by
  rw [← Bool.not_eq_true]
  intro hempty
  simp [courseOf, hempty] at h

end Lowering

end SpecLint
