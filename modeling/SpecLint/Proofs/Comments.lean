import SpecLint.Proofs.Layout

/-!
# Comments

A comment can stand between any two children of a node, but in no field of it.  Lowering takes the
children of a node by field, as parts or by token, and meets no comment on any of these ways.  A
tree is therefore lowered as it is without its comments: from every state the same nodes are pushed
and the same names declared, or the same failure arises.

* `Concrete.withoutComments` — a tree without its comments.
* `Concrete.LooseComments` — the comments among the children of a node stand in no field.
* `Concrete.childByField?_withoutComments`, `Concrete.parts_withoutComments`,
  `Concrete.token?_withoutComments` — what is read of a node, without its comments.
* `lower_withoutComments` — **a node is lowered as it is without its comments**.
* `arenaOf_withoutComments` — **comments do not matter to the arena of a source**.
-/

namespace SpecLint

namespace Concrete

/-! ## Trees without comments -/

/-- Whether a node is a comment. -/
def isComment (n : Concrete) : Bool := n.kind == "comment"

mutual

/-- A tree without the comments below its root. -/
def withoutComments : Concrete → Concrete
  | ⟨kind, named, field, startByte, endByte, row, column, children⟩ =>
      ⟨kind, named, field, startByte, endByte, row, column, uncommented children⟩

/-- Those of some trees that are no comments, without the comments in them. -/
def uncommented : List Concrete → List Concrete
  | [] => []
  | c :: children =>
      if c.isComment then uncommented children else c.withoutComments :: uncommented children

end

/-- Whether the comments among the children of a node stand in no field of it. -/
def LooseComments (n : Concrete) : Prop := ∀ c ∈ n.children, c.isComment → c.field = none

instance : DecidablePred LooseComments := fun n =>
  inferInstanceAs (Decidable (∀ c ∈ n.children, c.isComment → c.field = none))

theorem uncommented_eq (nodes : List Concrete) :
    uncommented nodes = (nodes.filter (!·.isComment)).map withoutComments := by
  induction nodes with
  | nil => rfl
  | cons c nodes ih =>
      rw [uncommented, ih]
      cases hcomment : c.isComment <;> simp [hcomment]

section Fields

variable (n : Concrete)

theorem children_withoutComments :
    n.withoutComments.children = (n.children.filter (!·.isComment)).map withoutComments := by
  rw [← uncommented_eq]
  cases n
  rfl

/-! Apart from its children a node stays as it is. -/

@[simp] theorem kind_withoutComments : n.withoutComments.kind = n.kind := by cases n; rfl

@[simp] theorem named_withoutComments : n.withoutComments.named = n.named := by cases n; rfl

@[simp] theorem field_withoutComments : n.withoutComments.field = n.field := by cases n; rfl

@[simp] theorem startByte_withoutComments : n.withoutComments.startByte = n.startByte := by
  cases n; rfl

@[simp] theorem endByte_withoutComments : n.withoutComments.endByte = n.endByte := by cases n; rfl

@[simp] theorem row_withoutComments : n.withoutComments.row = n.row := by cases n; rfl

@[simp] theorem column_withoutComments : n.withoutComments.column = n.column := by cases n; rfl

@[simp] theorem role_withoutComments : n.withoutComments.role = n.role := by simp [role]

@[simp] theorem isBinding_withoutComments : n.withoutComments.isBinding = n.isBinding := by
  simp [isBinding]

@[simp] theorem text?_withoutComments (source : ByteArray) :
    n.withoutComments.text? source = n.text? source := by
  simp [text?]

end Fields

/-- Below its root a tree without its comments holds no comment. -/
theorem everywhere_withoutComments (n : Concrete) :
    n.withoutComments.Everywhere fun p => ∀ c ∈ p.children, c.isComment = false := by
  have hkept : ∀ c ∈ n.withoutComments.children, c.isComment = false ∧
      ∃ d ∈ n.children, c = d.withoutComments := by
    intro c hc
    rw [children_withoutComments, List.mem_map] at hc
    obtain ⟨d, hd, rfl⟩ := hc
    obtain ⟨hmem, hcomment⟩ := List.mem_filter.1 hd
    exact ⟨by simpa [isComment] using hcomment, d, hmem, rfl⟩
  refine .node (fun c hc => (hkept c hc).1) fun c hc => ?_
  obtain ⟨d, hd, rfl⟩ := (hkept c hc).2
  exact everywhere_withoutComments d
termination_by sizeOf n
decreasing_by exact sizeOf_lt_of_mem_children hd

/-! ## What is read of a node -/

variable {n : Concrete}

/-- What is looked for is found among the nodes that are kept, when every node that fits is kept. -/
theorem find?_filter_of_imp {nodes : List Concrete} {fits kept : Concrete → Bool}
    (h : ∀ c ∈ nodes, fits c = true → kept c = true) :
    (nodes.filter kept).find? fits = nodes.find? fits := by
  induction nodes with
  | nil => rfl
  | cons c nodes ih =>
      obtain ⟨hc, hnodes⟩ := List.forall_mem_cons.1 h
      rw [List.filter_cons, List.find?_cons]
      cases hfits : fits c with
      | true => simp [hc hfits, hfits]
      | false => cases hkept : kept c <;> simp [hfits, ih hnodes]

/-- Among the children that are kept, what is looked for is found as among all. -/
theorem find?_children_withoutComments {fits : Concrete → Bool}
    (hsame : ∀ c : Concrete, fits c.withoutComments = fits c)
    (hcomment : ∀ c ∈ n.children, c.isComment = true → fits c = false) :
    n.withoutComments.children.find? fits = (n.children.find? fits).map withoutComments := by
  have hkept : ∀ c ∈ n.children, fits c = true → (!c.isComment) = true := by
    intro c hc hfits
    cases hc' : c.isComment with
    | false => rfl
    | true => simp [hcomment c hc hc'] at hfits
  have hfits : fits ∘ withoutComments = fits := funext hsame
  rw [children_withoutComments, List.find?_map, hfits, find?_filter_of_imp hkept]

theorem childByField?_withoutComments (h : n.LooseComments) (field : String) :
    n.withoutComments.childByField? field = (n.childByField? field).map withoutComments := by
  apply find?_children_withoutComments
  · simp
  · intro c hc hcomment
    simp [h c hc hcomment]

theorem token?_withoutComments {text : String} (h : text ≠ "comment") :
    n.withoutComments.token? text = (n.token? text).map withoutComments := by
  apply find?_children_withoutComments
  · simp
  · intro c hc hcomment
    have hkind : c.kind = "comment" := by simpa [isComment] using hcomment
    simp [hkind, h.symm]

theorem parts_withoutComments (skipped : List String) :
    n.withoutComments.parts skipped = (n.parts skipped).map withoutComments := by
  unfold parts
  rw [children_withoutComments, List.filter_map, List.filter_filter]
  refine congrArg (List.map withoutComments) (List.filter_congr fun c _ => ?_)
  simp only [Function.comp_apply, named_withoutComments, kind_withoutComments,
    field_withoutComments, isComment, bne]
  cases c.kind == "comment" <;> simp

end Concrete

/-! ## Lowering -/

namespace Lowering

open Concrete

section Reading

variable (source : ByteArray) (n : Concrete)

@[simp] theorem spanUntil_withoutComments (stop : Nat) :
    spanUntil n.withoutComments stop = spanUntil n stop := by
  simp [spanUntil]

@[simp] theorem spanOf_withoutComments : spanOf n.withoutComments = spanOf n := by
  simp [spanOf]

@[simp] theorem textOf_withoutComments : textOf source n.withoutComments = textOf source n := by
  simp [textOf]

end Reading

/-- A computation over some nodes is the same over these nodes without their comments. -/
theorem mapM_withoutComments {α : Type} {act : Concrete → LowerM α} {nodes : List Concrete}
    (h : ∀ c ∈ nodes, act c.withoutComments = act c) :
    (nodes.map withoutComments).mapM act = nodes.mapM act := by
  induction nodes with
  | nil => rfl
  | cons c nodes ih =>
      obtain ⟨hc, hnodes⟩ := List.forall_mem_cons.1 h
      rw [List.map_cons, List.mapM_cons, List.mapM_cons, hc, ih hnodes]

theorem forM_withoutComments {act : Concrete → LowerM Unit} {nodes : List Concrete}
    (h : ∀ c ∈ nodes, act c.withoutComments = act c) :
    (nodes.map withoutComments).forM act = nodes.forM act := by
  induction nodes with
  | nil => rfl
  | cons c nodes ih =>
      obtain ⟨hc, hnodes⟩ := List.forall_mem_cons.1 h
      have hrest : forM (nodes.map withoutComments) act = forM nodes act := ih hnodes
      show forM (c.withoutComments :: nodes.map withoutComments) act = forM (c :: nodes) act
      rw [List.forM_cons, List.forM_cons, hc, hrest]

/-! ### One node

The levels below are given by `lower` and `declare`, to which comments do not matter. -/

section OneNode

variable {source : ByteArray} {lower : Concrete → LowerM NodeId}
  {declare : Concrete → LowerM Unit} {n : Concrete}
  (hlower : ∀ c : Concrete, c.Everywhere LooseComments → lower c.withoutComments = lower c)
  (hdeclare : ∀ c : Concrete, c.Everywhere LooseComments → declare c.withoutComments = declare c)
  (hn : n.Everywhere LooseComments)

include hn

theorem childByField?_of_loose (field : String) :
    n.withoutComments.childByField? field = (n.childByField? field).map withoutComments :=
  childByField?_withoutComments hn.here field

theorem loose_of_childByField? {field : String} {c : Concrete}
    (h : n.childByField? field = some c) : c.Everywhere LooseComments :=
  hn.child (mem_children_of_childByField? h)

theorem loose_of_mem_parts {skipped : List String} {c : Concrete} (h : c ∈ n.parts skipped) :
    c.Everywhere LooseComments :=
  hn.child (mem_children_of_mem_parts h)

theorem calledMethod_withoutComments :
    calledMethod source n.withoutComments = calledMethod source n := by
  unfold calledMethod
  rw [childByField?_of_loose hn]
  cases n.childByField? "method" with
  | some method => simp
  | none =>
      rw [token?_withoutComments (by decide), token?_withoutComments (by decide)]
      cases n.token? "." <;> cases n.token? "&." <;> simp

theorem callEnd_withoutComments : callEnd n.withoutComments = callEnd n := by
  unfold callEnd
  rw [childByField?_of_loose hn, childByField?_of_loose hn]
  cases n.childByField? "arguments" <;> cases n.childByField? "method" <;> simp

theorem startFrame_withoutComments : startFrame n.withoutComments = startFrame n := by
  simp [startFrame, childByField?_of_loose hn]

include hlower

theorem mapM_parts_withoutComments (skipped : List String) :
    (n.withoutComments.parts skipped).mapM lower = (n.parts skipped).mapM lower := by
  rw [parts_withoutComments]
  exact mapM_withoutComments fun c hc => hlower c (loose_of_mem_parts hn hc)

theorem lowerPlain_withoutComments : lowerPlain lower n.withoutComments = lowerPlain lower n := by
  simp [lowerPlain, mapM_parts_withoutComments hlower hn]

theorem lowerSequence_withoutComments :
    lowerSequence lower n.withoutComments = lowerSequence lower n := by
  simp [lowerSequence, mapM_parts_withoutComments hlower hn]

theorem lowerClosure_withoutComments :
    lowerClosure lower n.withoutComments = lowerClosure lower n := by
  simp [lowerClosure, lowerPlain_withoutComments hlower hn]

/-- A child in a field is lowered as it is without its comments. -/
theorem lower_of_childByField? {field : String} {c : Concrete}
    (h : n.childByField? field = some c) : lower c.withoutComments = lower c :=
  hlower c (loose_of_childByField? hn h)

theorem lowerBinary_withoutComments :
    lowerBinary source lower n.withoutComments = lowerBinary source lower n := by
  have hplain := lowerPlain_withoutComments hlower hn
  unfold lowerBinary
  simp only [childByField?_of_loose hn]
  cases hleft : n.childByField? "left" with
  | none => exact hplain
  | some left =>
      cases n.childByField? "operator" with
      | none => exact hplain
      | some operator =>
          cases hright : n.childByField? "right" with
          | none => exact hplain
          | some right =>
              simp [hplain, lower_of_childByField? hlower hn hleft,
                lower_of_childByField? hlower hn hright]

theorem lowerUnary_withoutComments :
    lowerUnary source lower n.withoutComments = lowerUnary source lower n := by
  have hplain := lowerPlain_withoutComments hlower hn
  unfold lowerUnary
  simp only [childByField?_of_loose hn]
  cases n.childByField? "operator" with
  | none => exact hplain
  | some operator =>
      cases hoperand : n.childByField? "operand" with
      | none => exact hplain
      | some operand =>
          simp [hplain, lower_of_childByField? hlower hn hoperand]

theorem lowerElement_withoutComments :
    lowerElement lower n.withoutComments = lowerElement lower n := by
  unfold lowerElement
  rw [childByField?_of_loose hn]
  cases hobject : n.childByField? "object" with
  | none => exact lowerPlain_withoutComments hlower hn
  | some object =>
      have hbracket := @token?_withoutComments n "[" (by decide)
      simp only [Option.map_some, lower_of_childByField? hlower hn hobject,
        mapM_parts_withoutComments hlower hn, hbracket]
      cases n.token? "[" <;> simp

theorem lowerReceiver_withoutComments :
    lowerReceiver lower n.withoutComments = lowerReceiver lower n := by
  unfold lowerReceiver
  rw [childByField?_of_loose hn]
  cases hreceiver : n.childByField? "receiver" with
  | none => rfl
  | some receiver => simp [lower_of_childByField? hlower hn hreceiver]

theorem lowerArguments_withoutComments :
    lowerArguments lower n.withoutComments = lowerArguments lower n := by
  unfold lowerArguments
  rw [childByField?_of_loose hn]
  cases harguments : n.childByField? "arguments" with
  | none => rfl
  | some arguments =>
      exact mapM_parts_withoutComments hlower (loose_of_childByField? hn harguments) []

theorem lowerBlockBody_withoutComments :
    lowerBlockBody lower n.withoutComments = lowerBlockBody lower n := by
  unfold lowerBlockBody
  rw [childByField?_of_loose hn]
  cases hbody : n.childByField? "body" with
  | some body => simp [lower_of_childByField? hlower hn hbody]
  | none => simp [mapM_parts_withoutComments hlower hn]

omit hlower

include hdeclare

theorem lowerParameters_withoutComments :
    lowerParameters declare n.withoutComments = lowerParameters declare n := by
  have hparameter : ∀ c ∈ n.parts [],
      lowerParameter declare c.withoutComments = lowerParameter declare c := by
    intro c hc
    simp [lowerParameter, hdeclare c (loose_of_mem_parts hn hc)]
  simp [lowerParameters, parts_withoutComments, mapM_withoutComments hparameter]

theorem lowerBlockParams_withoutComments :
    lowerBlockParams declare n.withoutComments = lowerBlockParams declare n := by
  unfold lowerBlockParams
  rw [childByField?_of_loose hn]
  cases hparams : n.childByField? "parameters" with
  | none => simp
  | some params =>
      exact lowerParameters_withoutComments hdeclare (loose_of_childByField? hn hparams)

include hlower

theorem lowerAttachedBlock_withoutComments (call : NodeId) (span : Span) :
    lowerAttachedBlock lower declare call n.withoutComments span =
      lowerAttachedBlock lower declare call n span := by
  simp [lowerAttachedBlock, startFrame_withoutComments hn,
    lowerBlockParams_withoutComments hdeclare hn, lowerBlockBody_withoutComments hlower hn]

theorem lowerAssignment_withoutComments :
    lowerAssignment lower declare n.withoutComments = lowerAssignment lower declare n := by
  unfold lowerAssignment
  rw [childByField?_of_loose hn, lowerPlain_withoutComments hlower hn]
  cases htarget : n.childByField? "left" with
  | none => rfl
  | some target => simp [hdeclare target (loose_of_childByField? hn htarget)]

theorem lowerCall_withoutComments :
    lowerCall source lower declare n.withoutComments = lowerCall source lower declare n := by
  unfold lowerCall
  rw [lowerReceiver_withoutComments hlower hn, calledMethod_withoutComments hn,
    lowerArguments_withoutComments hlower hn, callEnd_withoutComments hn,
    childByField?_of_loose hn, token?_withoutComments (by decide)]
  cases hblock : n.childByField? "block" with
  | none => simp
  | some block =>
      simp [lowerAttachedBlock_withoutComments hlower hdeclare (loose_of_childByField? hn hblock)]

theorem lowerNode_withoutComments :
    lowerNode source lower declare n.withoutComments = lowerNode source lower declare n := by
  unfold lowerNode
  rw [role_withoutComments]
  cases n.role with
  | call => exact lowerCall_withoutComments hlower hdeclare hn
  | identifier => simp [lowerIdentifier]
  | binary => exact lowerBinary_withoutComments hlower hn
  | unary => exact lowerUnary_withoutComments hlower hn
  | element => exact lowerElement_withoutComments hlower hn
  | assignment => exact lowerAssignment_withoutComments hlower hdeclare hn
  | closure => exact lowerClosure_withoutComments hlower hn
  | sequence => exact lowerSequence_withoutComments hlower hn
  | parameterList => exact lowerParameters_withoutComments hdeclare hn
  | definition => simp [lowerPlain_withoutComments hlower hn]
  | plain => exact lowerPlain_withoutComments hlower hn

end OneNode

/-! ### All levels -/

variable {source : ByteArray} {n : Concrete}

theorem declareTargets_withoutComments (levels : Nat) (hn : n.Everywhere LooseComments) :
    declareTargets source levels n.withoutComments = declareTargets source levels n := by
  induction levels generalizing n with
  | zero => rfl
  | succ levels ih =>
      have hparts := @forM_withoutComments (declareTargets source levels) (n.parts ["value"])
        fun c hc => ih (loose_of_mem_parts hn hc)
      simp [declareTargets, parts_withoutComments, hparts]

/-- **A node is lowered as it is without its comments**, from every state. -/
theorem lower_withoutComments (levels : Nat) (hn : n.Everywhere LooseComments) :
    lower source levels n.withoutComments = lower source levels n := by
  induction levels generalizing n with
  | zero => rfl
  | succ levels ih =>
      refine congrArg inLevel ?_
      exact lowerNode_withoutComments (fun c => ih) (fun c => declareTargets_withoutComments levels)
        hn

/-- **Comments do not matter to the arena of a source**: it is the same arena, or the same failure,
when they are taken out of the tree. -/
theorem arenaOf_withoutComments {grammar : Grammar}
    (h : (grammar source).Everywhere LooseComments) :
    arenaOf (fun source => (grammar source).withoutComments) source = arenaOf grammar source := by
  unfold arenaOf
  rw [lower_withoutComments maxLevels h]

/-- The tree of `expect(# a` and, on the next line, `x).b`, without its parentheses and its dot. -/
def commentedChain : Concrete :=
  ⟨"call", true, none, 0, 15, 0, 0,
    [⟨"call", true, some "receiver", 0, 13, 0, 0,
        [⟨"identifier", true, some "method", 0, 6, 0, 0, []⟩,
          ⟨"argument_list", true, some "arguments", 6, 13, 0, 6,
            [⟨"comment", true, none, 7, 10, 0, 7, []⟩,
              ⟨"identifier", true, none, 11, 12, 1, 0, []⟩]⟩]⟩,
      ⟨"identifier", true, some "method", 14, 15, 1, 3, []⟩]⟩

/-- A comment among the arguments of `expect` counts as no argument. -/
theorem arenaOf_withoutComments_chain : ∃ arena,
    arenaOf (fun _ => commentedChain.withoutComments) "expect(# a\nx).b".toUTF8 = .ok arena ∧
    arenaOf (fun _ => commentedChain) "expect(# a\nx).b".toUTF8 = .ok arena ∧
    (arena.get? 1).map Node.shape =
      some (.send { receiver := none, method := "expect", arguments := [0],
                    selector := ⟨0, 6, 1, 1⟩ }) := by
  refine ⟨_, ?_, rfl, by decide +kernel⟩
  exact @arenaOf_withoutComments _ (fun _ => commentedChain) (by decide +kernel)

end Lowering

end SpecLint
