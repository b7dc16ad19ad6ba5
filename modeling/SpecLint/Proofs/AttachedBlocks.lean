import SpecLint.Proofs.Calls
import SpecLint.Proofs.ImplicitParameters
import SpecLint.Proofs.WellFormed

/-!
# What becomes of an attached block

A call with an attached block becomes a node that wraps the two.  The node says whether the block
takes implicit parameters, as `it` or `_1` to `_9`.  A block takes them if it lists no parameters
and reads one of these names in its own body, which leaves out the bodies of the blocks and lambdas
inside.

A definition opens a scope but no block frame, so that its body counts as part of the block around
it: a read of `it` in a nested definition makes the block take implicit parameters
(`exists_block_implicit_by_definition`).

* `ReadsOwn`, `ReadsInDefinition` — reads in the body itself and in a definition nested in it.
* `takesImplicit_iff` — a block takes implicit parameters where it reads one in either way.
* `shape_of_attached` — **the node that wraps call and block**.
-/

namespace SpecLint

namespace Lowering

variable {source : ByteArray}

/-! ## Reads in a block -/

/-- Whether an implicit parameter that is no local variable is read among the events `inside`, where
the scopes between the read and the innermost scope open after the events `before` are as `between`
says. -/
def ReadsBetween (source : ByteArray) (between : List Opened → Prop) (before inside : List Event) :
    Prop :=
  ∃ earlier n later, inside = earlier ++ .read n :: later ∧
    isImplicitParameter (nameOf source n) = true ∧
    ¬ Binds source (before ++ earlier) (nameOf source n) ∧
    ∃ inner, scopesAround (before ++ earlier) = inner ++ scopesAround before ∧ between inner

/-- Whether a block that is lowered after the events `before` reads an implicit parameter, with the
scopes between as `between` says. -/
def BlockReads (source : ByteArray) (between : List Opened → Prop) (before : List Event)
    (block : Concrete) : Prop :=
  ReadsBetween source between (before ++ [.opened (blockScope block)])
    (blockParamEvents block ++ stepsCourse source (blockBodySteps block))

/-- Whether a block reads an implicit parameter in its own body, outside of the blocks, lambdas and
definitions in it. -/
def ReadsOwn (source : ByteArray) (before : List Event) (block : Concrete) : Prop :=
  BlockReads source (fun inner => inner = []) before block

/-- Whether an implicit parameter is read in a definition that stands in a block, outside of the
blocks and lambdas in it. -/
def ReadsInDefinition (source : ByteArray) (before : List Event) (block : Concrete) : Prop :=
  BlockReads source (fun inner => inner ≠ [] ∧ ∀ o ∈ inner, o.kind = .definition) before block

theorem readsImplicit_iff {before inside : List Event} : ReadsImplicit source before inside ↔
    ReadsBetween source (fun inner => inner = []) before inside ∨
      ReadsBetween source (fun inner => inner ≠ [] ∧ ∀ o ∈ inner, o.kind = .definition)
        before inside := by
  constructor
  · rintro ⟨earlier, n, later, hsplit, himplicit, hbinds, inner, hscopes, hinner⟩
    by_cases hnone : inner = []
    · exact Or.inl ⟨earlier, n, later, hsplit, himplicit, hbinds, inner, hscopes, hnone⟩
    · exact Or.inr ⟨earlier, n, later, hsplit, himplicit, hbinds, inner, hscopes, hnone, hinner⟩
  · rintro (⟨earlier, n, later, hsplit, himplicit, hbinds, inner, hscopes, rfl⟩ |
      ⟨earlier, n, later, hsplit, himplicit, hbinds, inner, hscopes, -, hinner⟩)
    · exact ⟨earlier, n, later, hsplit, himplicit, hbinds, [], hscopes, by simp⟩
    · exact ⟨earlier, n, later, hsplit, himplicit, hbinds, inner, hscopes, hinner⟩

/-- **When a block takes implicit parameters.** -/
theorem takesImplicit_iff {before : List Event} {block : Concrete} :
    TakesImplicit source before block ↔ block.childByField? "parameters" = none ∧
      (ReadsOwn source before block ∨ ReadsInDefinition source before block) :=
  and_congr_right fun _ => readsImplicit_iff

/-! ## The node for a call and its block -/

/-- The id of the node that the subtree of `n` leaves, which is entered after the events `before`:
the last one that its course pushes. -/
def rootId (source : ByteArray) (before : List Event) (n : Concrete) : NodeId :=
  pushes before + pushes (course source n) - 1

/-- The events before the block of the call `n`, which is entered after the events `before`. -/
def beforeBlock (source : ByteArray) (before : List Event) (n : Concrete) : List Event :=
  before ++ .enter n :: stepsCourse source (callSending source n).steps

/-- What stands in a course around the push of the node that wraps a call and its block. -/
theorem visit_of_attached {root n block : Concrete} {before after : List Event}
    (hvisit : course source root = before ++ .enter n :: after) (hrole : n.role = .call)
    (hblock : n.childByField? "block" = some block) : ∃ rest,
    course source root = (beforeBlock source before n ++ blockCourse source block) ++
        .wrapped (if (blockItems block).isEmpty then 2 else 3) (spanOf n) :: rest ∧
      pushes (beforeBlock source before n ++ blockCourse source block) =
        rootId source before n := by
  obtain ⟨rest, hrest⟩ := course_of_enter hvisit
  have hcourse := @course_of_attached source n block hrole hblock
  refine ⟨rest, ?_, ?_⟩
  · rw [hvisit, hrest, hcourse, beforeBlock]
    simp
  · have hlast : pushes [.wrapped (if (blockItems block).isEmpty then 2 else 3) (spanOf n)] = 1 :=
      rfl
    have hevents : pushes (course source n) =
        pushes (.enter n :: (stepsCourse source (callSending source n).steps ++
          blockCourse source block)) + 1 := by
      rw [hcourse, pushes_append, hlast]
    rw [rootId, hevents, beforeBlock, List.append_assoc, pushes_append, List.cons_append]
    omega

/-- **The node that wraps a call and its block.**  It names the call and says whether the block
takes implicit parameters: that is so exactly where the block lists no parameters and an implicit
parameter is read in its own body or in a definition nested there. -/
theorem shape_of_attached {grammar : Grammar} {source : ByteArray} {arena : Arena}
    (h : arenaOf grammar source = .ok arena) {before after : List Event} {n block : Concrete}
    (hrole : n.role = .call) (hblock : n.childByField? "block" = some block)
    (hvisit : courseOf grammar source = before ++ .enter n :: after) :
    ∃ b : Block,
      (∃ call, arena.call? b.call = some call ∧ call.method = (callSending source n).method ∧
        call.selector = (callSending source n).selector) ∧
      (block.childByField? "parameters" = none ∧
          (ReadsOwn source (beforeBlock source before n) block ∨
            ReadsInDefinition source (beforeBlock source before n) block) →
        arena.form? (rootId source before n) = some (.numBlock b, spanOf n)) ∧
      (¬ (block.childByField? "parameters" = none ∧
          (ReadsOwn source (beforeBlock source before n) block ∨
            ReadsInDefinition source (beforeBlock source before n) block)) →
        arena.form? (rootId source before n) = some (.block b, spanOf n)) := by
  have hsource := isEmpty_of_courseOf hvisit
  rw [courseOf_eq hsource] at hvisit
  obtain ⟨root, -, -, hform⟩ := forest_arenaOf hsource h
  obtain ⟨rest, hevents, hid⟩ := visit_of_attached hvisit hrole hblock
  have hpush := form?_of_push source ⟨{}, []⟩ hevents rfl
  rw [size_replay_empty, hid, ← hform] at hpush
  obtain ⟨id, arguments, params, items, span, body, hwrapped, hcall, -, -, -⟩ :=
    @wrapped_attached source (replay source ⟨{}, []⟩ (before ++ [.enter n]))
      (callSending source n) block (spanOf n)
  have hmachine : replay source (replay source ⟨{}, []⟩ (before ++ [.enter n]))
      (stepsCourse source (callSending source n).steps ++ blockCourse source block) =
        replay source ⟨{}, []⟩ (beforeBlock source before n ++ blockCourse source block) := by
    rw [← replay_append, beforeBlock]
    simp
  rw [hmachine] at hwrapped hcall
  rw [hwrapped] at hpush
  -- the frame of the block says which of the two shapes the node has
  have hframe := frame_of_block (show course source (grammar source) =
    beforeBlock source before n ++ (blockCourse source block ++
      .wrapped (if (blockItems block).isEmpty then 2 else 3) (spanOf n) :: rest) by
    rw [hevents, List.append_assoc])
  have hsend : arena.form? id = some (.send (pushedCall source
      (replay source ⟨{}, []⟩ (before ++ [.enter n])) (callSending source n) arguments),
      (callSending source n).span) := by
    rw [hform, hevents, replay_append, form?_replay_of_eq_some source hcall]
  refine ⟨{ call := id, params, body }, ⟨_, Arena.call?_eq_some.2 ⟨_, hsend⟩, rfl, rfl⟩,
    fun himplicit => ?_, fun himplicit => ?_⟩
  · rw [hpush, hframe.2 (takesImplicit_iff.2 himplicit)]
    rfl
  · rw [hpush, beq_eq_false_iff_ne.2 (mt hframe.1 (mt takesImplicit_iff.1 himplicit))]
    rfl

/-! ## Two blocks -/

/-- A name is resolved, and nothing else. -/
theorem course_of_name {n : Concrete} (hrole : n.role = .identifier) :
    course source n = [.enter n, .read n] := by
  simp [course_eq, agenda, hrole, stepCourse]

/-- Whether an event declares a name. -/
def Event.declares : Event → Bool
  | .bound _ => true
  | _ => false

/-- No name is a local variable where none was declared. -/
theorem not_binds {before : List Event} (h : before.any Event.declares = false) (name : String) :
    ¬ Binds source before name := by
  rintro ⟨earlier, b, later, rfl, -⟩
  simp [Event.declares] at h

/-- A bare name that starts at the given byte. -/
def nameAt (start stop : Nat) (field : Option String) : Concrete :=
  ⟨"identifier", true, field, start, stop, 0, start, []⟩

/-- A block that holds `item`, its braces left out. -/
def blockOf (stop : Nat) (item : Concrete) : Concrete :=
  ⟨"block", true, some "block", 2, stop, 0, 2, [item]⟩

/-- A call of `f` with a block that holds `item`. -/
def callWithBlock (stop : Nat) (item : Concrete) : Concrete :=
  ⟨"call", true, none, 0, stop, 0, 0, [nameAt 0 1 (some "method"), blockOf stop item]⟩

/-- The block of `f { it }` takes implicit parameters. -/
theorem shape_of_attached_it : ∃ arena b,
    arenaOf (fun _ => callWithBlock 8 (nameAt 4 6 none)) "f { it }".toUTF8 = .ok arena ∧
      arena.form? 4 = some (.numBlock b, ⟨0, 8, 1, 1⟩) := by
  obtain ⟨arena, harena⟩ : ∃ arena, arenaOf (fun _ => callWithBlock 8 (nameAt 4 6 none))
      "f { it }".toUTF8 = .ok arena := ⟨_, rfl⟩
  have hname : course "f { it }".toUTF8 (nameAt 4 6 none) =
      [.enter (nameAt 4 6 none), .read (nameAt 4 6 none)] := course_of_name (by rfl)
  have hvisit : courseOf (fun _ => callWithBlock 8 (nameAt 4 6 none)) "f { it }".toUTF8 =
      [] ++ .enter (callWithBlock 8 (nameAt 4 6 none)) :: _ := course_eq _ _
  obtain ⟨b, -, himplicit, -⟩ := shape_of_attached harena (by rfl) (by rfl) hvisit
  have hroot : rootId "f { it }".toUTF8 [] (callWithBlock 8 (nameAt 4 6 none)) = 4 := by
    rw [rootId, course_eq]
    show pushes [] +
      pushes ([_, _, _, _] ++ course "f { it }".toUTF8 (nameAt 4 6 none) ++ [_, _]) - 1 = 4
    rw [hname]
    rfl
  refine ⟨arena, b, harena, ?_⟩
  rw [← hroot]
  refine himplicit ⟨by rfl, Or.inl ?_⟩
  have hinside : blockParamEvents (blockOf 8 (nameAt 4 6 none)) ++
      stepsCourse "f { it }".toUTF8 (blockBodySteps (blockOf 8 (nameAt 4 6 none))) =
        [.pushed .params 0 ⟨2, 2, 1, 3⟩, .enter (nameAt 4 6 none)] ++
          .read (nameAt 4 6 none) :: [.pushed .sequence 1 ⟨2, 8, 1, 3⟩] := by
    show [_] ++ (course "f { it }".toUTF8 (nameAt 4 6 none) ++ [_]) = _
    rw [hname]
    rfl
  exact ⟨_, _, _, hinside, by decide, not_binds rfl _, [], rfl, rfl⟩

/-- The tree of `def m; it; end` in a block, its tokens left out. -/
def definitionInBlock : Concrete :=
  ⟨"method", true, none, 4, 18, 0, 4, [nameAt 8 9 (some "name"), nameAt 11 13 none]⟩

/-- **A read in a nested definition makes a block take implicit parameters**: in
`f { def m; it; end }` the block reads none in its own body. -/
theorem exists_block_implicit_by_definition : ∃ arena n block before after b,
    arenaOf (fun _ => n) "f { def m; it; end }".toUTF8 = .ok arena ∧ n.role = .call ∧
      n.childByField? "block" = some block ∧
      courseOf (fun _ => n) "f { def m; it; end }".toUTF8 = before ++ .enter n :: after ∧
      arena.form? (rootId "f { def m; it; end }".toUTF8 before n) =
        some (.numBlock b, spanOf n) ∧
      ¬ ReadsOwn "f { def m; it; end }".toUTF8
        (beforeBlock "f { def m; it; end }".toUTF8 before n) block := by
  have hname : course "f { def m; it; end }".toUTF8 (nameAt 11 13 none) =
      [.enter (nameAt 11 13 none), .read (nameAt 11 13 none)] := course_of_name (by rfl)
  have hdefinition : course "f { def m; it; end }".toUTF8 definitionInBlock =
      [.enter definitionInBlock, .opened .definition, .enter (nameAt 11 13 none),
        .read (nameAt 11 13 none), .pushed (.other "method") 1 (spanOf definitionInBlock),
        .closed .definition] := by
    rw [course_eq]
    show [_, _] ++ course _ _ ++ [_, _] = _
    rw [hname]
    rfl
  have hroot : rootId "f { def m; it; end }".toUTF8 [] (callWithBlock 20 definitionInBlock) =
      5 := by
    rw [rootId, course_eq]
    show pushes [] +
      pushes ([_, _, _, _] ++ course "f { def m; it; end }".toUTF8 definitionInBlock ++ [_, _]) -
        1 = 5
    rw [hdefinition]
    rfl
  refine ⟨_, callWithBlock 20 definitionInBlock, _, [], _, _, rfl, by rfl, rfl, course_eq _ _,
    by rw [hroot]; rfl, ?_⟩
  rintro ⟨earlier, n, later, hsplit, -, -, inner, hscopes, rfl⟩
  replace hsplit : [_] ++ (course "f { def m; it; end }".toUTF8 definitionInBlock ++ [_]) =
    earlier ++ .read n :: later := hsplit
  rw [hdefinition] at hsplit
  -- the one read among these events comes after three others, one of which opens the definition
  rcases earlier with _ | ⟨_, _ | ⟨_, _ | ⟨_, _ | ⟨_, _ | ⟨_, _ | ⟨_, _ | ⟨_, _ | ⟨_, _⟩⟩⟩⟩⟩⟩⟩⟩ <;>
    simp at hsplit
  obtain ⟨rfl, rfl, rfl, rfl, -⟩ := hsplit
  exact absurd (congrArg List.length hscopes) (by decide)

end Lowering

end SpecLint
