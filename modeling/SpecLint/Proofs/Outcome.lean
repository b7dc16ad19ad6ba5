import SpecLint.Proofs.Depth
import SpecLint.Proofs.Replay.Simulation

/-!
# When lowering succeeds

Lowering fails for two reasons: it runs out of levels, or it reads a text that is not valid UTF-8.
Neither depends on the arena, the scopes or the frames.  `Settles d act fits readable` says so of a
computation: from every state at depth `d`, `fits` and `readable` decide how `act` ends, and where
it succeeds it is at depth `d` again.  There is one statement for each construct, as for the replay
of a course.

* `Settles.bind`, `settles_mapM`, `settles_forM`, `settles_inScope`, `settles_inFrame`,
  `settles_inLevel` — how outcomes compose.
* `settles_lower` — **the outcome of lowering a subtree**.
* `arenaOf_outcome` — **the exact condition under which a source is lowered**.
* `exists_sourceTooLong` — a source that only its size keeps from being lowered.
-/

namespace SpecLint

namespace Lowering

/-- How `act` ends, from whatever state at depth `d` it starts: it succeeds only where `fits` and
`readable` hold, it runs out of levels only where `fits` fails, and it meets a text that is not valid
UTF-8 only where `readable` fails. -/
structure Settles {α : Type} (d : Nat) (act : LowerM α) (fits readable : Prop) : Prop where
  /-- Where `act` succeeds. -/
  ok : ∀ {s a s'}, s.depth = d → act.run s = (.ok a, s') → (fits ∧ readable) ∧ s'.depth = d
  /-- Where `act` fails. -/
  error : ∀ {s failure s'}, s.depth = d → act.run s = (.error failure, s') →
    failure = .nestedTooDeep ∧ ¬fits ∨ failure = .nameNotUtf8 ∧ ¬readable

section Compose

variable {α β : Type} {d : Nat} {p p' q q' : Prop} {x : LowerM α}

theorem run_bind_error {f : α → LowerM β} {s s' : State} {failure : Failure}
    (h : (x >>= f).run s = (.error failure, s')) :
    x.run s = (.error failure, s') ∨
      ∃ a middle, x.run s = (.ok a, middle) ∧ (f a).run middle = (.error failure, s') := by
  rw [run_bind] at h
  split at h
  · rename_i a middle hx
    exact Or.inr ⟨a, middle, hx, h⟩
  · rename_i failure' middle hx
    obtain ⟨hfailure, rfl⟩ := Prod.mk.inj h
    exact Or.inl (Except.error.inj hfailure ▸ hx)

theorem Settles.congr (h : Settles d x p q) (hp : p ↔ p') (hq : q ↔ q') : Settles d x p' q' :=
  propext hp ▸ propext hq ▸ h

/-- A computation that cannot fail and stays at its depth. -/
theorem settles_of_total (h : ∀ s, ∃ a s', x.run s = (.ok a, s') ∧ s'.depth = s.depth) :
    Settles d x True True where
  ok := by
    rintro s a s' rfl hrun
    obtain ⟨a', s'', hok, hdepth⟩ := h s
    rw [hok] at hrun
    cases hrun
    exact ⟨⟨trivial, trivial⟩, hdepth⟩
  error := by
    intro s failure s' _ hrun
    obtain ⟨a, s'', hok, -⟩ := h s
    rw [hok] at hrun
    cases hrun

theorem settles_pure (a : α) : Settles d (pure a) True True :=
  settles_of_total fun s => ⟨a, s, rfl, rfl⟩

theorem settles_push (shape : Shape) (span : Span) : Settles d (push shape span) True True :=
  settles_of_total fun _ => ⟨_, _, rfl, rfl⟩

theorem settles_modify {f : State → State} (h : ∀ s, (f s).depth = s.depth) :
    Settles d (modify f) True True :=
  settles_of_total fun s => ⟨_, _, rfl, h s⟩

theorem settles_get : Settles d (get : LowerM State) True True :=
  settles_of_total fun _ => ⟨_, _, rfl, rfl⟩

/-- One computation after the other.  The second one counts only for what the first returns. -/
theorem Settles.bind {f : α → LowerM β} (hx : Settles d x p q)
    (hf : ∀ {s a s'}, x.run s = (.ok a, s') → Settles d (f a) p' q') :
    Settles d (x >>= f) (p ∧ p') (q ∧ q') where
  ok := by
    intro s b s' hd h
    obtain ⟨a, middle, ha, hb⟩ := run_bind_ok h
    obtain ⟨⟨hp, hq⟩, hd'⟩ := hx.ok hd ha
    obtain ⟨⟨hp', hq'⟩, hd''⟩ := (hf ha).ok hd' hb
    exact ⟨⟨⟨hp, hp'⟩, hq, hq'⟩, hd''⟩
  error := by
    intro s failure s' hd h
    rcases run_bind_error h with hfirst | ⟨a, middle, ha, hsecond⟩
    · exact (hx.error hd hfirst).imp (And.imp_right fun hp h => hp h.1)
        (And.imp_right fun hq h => hq h.1)
    · exact ((hf ha).error (hx.ok hd ha).2 hsecond).imp (And.imp_right fun hp h => hp h.2)
        (And.imp_right fun hq h => hq h.2)

/-- A computation followed by one that cannot fail. -/
theorem Settles.bind_total {f : α → LowerM β} (hx : Settles d x p q)
    (hf : ∀ a, Settles d (f a) True True) : Settles d (x >>= f) p q :=
  (hx.bind fun {_ a _} _ => hf a).congr (and_iff_left trivial) (and_iff_left trivial)

/-- A computation after one that cannot fail. -/
theorem settles_total_bind {f : α → LowerM β} (hx : Settles d x True True)
    (hf : ∀ a, Settles d (f a) p q) : Settles d (x >>= f) p q :=
  (hx.bind fun {_ a _} _ => hf a).congr (and_iff_right trivial) (and_iff_right trivial)

variable {fits readable : Concrete → Prop} {items : List Concrete}

theorem settles_mapM {act : Concrete → LowerM α}
    (h : ∀ c ∈ items, Settles d (act c) (fits c) (readable c)) :
    Settles d (items.mapM act) (∀ c ∈ items, fits c) (∀ c ∈ items, readable c) := by
  induction items with
  | nil => exact (settles_pure []).congr (by simp) (by simp)
  | cons c items ih =>
      rw [List.mapM_cons]
      have hrest := ih fun d hd => h d (List.mem_cons_of_mem _ hd)
      refine Settles.congr ((h c List.mem_cons_self).bind fun _ => hrest.bind_total fun ids =>
        settles_pure _) ?_ ?_ <;> rw [List.forall_mem_cons]

theorem settles_forM {act : Concrete → LowerM Unit}
    (h : ∀ c ∈ items, Settles d (act c) (fits c) (readable c)) :
    Settles d (items.forM act) (∀ c ∈ items, fits c) (∀ c ∈ items, readable c) := by
  induction items with
  | nil => exact (settles_pure ()).congr (by simp) (by simp)
  | cons c items ih =>
      have hrest := ih fun d hd => h d (List.mem_cons_of_mem _ hd)
      refine Settles.congr ((h c List.mem_cons_self).bind fun _ => hrest) ?_ ?_ <;>
        rw [List.forall_mem_cons]

theorem settles_inScope (inherit : Bool) (h : Settles d x p q) :
    Settles d (inScope inherit x) p q where
  ok := by
    intro s a s' hd hrun
    obtain ⟨middle, hx, rfl⟩ := run_inScope_ok hrun
    obtain ⟨hpq, hdepth⟩ := h.ok (s := s.openScope inherit) hd hx
    exact ⟨hpq, hdepth⟩
  error := by
    intro s failure s' hd hrun
    have hx : (x.run (s.openScope inherit)).1 = .error failure := congrArg Prod.fst hrun
    exact h.error (s := s.openScope inherit) hd (Prod.ext hx rfl)

theorem settles_inFrame (frame : Frame) (h : Settles d x p q) :
    Settles d (inFrame frame x) p q where
  ok := by
    rintro s ⟨a, last⟩ s' hd hrun
    obtain ⟨middle, hx, -, rfl⟩ := run_inFrame_ok hrun
    obtain ⟨hpq, hdepth⟩ := h.ok (s := s.openFrame frame) hd hx
    exact ⟨hpq, hdepth⟩
  error := by
    intro s failure s' hd hrun
    have hmap : (x.run (s.openFrame frame)).1.map (·, (x.run (s.openFrame frame)).2.frame) =
      .error failure := congrArg Prod.fst hrun
    rcases hx : x.run (s.openFrame frame) with ⟨failure' | a, middle⟩
    · rw [hx] at hmap
      cases hmap
      exact h.error (s := s.openFrame frame) hd hx
    · rw [hx] at hmap
      cases hmap

/-- One level further down there is one level less. -/
theorem settles_inLevel (h : Settles (d + 1) x p q) :
    Settles d (inLevel x) (d < maxLevels ∧ p) q where
  ok := by
    rintro s a s' rfl hrun
    rw [run_inLevel] at hrun
    split at hrun
    · cases hrun
    · rename_i hfits
      obtain ⟨hresult, rfl⟩ := Prod.mk.inj hrun
      obtain ⟨⟨hp, hq⟩, hdepth⟩ := h.ok (s := s.descend) rfl (Prod.ext hresult rfl)
      refine ⟨⟨⟨Nat.not_le.1 hfits, hp⟩, hq⟩, ?_⟩
      rw [State.ascend, hdepth, Nat.add_sub_cancel]
  error := by
    rintro s failure s' rfl hrun
    rw [run_inLevel] at hrun
    split at hrun
    · rename_i hdeep
      cases hrun
      exact Or.inl ⟨rfl, fun hfits => absurd hfits.1 (Nat.not_lt.2 hdeep)⟩
    · have hx : (x.run s.descend).1 = .error failure := congrArg Prod.fst hrun
      exact (h.error (s := s.descend) rfl (Prod.ext hx rfl)).imp_left
        (And.imp_right fun hp h => hp h.2)

end Compose

variable {source : ByteArray} {d : Nat}

theorem settles_textOf (n : Concrete) :
    Settles d (textOf source n) True (n.text? source).isSome := by
  unfold textOf
  cases n.text? source with
  | some text => exact (settles_pure text).congr Iff.rfl (by simp)
  | none =>
      constructor
      · intro s a s' _ h
        cases h
      · intro s failure s' _ h
        cases h
        exact Or.inr ⟨rfl, by simp⟩

/-- Reading a text decides on one that is not valid UTF-8; what comes after it is about a valid
one. -/
theorem Settles.of_text {α : Type} {n : Concrete} {f : String → LowerM α} {p q : Prop}
    (h : ∀ name, n.text? source = some name → Settles d (f name) p q) :
    Settles d (textOf source n >>= f) p ((n.text? source).isSome ∧ q) :=
  ((settles_textOf n).bind fun {_ name _} hname => h name (run_textOf_ok hname).1).congr
    (and_iff_right trivial) Iff.rfl

/-! ## Declarations -/

theorem settles_declareTargets (levels : Nat) (n : Concrete) (hlevels : maxLevels ≤ d + levels) :
    Settles d (declareTargets source levels n) (d + targetDepth n ≤ maxLevels)
      (Valid source (targets n)) := by
  induction levels generalizing n d with
  | zero =>
      constructor
      · intro s a s' _ h
        cases h
      · intro s failure s' _ h
        cases h
        have hpos := @not_targetDepth_le_zero n
        exact Or.inl ⟨rfl, by omega⟩
  | succ levels ih =>
      have hdown : maxLevels ≤ d + 1 + levels := by omega
      rw [declareTargets, targets_eq, add_targetDepth_le_iff, nestedTargets]
      refine settles_inLevel ?_
      by_cases hident : n.role = .identifier
      · simp only [if_pos hident]
        exact (Settles.of_text fun name _ => settles_modify fun s =>
          s.depth_declare name).congr (by simp [hident])
            ((and_iff_left trivial).trans valid_singleton.symm)
      · by_cases hbinding : n.isBinding = true
        · simp only [if_neg hident, if_pos hbinding]
          exact (settles_forM fun c _ => ih c hdown).congr (by simp [hident, hbinding])
            valid_flatMap.symm
        · simp only [if_neg hident, if_neg hbinding]
          exact (settles_pure ()).congr (by simp [hbinding]) (by simp [valid_nil])

section Constructs

variable {lower : Concrete → LowerM NodeId} {declare : Concrete → LowerM Unit}
  {fits readable fitsTarget : Concrete → Prop} {n : Concrete}

/-- What is known of the functions that lower a node and declare a target from depth `d`. -/
structure Levels (source : ByteArray) (d : Nat) (lower : Concrete → LowerM NodeId)
    (declare : Concrete → LowerM Unit) (fits readable fitsTarget : Concrete → Prop) : Prop where
  /-- How lowering a node ends. -/
  lower : ∀ c, Settles d (lower c) (fits c) (readable c)
  /-- How declaring a target ends. -/
  declare : ∀ c, Settles d (declare c) (fitsTarget c) (Valid source (targets c))

variable (hdown : Levels source d lower declare fits readable fitsTarget)

include hdown

theorem settles_lowerPlain : Settles d (lowerPlain lower n) (∀ c ∈ n.parts ["name"], fits c)
    (∀ c ∈ n.parts ["name"], readable c) :=
  (settles_mapM fun c _ => hdown.lower c).bind_total fun _ => settles_push _ _

theorem settles_lowerSequence : Settles d (lowerSequence lower n) (∀ c ∈ n.parts [], fits c)
    (∀ c ∈ n.parts [], readable c) :=
  (settles_mapM fun c _ => hdown.lower c).bind_total fun _ => settles_push _ _

theorem settles_lowerParameters (params : Concrete) : Settles d (lowerParameters declare params)
    (∀ c ∈ params.parts [], fitsTarget c) (∀ c ∈ params.parts [], Valid source (targets c)) := by
  refine (settles_mapM fun c _ => ?_).bind_total fun _ => settles_push _ _
  exact (hdown.declare c).bind_total fun _ => settles_push _ _

theorem settles_lowerAssignment : Settles d (lowerAssignment lower declare n)
    ((∀ c ∈ n.parts ["name"], fits c) ∧ ∀ c ∈ (n.childByField? "left").toList, fitsTarget c)
    ((∀ c ∈ (n.childByField? "left").toList, Valid source (targets c)) ∧
      ∀ c ∈ n.parts ["name"], readable c) := by
  unfold lowerAssignment
  have hplain := settles_lowerPlain hdown (n := n)
  cases n.childByField? "left" with
  | none => exact hplain.congr (by simp) (by simp)
  | some target =>
      exact ((hdown.declare target).bind fun _ => hplain).congr (by simp [and_comm]) (by simp)

theorem settles_lowerClosure : Settles d (lowerClosure lower n) (∀ c ∈ n.parts ["name"], fits c)
    (∀ c ∈ n.parts ["name"], readable c) :=
  (settles_inFrame _ (settles_inScope _ (settles_lowerPlain hdown))).bind_total fun _ =>
    settles_pure _

omit hdown in
theorem settles_lowerIdentifier :
    Settles d (lowerIdentifier source n) True (n.text? source).isSome := by
  refine (Settles.of_text fun name _ => settles_total_bind settles_get fun s => ?_).congr Iff.rfl
    (and_iff_left trivial)
  split
  · exact settles_push _ _
  · split
    · exact settles_total_bind (settles_modify State.depth_useImplicit) fun _ => settles_push _ _
    · exact settles_push _ _

/-! ### Operators -/

/-- An operator without its operands is kept without reading a text. -/
theorem settles_incomplete (hlowered : loweredFrom source n = n.parts ["name"])
    (hnames : namesRead n = []) : Settles d (lowerPlain lower n) (∀ c ∈ loweredFrom source n, fits c)
    (Valid source (namesRead n) ∧ ∀ c ∈ loweredFrom source n, readable c) := by
  rw [hlowered, hnames]
  exact (settles_lowerPlain hdown).congr Iff.rfl (by simp [valid_nil])

theorem settles_lowerBinary (hrole : n.role = .binary) : Settles d (lowerBinary source lower n)
    (∀ c ∈ loweredFrom source n, fits c)
    (Valid source (namesRead n) ∧ ∀ c ∈ loweredFrom source n, readable c) := by
  unfold lowerBinary
  split
  · rename_i left operator right hleft hoperator hright
    have hnames : namesRead n = [operator] := by simp [namesRead, hrole, hleft, hoperator, hright]
    refine (Settles.of_text fun method htext => ?_).congr Iff.rfl
      (and_congr_left' (hnames ▸ valid_singleton.symm))
    have hname : nameOf source operator = method := by simp [nameOf, htext]
    by_cases hlogical : logicalOperators.contains method = true
    · have hlowered : loweredFrom source n = n.parts ["name"] := by
        simp only [loweredFrom, operatorSending?, hrole, hleft, hoperator, hright, hname,
          if_pos hlogical]
      rw [if_pos hlogical, hlowered]
      exact settles_lowerPlain hdown
    · have hlowered : loweredFrom source n = [left, right] := by
        simp only [loweredFrom, operatorSending?, hrole, hleft, hoperator, hright, hname,
          if_neg hlogical]
        rfl
      rw [if_neg hlogical, hlowered]
      refine Settles.congr ((hdown.lower left).bind fun _ =>
        (hdown.lower right).bind_total fun _ => settles_push _ _) ?_ ?_ <;> simp
  · rename_i hnone
    exact settles_incomplete hdown (by simp only [loweredFrom, operatorSending?, hrole])
      (by simp only [namesRead, hrole])

theorem settles_lowerUnary (hrole : n.role = .unary) : Settles d (lowerUnary source lower n)
    (∀ c ∈ loweredFrom source n, fits c)
    (Valid source (namesRead n) ∧ ∀ c ∈ loweredFrom source n, readable c) := by
  unfold lowerUnary
  split
  · rename_i operator operand hoperator hoperand
    have hnames : namesRead n = [operator] := by simp [namesRead, hrole, hoperator, hoperand]
    refine (Settles.of_text fun text htext => ?_).congr Iff.rfl
      (and_congr_left' (hnames ▸ valid_singleton.symm))
    have hname : nameOf source operator = text := by simp [nameOf, htext]
    cases hmethod : unaryMethod? text with
    | some method =>
        have hlowered : loweredFrom source n = [operand] := by
          simp only [loweredFrom, operatorSending?, hrole, hoperator, hoperand, hname, hmethod]
          rfl
        rw [hlowered]
        refine Settles.congr ((hdown.lower operand).bind_total fun _ => settles_push _ _) ?_ ?_ <;>
          simp
    | none =>
        have hlowered : loweredFrom source n = n.parts ["name"] := by
          simp only [loweredFrom, operatorSending?, hrole, hoperator, hoperand, hname, hmethod,
            Option.map_none]
        rw [hlowered]
        exact settles_lowerPlain hdown
  · rename_i hnone
    exact settles_incomplete hdown (by simp only [loweredFrom, operatorSending?, hrole])
      (by simp only [namesRead, hrole])

theorem settles_lowerElement (hrole : n.role = .element) : Settles d (lowerElement lower n)
    (∀ c ∈ loweredFrom source n, fits c) (∀ c ∈ loweredFrom source n, readable c) := by
  unfold lowerElement
  split
  · rename_i object hobject
    have hlowered : loweredFrom source n = object :: n.parts ["object"] := by
      simp only [loweredFrom, operatorSending?, hrole, hobject, Option.map_some]
      rfl
    rw [hlowered]
    refine Settles.congr ((hdown.lower object).bind fun _ =>
      (settles_mapM fun c _ => hdown.lower c).bind_total fun _ => settles_push _ _) ?_ ?_ <;>
      rw [List.forall_mem_cons]
  · rename_i hobject
    have hlowered : loweredFrom source n = n.parts ["name"] := by
      simp only [loweredFrom, operatorSending?, hrole, hobject, Option.map_none]
    rw [hlowered]
    exact settles_lowerPlain hdown

/-! ### Calls and their blocks -/

theorem settles_lowerBlockParams (block : Concrete) : Settles d (lowerBlockParams declare block)
    (∀ c ∈ blockParameters block, fitsTarget c)
    (∀ c ∈ blockParameters block, Valid source (targets c)) := by
  unfold lowerBlockParams blockParameters
  cases block.childByField? "parameters" with
  | some params => exact (settles_lowerParameters hdown params).congr (by simp) (by simp)
  | none => exact (settles_push _ _).congr (by simp) (by simp)

theorem settles_lowerBlockBody (block : Concrete) : Settles d (lowerBlockBody lower block)
    (∀ c ∈ blockItems block, fits c) (∀ c ∈ blockItems block, readable c) := by
  unfold lowerBlockBody blockItems
  cases block.childByField? "body" with
  | some body =>
      exact ((hdown.lower body).bind_total fun _ => settles_pure _).congr (by simp) (by simp)
  | none =>
      refine (settles_mapM fun c _ => hdown.lower c).bind_total fun ids => ?_
      split
      · exact settles_pure _
      · exact (settles_push _ _).bind_total fun _ => settles_pure _

theorem settles_lowerAttachedBlock (call : NodeId) (block : Concrete) (span : Span) :
    Settles d (lowerAttachedBlock lower declare call block span)
      ((∀ c ∈ blockParameters block, fitsTarget c) ∧ ∀ c ∈ blockItems block, fits c)
      ((∀ c ∈ blockParameters block, Valid source (targets c)) ∧
        ∀ c ∈ blockItems block, readable c) := by
  refine (settles_inFrame _ (settles_inScope _ ((settles_lowerBlockParams hdown block).bind
    fun _ => (settles_lowerBlockBody hdown block).bind_total fun _ => settles_pure _))).bind_total
      fun result => ?_
  obtain ⟨⟨params, body⟩, frame⟩ := result
  dsimp only
  split
  · exact settles_push _ _
  · exact settles_push _ _

theorem settles_lowerReceiver : Settles d (lowerReceiver lower n)
    (∀ c ∈ (n.childByField? "receiver").toList, fits c)
    (∀ c ∈ (n.childByField? "receiver").toList, readable c) := by
  unfold lowerReceiver
  cases n.childByField? "receiver" with
  | some receiver =>
      exact ((hdown.lower receiver).bind_total fun _ => settles_pure _).congr (by simp) (by simp)
  | none => exact (settles_pure _).congr (by simp) (by simp)

omit hdown in
theorem settles_calledMethod :
    Settles d (calledMethod source n) True (Valid source (n.childByField? "method").toList) := by
  unfold calledMethod
  cases n.childByField? "method" with
  | some method =>
      exact ((settles_textOf method).bind_total fun _ => settles_pure _).congr Iff.rfl
        valid_singleton.symm
  | none => exact (settles_pure _).congr Iff.rfl (by simp [valid_nil])

theorem settles_lowerArguments : Settles d (lowerArguments lower n)
    (∀ c ∈ callArguments n, fits c) (∀ c ∈ callArguments n, readable c) := by
  unfold lowerArguments callArguments
  cases n.childByField? "arguments" with
  | some arguments => exact settles_mapM fun c _ => hdown.lower c
  | none => exact (settles_pure _).congr (by simp) (by simp)

theorem settles_lowerCall (hrole : n.role = .call) : Settles d (lowerCall source lower declare n)
    ((∀ c ∈ loweredFrom source n, fits c) ∧ ∀ c ∈ declaredFrom n, fitsTarget c)
    ((Valid source (namesRead n) ∧ ∀ c ∈ declaredFrom n, Valid source (targets c)) ∧
      ∀ c ∈ loweredFrom source n, readable c) := by
  have hoperands : (callSending source n).operands =
      (n.childByField? "receiver").toList ++ callArguments n := rfl
  -- what follows the push of the call is decided by the field of the block
  have hblock {call : NodeId} {act : LowerM NodeId}
      (hsome : ∀ block, n.childByField? "block" = some block →
        act = lowerAttachedBlock lower declare call block (spanOf n))
      (hnone : n.childByField? "block" = none → act = pure call) : Settles d act
      ((∀ c ∈ (n.childByField? "block").toList.flatMap blockParameters, fitsTarget c) ∧
        ∀ c ∈ (n.childByField? "block").toList.flatMap blockItems, fits c)
      ((∀ c ∈ (n.childByField? "block").toList.flatMap blockParameters,
          Valid source (targets c)) ∧
        ∀ c ∈ (n.childByField? "block").toList.flatMap blockItems, readable c) := by
    cases hchild : n.childByField? "block" with
    | some block =>
        rw [hsome block hchild]
        exact (settles_lowerAttachedBlock hdown call block (spanOf n)).congr (by simp) (by simp)
    | none =>
        rw [hnone hchild]
        exact (settles_pure call).congr (by simp) (by simp)
  simp only [loweredFrom, declaredFrom, namesRead, hrole, hoperands, List.forall_mem_append]
  refine Settles.congr ((settles_lowerReceiver hdown).bind fun _ => settles_calledMethod.bind
    fun {_ method _} _ => (settles_lowerArguments hdown).bind fun _ =>
      settles_total_bind (settles_push _ _) fun _ =>
        hblock (fun block h => by rw [h]) fun h => by rw [h]) ?_ ?_
  · constructor
    · rintro ⟨hr, -, ha, hp, hi⟩
      exact ⟨⟨⟨hr, ha⟩, hi⟩, hp⟩
    · rintro ⟨⟨⟨hr, ha⟩, hi⟩, hp⟩
      exact ⟨hr, trivial, ha, hp, hi⟩
  · constructor
    · rintro ⟨hr, hm, ha, hp, hi⟩
      exact ⟨⟨hm, hp⟩, ⟨hr, ha⟩, hi⟩
    · rintro ⟨⟨hm, hp⟩, ⟨hr, ha⟩, hi⟩
      exact ⟨hr, hm, ha, hp, hi⟩

/-! ### Any node -/

theorem settles_lowerNode : Settles d (lowerNode source lower declare n)
    ((∀ c ∈ loweredFrom source n, fits c) ∧ ∀ c ∈ declaredFrom n, fitsTarget c)
    ((Valid source (namesRead n) ∧ ∀ c ∈ declaredFrom n, Valid source (targets c)) ∧
      ∀ c ∈ loweredFrom source n, readable c) := by
  unfold lowerNode
  cases hrole : n.role with
  | call => exact settles_lowerCall hdown hrole
  | identifier =>
      exact settles_lowerIdentifier.congr (by simp [loweredFrom, declaredFrom, hrole])
        (by simp [loweredFrom, declaredFrom, namesRead, hrole, Valid])
  | binary =>
      exact (settles_lowerBinary hdown hrole).congr (by simp [declaredFrom, hrole])
        (by simp [declaredFrom, hrole])
  | unary =>
      exact (settles_lowerUnary hdown hrole).congr (by simp [declaredFrom, hrole])
        (by simp [declaredFrom, hrole])
  | element =>
      exact (settles_lowerElement hdown hrole).congr (by simp [declaredFrom, hrole])
        (by simp [declaredFrom, namesRead, hrole, Valid])
  | assignment =>
      exact (settles_lowerAssignment hdown).congr (by simp [loweredFrom, declaredFrom, hrole])
        (by simp [loweredFrom, declaredFrom, namesRead, hrole, Valid])
  | closure =>
      exact (settles_lowerClosure hdown).congr (by simp [loweredFrom, declaredFrom, hrole])
        (by simp [loweredFrom, declaredFrom, namesRead, hrole, Valid])
  | sequence =>
      exact (settles_lowerSequence hdown).congr (by simp [loweredFrom, declaredFrom, hrole])
        (by simp [loweredFrom, declaredFrom, namesRead, hrole, Valid])
  | parameterList =>
      exact (settles_lowerParameters hdown n).congr (by simp [loweredFrom, declaredFrom, hrole])
        (by simp [loweredFrom, declaredFrom, namesRead, hrole, Valid])
  | definition =>
      exact (settles_inScope false (settles_lowerPlain hdown)).congr
        (by simp [loweredFrom, declaredFrom, hrole])
        (by simp [loweredFrom, declaredFrom, namesRead, hrole, Valid])
  | plain =>
      exact (settles_lowerPlain hdown).congr (by simp [loweredFrom, declaredFrom, hrole])
        (by simp [loweredFrom, declaredFrom, namesRead, hrole, Valid])

end Constructs

/-- **The outcome of lowering a subtree**, from any state at depth `d` and with any number of levels
that together reach `maxLevels`. -/
theorem settles_lower (levels : Nat) (n : Concrete) (hlevels : maxLevels ≤ d + levels) :
    Settles d (lower source levels n) (d + lowerDepth source n ≤ maxLevels)
      (Readable source n) := by
  induction levels generalizing n d with
  | zero =>
      constructor
      · intro s a s' _ h
        cases h
      · intro s failure s' _ h
        cases h
        have hpos := @not_lowerDepth_le_zero source n
        exact Or.inl ⟨rfl, by omega⟩
  | succ levels ih =>
      have hdown : maxLevels ≤ d + 1 + levels := by omega
      exact (settles_inLevel (settles_lowerNode ⟨fun c => ih c hdown, fun c =>
        settles_declareTargets levels c hdown⟩)).congr add_lowerDepth_le_iff.symm
          readable_iff.symm

/-- The outcome of lowering a whole tree. -/
theorem settles_root (n : Concrete) :
    Settles 0 (lower source maxLevels n) (lowerDepth source n ≤ maxLevels) (Readable source n) :=
  (settles_lower maxLevels n (Nat.le_add_left _ _)).congr (by rw [Nat.zero_add]) Iff.rfl

/-- Whether lowering succeeds does not depend on the state, its depth aside. -/
theorem run_lower_ok {n : Concrete} {s : State} (hdepth : s.depth = 0)
    (hfits : lowerDepth source n ≤ maxLevels) (hreadable : Readable source n) :
    ∃ id t, (lower source maxLevels n).run s = (.ok id, t) := by
  rcases h : (lower source maxLevels n).run s with ⟨failure | id, t⟩
  · rcases (settles_root n).error hdepth h with ⟨-, hdeep⟩ | ⟨-, hinvalid⟩
    · exact absurd hfits hdeep
    · exact absurd hreadable hinvalid
  · exact ⟨id, t, rfl⟩

/-! ## The outcome for a source file -/

section Source

variable {grammar : Grammar}

/-- Why a source is not lowered. -/
theorem error_of_arenaOf (hsource : source.isEmpty = false) {failure : Failure}
    (h : arenaOf grammar source = .error failure) :
    failure = .sourceTooLong ∧ maxSourceSize < source.size ∨
      failure = .nestedTooDeep ∧ ¬lowerDepth source (grammar source) ≤ maxLevels ∨
      failure = .nameNotUtf8 ∧ ¬Readable source (grammar source) := by
  unfold arenaOf at h
  rw [hsource] at h
  split at h
  · rename_i hsize
    exact Or.inl ⟨(Except.error.inj h).symm, hsize⟩
  · simp only [Bool.false_eq_true, if_false] at h
    split at h
    · cases h
    · rename_i failure' s hrun
      cases h
      exact Or.inr ((settles_root (grammar source)).error rfl hrun)

/-- A source that is too long is refused before it is parsed. -/
theorem arenaOf_of_long (h : maxSourceSize < source.size) :
    arenaOf grammar source = .error .sourceTooLong := by
  rw [arenaOf, if_pos h]

theorem arenaOf_eq_ok_iff (hsource : source.isEmpty = false) :
    (∃ arena, arenaOf grammar source = .ok arena) ↔ source.size ≤ maxSourceSize ∧
      lowerDepth source (grammar source) ≤ maxLevels ∧ Readable source (grammar source) := by
  constructor
  · rintro ⟨arena, h⟩
    unfold arenaOf at h
    rw [hsource] at h
    split at h
    · cases h
    · rename_i hsize
      simp only [Bool.false_eq_true, if_false] at h
      split at h
      · rename_i root s hrun
        exact ⟨Nat.not_lt.1 hsize, ((settles_root (grammar source)).ok rfl hrun).1⟩
      · cases h
  · rintro ⟨hsize, hfits, hreadable⟩
    cases h : arenaOf grammar source with
    | ok arena => exact ⟨arena, rfl⟩
    | error failure =>
        rcases error_of_arenaOf hsource h with ⟨-, hlong⟩ | ⟨-, hdeep⟩ | ⟨-, hinvalid⟩
        · exact absurd hsize (Nat.not_le.2 hlong)
        · exact absurd hfits hdeep
        · exact absurd hreadable hinvalid

/-- **The exact condition under which a source is lowered.**  It is no longer than 32-bit offsets
reach, its tree takes at most `maxLevels` levels, and every text that lowering reads is valid UTF-8.
A source with readable texts fails only for its depth, one that is not too deep fails only for a
text, and what is not read never makes it fail.  The size of the source comes first: what is too
long is refused whatever its tree would be. -/
theorem arenaOf_outcome {grammar : Grammar} {source : ByteArray}
    (hsource : source.isEmpty = false) :
    ((∃ arena, arenaOf grammar source = .ok arena) ↔ source.size ≤ maxSourceSize ∧
      lowerDepth source (grammar source) ≤ maxLevels ∧ Readable source (grammar source)) ∧
    (Readable source (grammar source) → ∀ failure, arenaOf grammar source = .error failure →
      failure = .nestedTooDeep ∨ failure = .sourceTooLong ∧ maxSourceSize < source.size) ∧
    (lowerDepth source (grammar source) ≤ maxLevels → ∀ failure,
      arenaOf grammar source = .error failure →
        failure = .nameNotUtf8 ∨ failure = .sourceTooLong ∧ maxSourceSize < source.size) ∧
    ((grammar source).height ≤ maxLevels → arenaOf grammar source ≠ .error .nestedTooDeep) ∧
    (arenaOf grammar source = .error .nameNotUtf8 →
      ∃ p t, Reached source (grammar source) p ∧ t ∈ textsRead p ∧ t.text? source = none) ∧
    (maxSourceSize < source.size → arenaOf grammar source = .error .sourceTooLong) := by
  refine ⟨arenaOf_eq_ok_iff hsource, fun hreadable failure h => ?_, fun hfits failure h => ?_,
    fun hheight h => ?_, fun h => ?_, arenaOf_of_long⟩
  · rcases error_of_arenaOf hsource h with hlong | ⟨rfl, -⟩ | ⟨-, hinvalid⟩
    · exact Or.inr hlong
    · exact Or.inl rfl
    · exact absurd hreadable hinvalid
  · rcases error_of_arenaOf hsource h with hlong | ⟨-, hdeep⟩ | ⟨rfl, -⟩
    · exact Or.inr hlong
    · exact absurd hfits hdeep
    · exact Or.inl rfl
  · rcases error_of_arenaOf hsource h with ⟨heq, -⟩ | ⟨-, hdeep⟩ | ⟨heq, -⟩
    · cases heq
    · exact hdeep (lowerDepth_le_of_height_le hheight)
    · cases heq
  · rcases error_of_arenaOf hsource h with ⟨heq, -⟩ | ⟨heq, -⟩ | ⟨-, hinvalid⟩
    · cases heq
    · cases heq
    · simpa [Readable, Valid] using hinvalid

/-- The tree of a call of `a` with a string of one byte as its argument. -/
def callWithString : Concrete :=
  ⟨"call", true, none, 0, 5, 0, 0,
    [⟨"identifier", true, some "method", 0, 1, 0, 0, []⟩,
      ⟨"argument_list", true, some "arguments", 2, 5, 0, 2,
        [⟨"string", true, none, 2, 5, 0, 2, []⟩]⟩]⟩

/-- The bytes of `a "?"` where the byte in the string starts no character. -/
def invalidString : ByteArray := ⟨#[97, 32, 34, 255, 34]⟩

/-- A string that is not valid UTF-8 does not make lowering fail. -/
theorem arenaOf_outcome_string : String.fromUTF8? invalidString = none ∧
    ∃ arena, arenaOf (fun _ => callWithString) invalidString = .ok arena := by
  refine ⟨by decide, (arenaOf_outcome (by decide)).1.2 ⟨by decide, ?_, ?_⟩⟩
  · refine lowerDepth_le_of_height_le ?_
    simp [callWithString, Concrete.height, deepest, maxLevels]
  · -- the name of the method is read, and nothing of the string
    have hname : Valid invalidString (namesRead callWithString) := valid_singleton.2 rfl
    have hstring : loweredFrom invalidString callWithString =
      [⟨"string", true, none, 2, 5, 0, 2, []⟩] := rfl
    refine readable_iff.2 ⟨⟨hname, List.forall_mem_nil _⟩, ?_⟩
    rw [hstring, List.forall_mem_singleton]
    exact readable_iff.2 ⟨⟨valid_nil, List.forall_mem_nil _⟩, List.forall_mem_nil _⟩

/-- A tree without anything in it. -/
def emptyProgram : Concrete := ⟨"program", true, none, 0, 0, 0, 0, []⟩

/-- **A source can fail without being deep and without a text that is not valid UTF-8**: one blank
more than offsets reach. -/
theorem exists_sourceTooLong : ∃ source : ByteArray,
    source = ⟨Array.replicate (maxSourceSize + 1) 32⟩ ∧ source.isEmpty = false ∧
    emptyProgram.startByte ≤ emptyProgram.endByte ∧ emptyProgram.endByte ≤ source.size ∧
    emptyProgram.children = [] ∧ lowerDepth source emptyProgram ≤ maxLevels ∧
    Readable source emptyProgram ∧
    arenaOf (fun _ => emptyProgram) source = .error .sourceTooLong := by
  have hsize : (⟨Array.replicate (maxSourceSize + 1) 32⟩ : ByteArray).size = maxSourceSize + 1 :=
    Array.size_replicate
  generalize (⟨Array.replicate (maxSourceSize + 1) 32⟩ : ByteArray) = source at hsize
  have hlong : maxSourceSize < source.size := by
    rw [hsize]
    exact Nat.lt_add_one maxSourceSize
  have hsource : source.isEmpty = false := by simp [ByteArray.isEmpty, hsize, maxSourceSize]
  refine ⟨source, rfl, hsource, Nat.le_refl _, Nat.zero_le _, rfl, ?_, ?_, arenaOf_of_long hlong⟩
  · refine lowerDepth_le_of_height_le ?_
    simp [emptyProgram, Concrete.height, deepest, maxLevels]
  · exact readable_iff.2 ⟨⟨valid_nil, List.forall_mem_nil _⟩, List.forall_mem_nil _⟩

end Source

end Lowering

end SpecLint
