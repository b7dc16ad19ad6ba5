import SpecLint.Proofs.Correspondence

/-!
# More runners

Where methods are added to the runners, the calls of these methods are assertions from then on and
are no longer reported.  Every other misuse is one as before.  No two misuses share a selector, so
that no report was hidden behind one that is gone, and the reports that stay keep their order.

* `Arena.misuse?_of_subset` — the misuses that are left under more runners.
* `Arena.misuseAt?` — the misuse that is reported at a span.
* `lint_of_more_runners` — **more runners remove exactly the offenses of these runners**.
* `exists_misuse_coming_forward` — they do more where a dot holds the arguments of a call.
-/

namespace SpecLint

/-- The configuration with other runners. -/
def Config.withRunners (config : Config) (runners : RunnerSet) : Config := { config with runners }

theorem RunnerSet.contains_of_subset {few many : RunnerSet} (h : few.toList ⊆ many.toList)
    {method : String} (hmethod : few.contains method = true) : many.contains method = true := by
  rw [contains, List.contains_iff_mem] at *
  exact h hmethod

namespace Arena

variable {a : Arena} {runners few many : RunnerSet} {call : Call}

/-! ## Misuses under more runners -/

/-- Of the offending calls those are left whose method has not become a runner. -/
theorem offendingCall?_of_subset (h : few.toList ⊆ many.toList) (target : NodeId) :
    a.offendingCall? many target =
      (a.offendingCall? few target).filter fun call => !many.contains call.method := by
  ext call
  rw [Option.filter_eq_some_iff, offendingCall?_eq_some, offendingCall?_eq_some]
  constructor
  · rintro ⟨id, hparent, hcall, hsafe, hreceiver, hmany⟩
    have hfew : few.contains call.method = false := by
      rw [← Bool.not_eq_true]
      intro hcontains
      rw [RunnerSet.contains_of_subset h hcontains] at hmany
      cases hmany
    exact ⟨⟨id, hparent, hcall, hsafe, hreceiver, hfew⟩, by simp [hmany]⟩
  · rintro ⟨⟨id, hparent, hcall, hsafe, hreceiver, -⟩, hmany⟩
    exact ⟨id, hparent, hcall, hsafe, hreceiver, by simpa using hmany⟩

/-- The misuses that are left under more runners. -/
theorem misuse?_of_subset (h : few.toList ⊆ many.toList) (id : NodeId) :
    a.misuse? many id = (a.misuse? few id).filter fun call => !many.contains call.method := by
  unfold misuse?
  cases a.isExpectation id with
  | true => exact offendingCall?_of_subset h (a.chainedOnto id)
  | false => rfl

/-! ## The misuse at a span -/

/-- The misuse whose method name stands at `span`: the first one in the order of the walk. -/
def misuseAt? (a : Arena) (runners : RunnerSet) (span : Span) : Option Call :=
  (a.preorder.filterMap (a.misuse? runners)).find? fun call => call.selector == span

/-- A misuse is found at its selector, where misuses have different selectors. -/
theorem misuseAt?_selector
    (hselectors : ∀ id id' call call', a.misuse? runners id = some call →
      a.misuse? runners id' = some call' → call.selector = call'.selector → id = id')
    (h : call ∈ a.preorder.filterMap (a.misuse? runners)) :
    a.misuseAt? runners call.selector = some call := by
  unfold misuseAt?
  cases hfind : (a.preorder.filterMap (a.misuse? runners)).find?
      fun c => c.selector == call.selector with
  | none => simpa using List.find?_eq_none.1 hfind call h
  | some found =>
      obtain ⟨id, -, hid⟩ := List.mem_filterMap.1 h
      obtain ⟨id', -, hid'⟩ := List.mem_filterMap.1 (List.mem_of_find?_eq_some hfind)
      have hselector : found.selector = call.selector := by simpa using List.find?_some hfind
      obtain rfl : id' = id := hselectors _ _ _ _ hid' hid hselector
      rw [← hid', hid]

end Arena

namespace Lowering

variable {grammar : Grammar} {source : ByteArray} {arena : Arena} {config : Config}
  {few many : RunnerSet}

/-- **More runners remove exactly the offenses of these runners.**  Each offense is that of the
misuse at its span, and those are left, in their order, whose method has not become a runner. -/
theorem lint_of_more_runners (henabled : (config.settings expectationTarget.name).enabled = true)
    (hnested : (grammar source).WellNested) (hdots : (grammar source).Everywhere Concrete.BareDots)
    (hinside : (grammar source).endByte ≤ source.size)
    (h : arenaOf grammar source = .ok arena) (hsubset : few.toList ⊆ many.toList) :
    ∃ before after,
      (Dispatcher.ofRules allRules (config.withRunners few)).lint grammar source = .ok before ∧
      (Dispatcher.ofRules allRules (config.withRunners many)).lint grammar source = .ok after ∧
      (∀ o ∈ before.toList, ∃ call, arena.misuseAt? few o.span = some call ∧
        o = misuseOffense config call) ∧
      after.toList = before.toList.filter fun o =>
        !(arena.misuseAt? few o.span).any fun call => many.contains call.method := by
  have hrun : ∀ runners, ∃ offenses,
      (Dispatcher.ofRules allRules (config.withRunners runners)).lint grammar source =
          .ok offenses ∧
        offenses.toList =
          (arena.preorder.filterMap (arena.misuse? runners)).map (misuseOffense config) := by
    intro runners
    obtain ⟨hnodup, hselectors⟩ :=
      @misuses_of_wellNested grammar source arena hnested hdots hinside h runners
    refine ⟨(Dispatcher.ofRules allRules (config.withRunners runners)).run arena, ?_, ?_⟩
    · rw [Dispatcher.lint, h]
      rfl
    · exact @toList_run_of_injective arena (config.withRunners runners) henabled hnodup hselectors
  obtain ⟨before, hbefore, hmisuses⟩ := hrun few
  obtain ⟨after, hafter, hleft⟩ := hrun many
  have hat : ∀ call ∈ arena.preorder.filterMap (arena.misuse? few),
      arena.misuseAt? few call.selector = some call := by
    intro call hcall
    exact Arena.misuseAt?_selector (misuses_of_wellNested hnested hdots hinside h).2 hcall
  refine ⟨before, after, hbefore, hafter, ?_, ?_⟩
  · intro o ho
    rw [hmisuses] at ho
    obtain ⟨call, hcall, rfl⟩ := List.mem_map.1 ho
    exact ⟨call, hat call hcall, rfl⟩
  · have hfewer : arena.preorder.filterMap (arena.misuse? many) =
        (arena.preorder.filterMap (arena.misuse? few)).filter
          fun call => !many.contains call.method := by
      rw [List.filter_filterMap]
      exact congrArg (List.filterMap · _) (funext (Arena.misuse?_of_subset hsubset))
    rw [hleft, hfewer, hmisuses, List.filter_map]
    refine congrArg (List.map _) (List.filter_congr fun call hcall => ?_)
    simp [misuseOffense, hat call hcall]

/-- With `b` among the runners the outer one of the two calls of `expect(expect.a).b` is no longer
reported. -/
theorem lint_of_more_runners_nested : ∃ arena before after,
    arenaOf (fun _ => nestedMisuses) "expect(expect.a).b".toUTF8 = .ok arena ∧
    (Dispatcher.ofRules allRules (({} : Config).withRunners (.ofList ["to"]))).lint
        (fun _ => nestedMisuses) "expect(expect.a).b".toUTF8 = .ok before ∧
    (Dispatcher.ofRules allRules (({} : Config).withRunners (.ofList ["b", "to"]))).lint
        (fun _ => nestedMisuses) "expect(expect.a).b".toUTF8 = .ok after ∧
    before.toList.map Offense.span = [⟨17, 18, 1, 18⟩, ⟨14, 15, 1, 15⟩] ∧
    after.toList = before.toList.filter fun o =>
      !(arena.misuseAt? (.ofList ["to"]) o.span).any
        fun call => (RunnerSet.ofList ["b", "to"]).contains call.method := by
  obtain ⟨arena, harena⟩ : ∃ arena,
      arenaOf (fun _ => nestedMisuses) "expect(expect.a).b".toUTF8 = .ok arena := ⟨_, rfl⟩
  obtain ⟨before, after, hbefore, hafter, -, hleft⟩ := @lint_of_more_runners
    (fun _ => nestedMisuses) _ _ {} (.ofList ["to"]) (.ofList ["b", "to"]) rfl
    wellNested_nestedMisuses bareDots_nestedMisuses (by decide) harena (by decide)
  refine ⟨arena, before, after, harena, hbefore, hafter, ?_, hleft⟩
  have hspans : ((Dispatcher.ofRules allRules (({} : Config).withRunners (.ofList ["to"]))).lint
      (fun _ => nestedMisuses) "expect(expect.a).b".toUTF8).toOption.map
        (·.toList.map Offense.span) = some [⟨17, 18, 1, 18⟩, ⟨14, 15, 1, 15⟩] := by decide +kernel
  rw [hbefore] at hspans
  exact Option.some.inj hspans

/-- **Where a dot is no leaf, a report can come forward**: the call at the dot is no longer
reported, and the misuse that was hidden behind it is. -/
theorem exists_misuse_coming_forward : ∃ (arena : Arena) (before after : Offenses)
    (few many : RunnerSet), dotWithArguments.WellNested ∧
    dotWithArguments.endByte ≤ "expect expect".toUTF8.size ∧
    arenaOf (fun _ => dotWithArguments) "expect expect".toUTF8 = .ok arena ∧
    few.toList ⊆ many.toList ∧
    (Dispatcher.ofRules allRules (({} : Config).withRunners few)).lint
        (fun _ => dotWithArguments) "expect expect".toUTF8 = .ok before ∧
    (Dispatcher.ofRules allRules (({} : Config).withRunners many)).lint
        (fun _ => dotWithArguments) "expect expect".toUTF8 = .ok after ∧
    (before.toList.filter fun o =>
      !(arena.misuseAt? few o.span).any fun call => many.contains call.method) = [] ∧
    after.toList.length = 1 := by
  obtain ⟨arena, harena, hleft, hafter⟩ : ∃ arena,
      arenaOf (fun _ => dotWithArguments) "expect expect".toUTF8 = .ok arena ∧
      (((Dispatcher.ofRules allRules (({} : Config).withRunners (.ofList ["to"]))).run
        arena).toList.filter fun o => !(arena.misuseAt? (.ofList ["to"]) o.span).any fun call =>
          (RunnerSet.ofList ["call", "to"]).contains call.method) = [] ∧
      ((Dispatcher.ofRules allRules (({} : Config).withRunners (.ofList ["call", "to"]))).run
        arena).toList.length = 1 := ⟨_, rfl, by decide +kernel, by decide +kernel⟩
  refine ⟨arena, _, _, .ofList ["to"], .ofList ["call", "to"], wellNested_dotWithArguments,
    by decide, harena, by decide, ?_, ?_, hleft, hafter⟩
  · rw [Dispatcher.lint, harena]
    rfl
  · rw [Dispatcher.lint, harena]
    rfl

end Lowering

end SpecLint
