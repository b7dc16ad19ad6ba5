import Mathlib.Data.List.Basic
import Mathlib.Data.List.Infix
import SpecLint.Inspection
import SpecLint.Proofs.Discovery
import SpecLint.Proofs.Independence
import SpecLint.Proofs.Prefilter

/-!
# An inspection lints every file

An inspection does not lower a file that mentions no dispatched method.  What it reports is all the
same what it would report if it linted each file whole: the prefilter clears no file in which there
is something to report.  A file that is longer than offsets reach is skipped whatever it mentions.

* `Inspection.content?`, `Inspection.inspectable`, `Inspection.plainReport` — the plain inspection,
  which lints every file.
* `Inspection.inReach` — the files that are not too long.
* `Inspection.stableSort_byPosition` — the offenses of a file are put in order by a stable sort.
* `Inspection.offensesIn?_eq` — **the fast way and the plain way agree on each content**.
* `Inspection.ofRoot_eq_plain` — **an inspection is the plain one**.
* `Inspection.exists_cleared_skipped` — a file that mentions nothing and is skipped all the same.
-/

namespace SpecLint

namespace Inspection

/-! ## The order of the offenses -/

/-- The list `sorted` holds `offenses` in the order of their starts; those that start at one byte
keep their order. -/
structure StableSort (offenses sorted : List Offense) : Prop where
  /-- The starts ascend. -/
  ascending : sorted.Pairwise fun a b => a.span.startByte ≤ b.span.startByte
  /-- The offenses that start at one byte are the same ones in the same order. -/
  stable : ∀ start, sorted.filter (fun o => o.span.startByte == start) =
    offenses.filter (fun o => o.span.startByte == start)

theorem stableSort_byPosition (offenses : List Offense) :
    StableSort offenses (byPosition offenses) := by
  have htrans : ∀ a b c : Offense, decide (a.span.startByte ≤ b.span.startByte) = true →
      decide (b.span.startByte ≤ c.span.startByte) = true →
      decide (a.span.startByte ≤ c.span.startByte) = true := by
    intro a b c hab hbc
    exact decide_eq_true (UInt32.le_trans (of_decide_eq_true hab) (of_decide_eq_true hbc))
  have htotal : ∀ a b : Offense, (decide (a.span.startByte ≤ b.span.startByte) ||
      decide (b.span.startByte ≤ a.span.startByte)) = true := by
    intro a b
    rw [Bool.or_eq_true, decide_eq_true_eq, decide_eq_true_eq]
    exact UInt32.le_total _ _
  constructor
  · have hsorted := List.pairwise_mergeSort htrans htotal offenses
    exact hsorted.imp of_decide_eq_true
  · intro start
    have hequal : (offenses.filter fun o => o.span.startByte == start).Pairwise
        fun a b => decide (a.span.startByte ≤ b.span.startByte) = true := by
      refine List.pairwise_of_forall_mem_list fun a ha b hb => ?_
      have hstart := beq_iff_eq.1 (List.mem_filter.1 ha).2
      rw [hstart, ← beq_iff_eq.1 (List.mem_filter.1 hb).2]
      exact decide_eq_true (UInt32.le_refl _)
    -- offenses of one start are in order already, and a stable sort keeps them so
    have hsublist := (List.sublist_mergeSort htrans htotal hequal List.filter_sublist).filter
      fun o => o.span.startByte == start
    rw [List.filter_filter] at hsublist
    simp only [Bool.and_self] at hsublist
    refine (hsublist.eq_of_length ?_).symm
    exact ((List.mergeSort_perm offenses _).filter _).length_eq.symm

/-! ## The plain inspection -/

/-- The content of a file, if it can be read. -/
def content? (w : World) (path : Path) : Option ByteArray := (w.read path).toOption

/-- Whether offsets reach to the end of a file, as far as it can be read. -/
def inReach (w : World) (path : Path) : Bool :=
  (content? w path).all fun content => decide (content.size ≤ Lowering.maxSourceSize)

/-- Whether there is something to say about a content: it is empty, mentions no dispatched method or
can be lowered. -/
def reportable (grammar : Lowering.Grammar) (d : Dispatcher) (content : ByteArray) : Bool :=
  content.isEmpty ||
    decide (∀ method ∈ d.methods, ¬ Text.bytesOf method <:+: content.data.toList) ||
    (Lowering.arenaOf grammar content).isOk

/-- Whether a file can be read and there is something to say about its content. -/
def inspectable (w : World) (grammar : Lowering.Grammar) (d : Dispatcher) (path : Path) : Bool :=
  (content? w path).any (reportable grammar d)

/-- What linting a content yields, whatever it mentions; nothing where it cannot be lowered. -/
def linted (grammar : Lowering.Grammar) (d : Dispatcher) (content : ByteArray) : List Offense :=
  match d.lint grammar content with
  | .ok offenses => offenses.toList
  | .error _ => []

/-- The report on a file that is linted whole. -/
def plainReport (w : World) (grammar : Lowering.Grammar) (d : Dispatcher) (root path : Path) :
    FileReport where
  path := shownPath w root path
  offenses := byPosition (linted grammar d ((content? w path).getD .empty))

/-! ## File by file -/

section File

variable {w : World} {grammar : Lowering.Grammar} {config : Config}

/-- The rules of the linter listen for no supplied name. -/
theorem not_mem_suppliedMethods : ∀ active ∈ Dispatcher.activeRules allRules config,
    ∀ method ∈ active.rule.methods, method ∉ Lowering.suppliedMethods := by
  intro active hactive
  have hrule : active.rule = expectationTarget :=
    List.mem_singleton.1 (Dispatcher.mem_activeRules.1 hactive).1
  rw [hrule]
  decide

/-- Linting finds nothing in a content that mentions no dispatched method. -/
theorem linted_of_cleared {content : ByteArray} (hcleared :
    (Prefilter.mk (Dispatcher.ofRules allRules config).methods).mightMatch content = false) :
    linted grammar (Dispatcher.ofRules allRules config) content = [] := by
  unfold linted Dispatcher.lint
  cases h : Lowering.arenaOf grammar content with
  | error failure => rfl
  | ok arena =>
      exact Lowering.toList_run_of_invocations
        (Lowering.invocations_eq_nil_of_cleared h hcleared not_mem_suppliedMethods)

/-- Linting finds nothing in an empty content. -/
theorem linted_of_isEmpty {d : Dispatcher} {content : ByteArray} (h : content.isEmpty = true) :
    linted grammar d content = [] := by
  unfold linted Dispatcher.lint
  cases harena : Lowering.arenaOf grammar content with
  | error failure => rfl
  | ok arena =>
      obtain rfl := Lowering.arenaOf_of_isEmpty h harena
      have hnodes : Arena.preorder {} = [] := Arena.preorder_eq_nil rfl
      apply Lowering.toList_run_of_invocations
      simp [Dispatcher.invocations_eq, hnodes]

/-- A content that is too long is not taken up. -/
theorem offensesIn?_of_long {d : Dispatcher} {content : ByteArray}
    (h : Lowering.maxSourceSize < content.size) : offensesIn? grammar d content = none :=
  if_pos h

theorem offensesAt?_eq_bind {d : Dispatcher} (path : Path) :
    offensesAt? w grammar d path = (content? w path).bind (offensesIn? grammar d) := rfl

/-- **The fast way and the plain way agree on each content** that is not too long. -/
theorem offensesIn?_eq {content : ByteArray} (hsize : content.size ≤ Lowering.maxSourceSize) :
    offensesIn? grammar (Dispatcher.ofRules allRules config) content =
      if reportable grammar (Dispatcher.ofRules allRules config) content then
        some (linted grammar (Dispatcher.ofRules allRules config) content)
      else none := by
  unfold offensesIn? reportable
  rw [if_neg (Nat.not_lt.2 hsize)]
  cases hempty : content.isEmpty with
  | true => simp [linted_of_isEmpty hempty]
  | false =>
      cases hmatch : (Prefilter.mk (Dispatcher.ofRules allRules config).methods).mightMatch content
      with
      | false =>
          have habsent : ∀ method ∈ (Dispatcher.ofRules allRules config).methods,
              ¬ Text.bytesOf method <:+: content.data.toList := by
            intro method hmethod hoccurs
            exact Bool.eq_false_iff.1 hmatch (Prefilter.mightMatch_iff.2 ⟨method, hmethod, hoccurs⟩)
          rw [linted_of_cleared hmatch, decide_eq_true habsent]
          simp
      | true =>
          have hoccurs : ¬ ∀ method ∈ (Dispatcher.ofRules allRules config).methods,
              ¬ Text.bytesOf method <:+: content.data.toList := by
            intro habsent
            obtain ⟨method, hmethod, hinfix⟩ := Prefilter.mightMatch_iff.1 hmatch
            exact habsent method hmethod hinfix
          unfold linted Dispatcher.lint
          rw [decide_eq_false hoccurs]
          cases Lowering.arenaOf grammar content <;> rfl

/-- What an inspection takes up of a file. -/
theorem offensesAt?_eq (path : Path) :
    offensesAt? w grammar (Dispatcher.ofRules allRules config) path =
      if inReach w path ∧ inspectable w grammar (Dispatcher.ofRules allRules config) path then
        some (linted grammar (Dispatcher.ofRules allRules config)
          ((content? w path).getD .empty))
      else none := by
  rw [offensesAt?_eq_bind, inReach, inspectable]
  cases content? w path with
  | none => simp
  | some content =>
      by_cases hsize : content.size ≤ Lowering.maxSourceSize
      · simpa [hsize] using offensesIn?_eq hsize
      · simpa [hsize] using offensesIn?_of_long (Nat.not_le.1 hsize)

end File

/-- There is something to say about a file that can be lowered. -/
theorem inspectable_of_isOk {w : World} {grammar : Lowering.Grammar} {d : Dispatcher} {path : Path}
    {content : ByteArray} (hcontent : content? w path = some content)
    (h : (Lowering.arenaOf grammar content).isOk = true) : inspectable w grammar d path = true := by
  rw [inspectable, hcontent]
  exact Bool.or_eq_true_iff.2 (Or.inr h)

/-! ## The whole inspection -/

section Whole

variable {w : World} {grammar : Lowering.Grammar} {d : Dispatcher} {config : Config} {root : Path}

/-- The report on a file, if it can be read and lowered. -/
def fileReport? (w : World) (grammar : Lowering.Grammar) (d : Dispatcher) (root path : Path) :
    Option FileReport :=
  (offensesAt? w grammar d path).map fun offenses =>
    { path := shownPath w root path, offenses := byPosition offenses }

/-- What taking up some files adds to an inspection. -/
theorem foldl_addFile (paths : List Path) (i : Inspection) :
    paths.foldl (addFile w grammar d root) i =
      { files := i.files ++ paths.filterMap (fileReport? w grammar d root)
        inspected := i.inspected + (paths.filterMap (fileReport? w grammar d root)).length
        skipped := i.skipped +
          paths.countP fun path => decide ¬(fileReport? w grammar d root path).isSome } := by
  induction paths generalizing i with
  | nil => simp
  | cons path paths ih =>
      rw [List.foldl_cons, ih]
      unfold addFile
      cases hreport : offensesAt? w grammar d path with
      | none =>
          have hnone : fileReport? w grammar d root path = none := by rw [fileReport?, hreport]; rfl
          simp [hnone, Nat.add_assoc, Nat.add_comm 1]
      | some offenses =>
          have hsome : fileReport? w grammar d root path = some
              { path := shownPath w root path, offenses := byPosition offenses } := by
            rw [fileReport?, hreport]
            rfl
          simp [hsome, Nat.add_assoc, Nat.add_comm 1]

/-- A file is reported on as in the plain inspection. -/
theorem fileReport?_eq (path : Path) :
    fileReport? w grammar (Dispatcher.ofRules allRules config) root path =
      if inReach w path ∧ inspectable w grammar (Dispatcher.ofRules allRules config) path then
        some (plainReport w grammar (Dispatcher.ofRules allRules config) root path)
      else none := by
  unfold fileReport?
  rw [offensesAt?_eq]
  split <;> rfl

/-- **An inspection is the plain one.**  It reports, in the order of discovery, on exactly the files
that can be read, are no longer than offsets reach, and are empty, mention no dispatched method or
can be lowered; what it reports on a file is what linting the whole content yields, put in order by
a stable sort; and each discovered file is either reported on or skipped. -/
theorem ofRoot_eq_plain {paths : List Path} (h : w.specFiles config.files root = .ok paths) :
    ∃ i, ofRoot w grammar (Dispatcher.ofRules allRules config) config.files root = .ok i ∧
      i.files =
        (paths.filter fun path => inReach w path &&
            inspectable w grammar (Dispatcher.ofRules allRules config) path).map
          (plainReport w grammar (Dispatcher.ofRules allRules config) root) ∧
      (∀ path, StableSort
        (linted grammar (Dispatcher.ofRules allRules config) ((content? w path).getD .empty))
        (plainReport w grammar (Dispatcher.ofRules allRules config) root path).offenses) ∧
      i.inspected = i.files.length ∧ i.inspected + i.skipped = paths.length := by
  refine ⟨paths.foldl (addFile w grammar (Dispatcher.ofRules allRules config) root) {}, ?_, ?_,
    ?_, ?_, ?_⟩
  · rw [ofRoot, h]
    rfl
  · rw [foldl_addFile, List.nil_append, ← List.filterMap_eq_map', List.filterMap_filter]
    refine List.filterMap_congr fun path _ => (fileReport?_eq path).trans ?_
    simp only [Bool.and_eq_true]
  · intro path
    exact stableSort_byPosition _
  · rw [foldl_addFile, List.nil_append, Nat.zero_add]
  · rw [foldl_addFile, Nat.zero_add, Nat.zero_add, List.length_filterMap_eq_countP]
    exact (List.length_eq_countP_add_countP _).symm

end Whole

/-! ## Projects -/

/-- A world in which the current directory has some entries. -/
def project (entries : List (FileName × FileTree)) : World where
  root := .dir [(Text.bytesOf "project", .dir entries)]
  current := [Text.bytesOf "project"]

/-- The entries of a directory with a spec file that holds an offense, one that is cleared and one
that cannot be read. -/
def mixedSpecs : List (FileName × FileTree) :=
  [(Text.bytesOf "a_spec.rb", .file (.ok "is_expected == 1".toUTF8)),
    (Text.bytesOf "b_spec.rb", .file (.ok "a[1]".toUTF8)),
    (Text.bytesOf "c_spec.rb", .file (.error .permissionDenied))]

/-- The trees of the sources among them. -/
def mixedGrammar (source : ByteArray) : Concrete :=
  if source.size = 4 then Lowering.elementAccess else Dispatcher.comparedTarget

/-- The misused expectation in a file that holds `is_expected == 1`. -/
def comparedOffense : Offense where
  rule := "RSpec/ExpectationTargetMethod"
  severity := .convention
  span := ⟨12, 14, 1, 13⟩
  message := "Use `.to`, `.not_to` or `.to_not` to set an expectation."

theorem specFiles_mixedSpecs : (project mixedSpecs).specFiles ({} : Config).files Path.here =
    .ok [Text.bytesOf "./a_spec.rb", Text.bytesOf "./b_spec.rb", Text.bytesOf "./c_spec.rb"] := by
  have hselected : ({} : Config).files.selectedIn (.dir mixedSpecs) =
      [[Text.bytesOf "a_spec.rb"], [Text.bytesOf "b_spec.rb"], [Text.bytesOf "c_spec.rb"]] := by
    decide +kernel
  have hsorted : [[Text.bytesOf "a_spec.rb"], [Text.bytesOf "b_spec.rb"],
      [Text.bytesOf "c_spec.rb"]].Pairwise fun a b => notAfter a b = true := by
    decide +kernel
  rw [World.specFiles_of_dir (World.lookUp_here (w := project mixedSpecs) rfl), hselected,
    List.mergeSort_of_pairwise hsorted]
  decide +kernel

theorem plainReport_a : plainReport (project mixedSpecs) mixedGrammar
    (Dispatcher.ofRules allRules {}) Path.here (Text.bytesOf "./a_spec.rb") =
      ⟨"a_spec.rb", [comparedOffense]⟩ := by
  have hshown : shownPath (project mixedSpecs) Path.here (Text.bytesOf "./a_spec.rb") =
      "a_spec.rb" := by cbv
  have hlinted : linted mixedGrammar (Dispatcher.ofRules allRules {})
      ((content? (project mixedSpecs) (Text.bytesOf "./a_spec.rb")).getD .empty) =
      [comparedOffense] := by cbv
  rw [plainReport, hshown, hlinted, byPosition, List.mergeSort_singleton]

theorem plainReport_b : plainReport (project mixedSpecs) mixedGrammar
    (Dispatcher.ofRules allRules {}) Path.here (Text.bytesOf "./b_spec.rb") =
      ⟨"b_spec.rb", []⟩ := by
  have hshown : shownPath (project mixedSpecs) Path.here (Text.bytesOf "./b_spec.rb") =
      "b_spec.rb" := by cbv
  have hlinted : linted mixedGrammar (Dispatcher.ofRules allRules {})
      ((content? (project mixedSpecs) (Text.bytesOf "./b_spec.rb")).getD .empty) = [] := by cbv
  rw [plainReport, hshown, hlinted, byPosition, List.mergeSort_nil]

/-- An offense is reported, a file without one is cleared, and a file that cannot be read is
skipped. -/
theorem ofRoot_eq_plain_mixed : ∃ paths i,
    (project mixedSpecs).specFiles ({} : Config).files Path.here = .ok paths ∧
    ofRoot (project mixedSpecs) mixedGrammar (Dispatcher.ofRules allRules {})
        ({} : Config).files Path.here = .ok i ∧
      (Prefilter.mk (Dispatcher.ofRules allRules {}).methods).mightMatch "a[1]".toUTF8 = false ∧
      i.files = [⟨"a_spec.rb", [comparedOffense]⟩, ⟨"b_spec.rb", []⟩] ∧
      i.inspected = 2 ∧ i.skipped = 1 := by
  obtain ⟨i, hi, hfiles, -, hinspected, hcount⟩ := @ofRoot_eq_plain (project mixedSpecs)
    mixedGrammar {} Path.here _ specFiles_mixedSpecs
  have ha : inspectable (project mixedSpecs) mixedGrammar (Dispatcher.ofRules allRules {})
      (Text.bytesOf "./a_spec.rb") = true :=
    inspectable_of_isOk (by cbv) (by rfl)
  have hb : inspectable (project mixedSpecs) mixedGrammar (Dispatcher.ofRules allRules {})
      (Text.bytesOf "./b_spec.rb") = true :=
    inspectable_of_isOk (by cbv) (by rfl)
  have hc : inspectable (project mixedSpecs) mixedGrammar (Dispatcher.ofRules allRules {})
      (Text.bytesOf "./c_spec.rb") = false := by cbv
  have hreach : ∀ name ∈ ["./a_spec.rb", "./b_spec.rb"],
      inReach (project mixedSpecs) (Text.bytesOf name) = true := by
    rw [List.forall_mem_cons, List.forall_mem_singleton]
    exact ⟨by cbv, by cbv⟩
  have hreported : i.files = [⟨"a_spec.rb", [comparedOffense]⟩, ⟨"b_spec.rb", []⟩] := by
    rw [hfiles]
    simp [ha, hb, hc, hreach, plainReport_a, plainReport_b]
  rw [hinspected, hreported] at hcount
  refine ⟨_, i, specFiles_mixedSpecs, hi, by cbv, hreported, ?_, ?_⟩
  · rw [hinspected, hreported]
    rfl
  · exact Nat.add_left_cancel hcount

/-! ## Files that are too long -/

/-- The one spec file of a project. -/
def singleSpec (content : ByteArray) : List (FileName × FileTree) :=
  [(Text.bytesOf "a_spec.rb", .file (.ok content))]

/-- **A file can be skipped that mentions no dispatched method**: one blank more than offsets
reach. -/
theorem exists_cleared_skipped : ∃ content : ByteArray, ∃ i,
    content = ⟨Array.replicate (Lowering.maxSourceSize + 1) 32⟩ ∧
    (project (singleSpec content)).specFiles ({} : Config).files Path.here =
      .ok [Text.bytesOf "./a_spec.rb"] ∧
    content? (project (singleSpec content)) (Text.bytesOf "./a_spec.rb") = some content ∧
    (∀ method ∈ (Dispatcher.ofRules allRules {}).methods,
      ¬ Text.bytesOf method <:+: content.data.toList) ∧
    ∀ grammar, ofRoot (project (singleSpec content)) grammar (Dispatcher.ofRules allRules {})
        ({} : Config).files Path.here = .ok i ∧ i.files = [] ∧ i.skipped = 1 := by
  have hsize : (⟨Array.replicate (Lowering.maxSourceSize + 1) 32⟩ : ByteArray).size =
      Lowering.maxSourceSize + 1 := Array.size_replicate
  have hblank : ∀ byte ∈ (⟨Array.replicate (Lowering.maxSourceSize + 1) 32⟩ :
      ByteArray).data.toList, byte = 32 := by
    intro byte hbyte
    rw [Array.toList_replicate] at hbyte
    exact List.eq_of_mem_replicate hbyte
  generalize hcontent : (⟨Array.replicate (Lowering.maxSourceSize + 1) 32⟩ : ByteArray) = content
    at hsize hblank
  have hroot := World.lookUp_here (w := project (singleSpec content)) rfl
  have hselected : ({} : Config).files.selectedIn (.dir (singleSpec content)) =
      [[Text.bytesOf "a_spec.rb"]] := by
    cbv
  have hpaths : (project (singleSpec content)).specFiles ({} : Config).files Path.here =
      .ok [Text.bytesOf "./a_spec.rb"] := by
    rw [World.specFiles_of_dir hroot, hselected, List.mergeSort_singleton]
    rfl
  have hread : content? (project (singleSpec content)) (Text.bytesOf "./a_spec.rb") =
      some content := by
    cbv
  refine ⟨content, { skipped := 1 }, rfl, hpaths, hread, ?_, fun grammar => ⟨?_, rfl, rfl⟩⟩
  · have hmethods : (Dispatcher.ofRules allRules {}).methods = ["expect", "is_expected"] := by cbv
    have hvisible : ∀ method ∈ ["expect", "is_expected"],
        ¬ ∀ byte ∈ Text.bytesOf method, byte = 32 := by decide +kernel
    rw [hmethods]
    intro method hmethod hoccurs
    exact hvisible method hmethod fun byte hbyte => hblank byte (hoccurs.mem hbyte)
  · have hat : offensesAt? (project (singleSpec content)) grammar (Dispatcher.ofRules allRules {})
        (Text.bytesOf "./a_spec.rb") = none := by
      rw [offensesAt?_eq_bind, hread, Option.bind_some]
      have hlong : Lowering.maxSourceSize < content.size := by
        rw [hsize]
        exact Nat.lt_add_one Lowering.maxSourceSize
      exact offensesIn?_of_long hlong
    rw [ofRoot, hpaths]
    simp [addFile, hat]

end Inspection

end SpecLint
