import Mathlib
import SpecLint.Command.Run
import SpecLint.Proofs.Independence
import SpecLint.Proofs.Inspection
import SpecLint.Proofs.PrettyJson

/-!
# The two forms of a report say the same

A check that reports as text and one that reports as JSON end with one status, and the text can be
made from what is read back from the JSON: a line for each offense, and a summary with four numbers.
What is printed as JSON is the written form of one report only.

* `Inspection.ofJson?` — reads a structured report.
* `Inspection.ofJson?_toJson` — **a structured report is read back as it was written**.
* `Inspection.whole_toJson` — a structured report holds whole numbers only.
* `Command.begun?`, `Command.inspectionOf?` — how far a check comes.
* `Command.formats_agree` — **the two forms of a report say the same**.
-/

namespace SpecLint

/-! ## Reading a structured report -/

namespace Json

/-- The items of a list. -/
def items? : Json → Option (List Json)
  | .arr items => some items
  | _ => none

/-- The text of a string. -/
def str? : Json → Option String
  | .str text => some text
  | _ => none

/-- A whole number that is not negative. -/
def nat? : Json → Option Nat
  | .int (.ofNat value) => some value
  | _ => none

@[simp] theorem items?_arr (items : List Json) : (arr items).items? = some items := rfl

@[simp] theorem str?_str (text : String) : (str text).str? = some text := rfl

@[simp] theorem nat?_int (n : Nat) : (int n).nat? = some n := rfl

theorem toUInt32?_int (n : UInt32) : (int n.toNat).toUInt32? = some n := by
  have hlt : (n.toNat : Int) < 4294967296 := by
    have := n.toNat_lt
    omega
  rw [toUInt32?, if_pos ⟨Int.natCast_nonneg _, hlt⟩]
  simp

end Json

theorem Span.ofJson?_obj {a b c d : Json} {startByte endByte line column : UInt32}
    (ha : a.toUInt32? = some startByte) (hb : b.toUInt32? = some endByte)
    (hc : c.toUInt32? = some line) (hd : d.toUInt32? = some column) :
    Span.ofJson? (.obj [("start_byte", a), ("end_byte", b), ("line", c), ("column", d)]) =
      some ⟨startByte, endByte, line, column⟩ := by
  simp [Span.ofJson?, Json.field?, List.lookup, ha, hb, hc, hd]

theorem Span.ofJson?_toJson (s : Span) : Span.ofJson? s.toJson = some s :=
  Span.ofJson?_obj (Json.toUInt32?_int _) (Json.toUInt32?_int _) (Json.toUInt32?_int _)
    (Json.toUInt32?_int _)

/-- Reads an offense. -/
def Offense.ofJson? (value : Json) : Option Offense := do
  let rule ← (← value.field? "rule").str?
  let severity ← Severity.ofJson? (← value.field? "severity")
  let span ← Span.ofJson? (← value.field? "span")
  let message ← (← value.field? "message").str?
  return { rule, severity, span, message }

theorem Offense.ofJson?_obj {rule message : String} {a b : Json} {severity : Severity} {span : Span}
    (ha : Severity.ofJson? a = some severity) (hb : Span.ofJson? b = some span) :
    Offense.ofJson? (.obj [("rule", .str rule), ("severity", a), ("span", b),
      ("message", .str message)]) = some { rule, severity, span, message } := by
  simp [Offense.ofJson?, Json.field?, List.lookup, ha, hb]

theorem Offense.ofJson?_toJson (o : Offense) : Offense.ofJson? o.toJson = some o :=
  Offense.ofJson?_obj o.severity.ofJson?_toJson o.span.ofJson?_toJson

/-- Reads the report on a file. -/
def FileReport.ofJson? (value : Json) : Option FileReport := do
  let path ← (← value.field? "path").str?
  let offenses ← (← (← value.field? "offenses").items?).mapM Offense.ofJson?
  return { path, offenses }

/-- What is written item by item is read back item by item. -/
theorem mapM_map_of_left {α : Type} {write : α → Json} {read? : Json → Option α}
    (h : ∀ a, read? (write a) = some a) (as : List α) : (as.map write).mapM read? = some as := by
  induction as with
  | nil => rfl
  | cons a as ih => simp [h, ih]

namespace Inspection

@[simp] theorem ofJson?_fileJson (f : FileReport) : FileReport.ofJson? (fileJson f) = some f := by
  simp [FileReport.ofJson?, fileJson, Json.field?, List.lookup,
    mapM_map_of_left Offense.ofJson?_toJson]

/-- Reads a structured report. -/
def ofJson? (value : Json) : Option Inspection := do
  let files ← (← (← value.field? "files").items?).mapM FileReport.ofJson?
  let inspected ← (← value.field? "inspected").nat?
  let skipped ← (← value.field? "skipped").nat?
  return { files, inspected, skipped }

/-- **A structured report is read back as it was written.** -/
theorem ofJson?_toJson (i : Inspection) : ofJson? i.toJson = some i := by
  simp [ofJson?, toJson, Json.field?, List.lookup, mapM_map_of_left ofJson?_fileJson]

/-! ## Numbers in a structured report -/

theorem whole_offense (o : Offense) : o.toJson.Whole := by
  have hspan : o.span.toJson.Whole := by
    refine .obj fun field hfield => ?_
    simp only [List.mem_cons, List.not_mem_nil, or_false] at hfield
    rcases hfield with rfl | rfl | rfl | rfl <;> exact .int _
  refine .obj fun field hfield => ?_
  simp only [List.mem_cons, List.not_mem_nil, or_false] at hfield
  rcases hfield with rfl | rfl | rfl | rfl
  · exact .str _
  · exact .str _
  · exact hspan
  · exact .str _

theorem whole_fileJson (f : FileReport) : (fileJson f).Whole := by
  refine .obj fun field hfield => ?_
  simp only [List.mem_cons, List.not_mem_nil, or_false] at hfield
  rcases hfield with rfl | rfl
  · exact .str _
  · exact .arr (List.forall_mem_map.2 fun o _ => whole_offense o)

/-- **A structured report holds whole numbers only**, so that its written form determines it. -/
theorem whole_toJson (i : Inspection) : i.toJson.Whole := by
  refine .obj fun field hfield => ?_
  simp only [List.mem_cons, List.not_mem_nil, or_false] at hfield
  rcases hfield with rfl | rfl | rfl
  · exact .arr (List.forall_mem_map.2 fun f _ => whole_fileJson f)
  · exact .int _
  · exact .int _

/-! ## The numbers of a summary -/

/-- The summary with the given numbers. -/
def summaryOf (inspected skipped offendingFiles offenses : Nat) : String :=
  let border := "+------------------------------------------+\n"
  "\n" ++ border ++ "| SPECWARDEN CHECK                         |\n" ++ border ++
    summaryLine "Files inspected" inspected ++ summaryLine "Files skipped  " skipped ++
    summaryLine "Offending files" offendingFiles ++ summaryLine "Offenses       " offenses ++ border

theorem offenseCount_eq (i : Inspection) :
    i.offenseCount = (i.files.map fun f => f.offenses.length).sum := by
  rw [offenseCount, List.length_flatMap]

theorem offenseCount_eq_zero {i : Inspection} :
    i.offenseCount = 0 ↔ ∀ f ∈ i.files, f.offenses = [] := by
  rw [offenseCount, List.length_eq_zero_iff, List.flatMap_eq_nil_iff]

theorem summary_eq (i : Inspection) : i.summary = summaryOf i.inspected i.skipped
    (i.files.filter fun f => !f.offenses.isEmpty).length
    (i.files.map fun f => f.offenses.length).sum := by
  rw [← List.countP_eq_length_filter, ← offenseCount_eq]
  rfl

end Inspection

namespace Command

variable {w : World} {grammar : Lowering.Grammar} {environment complete : Environment}
  {words : List String} {path : Path} {config : Option Path} {format : Format} {i : Inspection}

/-! ## How far a check comes -/

/-- The environment in which a run goes on once it has begun. -/
def begun? (w : World) (environment : Environment) : Option Environment :=
  (withEnvironmentFile w environment).bind fun (complete, _) =>
    (Log.Filter.ofSetting (complete.get? Log.environmentKey)).map fun _ => complete

/-- What a check inspects; nothing where no configuration can be loaded or nothing is
discovered. -/
def inspectionOf? (w : World) (grammar : Lowering.Grammar) (environment : Environment) (path : Path)
    (config : Option Path) : Option Inspection :=
  match Config.load w config (named? environment) with
  | .ok settings =>
      (Inspection.ofRoot w grammar (.ofRules allRules settings) settings.files path).toOption
  | .error _ => none

theorem run_of_not_begun (grammar : Lowering.Grammar) (h : begun? w environment = none)
    (words : List String) :
    (run w grammar environment words).status = 101 ∧
      (run w grammar environment words).output = "" := by
  unfold run
  unfold begun? at h
  cases hfile : withEnvironmentFile w environment with
  | none => exact ⟨rfl, rfl⟩
  | some found =>
      obtain ⟨complete, warning⟩ := found
      rw [hfile, Option.bind_some, Option.map_eq_none_iff] at h
      dsimp only
      rw [h]
      exact ⟨rfl, rfl⟩

theorem run_of_begun (grammar : Lowering.Grammar) (h : begun? w environment = some complete)
    (words : List String) :
    ∃ filter,
      (run w grammar environment words).status = (runIn w grammar complete filter words).status ∧
      (run w grammar environment words).output =
        (runIn w grammar complete filter words).output := by
  obtain ⟨⟨complete', warning⟩, hfile, hsetting⟩ := Option.bind_eq_some_iff.1 h
  obtain ⟨filter, hfilter, rfl⟩ := Option.map_eq_some_iff.1 hsetting
  refine ⟨filter, ?_⟩
  unfold run
  rw [hfile]
  dsimp only
  rw [hfilter]
  exact ⟨rfl, rfl⟩

/-- A check that can inspect something prints its report. -/
theorem runCheck_of_some (h : inspectionOf? w grammar environment path config = some i) :
    runCheck w grammar environment path config format = .ok
      { status := if i.offenseCount = 0 then 0 else 1, output := i.report format } := by
  unfold inspectionOf? at h
  unfold runCheck
  cases hload : Config.load w config (named? environment) with
  | error => simp [hload] at h
  | ok settings =>
      rw [hload] at h
      dsimp only at h
      cases hroot :
          Inspection.ofRoot w grammar (.ofRules allRules settings) settings.files path with
      | error => simp [hroot, Except.toOption] at h
      | ok i' =>
          obtain rfl : i' = i := by simpa [hroot, Except.toOption] using h
          simp [Except.mapError, hroot, bind, Except.bind, pure, Except.pure]

theorem runCheck_of_none (h : inspectionOf? w grammar environment path config = none) :
    ∃ error, runCheck w grammar environment path config format = .error error := by
  unfold inspectionOf? at h
  unfold runCheck
  cases hload : Config.load w config (named? environment) with
  | error error => exact ⟨_, rfl⟩
  | ok settings =>
      rw [hload] at h
      dsimp only at h
      cases hroot :
          Inspection.ofRoot w grammar (.ofRules allRules settings) settings.files path with
      | ok i' => simp [hroot, Except.toOption] at h
      | error error => exact ⟨.discovery error, by simp [Except.mapError, hroot, bind, Except.bind]⟩

/-- What a check that has begun leaves behind. -/
theorem run_check (grammar : Lowering.Grammar) (hbegun : begun? w environment = some complete)
    (hwords : parse words = .ok (.check path config format)) :
    (run w grammar environment words).status =
        (match inspectionOf? w grammar complete path config with
        | some i => if i.offenseCount = 0 then 0 else 1
        | none => 1) ∧
      (run w grammar environment words).output =
        match inspectionOf? w grammar complete path config with
        | some i => i.report format
        | none => "" := by
  obtain ⟨filter, hstatus, houtput⟩ := run_of_begun grammar hbegun words
  rw [hstatus, houtput, runIn, hwords]
  dsimp only [execute]
  cases hinspection : inspectionOf? w grammar complete path config with
  | some i =>
      rw [runCheck_of_some hinspection]
      exact ⟨rfl, rfl⟩
  | none =>
      obtain ⟨error, herror⟩ := runCheck_of_none hinspection
      rw [herror]
      exact ⟨rfl, rfl⟩

/-- **The two forms of a report say the same.**  A run that does not begin ends with 101.  After
that a check ends with 0 if something can be inspected and no offense is found, and with 1
otherwise, in both forms.  The text is made of what can be read back from the JSON: a line for each
offense, and the summary with its numbers.  No other value without fractions is printed like that
JSON.  Without an inspection nothing is printed. -/
theorem formats_agree (w : World) (grammar : Lowering.Grammar) (environment : Environment)
    {textWords jsonWords : List String} {path : Path} {config : Option Path}
    (htext : parse textWords = .ok (.check path config .text))
    (hjson : parse jsonWords = .ok (.check path config .json)) :
    (run w grammar environment textWords).status = (run w grammar environment jsonWords).status ∧
    match begun? w environment with
    | none => (run w grammar environment textWords).status = 101 ∧
        (run w grammar environment textWords).output = "" ∧
        (run w grammar environment jsonWords).output = ""
    | some complete =>
        match inspectionOf? w grammar complete path config with
        | none => (run w grammar environment textWords).status = 1 ∧
            (run w grammar environment textWords).output = "" ∧
            (run w grammar environment jsonWords).output = ""
        | some i =>
            (run w grammar environment textWords).status =
                (if i.files.all (·.offenses.isEmpty) then 0 else 1) ∧
            ∃ report : Json,
              (run w grammar environment jsonWords).output = report.pretty ++ "\n" ∧
              (∀ other : Json, other.Whole → other.pretty = report.pretty → other = report) ∧
              Inspection.ofJson? report = some i ∧
              (run w grammar environment textWords).output =
                String.join (i.files.flatMap fun f => f.offenses.map
                  (Inspection.offenseLine f.path)) ++
                Inspection.summaryOf i.inspected i.skipped
                  (i.files.filter fun f => !f.offenses.isEmpty).length
                  (i.files.map fun f => f.offenses.length).sum := by
  cases hbegun : begun? w environment with
  | none =>
      obtain ⟨htextStatus, htextOutput⟩ := run_of_not_begun grammar hbegun textWords
      obtain ⟨hjsonStatus, hjsonOutput⟩ := run_of_not_begun grammar hbegun jsonWords
      exact ⟨htextStatus.trans hjsonStatus.symm, htextStatus, htextOutput, hjsonOutput⟩
  | some complete =>
      obtain ⟨htextStatus, htextOutput⟩ := run_check grammar hbegun htext
      obtain ⟨hjsonStatus, hjsonOutput⟩ := run_check grammar hbegun hjson
      refine ⟨htextStatus.trans hjsonStatus.symm, ?_⟩
      dsimp only
      cases hinspection : inspectionOf? w grammar complete path config with
      | none =>
          rw [hinspection] at htextStatus htextOutput hjsonOutput
          exact ⟨htextStatus, htextOutput, hjsonOutput⟩
      | some i =>
          rw [hinspection] at htextStatus htextOutput hjsonOutput
          refine ⟨?_, i.toJson, hjsonOutput,
            fun other hother => Json.pretty_injective hother i.whole_toJson, i.ofJson?_toJson, ?_⟩
          · rw [htextStatus]
            simp [Inspection.offenseCount_eq_zero]
          · rw [htextOutput, ← i.summary_eq]
            rfl

/-! ## A project of one spec file -/

/-- A world with one spec file in the current directory, after some other entries. -/
def oneSpec (others : List (FileName × FileTree)) (content : ByteArray) : World :=
  Inspection.project (others ++ [(Text.bytesOf "a_spec.rb", .file (.ok content))])

/-- What a check without a configuration file inspects in such a world. -/
theorem inspectionOf_oneSpec {others : List (FileName × FileTree)} {content : ByteArray}
    {offenses : List Offense}
    (hconfig : (oneSpec others content).exists? (Text.bytesOf Config.defaultFile) = false)
    (hnamed : named? environment = none)
    (hselected : ({} : Config).files.selectedIn
      (.dir (others ++ [(Text.bytesOf "a_spec.rb", .file (.ok content))])) =
        [[Text.bytesOf "a_spec.rb"]])
    (hread : (oneSpec others content).read (Text.bytesOf "./a_spec.rb") = .ok content)
    (hshown : Inspection.shownPath (oneSpec others content) Path.here (Text.bytesOf "./a_spec.rb") =
      "a_spec.rb")
    (hoffenses : Inspection.offensesIn? grammar (Dispatcher.ofRules allRules {}) content =
      some offenses) :
    inspectionOf? (oneSpec others content) grammar environment Path.here none = some
      { files := [{ path := "a_spec.rb", offenses := Inspection.byPosition offenses }],
        inspected := 1, skipped := 0 } := by
  have hload : Config.load (oneSpec others content) none (named? environment) = .ok {} := by
    rw [hnamed, Config.load, Config.chosenFile?, hconfig]
    rfl
  have hroot := World.lookUp_here (w := oneSpec others content) rfl
  have hfiles : (oneSpec others content).specFiles ({} : Config).files Path.here =
      .ok [Text.bytesOf "./a_spec.rb"] := by
    rw [World.specFiles_of_dir hroot, hselected, List.mergeSort_singleton]
    rfl
  have hat : Inspection.offensesAt? (oneSpec others content) grammar
      (Dispatcher.ofRules allRules {}) (Text.bytesOf "./a_spec.rb") = some offenses := by
    rw [Inspection.offensesAt?, hread]
    exact hoffenses
  rw [inspectionOf?, hload]
  dsimp only
  rw [Inspection.ofRoot, hfiles]
  simp [Inspection.addFile, hat, hshown, Except.toOption]

theorem offensesIn?_compared :
    Inspection.offensesIn? (fun _ => Dispatcher.comparedTarget) (Dispatcher.ofRules allRules {})
      "is_expected == 1".toUTF8 = some [Inspection.comparedOffense] := by
  have hreportable : Inspection.reportable (fun _ => Dispatcher.comparedTarget)
      (Dispatcher.ofRules allRules {}) "is_expected == 1".toUTF8 = true :=
    Bool.or_eq_true_iff.2 (Or.inr rfl)
  rw [Inspection.offensesIn?_eq (by decide), if_pos hreportable]
  decide +kernel

/-- The offense of `is_expected == 1` is reported in both forms, and counted in the summary. -/
theorem formats_agree_compared :
    (run (oneSpec [] "is_expected == 1".toUTF8) (fun _ => Dispatcher.comparedTarget) {}
      ["check", "."]).status = 1 ∧
    (run (oneSpec [] "is_expected == 1".toUTF8) (fun _ => Dispatcher.comparedTarget) {}
      ["check", ".", "--format", "json"]).status = 1 ∧
    (run (oneSpec [] "is_expected == 1".toUTF8) (fun _ => Dispatcher.comparedTarget) {}
      ["check", "."]).output =
        "a_spec.rb:1:13: C: RSpec/ExpectationTargetMethod: " ++
          "Use `.to`, `.not_to` or `.to_not` to set an expectation.\n" ++
          Inspection.summaryOf 1 0 1 1 := by
  have hbegun : begun? (oneSpec [] "is_expected == 1".toUTF8) {} = some {} := by cbv
  have hinspection := @inspectionOf_oneSpec (fun _ => Dispatcher.comparedTarget) {} []
    "is_expected == 1".toUTF8 _ (by cbv) (by rfl) (by decide +kernel) (by cbv) (by cbv)
    offensesIn?_compared
  obtain ⟨hsame, hreport⟩ := @formats_agree (oneSpec [] "is_expected == 1".toUTF8)
    (fun _ => Dispatcher.comparedTarget) {} ["check", "."] ["check", ".", "--format", "json"]
    Path.here none (by decide +kernel) (by decide +kernel)
  have hsorted : Inspection.byPosition [Inspection.comparedOffense] =
      [Inspection.comparedOffense] :=
    List.mergeSort_singleton _
  rw [hbegun] at hreport
  dsimp only at hreport
  rw [hinspection, hsorted] at hreport
  obtain ⟨hstatus, -, -, -, -, houtput⟩ := hreport
  refine ⟨hstatus, hsame.symm.trans hstatus, houtput.trans ?_⟩
  decide +kernel

/-- A run in a directory whose environment file has a value with the character NUL does not begin,
although a configuration can be loaded and the one file has no offense. -/
theorem exists_check_not_begun : ∃ i,
    parse ["check", "."] = .ok (.check Path.here none .text) ∧
    inspectionOf? (oneSpec [(Text.bytesOf ".env", .file (.ok "A=\"\x00\"".toUTF8))] .empty)
        (fun _ => Dispatcher.comparedTarget) {} Path.here none = some i ∧
      (∀ f ∈ i.files, f.offenses = []) ∧
      (run (oneSpec [(Text.bytesOf ".env", .file (.ok "A=\"\x00\"".toUTF8))] .empty)
        (fun _ => Dispatcher.comparedTarget) {} ["check", "."]).status = 101 := by
  have hbegun : begun? (oneSpec [(Text.bytesOf ".env", .file (.ok "A=\"\x00\"".toUTF8))] .empty) {} =
      none := by cbv
  have hinspection := @inspectionOf_oneSpec (fun _ => Dispatcher.comparedTarget) {}
    [(Text.bytesOf ".env", .file (.ok "A=\"\x00\"".toUTF8))] .empty [] (by cbv) (by rfl)
    (by decide +kernel) (by cbv) (by cbv) (by rfl)
  refine ⟨_, by decide +kernel, hinspection, ?_, (run_of_not_begun _ hbegun _).1⟩
  simp [Inspection.byPosition]

end Command

end SpecLint
