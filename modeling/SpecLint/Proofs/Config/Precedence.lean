import SpecLint.Config.Source
import SpecLint.Proofs.Config.Acceptance
import SpecLint.Proofs.Inspection

/-!
# One source of the configuration

The configuration comes from one file, the first of three that is given: the explicit one, the one
of the environment, and the default file of the current directory.  That file alone decides what is
loaded: it is never masked by another one, and when it is found and cannot be used, nothing is put
in its place.  When the default file cannot be looked up, the defaults take its place, and this
whether it is missing or the system refuses to look it up.

* `load_of_named`, `load_of_default` — which file is loaded.
* `loadFrom_eq_ok_iff` — when loading a file succeeds, and with what.
* `toList_runners_ne_nil` — a configuration that was read has a runner.
* `load_precedence` — **what is loaded depends on one source only**.
* `exists_load_of_not_missing` — a default file that is not missing and makes way for the defaults.
-/

namespace SpecLint

/-- Whether a path leads nowhere: the system knows of no such entry. -/
def World.Missing (w : World) (path : Path) : Prop := w.lookUp path = .error .noEntry

/-- A path can be looked up in both worlds or in neither, and reading it gives the same. -/
structure World.AgreeAt (w w' : World) (path : Path) : Prop where
  /-- The path can be looked up in both or in neither. -/
  existence : w.exists? path = w'.exists? path
  /-- Reading gives the same content or the same error. -/
  content : w.read path = w'.read path

/-- A set of some names has a member. -/
theorem RunnerSet.toList_ofList_ne_nil {names : List String} (h : names ≠ []) :
    (RunnerSet.ofList names).toList ≠ [] := by
  obtain ⟨name, hname⟩ := List.exists_mem_of_ne_nil names h
  have hmem : (RunnerSet.ofList names).contains name = true := by
    rw [contains_ofList]
    exact List.contains_iff_mem.2 hname
  exact List.ne_nil_of_mem (List.contains_iff_mem.1 hmem)

namespace Config

variable {w w' : World} {path : Path} {text : String} {config : Config}

/-! ## One file -/

theorem loadFrom_congr (h : w.AgreeAt w' path) : loadFrom w' path = loadFrom w path := by
  rw [loadFrom, loadFrom, h.existence, h.content]

theorem loadFrom_of_missing (h : w.exists? path = false) :
    loadFrom w path = .error (.notFound path) := by
  rw [loadFrom, h]
  rfl

theorem loadFrom_of_unreadable {error : SystemError} (hexists : w.exists? path = true)
    (hread : w.read path = .error error) : loadFrom w path = .error (.unreadable path error) := by
  rw [loadFrom, if_pos hexists, hread]

theorem loadFrom_of_notUtf8 {content : ByteArray} (hexists : w.exists? path = true)
    (hread : w.read path = .ok content) (htext : String.fromUTF8? content = none) :
    loadFrom w path = .error (.notUtf8 path) := by
  rw [loadFrom, if_pos hexists, hread]
  dsimp only
  rw [htext]

theorem loadFrom_of_text {content : ByteArray} (hexists : w.exists? path = true)
    (hread : w.read path = .ok content) (htext : String.fromUTF8? content = some text) :
    loadFrom w path = (ofToml text).mapError (.unusable path) := by
  rw [loadFrom, if_pos hexists, hread]
  dsimp only
  rw [htext]

/-- Loading a file gives a configuration iff the file is there, can be read and holds one. -/
theorem loadFrom_eq_ok_iff : loadFrom w path = .ok config ↔
    w.exists? path = true ∧ ∃ content text, w.read path = .ok content ∧
      String.fromUTF8? content = some text ∧ ofToml text = .ok config := by
  constructor
  · intro h
    cases hexists : w.exists? path with
    | false =>
        rw [loadFrom_of_missing hexists] at h
        exact nomatch h
    | true =>
        refine ⟨rfl, ?_⟩
        cases hread : w.read path with
        | error error =>
            rw [loadFrom_of_unreadable hexists hread] at h
            exact nomatch h
        | ok content =>
            cases htext : String.fromUTF8? content with
            | none =>
                rw [loadFrom_of_notUtf8 hexists hread htext] at h
                exact nomatch h
            | some text =>
                refine ⟨content, text, rfl, htext, ?_⟩
                rw [loadFrom_of_text hexists hread htext] at h
                cases hconfig : ofToml text with
                | error problem =>
                    rw [hconfig] at h
                    exact nomatch h
                | ok config' =>
                    rw [hconfig] at h
                    exact congrArg Except.ok (Except.ok.inj h)
  · rintro ⟨hexists, content, text, hread, htext, hconfig⟩
    rw [loadFrom_of_text hexists hread htext, hconfig]
    rfl

/-! ## The runners -/

theorem toList_runners_of_ofDraft {draft : Draft} (h : ofDraft draft = .ok config) :
    config.runners.toList ≠ [] := by
  obtain ⟨hne, rfl⟩ := ofDraft_eq_ok_iff.1 h
  cases hnames : draft.runners with
  | none => exact RunnerSet.toList_ofList_ne_nil (by decide)
  | some names =>
      rw [hnames] at hne
      exact RunnerSet.toList_ofList_ne_nil fun hnil => hne (congrArg some hnil)

/-- **A configuration that was read has a runner.** -/
theorem toList_runners_ne_nil (h : ofToml text = .ok config) : config.runners.toList ≠ [] := by
  unfold ofToml ofEntries at h
  split at h
  · split at h
    · exact toList_runners_of_ofDraft h
    · exact nomatch h
  · exact nomatch h

/-! ## One of three files -/

/-- The file from which the configuration is taken: the explicit one, else that of the environment,
else the default one. -/
def sourceFile (explicit environment : Option Path) : Path :=
  (explicit.or environment).getD (Text.bytesOf defaultFile)

variable {explicit environment : Option Path}

theorem sourceFile_of_named (h : explicit.or environment = some path) :
    sourceFile explicit environment = path := by
  rw [sourceFile, h, Option.getD_some]

theorem sourceFile_of_default (h : explicit.or environment = none) :
    sourceFile explicit environment = Text.bytesOf defaultFile := by
  rw [sourceFile, h, Option.getD_none]

/-- A file that is named is loaded, whether it exists or not. -/
theorem load_of_named (h : explicit.or environment = some path) :
    load w explicit environment = loadFrom w path := by
  cases explicit with
  | some named =>
      obtain rfl : named = path := Option.some.inj h
      cases environment <;> rfl
  | none =>
      cases environment with
      | some named =>
          obtain rfl : named = path := Option.some.inj h
          rfl
      | none => exact nomatch h

/-- Where no file is named, the default file is loaded if it exists. -/
theorem load_of_default (h : explicit.or environment = none) :
    load w explicit environment =
      if w.exists? (Text.bytesOf defaultFile) then loadFrom w (Text.bytesOf defaultFile)
      else .ok {} := by
  obtain ⟨rfl, rfl⟩ := Option.or_eq_none_iff.1 h
  rw [load, chosenFile?]
  cases w.exists? (Text.bytesOf defaultFile) <;> rfl

/-- The source is loaded if it exists. -/
theorem load_of_exists (h : w.exists? (sourceFile explicit environment) = true) :
    load w explicit environment = loadFrom w (sourceFile explicit environment) := by
  cases hnamed : explicit.or environment with
  | some path => rw [load_of_named hnamed, sourceFile_of_named hnamed]
  | none =>
      rw [sourceFile_of_default hnamed] at h ⊢
      rw [load_of_default hnamed, if_pos h]

/-- What is loaded is decided by the files that are named and by what stands under the source. -/
theorem load_congr {explicit' environment' : Option Path}
    (hnamed : explicit'.or environment' = explicit.or environment)
    (h : w.AgreeAt w' (sourceFile explicit environment)) :
    load w' explicit' environment' = load w explicit environment := by
  cases hpath : explicit.or environment with
  | some path =>
      rw [sourceFile_of_named hpath] at h
      rw [load_of_named hpath, load_of_named (hnamed.trans hpath), loadFrom_congr h]
  | none =>
      rw [sourceFile_of_default hpath] at h
      rw [load_of_default hpath, load_of_default (hnamed.trans hpath), loadFrom_congr h,
        h.existence]

/-- **What is loaded depends on one source only.**  Two worlds that agree on the source give the
same, whatever the other files hold and whichever of the ways names the source.  A named file that
cannot be looked up is reported as not found, and a source that is found and cannot be read, is not
UTF-8 or holds no configuration (in particular one with an empty list of runners) is reported too.
The defaults are loaded where no file is named and the default file cannot be looked up, for
whatever reason; every other configuration is the one that the text of the source holds.  A
configuration always has a runner. -/
theorem load_precedence (w : World) (explicit environment : Option Path) :
    (∀ w' explicit' environment', explicit'.or environment' = explicit.or environment →
      w.AgreeAt w' (sourceFile explicit environment) →
      load w' explicit' environment' = load w explicit environment) ∧
    (∀ path error, explicit.or environment = some path → w.lookUp path = .error error →
      load w explicit environment = .error (.notFound path)) ∧
    (∀ place error, w.lookUp (sourceFile explicit environment) = .ok place →
      w.read (sourceFile explicit environment) = .error error →
      load w explicit environment =
        .error (.unreadable (sourceFile explicit environment) error)) ∧
    (∀ content, w.read (sourceFile explicit environment) = .ok content →
      String.fromUTF8? content = none →
      load w explicit environment = .error (.notUtf8 (sourceFile explicit environment))) ∧
    (∀ content text problem, w.read (sourceFile explicit environment) = .ok content →
      String.fromUTF8? content = some text → ofToml text = .error problem →
      load w explicit environment =
        .error (.unusable (sourceFile explicit environment) problem)) ∧
    (∀ error, explicit.or environment = none →
      w.lookUp (Text.bytesOf defaultFile) = .error error → load w explicit environment = .ok {}) ∧
    ∀ config, load w explicit environment = .ok config → config.runners.toList ≠ [] ∧
      ((explicit.or environment = none ∧
          (∃ error, w.lookUp (Text.bytesOf defaultFile) = .error error) ∧ config = {}) ∨
        ∃ content text, w.read (sourceFile explicit environment) = .ok content ∧
          String.fromUTF8? content = some text ∧ ofToml text = .ok config) := by
  have hfound : ∀ content, w.read (sourceFile explicit environment) = .ok content →
      w.exists? (sourceFile explicit environment) = true := by
    intro content hread
    exact World.exists?_eq_true_iff.2 (World.exists_lookUp_of_read hread)
  refine ⟨fun w' explicit' environment' => load_congr, fun path error hnamed hlookUp => ?_,
    fun place error hlookUp hread => ?_, fun content hread htext => ?_,
    fun content text problem hread htext hproblem => ?_, fun error hnamed hlookUp => ?_,
    fun config hload => ?_⟩
  · rw [load_of_named hnamed, loadFrom_of_missing (World.exists?_eq_false_iff.2 ⟨error, hlookUp⟩)]
  · have hexists := World.exists?_eq_true_iff.2 ⟨place, hlookUp⟩
    rw [load_of_exists hexists, loadFrom_of_unreadable hexists hread]
  · have hexists := hfound content hread
    rw [load_of_exists hexists, loadFrom_of_notUtf8 hexists hread htext]
  · have hexists := hfound content hread
    rw [load_of_exists hexists, loadFrom_of_text hexists hread htext, hproblem]
    rfl
  · rw [load_of_default hnamed, World.exists?_eq_false_iff.2 ⟨error, hlookUp⟩]
    rfl
  · cases hexists : w.exists? (sourceFile explicit environment) with
    | true =>
        rw [load_of_exists hexists] at hload
        obtain ⟨-, content, text, hread, htext, hconfig⟩ := loadFrom_eq_ok_iff.1 hload
        exact ⟨toList_runners_ne_nil hconfig, Or.inr ⟨content, text, hread, htext, hconfig⟩⟩
    | false =>
        cases hnamed : explicit.or environment with
        | some path =>
            rw [sourceFile_of_named hnamed] at hexists
            rw [load_of_named hnamed, loadFrom_of_missing hexists] at hload
            exact nomatch hload
        | none =>
            rw [sourceFile_of_default hnamed] at hexists
            rw [load_of_default hnamed, hexists, if_neg Bool.false_ne_true] at hload
            obtain rfl := Except.ok.inj hload
            exact ⟨RunnerSet.toList_ofList_ne_nil (by decide),
              Or.inl ⟨rfl, World.exists?_eq_false_iff.1 hexists, rfl⟩⟩

/-- A default file with a runner of its own, a file without any, one that may not be read and a
directory that may not be entered. -/
def severalSources : World :=
  Inspection.project [(Text.bytesOf "none.toml", .file (.ok "[language]\nrunners = []".toUTF8)),
    (Text.bytesOf "kept.toml", .file (.error .permissionDenied)),
    (Text.bytesOf "kept", .closed .permissionDenied),
    (Text.bytesOf defaultFile, .file (.ok "[language]\nrunners = [\"should\"]".toUTF8))]

/-- None of a named file that is missing, one that may not be looked up, one that may not be read
and one without runners makes way for the default file. -/
theorem load_precedence_severalSources :
    severalSources.exists? (Text.bytesOf defaultFile) = true ∧
    load severalSources (some (Text.bytesOf "missing.toml")) none =
      .error (.notFound (Text.bytesOf "missing.toml")) ∧
    load severalSources (some (Text.bytesOf "kept/a.toml")) none =
      .error (.notFound (Text.bytesOf "kept/a.toml")) ∧
    load severalSources none (some (Text.bytesOf "kept.toml")) =
      .error (.unreadable (Text.bytesOf "kept.toml") .permissionDenied) ∧
    load severalSources none (some (Text.bytesOf "none.toml")) =
      .error (.unusable (Text.bytesOf "none.toml") .emptyRunners) := by
  obtain ⟨-, hmissing, -⟩ :=
    load_precedence severalSources (some (Text.bytesOf "missing.toml")) none
  obtain ⟨-, hclosed, -⟩ :=
    load_precedence severalSources (some (Text.bytesOf "kept/a.toml")) none
  obtain ⟨-, -, hunreadable, -⟩ :=
    load_precedence severalSources none (some (Text.bytesOf "kept.toml"))
  obtain ⟨-, -, -, -, hunusable, -⟩ :=
    load_precedence severalSources none (some (Text.bytesOf "none.toml"))
  refine ⟨by cbv, hmissing _ .noEntry rfl (by cbv), hclosed _ .permissionDenied rfl (by cbv),
    hunreadable ⟨[Text.bytesOf "project", Text.bytesOf "kept.toml"],
      .file (.error .permissionDenied)⟩ _ (by cbv) (by cbv), ?_⟩
  exact hunusable "[language]\nrunners = []".toUTF8 "[language]\nrunners = []" .emptyRunners
    (by cbv) (by cbv) (by cbv)

/-- A default file that is a link to itself. -/
def circularSource : World :=
  Inspection.project [(Text.bytesOf defaultFile, .link (Text.bytesOf defaultFile))]

/-- **A default file can make way for the defaults without being missing**: it is there, and the
system refuses to look it up and to read it. -/
theorem exists_load_of_not_missing : ∃ (w : World) (error : SystemError),
    (w.root.at? (w.current ++ [Text.bytesOf defaultFile])).isSome ∧
    ¬ w.Missing (Text.bytesOf defaultFile) ∧
    w.read (Text.bytesOf defaultFile) = .error error ∧ load w none none = .ok {} := by
  have hrefused : circularSource.lookUp (Text.bytesOf defaultFile) = .error .tooManyLinks := by cbv
  refine ⟨circularSource, .tooManyLinks, by rfl, ?_, ?_, ?_⟩
  · rw [World.Missing, hrefused]
    intro heq
    cases Except.error.inj heq
  · rw [World.read, hrefused]
    rfl
  · rw [load_of_default rfl, World.exists?_eq_false_iff.2 ⟨_, hrefused⟩]
    rfl

end Config

end SpecLint
