import SpecLint.Proofs.FileTree.Display
import SpecLint.Proofs.Inspection

/-!
# Reports name their files

Each report bears the path of its file as it is shown.  Among files whose names below the root are
legible no two are shown alike, whatever the root: a link, a path with dots in it, the root of all
files or a directory whose own canonical path is not UTF-8.  A backslash in a name is shown as a
slash, and then two files can be shown alike.

* `Inspection.shownPath_eq_iff` — **when two files are shown alike**.
* `Inspection.eq_of_shownPath_eq` — **the path that is shown tells the file**.
* `Inspection.pairwise_shownPath` — no two reports on legible files bear one path.
* `Inspection.twins_shown_alike` — two reports that do.
-/

namespace SpecLint.Inspection

variable {w : World} {grammar : Lowering.Grammar} {d : Dispatcher} {files : FileSelection}
  {root : Path} {base : Place} {names others : List FileName}

/-! ## One file -/

/-- A file below the root that can be looked up: its names from the root are proper, and the path
over them leads to it. -/
structure Reached (w : World) (root : Path) (base : Place) (names : List FileName) : Prop where
  ne_nil : names ≠ []
  isName : ∀ name ∈ names, Path.IsName name
  canonical : ∃ tree, w.canonical (Path.joinAll root names) = .ok ⟨base.names ++ names, tree⟩

/-- What is shown for a file is, but for one beginning that all the files share, the text of its
names with slashes for backslashes. -/
theorem exists_shownPath (hroot : w.canonical root = .ok base) : ∃ front back : List Char,
    ∀ names, Reached w root base names → (∀ name ∈ names, (Text.utf8? name).isSome) →
      (base.names = [] → ¬ Path.BeginsWithBackslash names) →
      front ++ (shownPath w root (Path.joinAll root names)).toList =
        back ++ (Path.text names).map World.forward := by
  cases hbase : Text.utf8? (Path.absolute base.names) with
  | none =>
      -- no canonical text: the path is shown as it is given
      refine ⟨[], (Text.lossyChars (Path.stem root)).map World.forward, fun names h _ _ => ?_⟩
      obtain ⟨-, hne, -⟩ := World.canonical_eq_ok_iff.1 hroot
      obtain ⟨error, herror⟩ :=
        World.displayPath_of_utf8?_eq_none hroot hbase (Path.joinAll root names)
      have hshown : shownPath w root (Path.joinAll root names) =
          World.forwardSlashes (Text.lossy (Path.joinAll root names)) := by
        rw [shownPath, herror]
      rw [hshown, List.nil_append, World.toList_forwardSlashes, Text.lossy, String.toList_ofList,
        Path.joinAll_eq hne h.ne_nil h.isName, Path.lossyChars_append_flatMap_slash,
        List.map_append]
  | some start =>
      have hstart := Text.utf8?_eq_some_iff.1 hbase
      by_cases htop : base.names = []
      · refine ⟨[], [], fun names h hreadable hfirst => ?_⟩
        obtain ⟨tree, hpath⟩ := h.canonical
        rw [htop, List.nil_append] at hpath
        rw [shownPath, World.displayPath_top hroot hpath htop h.ne_nil
          (fun name hname => ⟨h.isName name hname, hreadable name hname⟩) (hfirst htop)]
        exact String.toList_ofList
      · refine ⟨['/'], [], fun names h hreadable _ => ?_⟩
        obtain ⟨tree, hpath⟩ := h.canonical
        obtain ⟨shown, hshown, htext⟩ := World.displayPath_below hroot hpath htop hstart h.ne_nil
          fun name hname => ⟨h.isName name hname, hreadable name hname⟩
        rw [shownPath, hshown]
        exact htext

/-- **Two files are shown alike exactly when their names are, with slashes for backslashes.**  Below
the root of all files the names may not begin with a backslash for it. -/
theorem shownPath_eq_iff (hroot : w.canonical root = .ok base) (h : Reached w root base names)
    (hreadable : ∀ name ∈ names, (Text.utf8? name).isSome)
    (hfirst : base.names = [] → ¬ Path.BeginsWithBackslash names) (h' : Reached w root base others)
    (hreadable' : ∀ name ∈ others, (Text.utf8? name).isSome)
    (hfirst' : base.names = [] → ¬ Path.BeginsWithBackslash others) :
    shownPath w root (Path.joinAll root names) = shownPath w root (Path.joinAll root others) ↔
      (Path.text names).map World.forward = (Path.text others).map World.forward := by
  obtain ⟨front, back, hshown⟩ := exists_shownPath hroot
  have hnames := hshown names h hreadable hfirst
  have hothers := hshown others h' hreadable' hfirst'
  constructor
  · intro heq
    rw [heq] at hnames
    exact List.append_cancel_left (hnames.symm.trans hothers)
  · intro heq
    rw [heq, ← hothers] at hnames
    exact String.toList_inj.1 (List.append_cancel_left hnames)

/-- **The path that is shown tells the file.** -/
theorem eq_of_shownPath_eq (hroot : w.canonical root = .ok base) (h : Reached w root base names)
    (hlegible : ∀ name ∈ names, Path.Legible name) (h' : Reached w root base others)
    (hlegible' : ∀ name ∈ others, Path.Legible name)
    (heq : shownPath w root (Path.joinAll root names) =
      shownPath w root (Path.joinAll root others)) : names = others := by
  have htext := (shownPath_eq_iff hroot h (fun name hname => (hlegible name hname).readable)
    (fun _ => Path.not_beginsWithBackslash hlegible) h'
    (fun name hname => (hlegible' name hname).readable)
    fun _ => Path.not_beginsWithBackslash hlegible').1 heq
  rw [World.map_forward_text hlegible, World.map_forward_text hlegible'] at htext
  apply Path.text_injective _ _ htext
  · intro name hname
    exact ⟨(h.isName name hname).slash_not_mem, (hlegible name hname).readable⟩
  · intro name hname
    exact ⟨(h'.isName name hname).slash_not_mem, (hlegible' name hname).readable⟩

/-! ## All files -/

/-- The names below the root of the files that are reported on, in their order. -/
def reported (w : World) (grammar : Lowering.Grammar) (d : Dispatcher) (files : FileSelection)
    (root : Path) (tree : FileTree) : List (List FileName) :=
  ((files.selectedIn tree).mergeSort notAfter).filter fun names =>
    (offensesAt? w grammar d (Path.joinAll root names)).isSome

theorem exists_lookUp_of_offensesAt? {path : Path} (h : (offensesAt? w grammar d path).isSome) :
    ∃ place, w.lookUp path = .ok place := by
  rw [offensesAt?_eq_bind] at h
  cases hread : w.read path with
  | ok content => exact World.exists_lookUp_of_read hread
  | error error =>
      rw [content?, hread] at h
      cases h

/-- A file that is reported on has been reached. -/
theorem reached_of_mem_reported (hw : w.root.WellFormed) (hroot : w.lookUp root = .ok base)
    (h : names ∈ reported w grammar d files root base.tree) : Reached w root base names := by
  obtain ⟨hselected, hreported⟩ := List.mem_filter.1 h
  obtain ⟨place, hplace⟩ := exists_lookUp_of_offensesAt? hreported
  have hbase := World.at?_of_lookUp hroot
  obtain ⟨dirs, name, content, rfl, hfile, -⟩ :=
    (FileSelection.mem_selectedIn_iff (hw.at? hbase).1).1 (List.mem_mergeSort.1 hselected)
  have htree : w.root.at? (base.names ++ (dirs ++ [name])) = some (.file content) := by
    rw [FileTree.at?_append, hbase]
    exact hfile
  have hempty : dirs ++ [name] ≠ [] := List.append_ne_nil_of_right_ne_nil _ (List.cons_ne_nil _ _)
  have hnames := ((hw.at? hbase).1.at? hfile).2
  have hcanonical := (World.lookUp_eq_ok_iff.1 hplace).2
  rw [World.canonical_joinAll (World.lookUp_eq_ok_iff.1 hroot).2 hcanonical hempty hnames htree
    (FileTree.not_isLink_file content)] at hcanonical
  exact ⟨hempty, hnames, _, hcanonical⟩

/-- No file is reported on twice. -/
theorem nodup_reported {tree : FileTree} (h : tree.WellFormed) :
    (reported w grammar d files root tree).Nodup := by
  apply List.Nodup.filter
  exact (List.mergeSort_perm _ _).nodup_iff.2 (FileSelection.nodup_selectedIn h)

section Directory

variable {top : List FileName} {entries : List (FileName × FileTree)}

/-- The inspection of a directory reports on its files in their order, each under the path that is
shown for it. -/
theorem exists_ofRoot (hroot : w.lookUp root = .ok ⟨top, .dir entries⟩) :
    ∃ i, ofRoot w grammar d files root = .ok i ∧
      i.files.map FileReport.path = (reported w grammar d files root (.dir entries)).map
        fun names => shownPath w root (Path.joinAll root names) := by
  refine ⟨_, by rw [ofRoot, World.specFiles_of_dir hroot]; rfl, ?_⟩
  rw [foldl_addFile, List.nil_append, List.filterMap_map, List.map_filterMap, reported,
    ← List.filterMap_eq_map', List.filterMap_filter]
  apply List.filterMap_congr
  intro names hnames
  rw [Function.comp_apply, fileReport?]
  cases offensesAt? w grammar d (Path.joinAll root names) <;> rfl

/-- No two reports on legible files bear one path, and those on files that are only UTF-8 do exactly
when their paths from the root are alike but for slashes and backslashes. -/
theorem pairwise_shownPath (hw : w.root.WellFormed)
    (hroot : w.lookUp root = .ok ⟨top, .dir entries⟩) :
    ∃ i, ofRoot w grammar d files root = .ok i ∧
      i.files.map FileReport.path = (reported w grammar d files root (.dir entries)).map
        (fun names => shownPath w root (Path.joinAll root names)) ∧
      ((reported w grammar d files root (.dir entries)).Pairwise fun names others =>
        (∀ name ∈ names, Path.Legible name) → (∀ name ∈ others, Path.Legible name) →
          shownPath w root (Path.joinAll root names) ≠
            shownPath w root (Path.joinAll root others)) ∧
      ∀ names ∈ reported w grammar d files root (.dir entries),
        ∀ others ∈ reported w grammar d files root (.dir entries),
          (∀ name ∈ names ++ others, (Text.utf8? name).isSome) →
          (top = [] → ¬ Path.BeginsWithBackslash names ∧ ¬ Path.BeginsWithBackslash others) →
            (shownPath w root (Path.joinAll root names) =
                shownPath w root (Path.joinAll root others) ↔
              (Path.text names).map World.forward = (Path.text others).map World.forward) := by
  have hcanonical := (World.lookUp_eq_ok_iff.1 hroot).2
  obtain ⟨i, hi, hpaths⟩ := exists_ofRoot hroot
  refine ⟨i, hi, hpaths, ?_, ?_⟩
  · have htree : (FileTree.dir entries).WellFormed := (hw.at? (World.at?_of_lookUp hroot)).1
    refine (nodup_reported htree).imp_of_mem fun {names others} hnames hothers hne => ?_
    intro hlegible hlegible' heq
    apply hne
    exact eq_of_shownPath_eq hcanonical (reached_of_mem_reported hw hroot hnames) hlegible
      (reached_of_mem_reported hw hroot hothers) hlegible' heq
  · intro names hnames others hothers hreadable hfirst
    exact shownPath_eq_iff hcanonical (reached_of_mem_reported hw hroot hnames)
      (fun name hname => hreadable name (List.mem_append_left _ hname))
      (fun htop => (hfirst htop).1) (reached_of_mem_reported hw hroot hothers)
      (fun name hname => hreadable name (List.mem_append_right _ hname))
      fun htop => (hfirst htop).2

end Directory

theorem wellFormed_project {entries : List (FileName × FileTree)}
    (h : (FileTree.dir entries).WellFormed) : (project entries).root.WellFormed := by
  apply FileTree.WellFormed.dir
  · exact List.nodup_singleton _
  · have hname : Path.IsName (Text.bytesOf "project") := by decide +kernel
    exact List.forall_mem_singleton.2 hname
  · exact List.forall_mem_singleton.2 h

/-- The entries of a directory with two spec files, of which one is empty. -/
def twoSpecs : List (FileName × FileTree) :=
  [(Text.bytesOf "b_spec.rb", .file (.ok .empty)),
    (Text.bytesOf "a_spec.rb", .file (.ok "a[1]".toUTF8)),
    (Text.bytesOf "c.rb", .file (.ok .empty))]

theorem wellFormed_twoSpecs : (FileTree.dir twoSpecs).WellFormed := by decide +kernel

/-- The paths of two spec files differ. -/
theorem pairwise_shownPath_two : (project twoSpecs).root.WellFormed ∧
    ∃ i, ofRoot (project twoSpecs) (fun _ => Lowering.elementAccess)
        (Dispatcher.ofRules allRules {}) ({} : Config).files Path.here = .ok i ∧
      (i.files.map FileReport.path).Nodup := by
  have hw := wellFormed_project wellFormed_twoSpecs
  have hroot := World.lookUp_here (w := project twoSpecs) rfl
  have hlegible : ∀ names ∈ ({} : Config).files.selectedIn (.dir twoSpecs),
      ∀ name ∈ names, Path.Legible name := by decide +kernel
  obtain ⟨i, hi, hpaths, hpairwise, -⟩ := @pairwise_shownPath (project twoSpecs)
    (fun _ => Lowering.elementAccess) (Dispatcher.ofRules allRules {}) ({} : Config).files Path.here
    _ _ hw hroot
  refine ⟨hw, i, hi, ?_⟩
  rw [hpaths]
  apply List.pairwise_map.2
  refine hpairwise.imp_of_mem fun {names others} hnames hothers hdistinct => ?_
  apply hdistinct
  · exact hlegible names (List.mem_mergeSort.1 (List.mem_filter.1 hnames).1)
  · exact hlegible others (List.mem_mergeSort.1 (List.mem_filter.1 hothers).1)

/-! ## Backslashes -/

/-- The entries of a directory with two spec files, one of them with a backslash in its name. -/
def twins : List (FileName × FileTree) :=
  [(Text.bytesOf "a\\b_spec.rb", .file (.ok .empty)),
    (Text.bytesOf "a", .dir [(Text.bytesOf "b_spec.rb", .file (.ok .empty))])]

theorem wellFormed_twins : (FileTree.dir twins).WellFormed := by decide +kernel

/-- An empty file below the current directory is reported on, and it is shown by the text of its
names. -/
theorem shownPath_project {entries : List (FileName × FileTree)} {text : String}
    (hnames : names ≠ [])
    (h : ∀ name ∈ names, (Path.IsName name ∧ (Text.utf8? name).isSome) ∧
      name.length ≤ World.maxNameLength)
    (hnul : 0 ∉ Path.joinAll Path.here names)
    (hlength : (Path.joinAll Path.here names).length ≤ World.maxPathLength)
    (htree : (FileTree.dir entries).at? names = some (.file (.ok .empty)))
    (htext : (Path.text names).map World.forward = '/' :: text.toList) :
    (offensesAt? (project entries) grammar d (Path.joinAll Path.here names)).isSome ∧
    shownPath (project entries) Path.here (Path.joinAll Path.here names) = text := by
  have hdir : (project entries).root.at? (project entries).current = some (.dir entries) := rfl
  have hat : (project entries).root.at? ((project entries).current ++ names) =
      some (.file (.ok .empty)) := by
    rw [FileTree.at?_append, hdir]
    exact htree
  have hroot := World.lookUp_here hdir
  have hpath := World.lookUp_joinAll_here hdir hnames
    (fun name hname => ⟨(h name hname).1.1, (h name hname).2⟩) hnul hlength hat
    (FileTree.not_isLink_file (.ok .empty))
  have hstart : Text.bytesOf "/project" = Path.absolute (project entries).current := by
    show Text.bytesOf "/project" = Path.absolute [Text.bytesOf "project"]
    decide +kernel
  obtain ⟨shown, hshown, hchars⟩ := World.displayPath_below (World.lookUp_eq_ok_iff.1 hroot).2
    (World.lookUp_eq_ok_iff.1 hpath).2 (List.cons_ne_nil _ _) hstart hnames
    fun name hname => (h name hname).1
  constructor
  · rw [offensesAt?, World.read, hpath]
    rfl
  · rw [htext] at hchars
    rw [shownPath, hshown]
    exact String.toList_inj.1 (List.cons.inj hchars).2

/-- **Two reports can bear one path**: a backslash in a name is shown as the slash between two. -/
theorem twins_shown_alike : (project twins).root.WellFormed ∧
    (∀ names ∈ ({} : Config).files.selectedIn (.dir twins), ∀ name ∈ names,
      (Text.utf8? name).isSome) ∧
    (project twins).lookUp Path.here = .ok ⟨[Text.bytesOf "project"], .dir twins⟩ ∧
    ∃ i, ofRoot (project twins) (fun _ => Lowering.elementAccess)
        (Dispatcher.ofRules allRules {}) ({} : Config).files Path.here = .ok i ∧
      i.files.map FileReport.path = ["a/b_spec.rb", "a/b_spec.rb"] := by
  have hroot := World.lookUp_here (w := project twins) rfl
  refine ⟨wellFormed_project wellFormed_twins, by decide +kernel, hroot, ?_⟩
  have hselected : ({} : Config).files.selectedIn (.dir twins) =
      [[Text.bytesOf "a\\b_spec.rb"], [Text.bytesOf "a", Text.bytesOf "b_spec.rb"]] := by
    decide +kernel
  obtain ⟨i, hi, hpaths⟩ := @exists_ofRoot (project twins)
    (fun _ => Lowering.elementAccess) (Dispatcher.ofRules allRules {}) ({} : Config).files Path.here
    _ _ hroot
  refine ⟨i, hi, ?_⟩
  have hshown : ∀ names ∈ ({} : Config).files.selectedIn (.dir twins),
      (offensesAt? (project twins) (fun _ => Lowering.elementAccess)
        (Dispatcher.ofRules allRules {}) (Path.joinAll Path.here names)).isSome ∧
      shownPath (project twins) Path.here (Path.joinAll Path.here names) = "a/b_spec.rb" := by
    rw [hselected, List.forall_mem_cons, List.forall_mem_singleton]
    constructor
    · exact shownPath_project (by decide) (by decide +kernel) (by decide +kernel)
        (by decide +kernel) rfl (by decide +kernel)
    · exact shownPath_project (by decide) (by decide +kernel) (by decide +kernel)
        (by decide +kernel) rfl (by decide +kernel)
  have hall : reported (project twins) (fun _ => Lowering.elementAccess)
      (Dispatcher.ofRules allRules {}) ({} : Config).files Path.here (.dir twins) =
      (({} : Config).files.selectedIn (.dir twins)).mergeSort notAfter :=
    List.filter_eq_self.2 fun names hnames => (hshown names (List.mem_mergeSort.1 hnames)).1
  rw [hpaths, hall]
  refine (List.eq_replicate_iff (n := 2)).2 ⟨?_, ?_⟩
  · rw [List.length_map, List.length_mergeSort, hselected]
    rfl
  · intro path hpath
    obtain ⟨names, hnames, rfl⟩ := List.mem_map.1 hpath
    exact (hshown names (List.mem_mergeSort.1 hnames)).2

end SpecLint.Inspection
