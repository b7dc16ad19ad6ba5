import SpecLint.Proofs.Discovery
import SpecLint.Proofs.FileTree.Order

/-!
# The list of spec files

Given a directory, discovery lists the paths of exactly those regular files below it that have an
included suffix and no excluded directory on the way, in strictly ascending order.  Neither the name
of the directory itself nor the name of a plain file excludes anything.

* `FileSelection.includes_iff`, `FileSelection.excludesDir_eq_false_iff` — what a name is tested
  for.
* `pairwise_lt_mergeSort` — a list without repetitions is sorted strictly.
* `World.specFiles_of_directory` — **the spec files below a directory**.
-/

namespace SpecLint

/-! ## Names -/

namespace FileSelection

variable {files : FileSelection} {name : String}

theorem includes_iff :
    files.includes name = true ↔ ∃ suffix ∈ files.suffixes, suffix.toList <:+ name.toList := by
  simp [includes, List.isSuffixOf_iff_suffix]

theorem excludesDir_eq_false_iff :
    files.excludesDir name = false ↔ name ∉ files.excludedDirs := by
  simp [excludesDir]

end FileSelection

/-! ## Order -/

/-- A list without repetitions is sorted strictly. -/
theorem pairwise_lt_mergeSort {all : List (List FileName)} (h : all.Nodup) :
    (all.mergeSort notAfter).Pairwise (· < ·) := by
  have hsorted : (all.mergeSort notAfter).Pairwise fun a b => notAfter a b = true := by
    apply List.pairwise_mergeSort
    · intro a b c hab hbc
      exact decide_eq_true (List.le_trans (of_decide_eq_true hab) (of_decide_eq_true hbc))
    · intro a b
      simpa [notAfter] using List.le_total a b
  have hdistinct : (all.mergeSort notAfter).Nodup := (List.mergeSort_perm _ _).nodup_iff.2 h
  refine (hsorted.and hdistinct).imp fun {a b} hab => ?_
  exact Std.lt_of_le_of_ne (of_decide_eq_true hab.1) hab.2

/-! ## Paths -/

namespace World

variable {w : World} {files : FileSelection} {root : Path} {top : List FileName}
  {entries : List (FileName × FileTree)}

/-- **The spec files below a directory** are listed strictly ascending: the regular files whose name
has an included suffix, with no excluded directory between the root and the file. -/
theorem specFiles_of_directory (hw : w.root.WellFormed)
    (hroot : w.lookUp root = .ok ⟨top, .dir entries⟩) :
    ∃ paths, w.specFiles files root = .ok paths ∧ paths.Pairwise Path.Before ∧ paths.Nodup ∧
      ∀ path, path ∈ paths ↔ ∃ dirs name content,
        path = Path.joinAll root (dirs ++ [name]) ∧
        (FileTree.dir entries).at? (dirs ++ [name]) = some (.file content) ∧
        (∀ dir ∈ dirs, Text.lossy dir ∉ files.excludedDirs) ∧
        ∃ suffix ∈ files.suffixes, suffix.toList <:+ (Text.lossy name).toList := by
  have htree : (FileTree.dir entries).WellFormed := (hw.at? (at?_of_lookUp hroot)).1
  have hne : root ≠ [] := (canonical_eq_ok_iff.1 (lookUp_eq_ok_iff.1 hroot).2).2.1
  have hnames : ∀ names ∈ files.selectedIn (.dir entries), ∀ name ∈ names, Path.IsName name := by
    intro names hmem
    obtain ⟨dirs, name, content, rfl, hat, -⟩ := (FileSelection.mem_selectedIn_iff htree).1 hmem
    exact (htree.at? hat).2
  have hordered : (((files.selectedIn (.dir entries)).mergeSort notAfter).map
      (Path.joinAll root)).Pairwise Path.Before := by
    rw [List.pairwise_map]
    refine (pairwise_lt_mergeSort (FileSelection.nodup_selectedIn htree)).imp_of_mem ?_
    intro names others hmem hmem' hlt
    exact Path.before_joinAll hne (hnames names (List.mem_mergeSort.1 hmem))
      (hnames others (List.mem_mergeSort.1 hmem')) hlt
  refine ⟨_, specFiles_of_dir hroot, hordered, hordered.imp ?_, fun path => ?_⟩
  · rintro p q hbefore rfl
    exact Path.not_before_self p hbefore
  · simp only [List.mem_map, List.mem_mergeSort, FileSelection.mem_selectedIn_iff htree,
      FileSelection.Selects, FileSelection.includes_iff, FileSelection.excludesDir_eq_false_iff]
    constructor
    · rintro ⟨_, ⟨dirs, name, content, rfl, hat, hdirs, hsuffix⟩, rfl⟩
      exact ⟨dirs, name, content, rfl, hat, hdirs, hsuffix⟩
    · rintro ⟨dirs, name, content, rfl, hat, hdirs, hsuffix⟩
      exact ⟨_, ⟨dirs, name, content, rfl, hat, hdirs, hsuffix⟩, rfl⟩

/-- The entries of a directory with spec files in `a.b` and in `a`. -/
def neighbours : List (FileName × FileTree) :=
  [(Text.bytesOf "a.b", .dir [(Text.bytesOf "x_spec.rb", .file (.ok .empty))]),
    (Text.bytesOf "a", .dir [(Text.bytesOf "y_spec.rb", .file (.ok .empty))])]

/-- Both spec files are listed. -/
theorem specFiles_of_directory_neighbours :
    (FileTree.dir neighbours).WellFormed ∧
    (World.mk (.dir neighbours) []).lookUp Path.here = .ok ⟨[], .dir neighbours⟩ ∧
    ∃ paths, (World.mk (.dir neighbours) []).specFiles {} Path.here = .ok paths ∧
      paths.Pairwise Path.Before ∧
      Text.bytesOf "./a/y_spec.rb" ∈ paths ∧ Text.bytesOf "./a.b/x_spec.rb" ∈ paths := by
  have hroot : (World.mk (.dir neighbours) []).lookUp Path.here = .ok ⟨[], .dir neighbours⟩ :=
    lookUp_here rfl
  have hw : (FileTree.dir neighbours).WellFormed := by decide +kernel
  obtain ⟨paths, hpaths, hordered, -, hmem⟩ :=
    @specFiles_of_directory (World.mk (.dir neighbours) []) {} _ _ _ hw hroot
  refine ⟨hw, hroot, paths, hpaths, hordered, (hmem _).2 ?_, (hmem _).2 ?_⟩
  · exact ⟨[Text.bytesOf "a"], Text.bytesOf "y_spec.rb", .ok .empty, by decide +kernel, rfl,
      by decide +kernel, by decide +kernel⟩
  · exact ⟨[Text.bytesOf "a.b"], Text.bytesOf "x_spec.rb", .ok .empty, by decide +kernel, rfl,
      by decide +kernel, by decide +kernel⟩

end World

end SpecLint
