import Mathlib.Data.List.Nodup
import SpecLint.Discovery
import SpecLint.Proofs.FileTree.Walk
import SpecLint.Proofs.Keyed

/-!
# What discovery selects

In a directory tree the entries of each directory have distinct names.  Discovery lists exactly the
regular files of such a tree whose name has an included suffix and on whose way there is no excluded
directory, and it lists each of them once.

* `FileTree.WellFormed` — the trees that a file system can hold, with a decision procedure.
* `FileSelection.mem_selectedIn_iff` — **what discovery selects**.
* `FileSelection.nodup_selectedIn` — **no file is selected twice**.
-/

namespace SpecLint

/-! ## Well-formed trees -/

namespace FileTree

/-- A tree in which the entries of each directory have distinct names. -/
inductive WellFormed : FileTree → Prop where
  | file (content : Except SystemError ByteArray) : WellFormed (.file content)
  | dir {entries : List (FileName × FileTree)} (distinct : (entries.map Prod.fst).Nodup)
      (names : ∀ entry ∈ entries, Path.IsName entry.1)
      (below : ∀ entry ∈ entries, WellFormed entry.2) : WellFormed (.dir entries)
  | closed (error : SystemError) : WellFormed (.closed error)
  | link (target : Path) : WellFormed (.link target)
  | device : WellFormed .device

theorem wellFormed_dir_iff {entries : List (FileName × FileTree)} :
    (FileTree.dir entries).WellFormed ↔ (entries.map Prod.fst).Nodup ∧
      (∀ entry ∈ entries, Path.IsName entry.1) ∧ ∀ entry ∈ entries, entry.2.WellFormed := by
  constructor
  · intro h
    cases h with
    | dir distinct names below => exact ⟨distinct, names, below⟩
  · rintro ⟨distinct, names, below⟩
    exact .dir distinct names below

mutual

/-- Decides whether a tree is well-formed by asking for it at each of its directories. -/
def decideWellFormed : (tree : FileTree) → Decidable tree.WellFormed
  | .file content => .isTrue (.file content)
  | .dir entries =>
      have := decideAllWellFormed entries
      decidable_of_iff' ((entries.map Prod.fst).Nodup ∧ (∀ entry ∈ entries, Path.IsName entry.1) ∧
        ∀ entry ∈ entries, entry.2.WellFormed) wellFormed_dir_iff
  | .closed error => .isTrue (.closed error)
  | .link target => .isTrue (.link target)
  | .device => .isTrue .device

/-- Decides whether all entries of a directory are well-formed. -/
def decideAllWellFormed : (entries : List (FileName × FileTree)) →
    Decidable (∀ entry ∈ entries, entry.2.WellFormed)
  | [] => .isTrue (List.forall_mem_nil _)
  | (_, tree) :: entries =>
      have := decideWellFormed tree
      have := decideAllWellFormed entries
      decidable_of_iff' (tree.WellFormed ∧ ∀ entry ∈ entries, entry.2.WellFormed)
        List.forall_mem_cons

end

instance : DecidablePred WellFormed := decideWellFormed

theorem at?_dir_eq_some_iff {entries : List (FileName × FileTree)}
    (h : (entries.map Prod.fst).Nodup) {name : FileName} {names : List FileName} {tree : FileTree} :
    (FileTree.dir entries).at? (name :: names) = some tree ↔
      ∃ child, (name, child) ∈ entries ∧ child.at? names = some tree := by
  rw [at?, Option.bind_eq_some_iff]
  simp only [FileTree.entries, Keyed.lookup_eq_some_iff h]

/-- What stands in a well-formed tree is well-formed, and it stands there under proper names. -/
theorem WellFormed.at? {tree below : FileTree} {names : List FileName} (h : tree.WellFormed)
    (hbelow : tree.at? names = some below) :
    below.WellFormed ∧ ∀ name ∈ names, Path.IsName name := by
  induction names generalizing tree with
  | nil =>
      obtain rfl := Option.some.inj hbelow
      exact ⟨h, fun name hname => nomatch hname⟩
  | cons name names ih =>
      obtain ⟨entries, rfl⟩ := dir_of_at?_cons hbelow
      cases h with
      | dir distinct proper wellFormed =>
          obtain ⟨child, hmem, hrest⟩ := (at?_dir_eq_some_iff distinct).1 hbelow
          obtain ⟨hwellFormed, hnames⟩ := ih (wellFormed _ hmem) hrest
          exact ⟨hwellFormed, List.forall_mem_cons.2 ⟨proper _ hmem, hnames⟩⟩

end FileTree

/-! ## Selection -/

namespace FileSelection

variable {files : FileSelection}

/-- The names lead to a regular file with an included name, and no directory on the way to it is
excluded. -/
def Selects (files : FileSelection) (tree : FileTree) (names : List FileName) : Prop :=
  ∃ dirs name content, names = dirs ++ [name] ∧ tree.at? names = some (.file content) ∧
    (∀ dir ∈ dirs, files.excludesDir (Text.lossy dir) = false) ∧
    files.includes (Text.lossy name) = true

theorem not_selects_nil {tree : FileTree} : ¬ files.Selects tree [] := by
  rintro ⟨dirs, name, content, heq, -⟩
  exact absurd heq.symm (List.append_ne_nil_of_right_ne_nil _ (List.cons_ne_nil _ _))

theorem selects_dir_iff {entries : List (FileName × FileTree)}
    (h : (entries.map Prod.fst).Nodup) {first : FileName} {rest : List FileName} :
    files.Selects (.dir entries) (first :: rest) ↔ ∃ child, (first, child) ∈ entries ∧
      (rest = [] ∧ (∃ content, child = .file content) ∧
          files.includes (Text.lossy first) = true ∨
        files.excludesDir (Text.lossy first) = false ∧ files.Selects child rest) := by
  constructor
  · rintro ⟨dirs, name, content, heq, hat, hdirs, hincluded⟩
    obtain ⟨child, hentry, hrest⟩ := (FileTree.at?_dir_eq_some_iff h).1 hat
    refine ⟨child, hentry, ?_⟩
    cases dirs with
    | nil =>
        obtain ⟨rfl, rfl⟩ := List.cons.inj heq
        exact Or.inl ⟨rfl, ⟨content, Option.some.inj hrest⟩, hincluded⟩
    | cons dir dirs =>
        obtain ⟨rfl, rfl⟩ := List.cons.inj heq
        obtain ⟨hentered, hdirs⟩ := List.forall_mem_cons.1 hdirs
        exact Or.inr ⟨hentered, dirs, name, content, rfl, hrest, hdirs, hincluded⟩
  · rintro ⟨child, hentry, ⟨rfl, ⟨content, rfl⟩, hincluded⟩ |
      ⟨hentered, dirs, name, content, rfl, hat, hdirs, hincluded⟩⟩
    · have hat : (FileTree.dir entries).at? [first] = some (.file content) :=
        (FileTree.at?_dir_eq_some_iff h).2 ⟨_, hentry, rfl⟩
      exact ⟨[], first, content, rfl, hat, List.forall_mem_nil _, hincluded⟩
    · refine ⟨first :: dirs, name, content, rfl, ?_, ?_, hincluded⟩
      · exact (FileTree.at?_dir_eq_some_iff h).2 ⟨_, hentry, hat⟩
      · exact List.forall_mem_cons.2 ⟨hentered, hdirs⟩

/-- What is selected of one entry. -/
def selectedAt (files : FileSelection) : FileName × FileTree → List (List FileName)
  | (name, .file _) => if files.includes (Text.lossy name) then [[name]] else []
  | (name, .dir entries) =>
      if files.excludesDir (Text.lossy name) then []
      else (files.selectedIn (.dir entries)).map (name :: ·)
  | _ => []

theorem selectedAmong_eq (entries : List (FileName × FileTree)) :
    files.selectedAmong entries = entries.flatMap files.selectedAt := by
  induction entries with
  | nil => rfl
  | cons entry entries ih =>
      obtain ⟨name, tree⟩ := entry
      rw [List.flatMap_cons, ← ih]
      cases tree <;> rfl

theorem mem_selectedAt_iff {name : FileName} {tree : FileTree} {names : List FileName} :
    names ∈ files.selectedAt (name, tree) ↔ ∃ rest, names = name :: rest ∧
      (rest = [] ∧ (∃ content, tree = .file content) ∧
          files.includes (Text.lossy name) = true ∨
        files.excludesDir (Text.lossy name) = false ∧ rest ∈ files.selectedIn tree) := by
  cases tree with
  | file content => simp [selectedAt, selectedIn, and_comm]
  | dir entries =>
      cases hexcluded : files.excludesDir (Text.lossy name) with
      | true => simp [selectedAt, hexcluded]
      | false => simp [selectedAt, hexcluded, and_comm, @eq_comm _ names]
  | closed error => simp [selectedAt, selectedIn]
  | link target => simp [selectedAt, selectedIn]
  | device => simp [selectedAt, selectedIn]

theorem mem_selectedIn_dir_iff {entries : List (FileName × FileTree)} {first : FileName}
    {rest : List FileName} :
    first :: rest ∈ files.selectedIn (.dir entries) ↔ ∃ child, (first, child) ∈ entries ∧
      (rest = [] ∧ (∃ content, child = .file content) ∧
          files.includes (Text.lossy first) = true ∨
        files.excludesDir (Text.lossy first) = false ∧ rest ∈ files.selectedIn child) := by
  rw [selectedIn, selectedAmong_eq, List.mem_flatMap]
  constructor
  · rintro ⟨⟨name, child⟩, hentry, hmem⟩
    obtain ⟨rest', hcons, hcase⟩ := mem_selectedAt_iff.1 hmem
    obtain ⟨rfl, rfl⟩ := List.cons.inj hcons
    exact ⟨child, hentry, hcase⟩
  · rintro ⟨child, hentry, hcase⟩
    exact ⟨(first, child), hentry, mem_selectedAt_iff.2 ⟨rest, rfl, hcase⟩⟩

theorem nil_not_mem_selectedIn {tree : FileTree} : [] ∉ files.selectedIn tree := by
  intro hmem
  cases tree with
  | dir entries =>
      rw [selectedIn, selectedAmong_eq, List.mem_flatMap] at hmem
      obtain ⟨entry, -, hentry⟩ := hmem
      obtain ⟨rest, hrest, -⟩ := mem_selectedAt_iff.1 hentry
      cases hrest
  | file content => cases hmem
  | closed error => cases hmem
  | link target => cases hmem
  | device => cases hmem

/-- **What discovery selects.** -/
theorem mem_selectedIn_iff {tree : FileTree} (h : tree.WellFormed) {names : List FileName} :
    names ∈ files.selectedIn tree ↔ files.Selects tree names := by
  induction names generalizing tree with
  | nil => exact iff_of_false nil_not_mem_selectedIn not_selects_nil
  | cons first rest ih =>
      cases h with
      | @dir entries distinct proper below =>
          rw [mem_selectedIn_dir_iff, selects_dir_iff distinct]
          refine exists_congr fun child => and_congr_right fun hentry => or_congr_right ?_
          exact and_congr_right fun _ => ih (below _ hentry)
      | file content => exact iff_of_false List.not_mem_nil fun ⟨_, _, _, _, hat, _⟩ => nomatch hat
      | closed error => exact iff_of_false List.not_mem_nil fun ⟨_, _, _, _, hat, _⟩ => nomatch hat
      | link target => exact iff_of_false List.not_mem_nil fun ⟨_, _, _, _, hat, _⟩ => nomatch hat
      | device => exact iff_of_false List.not_mem_nil fun ⟨_, _, _, _, hat, _⟩ => nomatch hat

theorem nodup_selectedAt {name : FileName} {tree : FileTree} (h : (files.selectedIn tree).Nodup) :
    (files.selectedAt (name, tree)).Nodup := by
  cases tree with
  | file content =>
      rw [selectedAt]
      split
      · exact List.nodup_singleton _
      · exact List.nodup_nil
  | dir entries =>
      rw [selectedAt]
      split
      · exact List.nodup_nil
      · exact h.map List.cons_injective
  | closed error => exact List.nodup_nil
  | link target => exact List.nodup_nil
  | device => exact List.nodup_nil

/-- **No file is selected twice.** -/
theorem nodup_selectedIn {tree : FileTree} (h : tree.WellFormed) :
    (files.selectedIn tree).Nodup := by
  induction h with
  | file content => exact List.nodup_nil
  | closed error => exact List.nodup_nil
  | link target => exact List.nodup_nil
  | device => exact List.nodup_nil
  | @dir entries distinct names below ih =>
      rw [selectedIn, selectedAmong_eq, List.nodup_flatMap]
      constructor
      · rintro ⟨name, tree⟩ hentry
        exact nodup_selectedAt (ih _ hentry)
      · -- files under different entries differ in their first name
        have hdistinct : entries.Pairwise fun a b => a.1 ≠ b.1 := List.pairwise_map.1 distinct
        refine hdistinct.imp fun {a b} hne names ha hb => ?_
        obtain ⟨rest, hrest, -⟩ := mem_selectedAt_iff.1 ha
        obtain ⟨rest', hrest', -⟩ := mem_selectedAt_iff.1 hb
        rw [hrest] at hrest'
        exact hne (List.cons.inj hrest').1

end FileSelection

/-- Below a directory the selected files are found in order. -/
theorem World.specFiles_of_dir {w : World} {files : FileSelection} {root : Path}
    {top : List FileName} {entries : List (FileName × FileTree)}
    (h : w.lookUp root = .ok ⟨top, .dir entries⟩) :
    w.specFiles files root = .ok
      (((files.selectedIn (.dir entries)).mergeSort notAfter).map (Path.joinAll root)) := by
  rw [specFiles, h]

end SpecLint
