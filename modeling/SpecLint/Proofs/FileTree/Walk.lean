import SpecLint.FileTree.World
import SpecLint.Proofs.FileTree.Paths

/-!
# Walking over the names of a path

One lemma for each thing that a walk can do at a name.  From them it follows that a walk over two
lists of names is a walk over the first and one from there over the second, and that a walk over
names below which a file stands leads to that file.  So the canonical names of a file found below a
directory are those of the directory and then the ones that lead from there to the file, whatever
links the path of the directory runs through.

* `World.walk_append` — a walk over two lists of names.
* `World.walk_names` — a walk over names that lead to a file.
* `World.canonical_joinAll` — **the canonical names of a file below a directory**.
-/

namespace SpecLint

/-! ## What lies under names -/

namespace FileTree

/-- Whether something is a symbolic link. -/
def IsLink (tree : FileTree) : Prop := ∃ target, tree = .link target

instance : DecidablePred IsLink
  | .link target => .isTrue ⟨target, rfl⟩
  | .file _ | .dir _ | .closed _ | .device => .isFalse fun ⟨_, heq⟩ => nomatch heq

theorem not_isLink_file (content : Except SystemError ByteArray) :
    ¬ (FileTree.file content).IsLink := by
  rintro ⟨target, heq⟩
  cases heq

theorem at?_append (tree : FileTree) (names more : List FileName) :
    tree.at? (names ++ more) = (tree.at? names).bind (·.at? more) := by
  induction names generalizing tree with
  | nil => rfl
  | cons name names ih =>
      rw [List.cons_append, at?, at?]
      cases tree.entries.lookup name with
      | none => rfl
      | some child => exact ih child

/-- What has something below it is a directory. -/
theorem dir_of_at?_cons {tree below : FileTree} {name : FileName} {names : List FileName}
    (h : tree.at? (name :: names) = some below) : ∃ entries, tree = .dir entries := by
  cases tree with
  | dir entries => exact ⟨entries, rfl⟩
  | file content => cases h
  | closed error => cases h
  | link target => cases h
  | device => cases h

end FileTree

namespace World

variable {w : World} {links : Nat} {names rest : List FileName} {name : FileName}
  {entries : List (FileName × FileTree)} {tree : FileTree} {place : Place}

/-! ## One name -/

theorem walk_none (h : w.root.at? names = none) (todo : List FileName) :
    w.walk links names todo = .error .noEntry := by
  rw [walk.eq_def, h]

theorem walk_nil (h : w.root.at? names = some tree) :
    w.walk links names [] = .ok ⟨names, tree⟩ := by
  rw [walk.eq_def, h]

theorem walk_of_not_dir (h : w.root.at? names = some tree) (hdir : ∀ entries, tree ≠ .dir entries)
    (hclosed : ∀ error, tree ≠ .closed error) :
    w.walk links names (name :: rest) = .error .notADirectory := by
  rw [walk.eq_def, h]
  cases tree with
  | dir entries => exact absurd rfl (hdir entries)
  | closed error => exact absurd rfl (hclosed error)
  | file content => rfl
  | link target => rfl
  | device => rfl

section Closed

variable {error : SystemError} (hclosed : w.root.at? names = some (.closed error))

include hclosed

/-- An empty name asks for a directory and does not look into it. -/
theorem walk_closed_nil : w.walk links names ([] :: rest) = w.walk links names rest := by
  rw [walk.eq_def, hclosed]
  exact if_pos rfl

/-- No walk leads through a directory into which the system refuses to look. -/
theorem walk_closed (hname : name ≠ []) : w.walk links names (name :: rest) = .error error := by
  rw [walk.eq_def, hclosed]
  exact if_neg hname

end Closed

section Directory

variable (hdir : w.root.at? names = some (.dir entries))

include hdir

theorem walk_stay (hstay : name = [] ∨ name = Path.here) :
    w.walk links names (name :: rest) = w.walk links names rest := by
  rw [walk.eq_def, hdir]
  exact if_pos hstay

theorem walk_above :
    w.walk links names (Path.above :: rest) = w.walk links names.dropLast rest := by
  rw [walk.eq_def, hdir]
  exact (if_neg (by decide)).trans (if_pos rfl)

variable (hstay : ¬ (name = [] ∨ name = Path.here)) (habove : name ≠ Path.above)

include hstay habove

theorem walk_long (hlong : maxNameLength < name.length) :
    w.walk links names (name :: rest) = .error .nameTooLong := by
  rw [walk.eq_def, hdir]
  simp only [if_neg hstay, if_neg habove, if_pos hlong]

variable (hshort : ¬ maxNameLength < name.length)

include hshort

theorem walk_missing (hname : entries.lookup name = none) :
    w.walk links names (name :: rest) = .error .noEntry := by
  rw [walk.eq_def, hdir]
  simp only [if_neg hstay, if_neg habove, if_neg hshort, hname]

theorem walk_last_link {target : Path} (hname : entries.lookup name = some (.link target)) :
    w.walk 0 names (name :: rest) = .error .tooManyLinks := by
  rw [walk.eq_def, hdir]
  simp only [if_neg hstay, if_neg habove, if_neg hshort, hname]

theorem walk_link {target : Path} (hname : entries.lookup name = some (.link target)) :
    w.walk (links + 1) names (name :: rest) =
      w.walk links (if Path.isAbsolute target then [] else names)
        (Path.segments target ++ rest) := by
  rw [walk.eq_def, hdir]
  simp only [if_neg hstay, if_neg habove, if_neg hshort, hname]

theorem walk_into (hname : entries.lookup name = some tree) (hlink : ¬ tree.IsLink) :
    w.walk links names (name :: rest) = w.walk links (names ++ [name]) rest := by
  rw [walk.eq_def, hdir]
  simp only [if_neg hstay, if_neg habove, if_neg hshort, hname]
  cases tree with
  | link target => exact absurd ⟨target, rfl⟩ hlink
  | dir entries => rfl
  | closed error => rfl
  | file content => rfl
  | device => rfl

end Directory

/-! ## Two lists of names -/

/-- A walk that reaches its end over two lists of names reaches a place over the first of them, and
goes on from there over the second. -/
theorem walk_append {first more : List FileName}
    (h : w.walk links names (first ++ more) = .ok place) :
    ∃ mid left, w.walk links names first = .ok mid ∧ w.walk left mid.names more = .ok place := by
  fun_induction World.walk w links names first with
  | case1 links names todo hnone =>
      rw [walk_none hnone] at h
      cases h
  | case2 links names tree htree => exact ⟨⟨names, tree⟩, links, rfl, h⟩
  | case3 links names entries name rest hdir hstay ih =>
      rw [List.cons_append, walk_stay hdir hstay] at h
      exact ih h
  | case4 links names entries rest hdir _ ih =>
      rw [List.cons_append, walk_above hdir] at h
      exact ih h
  | case5 links names entries name rest hdir hstay habove hlong =>
      rw [List.cons_append, walk_long hdir hstay habove hlong] at h
      cases h
  | case6 links names entries name rest hdir hstay habove hshort hname =>
      rw [List.cons_append, walk_missing hdir hstay habove hshort hname] at h
      cases h
  | case7 names entries name rest hdir hstay habove hshort target hname =>
      rw [List.cons_append, walk_last_link hdir hstay habove hshort hname] at h
      cases h
  | case8 names entries name rest hdir hstay habove hshort target links hname ih =>
      rw [List.cons_append, walk_link hdir hstay habove hshort hname, ← List.append_assoc] at h
      exact ih h
  | case9 names entries name rest hdir hstay habove hshort tree links hzero hsucc hname ih =>
      have hlink : ¬ tree.IsLink := by
        rintro ⟨target, rfl⟩
        cases links with
        | zero => exact hzero target rfl rfl
        | succ links => exact hsucc target links rfl rfl
      rw [List.cons_append, walk_into hdir hstay habove hshort hname hlink] at h
      exact ih h
  | case10 links names error rest hclosed ih =>
      rw [List.cons_append, walk_closed_nil hclosed] at h
      exact ih h
  | case11 links names error name rest hclosed hname =>
      rw [List.cons_append, walk_closed hclosed hname] at h
      cases h
  | case12 links names tree name rest hdir hclosed htree =>
      rw [List.cons_append, walk_of_not_dir htree hdir hclosed] at h
      cases h

/-- A walk ends at what lies under the names to which it leads. -/
theorem at?_of_walk {todo : List FileName} (h : w.walk links names todo = .ok place) :
    w.root.at? place.names = some place.tree := by
  fun_induction World.walk w links names todo with
  | case2 links names tree htree =>
      obtain rfl := Except.ok.inj h
      exact htree
  | case3 _ _ _ _ _ _ _ ih => exact ih h
  | case4 _ _ _ _ _ _ ih => exact ih h
  | case8 _ _ _ _ _ _ _ _ _ _ _ ih => exact ih h
  | case9 _ _ _ _ _ _ _ _ _ _ _ _ _ ih => exact ih h
  | case10 _ _ _ _ _ ih => exact ih h
  | _ => cases h

/-! ## Names that lead to a file -/

/-- A walk over names that lead to something other than a link leads there, unless one of them is
too long. -/
theorem walk_names {base more : List FileName} (h : w.root.at? (base ++ more) = some tree)
    (hlink : ¬ tree.IsLink) (hmore : ∀ name ∈ more, Path.IsName name) :
    w.walk links base more =
      if ∀ name ∈ more, name.length ≤ maxNameLength then .ok ⟨base ++ more, tree⟩
      else .error .nameTooLong := by
  induction more generalizing base with
  | nil =>
      rw [List.append_nil] at h
      rw [walk_nil h, if_pos (by simp), List.append_nil]
  | cons name more ih =>
      have hname := hmore name List.mem_cons_self
      have hsplit := h
      rw [FileTree.at?_append] at hsplit
      obtain ⟨outer, houter, hinner⟩ := Option.bind_eq_some_iff.1 hsplit
      obtain ⟨entries, rfl⟩ := FileTree.dir_of_at?_cons hinner
      obtain ⟨child, hchild, hbelow⟩ := Option.bind_eq_some_iff.1 hinner
      have hchildLink : ¬ child.IsLink := by
        rintro ⟨target, rfl⟩
        cases more with
        | nil => exact hlink ⟨target, (Option.some.inj hbelow).symm⟩
        | cons name more => cases hbelow
      by_cases hlong : maxNameLength < name.length
      · rw [walk_long houter hname.not_stay hname.ne_above hlong, if_neg]
        intro hall
        exact absurd (hall name List.mem_cons_self) (Nat.not_le.2 hlong)
      · rw [walk_into houter hname.not_stay hname.ne_above hlong hchild hchildLink,
          ih (by rwa [List.append_assoc]) fun n hn => hmore n (List.mem_cons_of_mem _ hn)]
        simp only [List.forall_mem_cons, Nat.not_lt.1 hlong, true_and, List.append_assoc,
          List.singleton_append]

/-! ## A whole path -/

/-- A path leads where the walk over its names does. -/
theorem canonical_eq_ok_iff {path : Path} : w.canonical path = .ok place ↔ 0 ∉ path ∧ path ≠ [] ∧
    w.walk maxLinks (if Path.isAbsolute path then [] else w.current) (Path.segments path) =
      .ok place := by
  unfold canonical
  by_cases hnul : 0 ∈ path
  · simp [hnul]
  · by_cases hempty : path = []
    · simp [hempty]
    · simp [hnul, hempty]

theorem lookUp_eq_ok_iff {path : Path} :
    w.lookUp path = .ok place ↔ path.length ≤ maxPathLength ∧ w.canonical path = .ok place := by
  unfold lookUp
  by_cases hnul : 0 ∈ path
  · simp [hnul, canonical]
  · by_cases hlong : maxPathLength < path.length
    · simp [hnul, hlong, Nat.not_le.2 hlong]
    · simp [hnul, hlong, Nat.not_lt.1 hlong]

theorem at?_of_lookUp {path : Path} (h : w.lookUp path = .ok place) :
    w.root.at? place.names = some place.tree :=
  at?_of_walk (canonical_eq_ok_iff.1 (lookUp_eq_ok_iff.1 h).2).2.2

theorem exists?_eq_true_iff {path : Path} :
    w.exists? path = true ↔ ∃ place, w.lookUp path = .ok place := by
  rw [exists?]
  cases w.lookUp path <;> simp

theorem exists?_eq_false_iff {path : Path} :
    w.exists? path = false ↔ ∃ error, w.lookUp path = .error error := by
  rw [exists?]
  cases w.lookUp path <;> simp

/-- A path under which something is read can be looked up. -/
theorem exists_lookUp_of_read {path : Path} {content : ByteArray}
    (h : w.read path = .ok content) : ∃ place, w.lookUp path = .ok place := by
  cases hpath : w.lookUp path with
  | ok place => exact ⟨place, rfl⟩
  | error error =>
      rw [read, hpath] at h
      cases h

theorem names_of_walk_empty (h : w.walk links names [[]] = .ok place) : place.names = names := by
  cases htree : w.root.at? names with
  | none =>
      rw [walk_none htree] at h
      cases h
  | some tree =>
      have hend : w.walk links names [] = .ok place → place.names = names := by
        intro hwalk
        rw [walk_nil htree] at hwalk
        obtain rfl := Except.ok.inj hwalk
        rfl
      cases tree with
      | dir entries => exact hend ((walk_stay htree (Or.inl rfl)).symm.trans h)
      | closed error => exact hend ((walk_closed_nil htree).symm.trans h)
      | file content => cases (walk_of_not_dir htree (by simp) (by simp)).symm.trans h
      | link target => cases (walk_of_not_dir htree (by simp) (by simp)).symm.trans h
      | device => cases (walk_of_not_dir htree (by simp) (by simp)).symm.trans h

/-- The slash at the end of a path does not change where it leads. -/
theorem walk_pieces {path : Path} (h : w.walk links names (Path.segments path) = .ok place) :
    ∃ mid, w.walk links names ((Path.pieces path).filter (· ≠ [])) = .ok mid ∧
      mid.names = place.names := by
  unfold Path.segments at h
  by_cases hlast : path.getLast? = some Path.slash
  · simp only [if_pos hlast] at h
    obtain ⟨mid, left, hmid, hempty⟩ := walk_append h
    exact ⟨mid, hmid, (names_of_walk_empty hempty).symm⟩
  · simp only [if_neg hlast] at h
    exact ⟨place, h, rfl⟩

/-- **The canonical names of a file below a directory** are those of the directory and then the ones
that lead from there to the file. -/
theorem canonical_joinAll {root : Path} {base : Place} {more : List FileName}
    (hroot : w.canonical root = .ok base) (hfile : w.canonical (Path.joinAll root more) = .ok place)
    (hempty : more ≠ []) (hmore : ∀ name ∈ more, Path.IsName name)
    (htree : w.root.at? (base.names ++ more) = some tree) (hlink : ¬ tree.IsLink) :
    place = ⟨base.names ++ more, tree⟩ := by
  obtain ⟨-, hne, hwalk⟩ := canonical_eq_ok_iff.1 hroot
  obtain ⟨-, -, hwalk'⟩ := canonical_eq_ok_iff.1 hfile
  rw [Path.segments_joinAll hne hempty hmore, Path.isAbsolute_joinAll hne] at hwalk'
  obtain ⟨top, htop, hnames⟩ := walk_pieces hwalk
  obtain ⟨mid, left, hmid, hbelow⟩ := walk_append hwalk'
  obtain rfl : mid = top := Except.ok.inj (hmid.symm.trans htop)
  rw [hnames, walk_names htree hlink hmore] at hbelow
  split at hbelow
  · exact (Except.ok.inj hbelow).symm
  · cases hbelow

/-! ## The current directory -/

section Here

variable (hdir : w.root.at? w.current = some (.dir entries))

include hdir

theorem lookUp_here : w.lookUp Path.here = .ok ⟨w.current, .dir entries⟩ := by
  have hwalk : w.walk maxLinks w.current [Path.here] = .ok ⟨w.current, .dir entries⟩ := by
    rw [walk_stay hdir (Or.inr rfl), walk_nil hdir]
  exact lookUp_eq_ok_iff.2 ⟨by decide, canonical_eq_ok_iff.2 ⟨by decide, by decide, hwalk⟩⟩

/-- A path below the current directory leads to what lies there. -/
theorem lookUp_joinAll_here {more : List FileName} (hempty : more ≠ [])
    (hmore : ∀ name ∈ more, Path.IsName name ∧ name.length ≤ maxNameLength)
    (hnul : 0 ∉ Path.joinAll Path.here more)
    (hlength : (Path.joinAll Path.here more).length ≤ maxPathLength)
    (htree : w.root.at? (w.current ++ more) = some tree) (hlink : ¬ tree.IsLink) :
    w.lookUp (Path.joinAll Path.here more) = .ok ⟨w.current ++ more, tree⟩ := by
  have hnames : ∀ name ∈ more, Path.IsName name := fun name hname => (hmore name hname).1
  have hjoin : Path.joinAll Path.here more ≠ [] := by
    rw [Path.joinAll_eq (by decide) hempty hnames]
    exact List.append_ne_nil_of_left_ne_nil (by decide) _
  apply lookUp_eq_ok_iff.2 ⟨hlength, canonical_eq_ok_iff.2 ⟨hnul, hjoin, ?_⟩⟩
  rw [Path.segments_joinAll (by decide) hempty hnames, Path.isAbsolute_joinAll (by decide)]
  show w.walk maxLinks w.current (Path.here :: more) = _
  rw [walk_stay hdir (Or.inr rfl), walk_names htree hlink hnames,
    if_pos fun name hname => (hmore name hname).2]

end Here

end World

end SpecLint
