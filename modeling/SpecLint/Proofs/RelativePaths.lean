import SpecLint.Proofs.Discovery
import SpecLint.Proofs.FileTree.Display

/-!
# Paths relative to a root

A shown path is cut at the end of a name and nowhere else: it is relative when the names of the root
are a proper beginning of those of the path, and absolute otherwise.  So a root `/a/b` takes nothing
off `/a/bc/x`.  The one exception is the root of all files.  Its text ends in the slash that would
have to follow it, and nothing is found to lie below it.

* `Path.relativeText`, `Path.absoluteText` — some names as text.
* `World.below?_eq_some_iff` — what is left of a text below another one.
* `World.displayPath_eq` — **how a path is shown**.
* `World.exists_displayPath_top` — a path below the root of all files that is shown absolutely.
-/

namespace SpecLint

/-! ## Names as text -/

namespace Path

variable {names base : List FileName}

/-- Some names with a slash between each two of them. -/
def relativeText (names : List FileName) : String := "/".intercalate (names.map Text.lossy)

/-- The text of the absolute path over some names. -/
def absoluteText (names : List FileName) : String := "/" ++ relativeText names

theorem toList_relativeText (h : names ≠ []) : '/' :: (relativeText names).toList = text names := by
  unfold relativeText
  rw [String.toList_intercalate, List.map_map]
  induction names with
  | nil => exact absurd rfl h
  | cons name names ih =>
      cases names with
      | nil => simp [text, Text.lossy]
      | cons next names =>
          have hrest := ih (List.cons_ne_nil _ _)
          rw [List.map_cons, List.map_cons, List.intercalate_cons_cons, text, List.flatMap_cons,
            ← text, ← hrest]
          simp [Text.lossy]

theorem toList_absoluteText (h : names ≠ []) : (absoluteText names).toList = text names := by
  rw [← toList_relativeText h]
  simp [absoluteText]

theorem absoluteText_nil : absoluteText [] = "/" := rfl

/-- Where the text of some names goes on with a slash after that of others, it goes on with further
names. -/
theorem exists_append_of_text_eq {rest : List Char}
    (h : ∀ name ∈ names, slash ∉ name ∧ (Text.utf8? name).isSome)
    (h' : ∀ name ∈ base, slash ∉ name ∧ (Text.utf8? name).isSome)
    (heq : text names = text base ++ '/' :: rest) : ∃ more, more ≠ [] ∧ names = base ++ more := by
  have hbytes : names.flatMap (slash :: ·) =
      base.flatMap (slash :: ·) ++ slash :: Text.bytesOf (String.ofList rest) := by
    rw [← bytesOf_text fun name hname => (h name hname).2,
      ← bytesOf_text fun name hname => (h' name hname).2, heq, String.ofList_append,
      Text.bytesOf_append, Text.bytesOf_ofList ('/' :: rest), List.flatMap_cons,
      Text.bytesOf_ofList rest]
    rfl
  have hpieces := congrArg pieces hbytes
  rw [pieces_append_slash, ← List.nil_append (names.flatMap _), ← List.nil_append (base.flatMap _),
    pieces_append_flatMap_slash [] fun name hname => (h name hname).1,
    pieces_append_flatMap_slash [] fun name hname => (h' name hname).1,
    List.append_assoc] at hpieces
  exact ⟨_, pieces_ne_nil _, List.append_cancel_left hpieces⟩

end Path

namespace World

variable {w : World} {path root : Path} {place base : Place} {tree : FileTree}
  {names : List FileName}

/-! ## Texts below a text -/

theorem afterStart?_eq_some_iff {start text rest : List Char} :
    afterStart? start text = some rest ↔ text = start ++ rest := by
  unfold afterStart?
  constructor
  · intro h
    split at h
    · rename_i hstarts
      obtain rfl := Option.some.inj h
      exact (List.prefix_iff_eq_append.1 (List.isPrefixOf_iff_prefix.1 hstarts)).symm
    · cases h
  · rintro rfl
    have hstarts : start.isPrefixOf (start ++ rest) = true :=
      List.isPrefixOf_iff_prefix.2 (List.prefix_append _ _)
    simp [hstarts]

/-- What is left of a text below another one: it stands behind that text and a slash. -/
theorem below?_eq_some_iff {base full shown : String} : below? base full = some shown ↔
    shown ≠ "" ∧ full.toList = base.toList ++ '/' :: shown.toList := by
  unfold below?
  constructor
  · intro h
    split at h
    · rename_i rest hrest
      split at h
      · cases h
      · rename_i hempty
        obtain rfl := Option.some.inj h
        rw [String.toList_ofList]
        refine ⟨?_, afterStart?_eq_some_iff.1 hrest⟩
        intro hnone
        have hnil : rest = [] := by simpa using congrArg String.toList hnone
        simp [hnil] at hempty
    · cases h
  · rintro ⟨hempty, hfull⟩
    rw [afterStart?_eq_some_iff.2 hfull]
    have hne : shown.toList ≠ [] := fun hnil => hempty (String.toList_inj.1 hnil)
    simp [hne]

section Names

variable {names more start : List FileName}

/-- Behind the text of some names that of further names is left. -/
theorem below?_absoluteText_append (hstart : start ≠ []) (hmore : more ≠ [])
    (h : ∀ name ∈ more, Path.IsName name ∧ (Text.utf8? name).isSome) :
    below? (Path.absoluteText start) (Path.absoluteText (start ++ more)) =
      some (Path.relativeText more) := by
  obtain ⟨c, rest, htext, -, -⟩ := Path.exists_text_eq hmore h
  have hrelative := Path.toList_relativeText hmore
  rw [below?_eq_some_iff, Path.toList_absoluteText hstart,
    Path.toList_absoluteText (List.append_ne_nil_of_left_ne_nil hstart _), hrelative]
  constructor
  · intro hnone
    rw [hnone, htext] at hrelative
    simp at hrelative
  · rw [Path.text, List.flatMap_append]
    rfl

/-- Something is left behind the text of some names only in that of these names and further ones. -/
theorem exists_append_of_below? {shown : String}
    (h : ∀ name ∈ names, Path.IsName name ∧ (Text.utf8? name).isSome)
    (h' : ∀ name ∈ start, Path.IsName name ∧ (Text.utf8? name).isSome)
    (hbelow : below? (Path.absoluteText start) (Path.absoluteText names) = some shown) :
    start ≠ [] ∧ ∃ more, more ≠ [] ∧ names = start ++ more := by
  obtain ⟨-, htext⟩ := below?_eq_some_iff.1 hbelow
  have hnames : names ≠ [] := by
    rintro rfl
    have hlength := congrArg List.length htext
    simp [Path.absoluteText, Path.relativeText] at hlength
  rw [Path.toList_absoluteText hnames] at htext
  have hstart : start ≠ [] := by
    -- the root of all files ends in a slash, and no second one follows it
    rintro rfl
    obtain ⟨c, rest, hfirst, hc, -⟩ := Path.exists_text_eq hnames h
    rw [Path.absoluteText_nil, hfirst] at htext
    exact hc (List.cons.inj (List.cons.inj htext).2).1
  rw [Path.toList_absoluteText hstart] at htext
  refine ⟨hstart, Path.exists_append_of_text_eq ?_ ?_ htext⟩
  · intro name hname
    exact ⟨(h name hname).1.slash_not_mem, (h name hname).2⟩
  · intro name hname
    exact ⟨(h' name hname).1.slash_not_mem, (h' name hname).2⟩

end Names

/-! ## Canonical paths as text -/

/-- The names of a canonical path are proper, and readable where they are legible. -/
theorem isName_of_canonical (hw : w.root.WellFormed) (hpath : w.canonical path = .ok place)
    (hlegible : ∀ name ∈ place.names, Path.Legible name) :
    ∀ name ∈ place.names, Path.IsName name ∧ (Text.utf8? name).isSome := by
  have hplace := at?_of_walk (canonical_eq_ok_iff.1 hpath).2.2
  intro name hname
  exact ⟨(hw.at? hplace).2 name hname, (hlegible name hname).readable⟩

/-- The canonical path over legible names has the text of these names. -/
theorem normalPath_of_legible (hpath : w.canonical path = .ok place)
    (hlegible : ∀ name ∈ place.names, Path.Legible name) :
    w.normalPath path = .ok (Path.absoluteText place.names) := by
  by_cases hnames : place.names = []
  · have hbytes : Text.bytesOf "/" = Path.absolute place.names := by
      rw [hnames]
      rfl
    rw [normalPath_eq hpath hbytes, hnames]
    rfl
  · have htext : String.ofList (Path.text place.names) = Path.absoluteText place.names := by
      rw [← Path.toList_absoluteText hnames, String.ofList_toList]
    have hbytes : Text.bytesOf (Path.absoluteText place.names) = Path.absolute place.names := by
      rw [← htext, Path.bytesOf_text fun name hname => (hlegible name hname).readable,
        Path.absolute, if_neg hnames]
    rw [normalPath_eq hpath hbytes]
    refine congrArg _ (String.toList_inj.1 ?_)
    rw [toList_forwardSlashes, Path.toList_absoluteText hnames, map_forward_text hlegible]

/-- An absolute path whose names lead to something other than a link leads there. -/
theorem canonical_of_segments (habsolute : Path.isAbsolute path = true) (hnul : 0 ∉ path)
    (hsegments : Path.segments path = names)
    (hnames : ∀ name ∈ names, Path.IsName name ∧ name.length ≤ maxNameLength)
    (htree : w.root.at? names = some tree) (hlink : ¬ tree.IsLink) :
    w.canonical path = .ok ⟨names, tree⟩ := by
  have hne : path ≠ [] := by
    rintro rfl
    cases habsolute
  have hwalk := @walk_names w maxLinks tree [] names htree hlink fun name hname =>
    (hnames name hname).1
  rw [if_pos fun name hname => (hnames name hname).2] at hwalk
  refine canonical_eq_ok_iff.2 ⟨hnul, hne, ?_⟩
  rw [if_pos habsolute, hsegments]
  exact hwalk

/-! ## The shown path -/

/-- **How a path is shown**: relative to the root when the names of the root are a proper beginning
of its own, and absolutely otherwise; but always absolutely under the root of all files. -/
theorem displayPath_eq (hw : w.root.WellFormed) (hpath : w.canonical path = .ok place)
    (hroot : w.canonical root = .ok base) (hlegible : ∀ name ∈ place.names, Path.Legible name)
    (hlegible' : ∀ name ∈ base.names, Path.Legible name) :
    w.displayPath path root = .ok
      (if base.names ≠ [] ∧ base.names <+: place.names ∧ base.names ≠ place.names then
        Path.relativeText (place.names.drop base.names.length)
      else Path.absoluteText place.names) := by
  have hnames := isName_of_canonical hw hpath hlegible
  have hbase := isName_of_canonical hw hroot hlegible'
  have hshown : w.displayPath path root = .ok
      ((below? (Path.absoluteText base.names) (Path.absoluteText place.names)).getD
        (Path.absoluteText place.names)) := by
    rw [displayPath, normalPath_of_legible hpath hlegible, normalPath_of_legible hroot hlegible']
    rfl
  rw [hshown]
  refine congrArg Except.ok ?_
  split
  · rename_i hbelow
    obtain ⟨htop, ⟨more, happend⟩, hne⟩ := hbelow
    rw [← happend] at hnames hne ⊢
    have hmore : more ≠ [] := by
      rintro rfl
      exact hne (List.append_nil _).symm
    rw [below?_absoluteText_append htop hmore fun name hname =>
      hnames name (List.mem_append_right _ hname), List.drop_left]
    rfl
  · rename_i hbelow
    cases hsome : below? (Path.absoluteText base.names) (Path.absoluteText place.names) with
    | none => rfl
    | some shown =>
        obtain ⟨htop, more, hmore, happend⟩ := exists_append_of_below? hnames hbase hsome
        refine absurd ⟨htop, happend ▸ List.prefix_append _ _, fun hsame => ?_⟩ hbelow
        rw [← hsame] at happend
        exact hmore (List.append_right_eq_self.1 happend.symm)

/-- A world with the directory `/a/b` and the file `/a/bc/x`. -/
def siblings : World where
  root := .dir [(Text.bytesOf "a", .dir [(Text.bytesOf "b", .dir []),
    (Text.bytesOf "bc", .dir [(Text.bytesOf "x", .file (.ok .empty))])])]
  current := []

/-- A root `/a/b` takes nothing off `/a/bc/x`, and a root `/a` takes off the directory. -/
theorem displayPath_eq_siblings : siblings.root.WellFormed ∧
    siblings.displayPath (Text.bytesOf "/a/bc/x") (Text.bytesOf "/a/b") = .ok "/a/bc/x" ∧
    siblings.displayPath (Text.bytesOf "/a/bc/x") (Text.bytesOf "/a") = .ok "bc/x" := by
  have hw : siblings.root.WellFormed := by decide +kernel
  have hfile : siblings.canonical (Text.bytesOf "/a/bc/x") =
      .ok ⟨[Text.bytesOf "a", Text.bytesOf "bc", Text.bytesOf "x"], _⟩ :=
    canonical_of_segments (by decide +kernel) (by decide +kernel) (by decide +kernel)
      (by decide +kernel) rfl (by decide)
  have hb : siblings.canonical (Text.bytesOf "/a/b") =
      .ok ⟨[Text.bytesOf "a", Text.bytesOf "b"], _⟩ :=
    canonical_of_segments (by decide +kernel) (by decide +kernel) (by decide +kernel)
      (by decide +kernel) rfl (by decide)
  have ha : siblings.canonical (Text.bytesOf "/a") = .ok ⟨[Text.bytesOf "a"], _⟩ :=
    canonical_of_segments (by decide +kernel) (by decide +kernel) (by decide +kernel)
      (by decide +kernel) rfl (by decide)
  refine ⟨hw, ?_, ?_⟩
  · rw [displayPath_eq hw hfile hb (by decide +kernel) (by decide +kernel)]
    decide +kernel
  · rw [displayPath_eq hw hfile ha (by decide +kernel) (by decide +kernel)]
    decide +kernel

/-! ## The root of all files -/

/-- A world with the device `/dev/null`. -/
def devices : World where
  root := .dir [(Text.bytesOf "dev", .dir [(Text.bytesOf "null", .device)])]
  current := []

/-- **Below the root of all files a path is shown absolutely**: `/dev/null` under `/`, where the
names of the root are a proper beginning of its own and `dev/null` is left. -/
theorem exists_displayPath_top : ∃ (w : World) (path root : Path) (place base : Place),
    w.root.WellFormed ∧ w.canonical path = .ok place ∧ w.canonical root = .ok base ∧
    (∀ name ∈ place.names, Path.Legible name) ∧ (∀ name ∈ base.names, Path.Legible name) ∧
    base.names <+: place.names ∧ base.names ≠ place.names ∧
    w.displayPath path root = .ok "/dev/null" ∧
    Path.relativeText (place.names.drop base.names.length) = "dev/null" := by
  have hnull : devices.canonical (Text.bytesOf "/dev/null") =
      .ok ⟨[Text.bytesOf "dev", Text.bytesOf "null"], .device⟩ :=
    canonical_of_segments (by decide +kernel) (by decide +kernel) (by decide +kernel)
      (by decide +kernel) rfl (by decide)
  have htop : devices.canonical (Text.bytesOf "/") = .ok ⟨[], devices.root⟩ := by
    refine canonical_eq_ok_iff.2 ⟨by decide +kernel, by decide +kernel, ?_⟩
    have hsegments : Path.segments (Text.bytesOf "/") = [[]] := by decide +kernel
    rw [if_pos (by decide +kernel), hsegments, walk_stay rfl (Or.inl rfl), walk_nil rfl]
  refine ⟨devices, _, _, _, _, by decide +kernel, hnull, htop, by decide +kernel,
    by decide +kernel, List.nil_prefix, (List.cons_ne_nil _ _).symm, ?_, by decide +kernel⟩
  rw [displayPath_top htop hnull rfl (List.cons_ne_nil _ _) (by decide +kernel)
    (Path.not_beginsWithBackslash (by decide +kernel))]
  decide +kernel

end World

end SpecLint
