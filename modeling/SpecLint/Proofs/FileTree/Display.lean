import SpecLint.Proofs.FileTree.Walk
import SpecLint.Proofs.Text.Utf8

/-!
# Paths as they are shown

The path of a file below a root is shown as what follows the canonical path of the root.  Where the
names are legible, that is UTF-8 without a backslash, what is shown is the names themselves.

* `Path.Legible` — the names that a shown path keeps as they are.
* `World.displayPath_below` — **a path below a root is shown by the names from there**.
* `World.displayPath_top` — below the root of all files it is shown with a slash in front, unless
  the first name begins with a backslash.
* `World.displayPath_of_utf8?_eq_none` — under a root whose canonical path is not UTF-8 no path has
  a text of its own.
-/

namespace SpecLint

/-! ## Names as text -/

namespace Path

/-- A name that is UTF-8 and holds no backslash. -/
structure Legible (name : FileName) : Prop where
  readable : (Text.utf8? name).isSome
  backslash_not_mem : 92 ∉ name

instance (name : FileName) : Decidable (Legible name) :=
  decidable_of_iff ((Text.utf8? name).isSome ∧ 92 ∉ name)
    ⟨fun ⟨hreadable, hbackslash⟩ => ⟨hreadable, hbackslash⟩,
      fun h => ⟨h.readable, h.backslash_not_mem⟩⟩

theorem Legible.not_mem {name : FileName} (h : Legible name) : '\\' ∉ Text.lossyChars name :=
  fun hmem => h.backslash_not_mem (Text.mem_of_mem_lossyChars h.readable (by decide) hmem)

/-- Some names as text, with a slash before each of them. -/
def text (names : List FileName) : List Char :=
  names.flatMap fun name => '/' :: Text.lossyChars name

theorem bytesOf_text {names : List FileName} (h : ∀ name ∈ names, (Text.utf8? name).isSome) :
    Text.bytesOf (String.ofList (text names)) = names.flatMap (slash :: ·) := by
  rw [Text.bytesOf_ofList, text, List.flatMap_assoc]
  apply List.flatMap_congr
  intro name hname
  have hbytes := Text.bytesOf_lossy (h name hname)
  rw [Text.lossy, Text.bytesOf_ofList] at hbytes
  rw [List.flatMap_cons, hbytes]
  rfl

theorem lossyChars_append_flatMap_slash (path : Path) (names : List FileName) :
    Text.lossyChars (path ++ names.flatMap (slash :: ·)) = Text.lossyChars path ++ text names := by
  induction names generalizing path with
  | nil => simp [text]
  | cons name names ih =>
      have hslash : ∀ rest, Text.lossyChars (47 :: rest) = '/' :: Text.lossyChars rest := by
        intro rest
        rw [Text.lossyChars, if_pos (by decide)]
        rfl
      rw [List.flatMap_cons, List.cons_append]
      show Text.lossyChars (path ++ 47 :: (name ++ _)) = _
      rw [Text.lossyChars_append_slash, hslash, ih name, text, text, List.flatMap_cons,
        List.cons_append]

/-- Names that are UTF-8 can be read off their text. -/
theorem text_injective {names others : List FileName}
    (h : ∀ name ∈ names, slash ∉ name ∧ (Text.utf8? name).isSome)
    (h' : ∀ name ∈ others, slash ∉ name ∧ (Text.utf8? name).isSome)
    (heq : text names = text others) : names = others := by
  apply flatMap_slash_injective (fun name hname => (h name hname).1)
    fun name hname => (h' name hname).1
  rw [← bytesOf_text fun name hname => (h name hname).2,
    ← bytesOf_text fun name hname => (h' name hname).2, heq]

/-- Whether the first of some names begins with a backslash. -/
def BeginsWithBackslash (names : List FileName) : Prop :=
  ∃ rest more, names = (92 :: rest) :: more

theorem not_beginsWithBackslash {names : List FileName} (h : ∀ name ∈ names, Legible name) :
    ¬ BeginsWithBackslash names := by
  rintro ⟨rest, more, rfl⟩
  exact (h _ List.mem_cons_self).backslash_not_mem List.mem_cons_self

/-- The text of some names starts with a slash and goes on with another character. -/
theorem exists_text_eq {names : List FileName} (hnames : names ≠ [])
    (h : ∀ name ∈ names, IsName name ∧ (Text.utf8? name).isSome) :
    ∃ c rest, text names = '/' :: c :: rest ∧ c ≠ '/' ∧
      (¬ BeginsWithBackslash names → c ≠ '\\') := by
  obtain ⟨name, more, rfl⟩ := List.exists_cons_of_ne_nil hnames
  obtain ⟨hname, hreadable⟩ := h name List.mem_cons_self
  obtain ⟨c, rest, hchars⟩ := List.exists_cons_of_ne_nil (Text.lossyChars_ne_nil hname.ne_nil)
  refine ⟨c, rest ++ text more, by rw [text, List.flatMap_cons, hchars]; rfl, ?_, ?_⟩
  · rintro rfl
    have hslash : '/' ∈ Text.lossyChars name := hchars ▸ List.mem_cons_self
    exact hname.slash_not_mem (Text.mem_of_mem_lossyChars hreadable (by decide) hslash)
  · rintro hfirst rfl
    obtain ⟨rest, hbytes⟩ :=
      List.head?_eq_some_iff.1 (Text.head?_of_lossyChars hreadable (by decide) hchars)
    exact hfirst ⟨rest, more, congrArg (· :: more) hbytes⟩

end Path

namespace World

/-- The character that is shown for another. -/
def forward (c : Char) : Char := if c = '\\' then '/' else c

theorem toList_forwardSlashes (text : String) :
    (forwardSlashes text).toList = text.toList.map forward :=
  String.toList_ofList

/-- Legible names are shown as they are. -/
theorem map_forward_text {names : List FileName} (h : ∀ name ∈ names, Path.Legible name) :
    (Path.text names).map forward = Path.text names := by
  refine (List.map_congr_left fun c hc => ?_).trans (List.map_id _)
  obtain ⟨name, hname, hmem⟩ := List.mem_flatMap.1 hc
  apply if_neg
  rintro rfl
  cases hmem with
  | tail _ hmem => exact (h name hname).not_mem hmem

/-! ## Paths below a root -/

variable {w : World} {path root : Path} {base : Place} {tree : FileTree} {names : List FileName}
  {start : String}

/-- Under a root whose canonical path is not UTF-8 no path has a text of its own. -/
theorem displayPath_of_utf8?_eq_none (hroot : w.canonical root = .ok base)
    (hbase : Text.utf8? (Path.absolute base.names) = none) (path : Path) :
    ∃ error, w.displayPath path root = .error error := by
  have hnormal : w.normalPath root = .error (.notUtf8 (Path.absolute base.names)) := by
    rw [normalPath, hroot]
    simp only [hbase]
  unfold displayPath
  rw [hnormal]
  cases w.normalPath path with
  | error error => exact ⟨error, rfl⟩
  | ok full => exact ⟨_, rfl⟩

theorem normalPath_eq {place : Place} (hpath : w.canonical path = .ok place)
    (htext : Text.bytesOf start = Path.absolute place.names) :
    w.normalPath path = .ok (forwardSlashes start) := by
  rw [normalPath, hpath]
  simp only [Text.utf8?_eq_some_iff.2 htext]

theorem below?_append {base rest : List Char} {c : Char} :
    below? (String.ofList base) (String.ofList (base ++ '/' :: c :: rest)) =
      some (String.ofList (c :: rest)) := by
  have hprefix : base.isPrefixOf (base ++ '/' :: c :: rest) = true :=
    List.isPrefixOf_iff_prefix.2 (List.prefix_append _ _)
  simp [below?, afterStart?, hprefix]

/-- **A path below a root is shown by the names from there**, with slashes for backslashes. -/
theorem displayPath_below (hroot : w.canonical root = .ok base)
    (hpath : w.canonical path = .ok ⟨base.names ++ names, tree⟩) (hbase : base.names ≠ [])
    (hstart : Text.bytesOf start = Path.absolute base.names) (hnames : names ≠ [])
    (h : ∀ name ∈ names, Path.IsName name ∧ (Text.utf8? name).isSome) :
    ∃ shown, w.displayPath path root = .ok shown ∧
      '/' :: shown.toList = (Path.text names).map forward := by
  have habsolute : Text.bytesOf (start ++ String.ofList (Path.text names)) =
      Path.absolute (base.names ++ names) := by
    rw [Text.bytesOf_append, Path.bytesOf_text fun name hname => (h name hname).2, hstart,
      Path.absolute, Path.absolute, if_neg hbase, if_neg (by simp [hbase]), List.flatMap_append]
  obtain ⟨c, rest, htext, -, -⟩ := Path.exists_text_eq hnames h
  have hfull : forwardSlashes (start ++ String.ofList (Path.text names)) =
      String.ofList (start.toList.map forward ++ '/' :: forward c :: rest.map forward) := by
    apply String.toList_inj.1
    rw [toList_forwardSlashes, htext]
    simp [forward]
  have hbelow := @below?_append (start.toList.map forward) (rest.map forward) (forward c)
  refine ⟨String.ofList (forward c :: rest.map forward), ?_, ?_⟩
  · rw [displayPath, normalPath_eq hroot hstart, normalPath_eq hpath habsolute, hfull]
    show Except.ok ((below? (String.ofList (start.toList.map forward)) _).getD _) = _
    rw [hbelow]
    rfl
  · rw [String.toList_ofList, htext]
    rfl

/-- Below the root of all files a path is shown with a slash in front.  Two slashes in front, of
which the second was a backslash, would both be taken off. -/
theorem displayPath_top (hroot : w.canonical root = .ok base)
    (hpath : w.canonical path = .ok ⟨names, tree⟩) (hbase : base.names = []) (hnames : names ≠ [])
    (h : ∀ name ∈ names, Path.IsName name ∧ (Text.utf8? name).isSome)
    (hfirst : ¬ Path.BeginsWithBackslash names) :
    w.displayPath path root = .ok (String.ofList ((Path.text names).map forward)) := by
  have habsolute : Text.bytesOf (String.ofList (Path.text names)) = Path.absolute names := by
    rw [Path.bytesOf_text fun name hname => (h name hname).2, Path.absolute, if_neg hnames]
  have hstart : Text.bytesOf "/" = Path.absolute base.names := by
    rw [hbase]
    rfl
  obtain ⟨c, rest, htext, hslash, hbackslash⟩ := Path.exists_text_eq hnames h
  have hfull : forwardSlashes (String.ofList (Path.text names)) =
      String.ofList ('/' :: c :: rest.map forward) := by
    apply String.toList_inj.1
    rw [toList_forwardSlashes, htext]
    simp [forward, hbackslash hfirst]
  have hbelow : below? "/" (String.ofList ('/' :: c :: rest.map forward)) = none := by
    simp [below?, afterStart?, hslash]
  have hshown : (Path.text names).map forward = '/' :: c :: rest.map forward := by
    rw [htext]
    simp [forward, hbackslash hfirst]
  rw [displayPath, normalPath_eq hroot hstart, normalPath_eq hpath habsolute, hfull, hshown]
  show Except.ok ((below? "/" _).getD _) = _
  rw [hbelow]
  rfl

end World

end SpecLint
