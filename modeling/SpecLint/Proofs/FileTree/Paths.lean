import Mathlib.Data.List.Basic
import SpecLint.FileTree

/-!
# Paths and their names

A path is cut into names at its slashes.  A path with more names behind it has the names of the path
and then those, whether or not it ends in a slash itself, and names put in a row with a slash before
each can be told apart again.

* `Path.IsName` — what a directory can hold an entry under.
* `Path.joinAll_eq` — the path over some names below another path.
* `Path.segments_joinAll` — **the names of a joined path**.
* `Path.flatMap_slash_injective` — **names can be read off their joined form**.
-/

namespace SpecLint.Path

/-- A name under which a directory can hold an entry. -/
structure IsName (name : FileName) : Prop where
  ne_nil : name ≠ []
  slash_not_mem : slash ∉ name
  ne_here : name ≠ here
  ne_above : name ≠ above

instance (name : FileName) : Decidable (IsName name) :=
  decidable_of_iff (name ≠ [] ∧ slash ∉ name ∧ name ≠ here ∧ name ≠ above)
    ⟨fun ⟨hnil, hslash, hhere, habove⟩ => ⟨hnil, hslash, hhere, habove⟩,
      fun h => ⟨h.ne_nil, h.slash_not_mem, h.ne_here, h.ne_above⟩⟩

/-- A name leads away from the directory it is looked up in. -/
theorem IsName.not_stay {name : FileName} (h : IsName name) : ¬ (name = [] ∨ name = here) :=
  not_or.2 ⟨h.ne_nil, h.ne_here⟩

/-! ## Pieces -/

theorem pieces_ne_nil (path : Path) : pieces path ≠ [] := by
  cases path with
  | nil => exact List.cons_ne_nil _ _
  | cons byte rest =>
      unfold pieces
      split
      · exact List.cons_ne_nil _ _
      · split <;> exact List.cons_ne_nil _ _

/-- A slash cuts a path in two. -/
theorem pieces_append_slash (front back : Path) :
    pieces (front ++ slash :: back) = pieces front ++ pieces back := by
  induction front with
  | nil => rfl
  | cons byte front ih =>
      rw [List.cons_append, pieces, pieces, ih]
      by_cases hslash : byte = slash
      · rw [if_pos hslash, if_pos hslash, List.cons_append]
      · rw [if_neg hslash, if_neg hslash]
        cases hpieces : pieces front with
        | nil => exact absurd hpieces (pieces_ne_nil front)
        | cons piece more => rfl

theorem pieces_of_slash_not_mem {name : FileName} (h : slash ∉ name) : pieces name = [name] := by
  induction name with
  | nil => rfl
  | cons byte name ih =>
      have hbyte : byte ≠ slash := fun heq => h (heq ▸ List.mem_cons_self)
      rw [pieces, if_neg hbyte, ih fun hmem => h (List.mem_cons_of_mem _ hmem)]

theorem pieces_append_flatMap_slash (path : Path) {names : List FileName}
    (h : ∀ name ∈ names, slash ∉ name) :
    pieces (path ++ names.flatMap (slash :: ·)) = pieces path ++ names := by
  induction names generalizing path with
  | nil => rw [List.flatMap_nil, List.append_nil, List.append_nil]
  | cons name names ih =>
      have hname : pieces name = [name] := pieces_of_slash_not_mem (h name List.mem_cons_self)
      rw [List.flatMap_cons, List.cons_append, pieces_append_slash,
        ih name fun n hn => h n (List.mem_cons_of_mem _ hn), hname, List.singleton_append]

/-- **Names can be read off their joined form**, in which a slash stands before each of them. -/
theorem flatMap_slash_injective {names others : List FileName} (h : ∀ name ∈ names, slash ∉ name)
    (h' : ∀ name ∈ others, slash ∉ name)
    (heq : names.flatMap (slash :: ·) = others.flatMap (slash :: ·)) : names = others := by
  have hpieces := congrArg pieces heq
  have hnames := pieces_append_flatMap_slash [] h
  have hothers := pieces_append_flatMap_slash [] h'
  rw [List.nil_append] at hnames hothers
  rw [hnames, hothers] at hpieces
  exact List.append_cancel_left hpieces

/-! ## Joined paths -/

/-- A path without the slash at its end, if it has one. -/
def stem (path : Path) : Path := if path.getLast? = some slash then path.dropLast else path

theorem stem_append_slash {path : Path} (h : path.getLast? = some slash) :
    stem path ++ [slash] = path := by
  rw [stem, if_pos h]
  exact List.dropLast_append_getLast? slash h

theorem stem_of_ne {path : Path} (h : path.getLast? ≠ some slash) : stem path = path := if_neg h

theorem join_eq {path : Path} (hpath : path ≠ []) (name : FileName) :
    join path name = stem path ++ slash :: name := by
  by_cases hlast : path.getLast? = some slash
  · rw [join, if_pos (Or.inr hlast), List.append_cons, stem_append_slash hlast]
  · rw [join, if_neg (not_or.2 ⟨hpath, hlast⟩), stem_of_ne hlast]

theorem getLast?_append_name (front : Path) {name : FileName} (h : IsName name) :
    (front ++ name).getLast? ≠ some slash := by
  intro hlast
  rw [List.getLast?_append_of_ne_nil front h.ne_nil] at hlast
  exact h.slash_not_mem (List.mem_of_getLast? hlast)

/-- A path that does not end in a slash is followed by each name with a slash before it. -/
theorem joinAll_of_getLast? {path : Path} {names : List FileName} (hpath : path ≠ [])
    (hlast : path.getLast? ≠ some slash) (h : ∀ name ∈ names, IsName name) :
    joinAll path names = path ++ names.flatMap (slash :: ·) := by
  induction names generalizing path with
  | nil => exact (List.append_nil path).symm
  | cons name names ih =>
      have hjoin : join path name = path ++ [slash] ++ name := by
        rw [join_eq hpath, stem_of_ne hlast, List.append_cons]
      show joinAll (join path name) names = _
      rw [hjoin, ih (by simp) (getLast?_append_name _ (h name List.mem_cons_self))
        fun n hn => h n (List.mem_cons_of_mem _ hn)]
      simp

/-- The path over some names below another path. -/
theorem joinAll_eq {path : Path} {names : List FileName} (hpath : path ≠ []) (hnames : names ≠ [])
    (h : ∀ name ∈ names, IsName name) :
    joinAll path names = stem path ++ names.flatMap (slash :: ·) := by
  cases names with
  | nil => exact absurd rfl hnames
  | cons name names =>
      have hjoin : join path name = stem path ++ [slash] ++ name := by
        rw [join_eq hpath, List.append_cons]
      show joinAll (join path name) names = _
      rw [hjoin, joinAll_of_getLast? (by simp)
        (getLast?_append_name _ (h name List.mem_cons_self))
        fun n hn => h n (List.mem_cons_of_mem _ hn)]
      simp

theorem filter_pieces_stem (path : Path) :
    (pieces (stem path)).filter (· ≠ []) = (pieces path).filter (· ≠ []) := by
  by_cases hlast : path.getLast? = some slash
  · have hpieces := pieces_append_slash (stem path) []
    rw [stem_append_slash hlast] at hpieces
    rw [hpieces, List.filter_append]
    exact (List.append_nil _).symm
  · rw [stem_of_ne hlast]

theorem getLast?_joinAll {path : Path} {names : List FileName} (hpath : path ≠ [])
    (hnames : names ≠ []) (h : ∀ name ∈ names, IsName name) :
    (joinAll path names).getLast? ≠ some slash := by
  obtain rfl | ⟨front, last, rfl⟩ := List.eq_nil_or_concat' names
  · exact absurd rfl hnames
  · have hjoin : joinAll path (front ++ [last]) =
        stem path ++ front.flatMap (slash :: ·) ++ [slash] ++ last := by
      rw [joinAll_eq hpath hnames h]
      simp
    rw [hjoin]
    exact getLast?_append_name _ (h last (by simp))

/-- **The names of a joined path** are those of the path and then the further ones. -/
theorem segments_joinAll {path : Path} {names : List FileName} (hpath : path ≠ [])
    (hnames : names ≠ []) (h : ∀ name ∈ names, IsName name) :
    segments (joinAll path names) = (pieces path).filter (· ≠ []) ++ names := by
  have hkept : names.filter (· ≠ []) = names :=
    List.filter_eq_self.2 fun name hname => decide_eq_true (h name hname).ne_nil
  unfold segments
  rw [if_neg (getLast?_joinAll hpath hnames h), joinAll_eq hpath hnames h,
    pieces_append_flatMap_slash _ fun name hname => (h name hname).slash_not_mem,
    List.filter_append, filter_pieces_stem, hkept]

theorem isAbsolute_join {path : Path} (hpath : path ≠ []) (name : FileName) :
    isAbsolute (join path name) = isAbsolute path := by
  obtain ⟨byte, rest, rfl⟩ := List.exists_cons_of_ne_nil hpath
  unfold join
  split <;> rfl

theorem isAbsolute_joinAll {path : Path} (hpath : path ≠ []) (names : List FileName) :
    isAbsolute (joinAll path names) = isAbsolute path := by
  induction names generalizing path with
  | nil => rfl
  | cons name names ih =>
      have hjoin : join path name ≠ [] := by
        rw [join_eq hpath]
        exact List.append_ne_nil_of_right_ne_nil _ (List.cons_ne_nil _ _)
      exact (ih hjoin).trans (isAbsolute_join hpath name)

end SpecLint.Path
