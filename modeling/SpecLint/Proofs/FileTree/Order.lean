import SpecLint.Proofs.FileTree.Paths

/-!
# The order of paths

Paths are compared component by component and names byte by byte, so that what lies below a
directory stays together: `a/x` comes before `a.b/x`, although a dot is a smaller byte than a slash.

* `Path.components` — the components of a path.
* `Path.Before` — the order of paths.
* `Path.components_joinAll` — the components of a path with more names behind it.
* `Path.before_joinAll` — **below one path, paths are ordered as the names that lead there**.
-/

namespace SpecLint.Path

/-! ## Components -/

/-- A component of a path. -/
inductive Component where
  /-- The root of all files. -/
  | top
  /-- The directory from which a path starts, where the path names it. -/
  | here
  /-- The directory above. -/
  | above
  /-- An entry of a directory. -/
  | name (name : FileName)
  deriving DecidableEq

namespace Component

/-- The rank of a kind of component. -/
def rank : Component → Nat
  | top => 0
  | here => 1
  | above => 2
  | name _ => 3

/-- Whether one component comes before another. -/
inductive Before : Component → Component → Prop where
  /-- Components of different kinds. -/
  | rank {a b : Component} (lt : a.rank < b.rank) : Before a b
  /-- Two names, byte by byte. -/
  | name {x y : FileName} (lt : x < y) : Before (name x) (name y)

theorem not_before_self (a : Component) : ¬ a.Before a := by
  intro h
  cases h with
  | rank lt => exact Nat.lt_irrefl _ lt
  | name lt => exact List.lt_irrefl _ lt

/-- The component for a piece between two slashes, if there is one. -/
def ofPiece? (piece : FileName) : Option Component :=
  if piece = [] ∨ piece = Path.here then none
  else if piece = Path.above then some above
  else some (name piece)

theorem ofPiece?_of_isName {name : FileName} (h : IsName name) :
    ofPiece? name = some (.name name) := by
  simp [ofPiece?, h.ne_nil, h.ne_here, h.ne_above]

end Component

/-- What stands before all names: the root of an absolute path, or a dot at the front. -/
def origin (path : Path) : List Component :=
  if isAbsolute path then [.top] else if (pieces path).head? = some here then [.here] else []

/-- The components of a path.  Empty pieces count for nothing, and so do dots other than one at the
front. -/
def components (path : Path) : List Component :=
  origin path ++ (pieces path).filterMap Component.ofPiece?

/-- Whether one path comes before another. -/
def Before (p q : Path) : Prop := List.Lex Component.Before p.components q.components

theorem not_before_self (p : Path) : ¬ p.Before p := List.lex_irrefl Component.not_before_self _

/-! ## Paths with more names behind them -/

theorem filterMap_ofPiece? {names : List FileName} (h : ∀ name ∈ names, IsName name) :
    names.filterMap Component.ofPiece? = names.map .name := by
  rw [← List.filterMap_eq_map']
  exact List.filterMap_congr fun name hname => Component.ofPiece?_of_isName (h name hname)

/-- The slash at the end of a path cuts off an empty piece. -/
theorem pieces_eq_stem (path : Path) :
    pieces path = pieces (stem path) ∨ pieces path = pieces (stem path) ++ [[]] := by
  by_cases hlast : path.getLast? = some slash
  · right
    have hpieces := pieces_append_slash (stem path) []
    rwa [stem_append_slash hlast] at hpieces
  · left
    rw [stem_of_ne hlast]

/-- The components of a path with more names behind it. -/
theorem components_joinAll {root : Path} {names : List FileName} (hroot : root ≠ [])
    (h : ∀ name ∈ names, IsName name) :
    components (joinAll root names) = components root ++ names.map .name := by
  by_cases hnames : names = []
  · subst hnames
    simp [joinAll]
  · have hpieces : pieces (joinAll root names) = pieces (stem root) ++ names := by
      rw [joinAll_eq hroot hnames h,
        pieces_append_flatMap_slash _ fun name hname => (h name hname).slash_not_mem]
    have hhead : (pieces (stem root) ++ names).head? = (pieces root).head? := by
      have hne := pieces_ne_nil (stem root)
      rcases pieces_eq_stem root with heq | heq <;> simp [heq, List.head?_append_of_ne_nil _ hne]
    have hkept : (pieces (stem root)).filterMap Component.ofPiece? =
        (pieces root).filterMap Component.ofPiece? := by
      rcases pieces_eq_stem root with heq | heq <;> simp [heq, Component.ofPiece?]
    rw [components, components, origin, origin, isAbsolute_joinAll hroot, hpieces, hhead,
      List.filterMap_append, hkept, filterMap_ofPiece? h, List.append_assoc]

/-- Lists of names are ordered as the components of these names. -/
theorem lex_map_name {names others : List FileName} (h : names < others) :
    List.Lex Component.Before (names.map .name) (others.map .name) := by
  induction h with
  | nil => exact .nil
  | rel lt => exact .rel (.name lt)
  | cons _ ih => exact .cons ih

/-- **Below one path, paths are ordered as the names that lead there.** -/
theorem before_joinAll {root : Path} {names others : List FileName} (hroot : root ≠ [])
    (hnames : ∀ name ∈ names, IsName name) (hothers : ∀ name ∈ others, IsName name)
    (h : names < others) : (joinAll root names).Before (joinAll root others) := by
  unfold Before
  rw [components_joinAll hroot hnames, components_joinAll hroot hothers]
  induction components root with
  | nil => exact lex_map_name h
  | cons component rest ih => exact .cons ih

end SpecLint.Path
