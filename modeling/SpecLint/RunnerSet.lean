/-!
# Runner methods

A runner is a method that turns an expectation target into an assertion, such as `to` in
`expect(x).to eq(y)`.  A `RunnerSet` keeps its names strictly ascending, so that two sets with the
same members are equal and listing a set needs no sorting.  Names are ordered by code point, which
is the order of their UTF-8 bytes.
-/

namespace SpecLint

/-- Puts `name` at its place in an ascending list, unless it is already there. -/
def insertAscending (name : String) : List String → List String
  | [] => [name]
  | head :: rest =>
      if name < head then name :: head :: rest
      else if name = head then head :: rest
      else head :: insertAscending name rest

theorem mem_insertAscending {name x : String} {names : List String} :
    x ∈ insertAscending name names ↔ x = name ∨ x ∈ names := by
  induction names with
  | nil => simp [insertAscending]
  | cons head rest ih =>
      unfold insertAscending
      split
      · simp
      · split
        · rename_i h; subst h; simp
        · simp only [List.mem_cons, ih]
          grind

theorem pairwise_insertAscending {name : String} {names : List String}
    (h : names.Pairwise (· < ·)) : (insertAscending name names).Pairwise (· < ·) := by
  induction names with
  | nil => simp [insertAscending]
  | cons head rest ih =>
      obtain ⟨hhead, hrest⟩ := List.pairwise_cons.1 h
      unfold insertAscending
      split
      · rename_i hlt
        refine List.pairwise_cons.2 ⟨?_, h⟩
        intro x hx
        rcases List.mem_cons.1 hx with rfl | hx
        · exact hlt
        · exact String.lt_trans hlt (hhead x hx)
      · split
        · exact h
        · rename_i hlt hne
          refine List.pairwise_cons.2 ⟨?_, ih hrest⟩
          intro x hx
          rcases mem_insertAscending.1 hx with rfl | hx
          · rcases String.le_total head x with hle | hle
            · exact Decidable.byContradiction fun hnot =>
                hne (String.le_antisymm (String.not_lt.1 hnot) hle)
            · exact absurd (String.le_antisymm hle (String.not_lt.1 hlt)) hne
          · exact hhead x hx

/-- The methods that are accepted after an expectation target. -/
structure RunnerSet where
  /-- The members, ascending. -/
  toList : List String
  /-- Each member is listed once, in order. -/
  ascending : toList.Pairwise (· < ·)
  deriving DecidableEq

namespace RunnerSet

/-- The set with no members. -/
def empty : RunnerSet := ⟨[], List.Pairwise.nil⟩

/-- Adds one method. -/
def insert (runners : RunnerSet) (name : String) : RunnerSet :=
  ⟨insertAscending name runners.toList, pairwise_insertAscending runners.ascending⟩

/-- The set of the listed methods. -/
def ofList (names : List String) : RunnerSet := names.foldl insert empty

/-- The runners in force when none are configured. -/
def standard : RunnerSet := ofList ["to", "not_to", "to_not"]

instance : Inhabited RunnerSet := ⟨standard⟩

/-- Whether `method` is one of the runners. -/
def contains (runners : RunnerSet) (method : String) : Bool := runners.toList.contains method

/-- Number of runners. -/
def size (runners : RunnerSet) : Nat := runners.toList.length

/-- Whether there is no runner. -/
def isEmpty (runners : RunnerSet) : Bool := runners.toList.isEmpty

@[simp] theorem contains_insert (runners : RunnerSet) (name method : String) :
    (runners.insert name).contains method = (method == name || runners.contains method) := by
  rw [Bool.eq_iff_iff]
  simp [contains, insert, mem_insertAscending]

/-- A set built from a list has exactly the listed members. -/
theorem contains_ofList (names : List String) (method : String) :
    (ofList names).contains method = names.contains method := by
  suffices h : ∀ runners : RunnerSet, (names.foldl insert runners).contains method =
      (runners.contains method || names.contains method) by
    simpa [ofList, empty, contains] using h empty
  induction names with
  | nil => simp
  | cons head rest ih =>
      intro runners
      rw [List.foldl_cons, ih, contains_insert, List.contains_cons]
      cases method == head <;> cases runners.contains method <;> simp

end RunnerSet

end SpecLint
