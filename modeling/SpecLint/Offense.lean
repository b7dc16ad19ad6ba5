import SpecLint.Severity
import SpecLint.Span

/-!
# Offenses

An `Offense` is one reported violation.  `Offenses` collects them for one file: insertion order is
kept, and a second report of the same rule at the same span is refused, so that no two stored
offenses share rule and span (`Offenses.distinct`).  What was reported is looked up in a set of keys,
which is kept in step with the stored offenses (`Offenses.mem_seen`).
-/

namespace SpecLint

/-- One reported violation of a rule. -/
structure Offense where
  /-- Name of the rule that was violated. -/
  rule : String
  /-- How loudly the violation is reported. -/
  severity : Severity
  /-- Where the violation stands. -/
  span : Span
  /-- What is wrong, for a reader of the report. -/
  message : String
  deriving DecidableEq, Repr

/-- What tells two offenses apart: the rule and the place. -/
def Offense.key (o : Offense) : String × Span := (o.rule, o.span)

/-- The offenses of one file in the order of their first report. -/
structure Offenses where
  /-- The stored offenses, first report first. -/
  toList : List Offense := []
  /-- The keys that were reported. -/
  seen : List (String × Span) := []
  /-- No rule is stored twice at one span. -/
  distinct : toList.Pairwise (fun a b => a.key ≠ b.key) := by exact List.Pairwise.nil
  /-- The keys that were reported are those of the stored offenses. -/
  mem_seen : ∀ key, key ∈ seen ↔ ∃ o ∈ toList, o.key = key := by simp

namespace Offenses

/-- No offenses. -/
def empty : Offenses := {}

instance : Inhabited Offenses := ⟨empty⟩

/-- Number of stored offenses. -/
def size (os : Offenses) : Nat := os.toList.length

/-- Whether nothing has been stored. -/
def isEmpty (os : Offenses) : Bool := os.toList.isEmpty

/-- Whether the rule of `o` was already reported at the span of `o`. -/
def reported (os : Offenses) (o : Offense) : Bool := os.seen.contains o.key

theorem reported_eq_true {os : Offenses} {o : Offense} :
    os.reported o = true ↔ ∃ p ∈ os.toList, p.key = o.key := by
  rw [reported, List.contains_iff_mem, os.mem_seen]

theorem reported_eq_false {os : Offenses} {o : Offense} :
    os.reported o = false ↔ ∀ p ∈ os.toList, p.key ≠ o.key := by
  simp [← Bool.not_eq_true, reported_eq_true]

/-- Stores `o` at the end, unless its rule was already reported at its span, and tells whether it
was stored. -/
def tryAdd (os : Offenses) (o : Offense) : Bool × Offenses :=
  if h : os.reported o = true then (false, os)
  else
    (true,
      { toList := os.toList ++ [o]
        seen := o.key :: os.seen
        distinct := by
          rw [List.pairwise_append]
          refine ⟨os.distinct, List.pairwise_singleton _ _, ?_⟩
          intro p hp q hq
          rw [List.mem_singleton.1 hq]
          exact reported_eq_false.1 (Bool.eq_false_iff.2 h) p hp
        mem_seen := by
          intro key
          rw [List.mem_cons, os.mem_seen]
          simp only [List.mem_append, List.mem_singleton, or_and_right, exists_or, exists_eq_left]
          rw [or_comm, eq_comm] })

/-- Stores `o` at the end, unless its rule was already reported at its span. -/
def add (os : Offenses) (o : Offense) : Offenses := (os.tryAdd o).2

/-- Stores several offenses, one after the other. -/
def addAll (os : Offenses) (more : List Offense) : Offenses := more.foldl add os

/-- A report is stored unless it is repeated. -/
@[simp] theorem tryAdd_stored (os : Offenses) (o : Offense) :
    (os.tryAdd o).1 = !os.reported o := by
  unfold tryAdd
  split <;> simp_all

/-- A repeated report changes nothing; a new one is stored last. -/
theorem toList_add (os : Offenses) (o : Offense) :
    (os.add o).toList = if os.reported o then os.toList else os.toList ++ [o] := by
  unfold add tryAdd
  split <;> simp_all

end Offenses

end SpecLint
