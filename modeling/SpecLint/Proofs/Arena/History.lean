import Mathlib.Data.List.Induction
import Mathlib.Order.Bounds.Basic
import SpecLint.Proofs.Arena.Push

/-!
# Arenas after any history

A node may list any ids as its children: nodes that are there, nodes that other parents have listed
before, ids that are not there yet, and its own.  `Change` is one change of an arena and `ofChanges`
the arena after a history of them.

A node claims the children that it lists and that were pushed before it.  Each parent link names the
last claimant: `Linked` says so, a push keeps it (`Linked.push`), and so it holds after every
history.

* `claimants_push` — whom a push adds to the claimants of a node.
* `form?_ofChanges` — shape and span of each node are those with which it was pushed.
* `parent?_ofChanges` — **parent links, shapes, spans and the root after any history**.

Ids are numbers without a bound here.  Ids of 32 bits are the same ones as long as fewer than 2 ^ 32
nodes are pushed.
-/

namespace SpecLint

namespace Arena

/-! ## Parent links -/

/-- The nodes that were pushed after `c` and list it. -/
def claimants (a : Arena) (c : NodeId) : Set NodeId := {p | c < p ∧ c ∈ a.children p}

theorem lt_size_of_mem_claimants {a : Arena} {c p : NodeId} (h : p ∈ a.claimants c) :
    p < a.size :=
  lt_size_of_mem_children h.2

/-- A push adds the new node to the claimants of the listed nodes that are there. -/
theorem claimants_push (a : Arena) (shape : Shape) (span : Span) (c : NodeId) :
    (a.push shape span).2.claimants c =
      if c < a.size ∧ c ∈ shape.children then insert a.size (a.claimants c)
      else a.claimants c := by
  ext p
  have hmem : p ∈ (a.push shape span).2.claimants c ↔
      (p = a.size ∧ c < a.size ∧ c ∈ shape.children) ∨ p ∈ a.claimants c := by
    change c < p ∧ c ∈ (a.push shape span).2.children p ↔ _
    rw [children_push]
    by_cases hp : p = a.size
    · subst hp
      have hold : a.size ∉ a.claimants c := fun h =>
        Nat.lt_irrefl _ (lt_size_of_mem_claimants h)
      simp [hold]
    · simp [hp, claimants]
  rw [hmem]
  by_cases hc : c < a.size ∧ c ∈ shape.children
  · simp [hc]
  · rw [if_neg hc]
    exact ⟨fun h => h.resolve_left fun hnew => hc hnew.2, Or.inr⟩

/-- Each parent link names the last claimant and is missing where there is none. -/
structure Linked (a : Arena) : Prop where
  /-- A link names the last claimant. -/
  last : ∀ c p, a.parent? c = some p → IsGreatest (a.claimants c) p
  /-- Without a link there is no claimant. -/
  unclaimed : ∀ c, a.parent? c = none → a.claimants c = ∅

namespace Linked

variable {a : Arena}

theorem empty : Linked empty where
  last _ _ h := nomatch h
  unclaimed c _ := by
    ext p
    exact ⟨fun h => absurd h.2 List.not_mem_nil, fun h => h.elim⟩

/-- **A push keeps the links right.** -/
theorem push (h : a.Linked) (shape : Shape) (span : Span) : (a.push shape span).2.Linked := by
  constructor
  · intro c p hparent
    rw [parent?_push] at hparent
    rw [claimants_push]
    by_cases hc : c < a.size ∧ c ∈ shape.children
    · -- the new node is the last of all claimants
      rw [if_pos hc] at hparent ⊢
      obtain rfl := Option.some.inj hparent
      refine ⟨Set.mem_insert _ _, ?_⟩
      rintro q (rfl | hq)
      · exact Nat.le_refl _
      · exact Nat.le_of_lt (lt_size_of_mem_claimants hq)
    · rw [if_neg hc] at hparent ⊢
      exact h.last c p hparent
  · intro c hparent
    rw [parent?_push] at hparent
    rw [claimants_push]
    by_cases hc : c < a.size ∧ c ∈ shape.children
    · rw [if_pos hc] at hparent
      exact nomatch hparent
    · rw [if_neg hc] at hparent ⊢
      exact h.unclaimed c hparent

/-- Choosing a root changes no link. -/
theorem setRoot (h : a.Linked) (root : NodeId) : (a.setRoot root).Linked :=
  ⟨h.last, h.unclaimed⟩

theorem parent?_eq_some_iff (h : a.Linked) {c p : NodeId} :
    a.parent? c = some p ↔ IsGreatest (a.claimants c) p := by
  constructor
  · exact h.last c p
  · intro hp
    cases hparent : a.parent? c with
    | none =>
        have hmem := hp.1
        rw [h.unclaimed c hparent] at hmem
        exact hmem.elim
    | some q => rw [(h.last c q hparent).unique hp]

theorem parent?_eq_none_iff (h : a.Linked) {c : NodeId} :
    a.parent? c = none ↔ a.claimants c = ∅ := by
  constructor
  · exact h.unclaimed c
  · intro hempty
    cases hparent : a.parent? c with
    | none => rfl
    | some q =>
        have hmem := (h.last c q hparent).1
        rw [hempty] at hmem
        exact hmem.elim

end Linked

/-! ## Histories -/

/-- One change of an arena. -/
inductive Change where
  /-- A node is pushed. -/
  | push (shape : Shape) (span : Span)
  /-- A root is chosen. -/
  | setRoot (root : NodeId)
  deriving DecidableEq, Repr

namespace Change

/-- The arena after one more change. -/
def apply (a : Arena) : Change → Arena
  | .push shape span => (a.push shape span).2
  | .setRoot root => a.setRoot root

/-- What is pushed, if this is a push. -/
def pushed? : Change → Option (Shape × Span)
  | .push shape span => some (shape, span)
  | .setRoot _ => none

/-- The root that is chosen, if one is. -/
def chosen? : Change → Option NodeId
  | .push _ _ => none
  | .setRoot root => some root

end Change

/-- The arena after a history of changes, which starts without nodes. -/
def ofChanges (changes : List Change) : Arena := changes.foldl Change.apply empty

theorem ofChanges_concat (changes : List Change) (change : Change) :
    ofChanges (changes ++ [change]) = change.apply (ofChanges changes) := by
  rw [ofChanges, List.foldl_append]
  rfl

theorem size_ofChanges (changes : List Change) :
    (ofChanges changes).size = (changes.filterMap Change.pushed?).length := by
  induction changes using List.reverseRecOn with
  | nil => rfl
  | append_singleton changes change ih =>
      rw [ofChanges_concat, List.filterMap_append, List.length_append, ← ih]
      cases change with
      | push shape span => exact size_push ..
      | setRoot root => rfl

/-- Each node has the shape and the span with which it was pushed. -/
theorem form?_ofChanges (changes : List Change) (id : NodeId) :
    (ofChanges changes).form? id = (changes.filterMap Change.pushed?)[id]? := by
  induction changes using List.reverseRecOn with
  | nil => rfl
  | append_singleton changes change ih =>
      rw [ofChanges_concat, List.filterMap_append]
      cases change with
      | push shape span =>
          rw [Change.apply, form?_push, ih, size_ofChanges, List.getElem?_append,
            show [Change.push shape span].filterMap Change.pushed? = [(shape, span)] from rfl]
          rcases Nat.lt_trichotomy id (changes.filterMap Change.pushed?).length with
            hlt | rfl | hgt
          · rw [if_neg (Nat.ne_of_lt hlt), if_pos hlt]
          · simp
          · rw [if_neg (Nat.ne_of_gt hgt), if_neg (Nat.lt_asymm hgt),
              List.getElem?_eq_none (Nat.le_of_lt hgt), List.getElem?_eq_none]
            exact Nat.sub_pos_of_lt hgt
      | setRoot root =>
          rw [show [Change.setRoot root].filterMap Change.pushed? = [] from rfl, List.append_nil]
          exact ih

theorem linked_ofChanges (changes : List Change) : (ofChanges changes).Linked := by
  induction changes using List.reverseRecOn with
  | nil => exact Linked.empty
  | append_singleton changes change ih =>
      rw [ofChanges_concat]
      cases change with
      | push shape span => exact ih.push shape span
      | setRoot root => exact ih.setRoot root

theorem chosenRoot_ofChanges (changes : List Change) :
    (ofChanges changes).chosenRoot = (changes.filterMap Change.chosen?).getLast? := by
  induction changes using List.reverseRecOn with
  | nil => rfl
  | append_singleton changes change ih =>
      rw [ofChanges_concat, List.filterMap_append]
      cases change with
      | push shape span =>
          rw [show [Change.push shape span].filterMap Change.chosen? = [] from rfl, List.append_nil]
          exact ih
      | setRoot root =>
          rw [show [Change.setRoot root].filterMap Change.chosen? = [root] from rfl,
            List.getLast?_concat]
          rfl

/-! ## The root -/

/-- The root is the one that was chosen last. -/
theorem root?_of_chosen {before after : List Change} {root : NodeId}
    (hafter : after.filterMap Change.chosen? = []) :
    (ofChanges (before ++ .setRoot root :: after)).root? = some root := by
  have hchosen : (before ++ .setRoot root :: after).filterMap Change.chosen? =
      before.filterMap Change.chosen? ++ [root] := by
    simp only [List.filterMap_append, List.filterMap_cons, Change.chosen?, hafter]
  rw [root?, chosenRoot_ofChanges, hchosen, List.getLast?_concat]

/-- Where no root was chosen it is the node that was pushed last. -/
theorem root?_of_pushed {before after : List Change} {shape : Shape} {span : Span}
    (hchosen : (before ++ .push shape span :: after).filterMap Change.chosen? = [])
    (hafter : after.filterMap Change.pushed? = []) :
    (ofChanges (before ++ .push shape span :: after)).root? =
      some ((ofChanges before).push shape span).1 := by
  have hsize : (ofChanges (before ++ .push shape span :: after)).size =
      (ofChanges before).size + 1 := by
    simp only [size_ofChanges, List.filterMap_append, List.filterMap_cons, Change.pushed?, hafter,
      List.length_append, List.length_singleton]
  have hnodes : (ofChanges (before ++ .push shape span :: after)).isEmpty = false := by
    rw [isEmpty, Array.isEmpty_eq_false_iff, ← Array.size_pos_iff]
    change 0 < (ofChanges (before ++ .push shape span :: after)).size
    omega
  rw [root?, chosenRoot_ofChanges, hchosen, hnodes, hsize, push_id]
  rfl

/-- **What any history leaves behind.**  The parent of a node is the last one among the nodes after
it that list it, and there is none where no later node lists it.  Shape and span of a node are never
changed.  The root is the one that was chosen last, else the node that was pushed last. -/
theorem parent?_ofChanges (changes : List Change) :
    (∀ c p, (ofChanges changes).parent? c = some p ↔
      IsGreatest {p | c < p ∧ c ∈ (ofChanges changes).children p} p) ∧
    (∀ c, (ofChanges changes).parent? c = none ↔
      ∀ p, c < p → c ∉ (ofChanges changes).children p) ∧
    (∀ before after, changes = before ++ after → ∀ id < (ofChanges before).size,
      (ofChanges changes).form? id = (ofChanges before).form? id) ∧
    (∀ before root after, changes = before ++ .setRoot root :: after →
      after.filterMap Change.chosen? = [] → (ofChanges changes).root? = some root) ∧
    (∀ before shape span after, changes = before ++ .push shape span :: after →
      changes.filterMap Change.chosen? = [] → after.filterMap Change.pushed? = [] →
      (ofChanges changes).root? = some ((ofChanges before).push shape span).1) ∧
    (changes = [] → (ofChanges changes).root? = none) := by
  have hlinked := linked_ofChanges changes
  refine ⟨fun c p => hlinked.parent?_eq_some_iff, fun c => ?_, ?_, ?_, ?_, ?_⟩
  · rw [hlinked.parent?_eq_none_iff, Set.eq_empty_iff_forall_notMem]
    exact forall_congr' fun p => not_and
  · rintro before after rfl id hid
    rw [form?_ofChanges, form?_ofChanges, List.filterMap_append, List.getElem?_append_left]
    rwa [size_ofChanges] at hid
  · rintro before root after rfl hafter
    exact root?_of_chosen hafter
  · rintro before shape span after rfl hchosen hafter
    exact root?_of_pushed hchosen hafter
  · rintro rfl
    rfl

/-- A read, a call that lists it twice, a sequence that lists both and also itself and an id that no
node has, and then the call as the chosen root. -/
def claimedOften : List Change :=
  [.push (.localRead "x") ⟨7, 8, 1, 8⟩,
    .push (.send { receiver := some 0, method := "to", arguments := [0], selector := ⟨9, 11, 1, 10⟩ })
      ⟨7, 11, 1, 8⟩,
    .push (.sequence [1, 2, 0, 9]) ⟨0, 12, 1, 1⟩,
    .setRoot 1]

/-- The sequence is the last to claim the read and the call; it is no parent of its own. -/
theorem parent?_ofChanges_claimedOften :
    (ofChanges claimedOften).parent? 0 = some 2 ∧ (ofChanges claimedOften).parent? 1 = some 2 ∧
      (ofChanges claimedOften).parent? 2 = none ∧ (ofChanges claimedOften).root? = some 1 := by
  obtain ⟨hsome, hnone, -, hroot, -, -⟩ := parent?_ofChanges claimedOften
  have hlast : ∀ c p, c ∈ (ofChanges claimedOften).children p → p ≤ 2 := fun c p hc =>
    Nat.le_of_lt_succ (lt_size_of_mem_children hc)
  refine ⟨(hsome 0 2).2 ⟨⟨by decide, by decide⟩, fun p hp => hlast 0 p hp.2⟩,
    (hsome 1 2).2 ⟨⟨by decide, by decide⟩, fun p hp => hlast 1 p hp.2⟩,
    (hnone 2).2 fun p hp hmem => Nat.not_lt.2 (hlast 2 p hmem) hp,
    hroot (claimedOften.take 3) 1 [] rfl rfl⟩

end Arena

end SpecLint
