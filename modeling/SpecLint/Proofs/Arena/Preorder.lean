import Mathlib.Data.List.Nodup
import Mathlib.Data.List.ProdSigma
import SpecLint.Proofs.Arena.Forest
import SpecLint.Proofs.Arena.History

/-!
# The walk as a recursion

In a descending arena every id that a node lists is smaller than the node's own, or has no node.
Such an arena need not be a tree: nodes may be shared, and listed more than once.

There the listing `pre id = id :: (children id).flatMap pre` is a recursion with an end.  The walk
with a stack, which knows of no bound, comes to its end too and gives that listing from the root.

* `Descending.induction` — what holds of an id when it holds of its children holds of all ids.
* `listing_eq` — the recursion equation of the listing.
* `Tour`, `Tour.EndsWith` — the walk with a stack, one visit at a time, and where it ends.
* `Descending.endsWith_below` — an id on the stack is replaced by its listing in the order.
* `Descending.exists_ways` — the listing names where each way down leads, way by way.
* `preorder_of_descending` — **the walk ends and is the listing from the root**.
-/

namespace SpecLint

namespace Arena

variable {a : Arena}

/-! ## Descending arenas -/

/-- Each id that a node lists is smaller than the node's own or has no node. -/
def Descending (a : Arena) : Prop := ∀ id, ∀ c ∈ a.children id, c < id ∨ a.size ≤ c

theorem descending_iff :
    a.Descending ↔ ∀ id < a.size, ∀ c ∈ a.children id, c < id ∨ a.size ≤ c :=
  ⟨fun h id _ => h id, fun h id c hc => h id (lt_size_of_mem_children hc) c hc⟩

instance : Decidable a.Descending := decidable_of_iff' _ descending_iff

/-- Bounds the number of levels below an id, which is none where there is no node. -/
def rank (a : Arena) (id : NodeId) : Nat := if id < a.size then id + 1 else 0

theorem rank_le_size (a : Arena) (id : NodeId) : a.rank id ≤ a.size := by
  unfold rank
  split
  · assumption
  · exact Nat.zero_le _

theorem children_of_rank_eq_zero {id : NodeId} (h : a.rank id = 0) : a.children id = [] := by
  refine List.eq_nil_iff_forall_not_mem.2 fun c hc => ?_
  rw [rank, if_pos (lt_size_of_mem_children hc)] at h
  exact Nat.succ_ne_zero id h

namespace Descending

theorem rank_lt (h : a.Descending) {id c : NodeId} (hc : c ∈ a.children id) :
    a.rank c < a.rank id := by
  rw [rank, rank, if_pos (lt_size_of_mem_children hc)]
  rcases h id c hc with hlt | hle
  · split
    · exact Nat.succ_lt_succ hlt
    · exact Nat.succ_pos id
  · rw [if_neg (Nat.not_lt.2 hle)]
    exact Nat.succ_pos id

/-- What holds of an id when it holds of its children holds of all ids. -/
theorem induction (h : a.Descending) {motive : NodeId → Prop}
    (step : ∀ id, (∀ c ∈ a.children id, motive c) → motive id) (id : NodeId) : motive id := by
  induction hrank : a.rank id using Nat.strong_induction_on generalizing id with
  | _ rank ih =>
      subst hrank
      exact step id fun c hc => ih (a.rank c) (h.rank_lt hc) c rfl

end Descending

/-! ## The listing -/

/-- The ids from `id` down, each followed by what is listed from its children. -/
def listing (a : Arena) (id : NodeId) : List NodeId := a.preorderFrom a.size id

/-- Levels beyond the rank of an id add nothing. -/
theorem Descending.preorderFrom_congr (h : a.Descending) {levels more : Nat} {id : NodeId}
    (hlevels : a.rank id ≤ levels) (hmore : a.rank id ≤ more) :
    a.preorderFrom levels id = a.preorderFrom more id := by
  induction id using h.induction generalizing levels more with
  | step id ih =>
      cases levels with
      | zero =>
          have hnone := children_of_rank_eq_zero (Nat.le_zero.1 hlevels)
          cases more <;> simp [preorderFrom, hnone]
      | succ levels =>
          cases more with
          | zero => simp [preorderFrom, children_of_rank_eq_zero (Nat.le_zero.1 hmore)]
          | succ more =>
              rw [preorderFrom, preorderFrom]
              refine congrArg (id :: ·) (List.flatMap_congr fun c hc => ?_)
              have hlt := h.rank_lt hc
              exact ih c hc (by omega) (by omega)

/-- **The listing is a recursion.** -/
theorem Descending.listing_eq (h : a.Descending) (id : NodeId) :
    a.listing id = id :: (a.children id).flatMap a.listing := by
  rw [listing, h.preorderFrom_congr (a.rank_le_size id)
    (Nat.le_succ_of_le (a.rank_le_size id)), preorderFrom]
  rfl

/-- No other recursion of this form gives anything else. -/
theorem Descending.eq_listing (h : a.Descending) {pre : NodeId → List NodeId}
    (hpre : ∀ id, pre id = id :: (a.children id).flatMap pre) : pre = a.listing := by
  funext id
  induction id using h.induction with
  | step id ih => rw [hpre, h.listing_eq, List.flatMap_congr ih]

/-- An id without a node is listed alone. -/
theorem Descending.listing_of_size_le (h : a.Descending) {id : NodeId} (hid : a.size ≤ id) :
    a.listing id = [id] := by
  have hnone : a.children id = [] :=
    children_of_rank_eq_zero (by rw [rank, if_neg (Nat.not_lt.2 hid)])
  rw [h.listing_eq, hnone, List.flatMap_nil]

/-! ## The walk with a stack -/

/-- A walk under way. -/
structure Tour where
  /-- The ids that have been visited, in order. -/
  order : List NodeId
  /-- The ids that are still to be visited.  The last of them is next. -/
  stack : List NodeId

namespace Tour

/-- Visits the id on top of the stack and puts its children in its place, the last child
undermost. -/
def visit? (a : Arena) (tour : Tour) : Option Tour :=
  match tour.stack.getLast? with
  | some id => some
      { order := tour.order ++ [id], stack := tour.stack.dropLast ++ (a.children id).reverse }
  | none => none

/-- After finitely many visits nothing is left on the stack, and `order` has been visited. -/
inductive EndsWith (a : Arena) : Tour → List NodeId → Prop where
  /-- Nothing is left. -/
  | done {tour : Tour} (stop : tour.visit? a = none) : EndsWith a tour tour.order
  /-- One more visit. -/
  | step {tour next : Tour} {order : List NodeId} (visit : tour.visit? a = some next)
      (rest : EndsWith a next order) : EndsWith a tour order

/-- A walk has one end at most. -/
theorem EndsWith.unique {tour : Tour} {order other : List NodeId} (h : tour.EndsWith a order)
    (hother : tour.EndsWith a other) : order = other := by
  induction h with
  | done stop =>
      cases hother with
      | done _ => rfl
      | step visit _ => rw [stop] at visit; exact nomatch visit
  | step visit _ ih =>
      cases hother with
      | done stop => rw [stop] at visit; exact nomatch visit
      | step visit' rest' =>
          rw [visit] at visit'
          obtain rfl := Option.some.inj visit'
          exact ih rest'

theorem visit?_concat (order below : List NodeId) (id : NodeId) :
    visit? a ⟨order, below ++ [id]⟩ = some ⟨order ++ [id], below ++ (a.children id).reverse⟩ := by
  simp [visit?]

/-- Children on the stack, the first on top, are visited one after the other. -/
theorem EndsWith.over_reverse {pre : NodeId → List NodeId} {below order total : List NodeId} :
    ∀ ids : List NodeId,
      (∀ c ∈ ids, ∀ below order, EndsWith a ⟨order ++ pre c, below⟩ total →
        EndsWith a ⟨order, below ++ [c]⟩ total) →
      EndsWith a ⟨order ++ ids.flatMap pre, below⟩ total →
      EndsWith a ⟨order, below ++ ids.reverse⟩ total := by
  intro ids
  induction ids generalizing order with
  | nil =>
      intro _ hrest
      simpa using hrest
  | cons c ids ih =>
      intro hids hrest
      rw [List.reverse_cons, ← List.append_assoc]
      refine hids c (List.mem_cons_self ..) _ _ ?_
      refine ih (fun c hc => hids c (List.mem_cons_of_mem _ hc)) ?_
      rwa [List.flatMap_cons, ← List.append_assoc] at hrest

end Tour

open Tour in
/-- **What is visited from an id is its listing**, and then the walk goes on with what lies below it
on the stack. -/
theorem Descending.endsWith_below (h : a.Descending) (id : NodeId) {total : List NodeId} :
    ∀ below order, EndsWith a ⟨order ++ a.listing id, below⟩ total →
      EndsWith a ⟨order, below ++ [id]⟩ total := by
  induction id using h.induction with
  | step id ih =>
      intro below order hrest
      refine .step (visit?_concat order below id) (EndsWith.over_reverse (a.children id) ih ?_)
      rwa [h.listing_eq, List.append_cons] at hrest

/-! ## Ways down -/

/-- Where a way leads that starts at `id` and takes, at each node, the child at the given position. -/
def follow? (a : Arena) : NodeId → List Nat → Option NodeId
  | id, [] => some id
  | id, position :: way =>
      match (a.children id)[position]? with
      | some c => follow? a c way
      | none => none

theorem follow?_cons {id c : NodeId} {position : Nat} {way : List Nat}
    (h : (a.children id)[position]? = some c) :
    a.follow? id (position :: way) = a.follow? c way := by
  rw [follow?, h]

/-- The ways from a node, given those from its children: the empty one, and for each child those
that begin with its position. -/
def waysOver (children : List NodeId) (ways : NodeId → List (List Nat)) : List (List Nat) :=
  [] :: children.zipIdx.flatMap fun child => (ways child.1).map (child.2 :: ·)

theorem nodup_waysOver {children : List NodeId} {ways : NodeId → List (List Nat)}
    (h : ∀ c ∈ children, (ways c).Nodup) : (waysOver children ways).Nodup := by
  refine List.nodup_cons.2 ⟨?_, List.nodup_flatMap.2 ⟨?_, ?_⟩⟩
  · simp
  · rintro ⟨c, position⟩ hchild
    refine (h c ?_).map fun way other heq => (List.cons.inj heq).2
    exact (List.mem_zipIdx' hchild).2 ▸ List.getElem_mem _
  · -- ways through different children differ in their first position
    have hpositions : children.zipIdx.Pairwise fun child other => child.2 < other.2 := by
      rw [← List.pairwise_map (f := Prod.snd), List.zipIdx_map_snd]
      exact List.pairwise_lt_range'
    refine hpositions.imp fun hlt way hway hother => ?_
    obtain ⟨_, -, rfl⟩ := List.mem_map.1 hway
    obtain ⟨_, -, heq⟩ := List.mem_map.1 hother
    exact Nat.ne_of_gt hlt (List.cons.inj heq).1

theorem mem_waysOver {id : NodeId} {ways : NodeId → List (List Nat)}
    (h : ∀ c ∈ a.children id, ∀ way, way ∈ ways c ↔ (a.follow? c way).isSome) (way : List Nat) :
    way ∈ waysOver (a.children id) ways ↔ (a.follow? id way).isSome := by
  cases way with
  | nil => simp [waysOver, follow?]
  | cons position way =>
      rw [waysOver, List.mem_cons, List.mem_flatMap, follow?]
      simp only [List.mem_map, Prod.exists, List.mem_zipIdx_iff_getElem?, List.cons.injEq,
        reduceCtorEq, false_or]
      cases hchild : (a.children id)[position]? with
      | none =>
          refine ⟨?_, fun hsome => nomatch hsome⟩
          rintro ⟨c, other, hc, _, -, rfl, rfl⟩
          rw [hc] at hchild
          exact nomatch hchild
      | some c =>
          have hmem := h c (List.mem_of_getElem? hchild) way
          refine ⟨?_, fun hsome => ⟨c, position, hchild, way, hmem.2 hsome, rfl, rfl⟩⟩
          rintro ⟨c', other, hc, _, hway, rfl, rfl⟩
          rw [hc] at hchild
          obtain rfl := Option.some.inj hchild
          exact hmem.1 hway

theorem map_follow?_waysOver {id : NodeId} {ways : NodeId → List (List Nat)}
    {pre : NodeId → List NodeId}
    (h : ∀ c ∈ a.children id, (ways c).map (a.follow? c) = (pre c).map some) :
    (waysOver (a.children id) ways).map (a.follow? id) =
      (id :: (a.children id).flatMap pre).map some := by
  have hchild : ∀ child ∈ (a.children id).zipIdx,
      ((ways child.1).map (child.2 :: ·)).map (a.follow? id) = (pre child.1).map some := by
    rintro ⟨c, position⟩ hmem
    have hc := List.mem_zipIdx_iff_getElem?.1 hmem
    rw [← h c (List.mem_of_getElem? hc), List.map_map]
    exact List.map_congr_left fun way _ => follow?_cons hc
  calc (waysOver (a.children id) ways).map (a.follow? id)
      = some id :: (a.children id).zipIdx.flatMap fun child => (pre child.1).map some := by
        rw [waysOver, List.map_cons, List.map_flatMap, List.flatMap_congr hchild, follow?]
    _ = some id :: ((a.children id).zipIdx.map Prod.fst).flatMap fun c => (pre c).map some := by
        rw [List.flatMap_map]
    _ = (id :: (a.children id).flatMap pre).map some := by
        rw [List.zipIdx_map_fst, List.map_cons, List.map_flatMap]

/-- **The listing names where each way down leads**, for each way once. -/
theorem Descending.exists_ways (h : a.Descending) (id : NodeId) :
    ∃ ways : List (List Nat), ways.Nodup ∧ (∀ way, way ∈ ways ↔ (a.follow? id way).isSome) ∧
      ways.map (a.follow? id) = (a.listing id).map some := by
  induction id using h.induction with
  | step id ih =>
      choose! ways hnodup hmem hleads using ih
      refine ⟨waysOver (a.children id) ways, nodup_waysOver hnodup, mem_waysOver hmem, ?_⟩
      rw [map_follow?_waysOver hleads, h.listing_eq]

/-! ## The walk -/

/-- **The walk ends and is the listing from the root.**  In a descending arena there is one function
that lists an id and then, child by child, what it lists from the children; an id without a node it
lists alone.  The walk with a stack that starts from the root comes to its end, and what it has
visited then, which is also what `preorder` gives, is the listing from the root.  A node that is
shared stands in it once for each way that leads there. -/
theorem preorder_of_descending (h : a.Descending) :
    ∃ pre : NodeId → List NodeId,
      (∀ id, pre id = id :: (a.children id).flatMap pre) ∧
      (∀ other : NodeId → List NodeId,
        (∀ id, other id = id :: (a.children id).flatMap other) → other = pre) ∧
      (∀ id, a.size ≤ id → pre id = [id]) ∧
      (∀ order, Tour.EndsWith a ⟨[], a.root?.toList⟩ order ↔
        order = a.root?.toList.flatMap pre) ∧
      a.preorder = a.root?.toList.flatMap pre ∧
      ∀ root, a.root? = some root → ∃ ways : List (List Nat), ways.Nodup ∧
        (∀ way, way ∈ ways ↔ (a.follow? root way).isSome) ∧
        ways.map (a.follow? root) = a.preorder.map some := by
  have hpreorder : a.preorder = a.root?.toList.flatMap a.listing := by
    cases hroot : a.root? with
    | none => exact preorder_eq_nil hroot
    | some root =>
        rw [preorder_eq hroot, Option.toList_some, List.flatMap_singleton]
        rfl
  have hends : Tour.EndsWith a ⟨[], a.root?.toList⟩ (a.root?.toList.flatMap a.listing) := by
    cases a.root? with
    | none => exact .done rfl
    | some root =>
        rw [Option.toList_some, List.flatMap_singleton]
        exact h.endsWith_below root [] [] (.done rfl)
  refine ⟨a.listing, h.listing_eq, fun other => h.eq_listing, fun id => h.listing_of_size_le,
    fun order => ⟨fun horder => horder.unique hends, fun horder => horder ▸ hends⟩, hpreorder,
    fun root hroot => ?_⟩
  rw [hpreorder, hroot, Option.toList_some, List.flatMap_singleton]
  exact h.exists_ways root

/-- A read that is listed by two nodes, by one of them twice, and an id that no node has. -/
def sharedRead : List Change :=
  [.push (.localRead "x") ⟨7, 8, 1, 8⟩, .push (.sequence [0, 0, 9]) ⟨6, 12, 1, 7⟩,
    .push (.send { receiver := some 1, method := "to", arguments := [0], selector := ⟨13, 15, 1, 14⟩ })
      ⟨6, 17, 1, 7⟩]

/-- The read is visited three times, once for each way to it. -/
theorem preorder_of_descending_sharedRead :
    (ofChanges sharedRead).Descending ∧
    Tour.EndsWith (ofChanges sharedRead) ⟨[], [2]⟩ [2, 1, 0, 0, 9, 0] ∧
    (ofChanges sharedRead).preorder = [2, 1, 0, 0, 9, 0] := by
  have hdescending : (ofChanges sharedRead).Descending := by decide
  have hroot : (ofChanges sharedRead).root? = some 2 := by decide
  obtain ⟨pre, hpre, -, hbare, hends, hwalk, -⟩ := preorder_of_descending hdescending
  have h9 : pre 9 = [9] := hbare 9 (by decide)
  have h0 : pre 0 = [0] := hpre 0
  have h1 : pre 1 = [1, 0, 0, 9] := by
    rw [hpre, show (ofChanges sharedRead).children 1 = [0, 0, 9] by decide]
    simp [h0, h9]
  have h2 : pre 2 = [2, 1, 0, 0, 9, 0] := by
    rw [hpre, show (ofChanges sharedRead).children 2 = [1, 0] by decide]
    simp [h0, h1]
  rw [hroot, Option.toList_some, List.flatMap_singleton, h2] at hends hwalk
  exact ⟨hdescending, (hends _).2 rfl, hwalk⟩

end Arena

end SpecLint
