import SpecLint.Proofs.Extent

/-!
# The layout of concrete trees

What a grammar promises of the places of nodes is said of one node at a time and holds everywhere in
a tree.  Spans of concrete nodes keep their offsets: a source that is lowered is not longer than
32-bit words can say.

* `Concrete.InOrder` — the children of a node follow each other inside of it.
* `Span.Lies`, `Span.Encloses`, `Span.Avoids` — places of spans.
* `lies_spanUntil` — **the span of a concrete node lies where the node does**.
-/

namespace SpecLint

namespace Concrete

/-! ## Nodes in the order of the source -/

/-- The fields of a call in the order in which they stand. -/
def callFields : List String := ["receiver", "method", "arguments", "block"]

/-- Whether the fields of two children of a call allow the first to stand before the second. -/
def FieldsInOrder (c d : Concrete) : Prop :=
  ∀ field ∈ callFields, ∀ field' ∈ callFields, c.field = some field → d.field = some field' →
    callFields.idxOf field ≤ callFields.idxOf field'

/-- Whether the children of a node follow each other inside of it, those of a call in the order of
their fields.  Nodes may be empty. -/
structure InOrder (n : Concrete) : Prop where
  /-- The node does not run backwards. -/
  start_le : n.startByte ≤ n.endByte
  /-- The children lie in the node. -/
  inside : ∀ c ∈ n.children, n.Inside c
  /-- The children follow each other. -/
  ascending : n.children.Pairwise fun c d => c.endByte ≤ d.startByte
  /-- The fields of a call stand in their order. -/
  fields : n.role = .call → n.children.Pairwise FieldsInOrder

instance (c d : Concrete) : Decidable (c.FieldsInOrder d) :=
  inferInstanceAs (Decidable (∀ _ ∈ callFields, _))

theorem inOrder_iff {n : Concrete} : n.InOrder ↔ n.startByte ≤ n.endByte ∧
    (∀ c ∈ n.children, n.Inside c) ∧
    (n.children.Pairwise fun c d => c.endByte ≤ d.startByte) ∧
    (n.role = .call → n.children.Pairwise FieldsInOrder) :=
  ⟨fun h => ⟨h.start_le, h.inside, h.ascending, h.fields⟩, fun h => ⟨h.1, h.2.1, h.2.2.1, h.2.2.2⟩⟩

instance : DecidablePred InOrder := fun _ => decidable_of_iff' _ inOrder_iff

/-- A child of a call in an earlier field ends before a child in a later one begins. -/
theorem InOrder.le_of_fields {n c d : Concrete} (h : n.InOrder) (hrole : n.role = .call)
    {field field' : String} (hfield : field ∈ callFields) (hfield' : field' ∈ callFields)
    (hlt : callFields.idxOf field < callFields.idxOf field')
    (hc : n.childByField? field = some c) (hd : n.childByField? field' = some d) :
    c.endByte ≤ d.startByte := by
  have hne : field ≠ field' := by
    rintro rfl
    exact Nat.lt_irrefl _ hlt
  have hboth : n.children.Pairwise fun c d => c.endByte ≤ d.startByte ∧ c.FieldsInOrder d :=
    h.ascending.and (h.fields hrole)
  rcases related_of_mem hboth (mem_children_of_childByField? hc)
    (mem_children_of_childByField? hd) (ne_of_fields hc hd hne) with hcd | hdc
  · exact hcd.1
  · exact absurd (hdc.2 _ hfield' _ hfield (field_of_childByField? hd) (field_of_childByField? hc))
      (Nat.not_le.2 hlt)

end Concrete

/-! ## Places of spans -/

namespace Span

/-- Whether a span runs forwards between the bytes `lo` and `hi`. -/
def Lies (s : Span) (lo hi : Nat) : Prop :=
  lo ≤ s.startByte.toNat ∧ s.startByte ≤ s.endByte ∧ s.endByte.toNat ≤ hi

/-- Whether the span `t` lies in the span `s`. -/
def Encloses (s t : Span) : Prop := s.startByte ≤ t.startByte ∧ t.endByte ≤ s.endByte

/-- Whether a span has no byte in common with the node `n`. -/
def Avoids (s : Span) (n : Concrete) : Prop :=
  s.endByte.toNat ≤ n.startByte ∨ n.endByte ≤ s.startByte.toNat

theorem Lies.widen {s : Span} {lo hi lo' hi' : Nat} (h : s.Lies lo hi) (hlo : lo' ≤ lo)
    (hhi : hi ≤ hi') : s.Lies lo' hi' :=
  ⟨Nat.le_trans hlo h.1, h.2.1, Nat.le_trans h.2.2 hhi⟩

theorem Lies.encloses {s t : Span} (h : t.Lies s.startByte.toNat s.endByte.toNat) : s.Encloses t :=
  ⟨UInt32.le_iff_toNat_le.2 h.1, UInt32.le_iff_toNat_le.2 h.2.2⟩

end Span

namespace Lowering

open Concrete

variable {source : ByteArray} {root n c p : Concrete} {P : Concrete → Prop}

/-- A source that is not refused for its size has at most the greatest size. -/
theorem size_le_of_accepted {grammar : Grammar}
    (h : arenaOf grammar source ≠ .error .sourceTooLong) : source.size ≤ maxSourceSize := by
  rcases Nat.lt_or_ge maxSourceSize source.size with hlong | hsize
  · exact absurd (by rw [arenaOf, if_pos hlong]) h
  · exact hsize

theorem size_le_of_arenaOf {grammar : Grammar} {arena : Arena}
    (h : arenaOf grammar source = .ok arena) : source.size ≤ maxSourceSize := by
  have haccepted : arenaOf grammar source ≠ .error .sourceTooLong := by
    rw [h]
    exact nofun
  exact size_le_of_accepted haccepted

/-- Offsets in a source that is not too long are kept. -/
theorem toNat_toUInt32 {k : Nat} (h : k ≤ maxSourceSize) : k.toUInt32.toNat = k := by
  unfold maxSourceSize at h
  simp only [Nat.toUInt32, UInt32.toNat_ofNat']
  omega

theorem toNat_startByte_spanUntil (h : n.startByte ≤ maxSourceSize) (stop : Nat) :
    (spanUntil n stop).startByte.toNat = n.startByte := toNat_toUInt32 h

theorem toNat_endByte_spanUntil {stop : Nat} (h : stop ≤ maxSourceSize) :
    (spanUntil n stop).endByte.toNat = stop := toNat_toUInt32 h

/-- **The span of a concrete node lies where the node does.** -/
theorem lies_spanUntil {stop lo hi : Nat} (hlo : lo ≤ n.startByte) (hle : n.startByte ≤ stop)
    (hstop : stop ≤ hi) (hsize : stop ≤ maxSourceSize) : (spanUntil n stop).Lies lo hi := by
  rw [Span.Lies, UInt32.le_iff_toNat_le, toNat_startByte_spanUntil (Nat.le_trans hle hsize),
    toNat_endByte_spanUntil hsize]
  exact ⟨hlo, hle, hstop⟩

theorem encloses_spanUntil {x : Concrete} {stop stop' : Nat} (hn : n.startByte ≤ maxSourceSize)
    (hx : x.startByte ≤ maxSourceSize) (hstop : stop ≤ maxSourceSize)
    (hstop' : stop' ≤ maxSourceSize) : (spanUntil n stop).Encloses (spanUntil x stop') ↔
      n.startByte ≤ x.startByte ∧ stop' ≤ stop := by
  rw [Span.Encloses, UInt32.le_iff_toNat_le, UInt32.le_iff_toNat_le, toNat_startByte_spanUntil hn,
    toNat_startByte_spanUntil hx, toNat_endByte_spanUntil hstop, toNat_endByte_spanUntil hstop']

theorem avoids_spanUntil {x : Concrete} {stop : Nat} (hn : n.startByte ≤ maxSourceSize)
    (hstop : stop ≤ maxSourceSize) :
    (spanUntil n stop).Avoids x ↔ stop ≤ x.startByte ∨ x.endByte ≤ n.startByte := by
  rw [Span.Avoids, toNat_startByte_spanUntil hn, toNat_endByte_spanUntil hstop]

end Lowering

end SpecLint
