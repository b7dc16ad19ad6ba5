import SpecLint.Proofs.Layout

/-!
# Positions in 32 bits

Offsets, rows and columns of a grammar are natural numbers, those of a span are 32-bit words, and
the lines and columns of a span count from one.  A source that is not too long leaves room for
every offset; whether it leaves room for one more depends on the node.

* `lineBreaks` — the line breaks in front of an offset.
* `Concrete.LocatedIn` — a node whose position is one of the source.
* `span_of_located` — **the span of a node, number by number**: a line or a column can only wrap for
  an empty node at the end of a source of the greatest size.
* `exists_column_wrapped` — a source where it does.
-/

namespace SpecLint

/-- The number of line breaks in front of an offset. -/
def lineBreaks (source : ByteArray) (offset : Nat) : Nat :=
  (source.data.toList.take offset).count 10

theorem lineBreaks_le (source : ByteArray) (offset : Nat) : lineBreaks source offset ≤ offset :=
  calc lineBreaks source offset
    _ ≤ (source.data.toList.take offset).length := List.count_le_length
    _ ≤ offset := List.length_take_le _ _

/-- Whether the position of `n` is one of the source: its range lies there, it is in no row that has
not begun, and its column does not begin before the source does. -/
structure Concrete.LocatedIn (n : Concrete) (source : ByteArray) : Prop where
  /-- The range runs forwards. -/
  ordered : n.startByte ≤ n.endByte
  /-- The range ends in the source. -/
  inside : n.endByte ≤ source.size
  /-- A row begins behind a line break. -/
  row : n.row ≤ lineBreaks source n.startByte
  /-- A column begins at a byte of the source. -/
  column : n.column ≤ n.startByte

namespace Lowering

variable {source : ByteArray} {grammar : Grammar} {n : Concrete} {stop : Nat}

/-- Counting from one wraps at the greatest size of a source and nowhere else. -/
theorem toNat_toUInt32_add_one {k : Nat} (h : k ≤ maxSourceSize) :
    (k.toUInt32 + 1).toNat = if k = maxSourceSize then 0 else k + 1 := by
  rw [UInt32.toNat_add, toNat_toUInt32 h, UInt32.toNat_one]
  unfold maxSourceSize at h ⊢
  split <;> omega

/-- **The span of a node, number by number.**  In a source that is not refused for its size, the
span of a located node has the offset of its first byte and the given end.  Its line and its column
are one more than the row and the column of the node, unless these are the greatest size of a
source; then they are 0.  That can only be when the source has that size, and the node is empty and
stands at its end. -/
theorem span_of_located (hsource : arenaOf grammar source ≠ .error .sourceTooLong)
    (h : n.LocatedIn source) (hstop : stop ≤ source.size) :
    (spanUntil n stop).startByte.toNat = n.startByte ∧
    (spanUntil n stop).endByte.toNat = stop ∧
    (spanUntil n stop).line.toNat = (if n.row = maxSourceSize then 0 else n.row + 1) ∧
    (spanUntil n stop).column.toNat = (if n.column = maxSourceSize then 0 else n.column + 1) ∧
    (n.row = maxSourceSize ∨ n.column = maxSourceSize →
      source.size = maxSourceSize ∧ n.startByte = source.size ∧ n.endByte = source.size) := by
  have hsize := size_le_of_accepted hsource
  have hstart : n.startByte ≤ source.size := Nat.le_trans h.ordered h.inside
  have hrow : n.row ≤ n.startByte := Nat.le_trans h.row (lineBreaks_le source n.startByte)
  have hcolumn := h.column
  refine ⟨toNat_startByte_spanUntil (Nat.le_trans hstart hsize) stop,
    toNat_endByte_spanUntil (Nat.le_trans hstop hsize), ?_, ?_, ?_⟩
  · exact toNat_toUInt32_add_one (by omega)
  · exact toNat_toUInt32_add_one (by omega)
  · intro hgreatest
    have hordered := h.ordered
    have hinside := h.inside
    -- the start of the node is squeezed between its position and the size of the source
    have hend : maxSourceSize ≤ n.startByte := by
      rcases hgreatest with hgreatest | hgreatest <;> omega
    omega

/-- The `b` on the second line of the three bytes of `a`, a line break and `b`. -/
theorem span_of_located_secondLine :
    Concrete.LocatedIn ⟨"identifier", true, none, 2, 3, 1, 0, []⟩ ⟨#[97, 10, 98]⟩ ∧
    (spanUntil ⟨"identifier", true, none, 2, 3, 1, 0, []⟩ 3).startByte.toNat = 2 ∧
    (spanUntil ⟨"identifier", true, none, 2, 3, 1, 0, []⟩ 3).endByte.toNat = 3 ∧
    (spanUntil ⟨"identifier", true, none, 2, 3, 1, 0, []⟩ 3).line.toNat = 2 ∧
    (spanUntil ⟨"identifier", true, none, 2, 3, 1, 0, []⟩ 3).column.toNat = 1 := by
  have hlocated : Concrete.LocatedIn ⟨"identifier", true, none, 2, 3, 1, 0, []⟩ ⟨#[97, 10, 98]⟩ :=
    ⟨by decide, by decide, by decide, by decide⟩
  have haccepted : arenaOf (fun _ => ⟨"identifier", true, none, 2, 3, 1, 0, []⟩) ⟨#[97, 10, 98]⟩ ≠
      .error .sourceTooLong := by
    intro h
    cases h
  obtain ⟨hstart, hstop, hline, hcolumn, -⟩ :=
    @span_of_located ⟨#[97, 10, 98]⟩ _ _ 3 haccepted hlocated (by decide)
  exact ⟨hlocated, hstart, hstop, hline, hcolumn⟩

/-! ## A file of blanks -/

/-- The tree of a file of `k` blanks: an empty node behind all of them. -/
def blankFile (k : Nat) : Concrete := ⟨"program", true, none, k, k, 0, k, []⟩

theorem locatedIn_blankFile : (blankFile source.size).LocatedIn source where
  ordered := Nat.le_refl _
  inside := Nat.le_refl _
  row := Nat.zero_le _
  column := Nat.le_refl _

theorem run_blankFile (source : ByteArray) (k : Nat) :
    (lower source maxLevels (blankFile k)).run {} =
      (.ok 0, { arena := ⟨#[{ shape := .sequence [], span := spanOf (blankFile k) }], none⟩ }) :=
  rfl

theorem arenaOf_blankFile {k : Nat} (hsource : source.isEmpty = false)
    (hsize : source.size ≤ maxSourceSize) : arenaOf (fun _ => blankFile k) source =
      .ok ⟨#[{ shape := .sequence [], span := spanOf (blankFile k) }], some 0⟩ := by
  have hlong : ¬source.size > maxSourceSize := Nat.not_lt.2 hsize
  rw [arenaOf, if_neg hlong, if_neg (by rw [hsource]; exact Bool.false_ne_true), run_blankFile]
  rfl

/-- In the longest file of blanks that is accepted the one node of the arena is in column 0, where
columns count from one. -/
theorem exists_column_wrapped : ∃ source arena node,
    source = ⟨Array.replicate maxSourceSize 32⟩ ∧
    (blankFile maxSourceSize).LocatedIn source ∧
    arenaOf (fun _ => blankFile maxSourceSize) source = .ok arena ∧
    arena.get? 0 = some node ∧ node.span = spanOf (blankFile maxSourceSize) ∧
    (blankFile maxSourceSize).column = maxSourceSize ∧ node.span.column.toNat = 0 := by
  have hsize : (⟨Array.replicate maxSourceSize 32⟩ : ByteArray).size = maxSourceSize :=
    Array.size_replicate
  generalize (⟨Array.replicate maxSourceSize 32⟩ : ByteArray) = source at hsize
  have hsource : source.isEmpty = false := by simp [ByteArray.isEmpty, hsize, maxSourceSize]
  have hlocated : (blankFile source.size).LocatedIn source := locatedIn_blankFile
  rw [hsize] at hlocated
  refine ⟨source, _, _, rfl, hlocated, arenaOf_blankFile hsource (Nat.le_of_eq hsize), rfl, rfl, rfl,
    ?_⟩
  decide

end Lowering

end SpecLint
