/-!
# Regions of a source file

A `Span` is a half-open byte range together with the position of its first byte.  Offsets, lines
and columns are 32-bit words; lines and columns count from one, columns in bytes.

* `Span.slice?` — the bytes a span covers, when the span lies inside the source.
-/

namespace SpecLint

/-- A region of a source file and the position of its first byte. -/
structure Span where
  /-- Offset of the first byte. -/
  startByte : UInt32
  /-- Offset just past the last byte. -/
  endByte : UInt32
  /-- Line of the first byte, counted from one. -/
  line : UInt32
  /-- Column of the first byte, counted from one, in bytes. -/
  column : UInt32
  deriving DecidableEq, Repr, Inhabited

namespace Span

/-- The bytes of `source` under the span; `none` when the range runs backwards or leaves the
source. -/
def slice? (s : Span) (source : ByteArray) : Option ByteArray :=
  if s.startByte ≤ s.endByte ∧ s.endByte.toNat ≤ source.size then
    some (source.extract s.startByte.toNat s.endByte.toNat)
  else
    none

end Span

end SpecLint
