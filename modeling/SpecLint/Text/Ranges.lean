/-!
# Ranges of code points

A property of characters is kept as an ascending array of ranges, each given by its first and its
last code point.  `inRanges` seeks a code point in it by halving.
-/

namespace SpecLint.Text

/-- Seeks `n` in ascending ranges between the indices `low` and `high`, halving them at most `steps`
times. -/
def inRangesBetween (ranges : Array (Nat × Nat)) (n : Nat) : Nat → Nat → Nat → Bool
  | 0, _, _ => false
  | steps + 1, low, high =>
      if low < high then
        let middle := (low + high) / 2
        let (first, last) := ranges.getD middle (0, 0)
        if n < first then inRangesBetween ranges n steps low middle
        else if last < n then inRangesBetween ranges n steps (middle + 1) high
        else true
      else false

/-- Whether `n` lies in one of some ascending ranges. -/
def inRanges (ranges : Array (Nat × Nat)) (n : Nat) : Bool :=
  inRangesBetween ranges n (ranges.size + 1) 0 ranges.size

end SpecLint.Text
