/-!
# White space

The characters with the Unicode property of white space, and texts without them at an end.
-/

namespace SpecLint.Text

/-- White space, by the Unicode property. -/
def isSpace (c : Char) : Bool :=
  let n := c.toNat
  (9 ≤ n && n ≤ 13) || n == 0x20 || n == 0x85 || n == 0xa0 || n == 0x1680 ||
    (0x2000 ≤ n && n ≤ 0x200a) || n == 0x2028 || n == 0x2029 || n == 0x202f || n == 0x205f ||
    n == 0x3000

/-- A text without the white space at its start. -/
def trimStart (text : List Char) : List Char := text.dropWhile isSpace

/-- A text without the white space at its end. -/
def trimEnd (text : List Char) : List Char := (text.reverse.dropWhile isSpace).reverse

end SpecLint.Text
