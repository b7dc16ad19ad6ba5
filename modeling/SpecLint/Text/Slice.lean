/-!
# Cutting text by bytes

The place of a cut is counted in the bytes of the text in UTF-8.  A cut inside of a character fails.
-/

namespace SpecLint.Text

/-- Number of bytes of a text. -/
def byteLength : List Char → Nat
  | [] => 0
  | c :: rest => c.utf8Size + byteLength rest

/-- A text after its first `count` bytes. -/
def dropBytes? (count : Nat) : List Char → Option (List Char)
  | [] => if count = 0 then some [] else none
  | c :: rest =>
      if count = 0 then some (c :: rest)
      else if c.utf8Size ≤ count then dropBytes? (count - c.utf8Size) rest
      else none

/-- The first `count` bytes of a text. -/
def takeBytes? (count : Nat) : List Char → Option (List Char)
  | [] => if count = 0 then some [] else none
  | c :: rest =>
      if count = 0 then some []
      else if c.utf8Size ≤ count then (takeBytes? (count - c.utf8Size) rest).map (c :: ·)
      else none

/-- The part of a text between two places. -/
def slice? (text : List Char) (start stop : Nat) : Option (List Char) := do
  takeBytes? (stop - start) (← dropBytes? start text)

end SpecLint.Text
