/-!
# Reading text from the front

A `Reader` takes what it needs from the front of a text, or fails.  Failing gives the text back, so
that `<|>` tries its second reader on the same text.

Repetition is bounded by the text that is left, one round for each of its characters: a reader
that takes nothing would otherwise repeat for ever.
-/

namespace SpecLint.Toml

/-- Takes a value from the front of a text. -/
abbrev Reader := StateT (List Char) Option

namespace Reader

variable {α : Type}

/-- Takes one character of a class. -/
def satisfy (accepts : Char → Bool) : Reader Char := fun text =>
  match text with
  | c :: rest => if accepts c then some (c, rest) else none
  | [] => none

/-- Takes one given character. -/
def char (c : Char) : Reader Unit := do let _ ← satisfy (· == c)

/-- Takes a given word. -/
def word (w : String) : Reader Unit := w.toList.forM char

/-- Takes the longest run of characters of a class. -/
def run (accepts : Char → Bool) : Reader (List Char) := fun text =>
  some (text.takeWhile accepts, text.dropWhile accepts)

/-- Takes the longest run of characters of a class, which must not be empty. -/
def run1 (accepts : Char → Bool) : Reader (List Char) := do
  let first ← satisfy accepts
  return first :: (← run accepts)

/-- Takes exactly `count` characters of a class. -/
def exactly (count : Nat) (accepts : Char → Bool) : Reader (List Char) :=
  match count with
  | 0 => return []
  | count + 1 => do
      let first ← satisfy accepts
      return first :: (← exactly count accepts)

/-- The next character, which is left in place. -/
def peek : Reader (Option Char) := fun text => some (text.head?, text)

/-- Succeeds at the end of the text. -/
def atEnd : Reader Unit := fun text => if text.isEmpty then some ((), text) else none

/-- Repeats a reader until it fails, but at most once for each character of `bound`. -/
def repeatOver (r : Reader α) : List Char → Reader (List α)
  | [] => return []
  | _ :: bound => do
      match ← optional r with
      | some first => return first :: (← repeatOver r bound)
      | none => return []

/-- Repeats a reader until it fails. -/
def many (r : Reader α) : Reader (List α) := do repeatOver r (← get)

/-- Repeats a reader at least once, with a separator in between. -/
def separated (r : Reader α) (separator : Reader Unit) : Reader (List α) := do
  let first ← r
  return first :: (← many (do separator; r))

end Reader

end SpecLint.Toml
