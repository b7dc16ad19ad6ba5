/-!
# Bytes as text

File names are byte strings and need not be UTF-8.  `lossy` reads them as text all the same: each
longest stretch of bytes that begins a character but does not complete it, and each byte that
begins none, is shown as the replacement character.
-/

namespace SpecLint.Text

/-- The character that stands for bytes that are not UTF-8. -/
def replacement : Char := '\ufffd'

/-- How many bytes have to follow a first byte, and the bounds of the first of them. -/
def continuation (first : UInt8) : Nat × UInt8 × UInt8 :=
  if 0xc2 ≤ first ∧ first ≤ 0xdf then (1, 0x80, 0xbf)
  else if first = 0xe0 then (2, 0xa0, 0xbf)
  else if first = 0xed then (2, 0x80, 0x9f)
  else if 0xe1 ≤ first ∧ first ≤ 0xef then (2, 0x80, 0xbf)
  else if first = 0xf0 then (3, 0x90, 0xbf)
  else if 0xf1 ≤ first ∧ first ≤ 0xf3 then (3, 0x80, 0xbf)
  else if first = 0xf4 then (3, 0x80, 0x8f)
  else (0, 0, 0)

/-- The bytes at the front that continue a character: at most `count`, the first between `low` and
`high`. -/
def continuing (count : Nat) (low high : UInt8) (bytes : List UInt8) : List UInt8 :=
  match count, bytes with
  | count + 1, byte :: rest =>
      if low ≤ byte ∧ byte ≤ high then byte :: continuing count 0x80 0xbf rest else []
  | _, _ => []

/-- The character of a complete sequence of two to four bytes. -/
def assemble (first : UInt8) (following : List UInt8) : Char :=
  let lead := first.toNat % Nat.pow 2 (6 - following.length)
  Char.ofNat (following.foldl (fun n byte => 64 * n + byte.toNat % 64) lead)

/-- The characters of a byte string. -/
def lossyChars : List UInt8 → List Char
  | [] => []
  | first :: rest =>
      if first < 0x80 then Char.ofNat first.toNat :: lossyChars rest
      else
        let (count, low, high) := continuation first
        let following := continuing count low high rest
        let shown := if 0 < count ∧ following.length = count then assemble first following
          else replacement
        shown :: lossyChars (rest.drop following.length)
termination_by bytes => bytes.length
decreasing_by
  · simp
  · simp only [List.length_drop, List.length_cons]
    omega

/-- A byte string as text. -/
def lossy (bytes : List UInt8) : String := String.ofList (lossyChars bytes)

/-- A byte string as text, if it is UTF-8. -/
def utf8? (bytes : List UInt8) : Option String := String.fromUTF8? ⟨bytes.toArray⟩

/-- The bytes of a text. -/
def bytesOf (text : String) : List UInt8 := text.toUTF8.data.toList

end SpecLint.Text
