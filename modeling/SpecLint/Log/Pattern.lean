import SpecLint.Text.Alphanumeric
import SpecLint.Text.Digits
import SpecLint.Text.Space

/-!
# Patterns

Which texts are regular expressions.  A pattern is made of

* characters, `.`, `^` and `$`, and escapes such as `\n`, `\x41`, `\d`, `\pL` and `\b`;
* classes `[a-z]`, possibly nested and joined by `&&`, `--` and `~~`;
* groups `(p)`, `(?<name>p)`, `(?P<name>p)` and `(?flags:p)`;
* settings of flags `(?flags)`, which hold to the end of the group around them;
* repetitions by `?`, `*` and `+`, and alternatives between `|`.

A pattern stands between braces, so that no brace in it is closed: whatever needs a closing brace, a
counted repetition for instance, is malformed.

A pattern is matched on whole characters.  So it must not match a part of the bytes of a character,
and it must not ask for the word boundaries of Unicode, which the matching does not know.  The
flag `u`, which is set at first, decides which characters the shorthands and boundaries are about.

`isWellFormed` says whether a text is a pattern.  It reads the text once, and keeps of what it has
read only how deep the parts are nested, since that is bounded.
-/

namespace SpecLint.Log.Pattern

open Text (isSpace isAlphabetic isAlphanumeric hexValue?)

/-- The flags that decide what is well formed. -/
structure Flags where
  /-- Whether shorthands and boundaries are about Unicode; otherwise they are about ASCII. -/
  unicode : Bool := true
  /-- Whether white space and comments are left out. -/
  spaced : Bool := false

/-- A text without the white space and the comments at its start.  A comment begins with `#` and
ends with its line. -/
def skipBlanks (inComment : Bool) : List Char → List Char
  | [] => []
  | c :: rest =>
      if inComment then skipBlanks (c ≠ '\n') rest
      else if isSpace c then skipBlanks false rest
      else if c = '#' then skipBlanks true rest
      else c :: rest

/-- A text without what is left out at its start. -/
def Flags.skip (f : Flags) (text : List Char) : List Char :=
  if f.spaced then skipBlanks false text else text

/-- The first character of a text that is not left out.  Of a comment only its sign counts as left
out; in a text of nothing else the very first character is given. -/
def Flags.peek (f : Flags) (text : List Char) : Option Char :=
  let seen := match text.dropWhile isSpace with
    | '#' :: rest => (rest.dropWhile isSpace).head?
    | rest => rest.head?
  if f.spaced then seen <|> text.head? else text.head?

/-! ## Escapes -/

/-- What one character or one escape stands for. -/
inductive Atom where
  /-- A character.  One that is given by two digits may be a byte instead. -/
  | literal (c : Char) (byte : Bool)
  /-- Any character but a line end. -/
  | dot
  /-- The digits, the white space or the characters of words, or all but them. -/
  | shorthand (complement : Bool)
  /-- A general category. -/
  | category (name : Char)
  /-- A boundary of a word, or its opposite. -/
  | wordBoundary
  /-- The start or the end of the text. -/
  | anchor
  deriving DecidableEq, Repr

/-- The names of the general categories that have a single letter. -/
def categoryNames : List Char := ['c', 'l', 'm', 'n', 'p', 's', 'z']

/-- Whether an atom may stand outside of classes. -/
def Atom.isAllowed (f : Flags) : Atom → Bool
  | .literal c byte => f.unicode || !byte || c.toNat < 128
  | .dot => f.unicode
  | .shorthand complement => f.unicode || !complement
  | .category name => f.unicode && categoryNames.contains name.toLower
  | .wordBoundary => !f.unicode
  | .anchor => true

/-- Whether an atom may be a member of a class. -/
def Atom.isMember (f : Flags) : Atom → Bool
  | .literal c _ => f.unicode || c.toNat < 128
  | .shorthand complement => (Atom.shorthand complement).isAllowed f
  | .category name => (Atom.category name).isAllowed f
  | _ => false

/-- Takes hexadecimal digits, the value of those in front of them being `value`. -/
def hexNumber? (f : Flags) (value : Nat) : Nat → List Char → Option (Nat × List Char)
  | 0, text => some (value, text)
  | _ + 1, [] => none
  | count + 1, c :: rest => do
      let digit ← hexValue? c
      hexNumber? f (16 * value + digit) count (f.skip rest)

/-- Takes the code point after the letter of an escape. -/
def codePoint? (f : Flags) (count : Nat) (text : List Char) : Option (Char × List Char) := do
  let (n, rest) ← hexNumber? f 0 count (f.skip text)
  if n.isValidChar then some (Char.ofNat n, rest) else none

/-- The characters that are escaped by a letter. -/
def letterEscapes : List (Char × Char) :=
  [('a', '\x07'), ('f', '\x0c'), ('t', '\t'), ('n', '\n'), ('r', '\r'), ('v', '\x0b')]

/-- Takes what follows a backslash. -/
def escape? (f : Flags) : List Char → Option (Atom × List Char)
  | [] => none
  | 'x' :: rest => (codePoint? f 2 rest).map fun (c, rest) => (.literal c true, rest)
  | 'u' :: rest => (codePoint? f 4 rest).map fun (c, rest) => (.literal c false, rest)
  | 'U' :: rest => (codePoint? f 8 rest).map fun (c, rest) => (.literal c false, rest)
  | 'b' :: rest => if rest.head? = some '{' then none else some (.wordBoundary, rest)
  | c :: rest =>
      if ['B', '<', '>'].contains c then some (.wordBoundary, rest)
      else if ['A', 'z'].contains c then some (.anchor, rest)
      else if ['d', 's', 'w'].contains c then some (.shorthand false, rest)
      else if ['D', 'S', 'W'].contains c then some (.shorthand true, rest)
      else if ['p', 'P'].contains c then
        match f.skip rest with
        | [] | '\\' :: _ | '{' :: _ => none
        | name :: rest => some (.category name, f.skip rest)
      else
        match letterEscapes.lookup c with
        | some escaped => some (.literal escaped false, rest)
        | none => if c.toNat < 128 && !c.isAlphanum then some (.literal c false, rest) else none

/-! ## Nesting -/

/-- The nesting of some parts side by side: a single part needs nothing around it. -/
def joint : List Nat → Nat
  | [] => 0
  | [depth] => depth
  | depths => depths.foldl max 0 + 1

/-- The deepest nesting of a pattern. -/
def maxDepth : Nat := 250

/-! ## Classes -/

/-- The names of the classes of ASCII characters. -/
def asciiNames : List String :=
  ["alnum", "alpha", "ascii", "blank", "cntrl", "digit", "graph", "lower", "print", "punct",
    "space", "upper", "word", "xdigit"]

/-- Takes a class of ASCII characters after its opening bracket, and says whether its complement is
meant. -/
def asciiClass? : List Char → Option (Bool × List Char)
  | ':' :: text =>
      let (complement, text) := match text with
        | '^' :: rest => (true, rest)
        | _ => (false, text)
      let name := String.ofList (text.takeWhile (· ≠ ':'))
      match text.dropWhile (· ≠ ':') with
      | ':' :: ']' :: rest => if asciiNames.contains name then some (complement, rest) else none
      | _ => none
  | _ => none

/-- A class in the course of reading. -/
structure OpenClass where
  /-- Whether hyphens, and a closing bracket in front of all members, still stand for themselves. -/
  fresh : Bool := true
  /-- The nesting of each member after the last operator. -/
  members : List Nat := []
  /-- The nesting of what stands in front of the last operator. -/
  left : Option Nat := none

/-- How deep the members of a class are nested. -/
def OpenClass.depth (k : OpenClass) : Nat :=
  match k.left with
  | none => joint k.members
  | some left => max left (joint k.members) + 1

/-- Adds a member. -/
def OpenClass.add (k : OpenClass) (depth : Nat) : OpenClass :=
  { k with members := depth :: k.members }

/-- Adds a member that is no hyphen at the start. -/
def OpenClass.addOther (k : OpenClass) (depth : Nat) : OpenClass :=
  { k.add depth with fresh := false }

/-- Puts an operator after the members. -/
def OpenClass.operator (k : OpenClass) : OpenClass :=
  { fresh := false, members := [], left := some k.depth }

/-- Takes the sign of a complement after an opening bracket. -/
def openClass? (f : Flags) (text : List Char) : Option (List Char) :=
  match f.skip text with
  | '^' :: rest => if f.unicode then some rest else none
  | rest => some rest

/-- Takes one end of a range, or a single member. -/
def classAtom? (f : Flags) : List Char → Option (Atom × List Char)
  | [] => none
  | '\\' :: rest => escape? f rest
  | c :: rest => some (.literal c false, rest)

/-- Takes a member of a class or a range. -/
def member? (f : Flags) (text : List Char) : Option (List Char) := do
  let (first, rest) ← classAtom? f text
  if !first.isMember f then failure
  match f.skip rest with
  | '-' :: more =>
      if [some ']', some '-'].contains (f.peek more) then return '-' :: more
      let (last, rest) ← classAtom? f (f.skip more)
      match first, last with
      | .literal a _, .literal b _ => if last.isMember f && a ≤ b then return rest else failure
      | _, _ => failure
  | rest => return rest

/-- Takes what follows the opening bracket of the class `k`, which stands in the classes `around`,
and gives how deep the outermost class is nested.  There are no more steps than characters in
`bound`. -/
def class? (f : Flags) (k : OpenClass) (around : List OpenClass) :
    List Char → List Char → Option (Nat × List Char)
  | [], _ => none
  | _ :: bound, text =>
      match f.skip text with
      | [] => none
      | c :: rest =>
          if k.fresh && c = '-' then class? f (k.add 0) around bound rest
          else if c = ']' then
            if k.fresh && k.members.isEmpty then class? f (k.addOther 0) around bound rest
            else
              match around with
              | [] => some (k.depth + 1, rest)
              | up :: around => class? f (up.addOther (k.depth + 1)) around bound rest
          else if c = '[' then
            match asciiClass? rest with
            | some (complement, rest) =>
                if complement && !f.unicode then none
                else class? f (k.addOther 0) around bound rest
            | none =>
                match openClass? f rest with
                | some rest => class? f {} (k :: around) bound rest
                | none => none
          else if ['&', '-', '~'].contains c && rest.head? = some c then
            class? f k.operator around bound (rest.drop 1)
          else
            match member? f (c :: rest) with
            | some rest => class? f (k.addOther 0) around bound rest
            | none => none

/-! ## Groups -/

/-- What an opening parenthesis begins. -/
inductive Opening where
  /-- A setting of flags, which is complete. -/
  | setting (flags : Flags)
  /-- A group, possibly with a name. -/
  | group (flags : Flags) (name : Option (List Char))

/-- Whether a text may name a group. -/
def isName : List Char → Bool
  | [] => false
  | c :: rest =>
      (c = '_' || isAlphabetic c) &&
        rest.all fun c => ['_', '.', '[', ']'].contains c || isAlphanumeric c

/-- Takes the name of a group. -/
def named? (f : Flags) (text : List Char) : Option (Opening × List Char) :=
  let name := text.takeWhile (· ≠ '>')
  match text.dropWhile (· ≠ '>') with
  | _ :: rest => if isName name then some (.group f (some name), rest) else none
  | [] => none

/-- Whether a text sets flags: letters, each at most once, of which those after a hyphen are
unset. -/
def isFlags (text : List Char) : Bool :=
  text.all ['i', 'm', 's', 'U', 'u', 'R', 'x', '-'].contains && decide text.Nodup &&
    text.getLast? ≠ some '-'

/-- The value of a flag after some letters. -/
def flagAfter (letters : List Char) (flag : Char) (before : Bool) : Bool :=
  if letters.contains flag then (letters.takeWhile (· ≠ '-')).contains flag else before

/-- The flags after some letters. -/
def Flags.after (f : Flags) (letters : List Char) : Flags :=
  { unicode := flagAfter letters 'u' f.unicode, spaced := flagAfter letters 'x' f.spaced }

/-- Takes flags, and the sign that says whether a group follows. -/
def flags? (f : Flags) (text : List Char) : Option (Opening × List Char) :=
  let isLetter (c : Char) : Bool := c ≠ ':' && c ≠ ')'
  let letters := text.takeWhile isLetter
  if !isFlags letters then none
  else
    match text.dropWhile isLetter with
    | [] => none
    | ':' :: rest => some (.group (f.after letters) none, rest)
    | _ :: rest => if letters.isEmpty then none else some (.setting (f.after letters), rest)

/-- Takes what follows an opening parenthesis.  Looking ahead or behind is not possible. -/
def opening? (f : Flags) (text : List Char) : Option (Opening × List Char) :=
  match f.skip text with
  | '?' :: 'P' :: '<' :: rest => named? f rest
  | '?' :: '<' :: rest => named? f rest
  | '?' :: rest => flags? f rest
  | rest => some (.group f none, rest)

/-- A group in the course of reading. -/
structure OpenGroup where
  /-- The flags that hold again after the group. -/
  outer : Flags := {}
  /-- The nesting of each alternative before the last one. -/
  alternatives : List Nat := []
  /-- The nesting of each part of the last alternative, the last part first. -/
  parts : List Nat := []
  /-- Whether the last part can be repeated. -/
  repeatable : Bool := false

namespace OpenGroup

/-- How deep the parts of a group are nested. -/
def depth (g : OpenGroup) : Nat := joint (joint g.parts :: g.alternatives)

/-- Adds a part. -/
def add (g : OpenGroup) (depth : Nat) : OpenGroup :=
  { g with parts := depth :: g.parts, repeatable := true }

/-- Adds a setting of flags, which cannot be repeated. -/
def addSetting (g : OpenGroup) : OpenGroup := { g.add 0 with repeatable := false }

/-- Repeats the last part. -/
def repeatLast (g : OpenGroup) : OpenGroup :=
  match g.parts with
  | [] => g
  | depth :: parts => { g with parts := (depth + 1) :: parts }

/-- Begins a further alternative. -/
def nextAlternative (g : OpenGroup) : OpenGroup :=
  { g with alternatives := joint g.parts :: g.alternatives, parts := [], repeatable := false }

end OpenGroup

/-! ## Patterns -/

/-- Takes an atom outside of classes. -/
def atom? (f : Flags) : List Char → Option (Atom × List Char)
  | [] => none
  | '\\' :: rest => escape? f rest
  | '.' :: rest => some (.dot, rest)
  | '^' :: rest | '$' :: rest => some (.anchor, rest)
  | c :: rest => some (.literal c false, rest)

/-- Takes the rest of a pattern inside of the group `g`, which stands in the groups `around`, where
the groups before have some names, and gives how deep the pattern is nested.  There are no more
steps than characters in `bound`. -/
def depth? (f : Flags) (names : List (List Char)) (g : OpenGroup) (around : List OpenGroup) :
    List Char → List Char → Option Nat
  | [], _ => none
  | _ :: bound, text =>
      match f.skip text with
      | [] => if around.isEmpty then some g.depth else none
      | '(' :: rest =>
          match opening? f rest with
          | none => none
          | some (.setting flags, rest) => depth? flags names g.addSetting around bound rest
          | some (.group flags name, rest) =>
              if name.any names.contains then none
              else depth? flags (name.toList ++ names) { outer := f } (g :: around) bound rest
      | ')' :: rest =>
          match around with
          | [] => none
          | up :: around => depth? g.outer names (up.add (g.depth + 1)) around bound rest
      | '|' :: rest => depth? f names g.nextAlternative around bound rest
      | '[' :: rest =>
          match (openClass? f rest).bind fun rest => class? f {} [] rest rest with
          | none => none
          | some (depth, rest) => depth? f names (g.add depth) around bound rest
      | '{' :: _ => none
      | c :: rest =>
          if ['?', '*', '+'].contains c then
            if g.repeatable then
              let rest := if rest.head? = some '?' then rest.drop 1 else rest
              depth? f names g.repeatLast around bound rest
            else none
          else
            match atom? f (c :: rest) with
            | none => none
            | some (atom, rest) =>
                if atom.isAllowed f then depth? f names (g.add 0) around bound rest else none

/-- Whether a text is a pattern. -/
def isWellFormed (text : List Char) : Bool :=
  (depth? {} [] {} [] (' ' :: text) text).any fun depth => depth ≤ maxDepth

end SpecLint.Log.Pattern
