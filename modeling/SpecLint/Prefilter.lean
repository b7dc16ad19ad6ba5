/-!
# The prefilter

A file that mentions none of the dispatched method names anywhere cannot hold an offense and need
not be lowered.  Names are sought as plain byte strings.
-/

namespace SpecLint

/-- Whether `pattern` occurs in a byte string. -/
def occursIn (pattern : List UInt8) : List UInt8 → Bool
  | [] => pattern.isEmpty
  | byte :: rest => pattern.isPrefixOf (byte :: rest) || occursIn pattern rest

/-- A byte string occurs in another exactly when it is an infix of it. -/
theorem occursIn_iff {pattern bytes : List UInt8} : occursIn pattern bytes ↔ pattern <:+: bytes := by
  induction bytes with
  | nil => simp [occursIn]
  | cons byte rest ih => simp [occursIn, ih, List.infix_cons_iff]

/-- The method names that are sought in a file. -/
structure Prefilter where
  /-- The sought names. -/
  methods : List String
  deriving DecidableEq, Repr

/-- Whether one of the sought names occurs in the source.  With no names, nothing matches. -/
def Prefilter.mightMatch (p : Prefilter) (source : ByteArray) : Bool :=
  let bytes := source.data.toList
  p.methods.any fun method => occursIn method.toUTF8.data.toList bytes

end SpecLint
