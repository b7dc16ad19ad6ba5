/-!
# 64-bit binary floating point

A finite number of the format is an integer below `2 ^ 53` times a power of two whose exponent
lies between -1074 and 971.

* `Binary64.ofDecimal` — the number nearest to a decimal, a tie going to the even mantissa.
* `Binary64.shortest` — the decimal with the fewest digits that reads back, and of those the
  nearest.
* `Binary64.text` — that decimal without an exponent and with at least one digit after the point.
-/

namespace SpecLint

/-- A number of the 64-bit format. -/
inductive Binary64 where
  /-- No number. -/
  | nan
  /-- An infinity. -/
  | infinite (negative : Bool)
  /-- `mantissa * 2 ^ exponent`, with a sign. -/
  | finite (negative : Bool) (mantissa : Nat) (exponent : Int)
  deriving DecidableEq, Repr, Inhabited

namespace Binary64

/-- Smallest exponent of a finite number. -/
def minExponent : Int := -1074

/-- Largest exponent of a finite number. -/
def maxExponent : Int := 971

/-- Two to the 53rd, which a mantissa stays below. -/
def mantissaBound : Nat := 9007199254740992

/-- Two to the 52nd, which a mantissa reaches unless its exponent is the smallest one. -/
def mantissaLead : Nat := 4503599627370496

/-- The integer nearest to `num / den`; a tie goes to the even one. -/
def roundHalfEven (num den : Nat) : Nat :=
  let low := num / den
  let twice := 2 * (num % den)
  if twice < den ∨ (twice = den ∧ low % 2 = 0) then low else low + 1

/-- `base ^ exponent` as a quotient of integers. -/
def power (base : Nat) (exponent : Int) : Nat × Nat :=
  if 0 ≤ exponent then (Nat.pow base exponent.toNat, 1) else (1, Nat.pow base (-exponent).toNat)

/-- The finite number nearest to the positive quotient `num / den`, or an infinity when it is out
of range. -/
def ofQuotient (negative : Bool) (num den : Nat) : Binary64 :=
  let start := max ((num.log2 : Int) - den.log2 - 53) minExponent
  let (p, q) := power 2 start
  let exponent := if num * q / (den * p) < mantissaBound then start else start + 1
  let (p, q) := power 2 exponent
  let rounded := roundHalfEven (num * q) (den * p)
  let (mantissa, exponent) :=
    if rounded = mantissaBound then (mantissaLead, exponent + 1) else (rounded, exponent)
  if exponent > maxExponent then .infinite negative else .finite negative mantissa exponent

/-- The number nearest to `digits * 10 ^ exponent`.  A decimal far out of range is not computed. -/
def ofDecimal (negative : Bool) (digits : Nat) (exponent : Int) : Binary64 :=
  let magnitude := ((Nat.toDigits 10 digits).length : Int) + exponent
  if digits = 0 ∨ magnitude < -400 then .finite negative 0 0
  else if magnitude > 400 then .infinite negative
  else
    let (p, q) := power 10 exponent
    ofQuotient negative (digits * p) q

/-! ## Shortest decimals -/

/-- The reals that round to a positive number of the format, in quarters of its last place. -/
structure Interval where
  /-- The lower end. -/
  low : Nat
  /-- The number itself. -/
  center : Nat
  /-- The upper end. -/
  high : Nat
  /-- Whether the ends belong to the interval. -/
  closed : Bool

/-- The interval of `mantissa * 2 ^ exponent`.  Below a power of two the next number is half as
far away.  The ends round to an even mantissa. -/
def interval (mantissa : Nat) (exponent : Int) : Interval where
  low := 4 * mantissa - (if mantissa = mantissaLead ∧ minExponent < exponent then 1 else 2)
  center := 4 * mantissa
  high := 4 * mantissa + 2
  closed := mantissa % 2 == 0

/-- Whether `point / unit`, in quarters of the last place, lies in the interval. -/
def Interval.holds (i : Interval) (point unit : Nat) : Bool :=
  if i.closed then i.low * unit ≤ point && point ≤ i.high * unit
  else i.low * unit < point && point < i.high * unit

/-- The multiple of `10 ^ tens` that lies in the interval, the nearest if there are two; of two
equally near ones it is the greater. -/
def gridPoint? (i : Interval) (exponent tens : Int) : Option Nat :=
  let (quarterNum, quarterDen) := power 2 (exponent - 2)
  let (gridNum, gridDen) := power 10 tens
  -- One step of the grid is `step / unit` quarters of the last place.
  let step := gridNum * quarterDen
  let unit := gridDen * quarterNum
  let below := i.center * unit / step
  let above := below + 1
  let hit (k : Nat) := i.holds (k * step) unit
  if hit below && hit above then
    if i.center * unit - below * step < above * step - i.center * unit then some below
    else some above
  else if hit below then some below
  else if hit above then some above
  else none

/-- Seeks the coarsest grid that has a point in the interval, from `10 ^ tens` down. -/
def coarsest? (i : Interval) (exponent : Int) : Nat → Int → Option (Nat × Int)
  | 0, _ => none
  | steps + 1, tens =>
      match gridPoint? i exponent tens with
      | some k => some (k, tens)
      | none => coarsest? i exponent steps (tens - 1)

/-- The digits and the power of ten of the shortest decimal that reads back as
`mantissa * 2 ^ exponent`. -/
def shortest (mantissa : Nat) (exponent : Int) : Nat × Int :=
  (coarsest? (interval mantissa exponent) exponent 700 310).getD (0, 0)

/-- Writes `digits * 10 ^ tens` without an exponent and with a digit after the point. -/
def positional (digits : Nat) (tens : Int) : String :=
  let text := Nat.toDigits 10 digits
  if 0 ≤ tens then
    String.ofList (text ++ List.replicate tens.toNat '0' ++ ['.', '0'])
  else
    let places := (-tens).toNat
    let padded := List.replicate (places + 1 - text.length) '0' ++ text
    let whole := padded.length - places
    String.ofList (padded.take whole ++ '.' :: padded.drop whole)

/-- The written form of a number. -/
def text : Binary64 → String
  | .nan => "NaN"
  | .infinite negative => if negative then "-inf" else "inf"
  | .finite negative mantissa exponent =>
      let sign := if negative then "-" else ""
      if mantissa = 0 then sign ++ "0.0"
      else
        let (digits, tens) := shortest mantissa exponent
        sign ++ positional digits tens

end Binary64

end SpecLint
