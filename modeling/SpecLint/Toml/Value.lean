import SpecLint.Decimal.Binary64

/-!
# Values of a configuration document

What a TOML document denotes.  Tables keep the order of their keys.
-/

namespace SpecLint.Toml

/-- A day of the calendar. -/
structure Date where
  year : Nat
  month : Nat
  day : Nat
  deriving DecidableEq, Repr

/-- A time of the day. -/
structure Time where
  hour : Nat
  minute : Nat
  second : Nat
  nanosecond : Nat
  deriving DecidableEq, Repr

/-- The distance of a local time from universal time. -/
inductive Offset where
  /-- Universal time itself, written `Z`. -/
  | universal
  /-- So many minutes ahead. -/
  | minutes (ahead : Int)
  deriving DecidableEq, Repr

/-- A day, a time of the day, or both, the latter possibly with an offset. -/
inductive DateTime where
  | date (date : Date)
  | time (time : Time)
  | both (date : Date) (time : Time) (offset : Option Offset)
  deriving DecidableEq, Repr

/-- A number in decimal digits, with zeros in front up to the given width. -/
def padded (width n : Nat) : String :=
  let digits := Nat.toDigits 10 n
  String.ofList (List.replicate (width - digits.length) '0' ++ digits)

/-- `YYYY-MM-DD`. -/
def Date.text (d : Date) : String := padded 4 d.year ++ "-" ++ padded 2 d.month ++ "-" ++ padded 2 d.day

/-- `HH:MM:SS`, followed by the fraction of the second without closing zeros, if there is one. -/
def Time.text (t : Time) : String :=
  let fraction := ((padded 9 t.nanosecond).toList.reverse.dropWhile (· == '0')).reverse
  padded 2 t.hour ++ ":" ++ padded 2 t.minute ++ ":" ++ padded 2 t.second ++
    if t.nanosecond = 0 then "" else String.ofList ('.' :: fraction)

/-- `Z`, or hours and minutes with a sign. -/
def Offset.text : Offset → String
  | .universal => "Z"
  | .minutes ahead =>
      (if ahead < 0 then "-" else "+") ++ padded 2 (ahead.natAbs / 60) ++ ":" ++
        padded 2 (ahead.natAbs % 60)

/-- The normal written form, with `T` between day and time. -/
def DateTime.text : DateTime → String
  | .date d => d.text
  | .time t => t.text
  | .both d t offset => d.text ++ "T" ++ t.text ++ (offset.map Offset.text).getD ""

/-- A value of a document. -/
inductive Value where
  | string (value : String)
  | integer (value : Int)
  | float (value : Binary64)
  | boolean (value : Bool)
  | dateTime (value : DateTime)
  | array (items : List Value)
  | table (entries : List (String × Value))
  deriving Inhabited

/-- The keys of a table and their values, in order. -/
abbrev Entries := List (String × Value)

end SpecLint.Toml
