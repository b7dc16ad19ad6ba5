import SpecLint.Json
import SpecLint.Offense

/-!
# Spans, severities and offenses as JSON

A span is an object with four numbers and is also read from a list of exactly four; a severity is
its name and is also read from an object whose only key is that name and whose value is null.
-/

namespace SpecLint

/-- A span as an object. -/
def Span.toJson (s : Span) : Json :=
  .obj [("start_byte", .int s.startByte.toNat), ("end_byte", .int s.endByte.toNat),
    ("line", .int s.line.toNat), ("column", .int s.column.toNat)]

/-- Reads a span from an object with the four keys, others being ignored, or from four numbers in
a list. -/
def Span.ofJson? (value : Json) : Option Span :=
  match value with
  | .arr [startByte, endByte, line, column] =>
      return ⟨← startByte.toUInt32?, ← endByte.toUInt32?, ← line.toUInt32?, ← column.toUInt32?⟩
  | .obj _ =>
      return ⟨← (← value.field? "start_byte").toUInt32?, ← (← value.field? "end_byte").toUInt32?,
        ← (← value.field? "line").toUInt32?, ← (← value.field? "column").toUInt32?⟩
  | _ => none

/-- A severity is written as its name. -/
def Severity.toJson (s : Severity) : Json := .str s.name

/-- Reads a severity from its name, or from an object that holds nothing but a null under it. -/
def Severity.ofJson? : Json → Option Severity
  | .str name => Severity.ofName? name
  | .obj [(name, .null)] => Severity.ofName? name
  | _ => none

/-- An offense as an object. -/
def Offense.toJson (o : Offense) : Json :=
  .obj [("rule", .str o.rule), ("severity", o.severity.toJson), ("span", o.span.toJson),
    ("message", .str o.message)]

/-- Reading a written severity gives it back. -/
@[simp] theorem Severity.ofJson?_toJson (s : Severity) : Severity.ofJson? s.toJson = some s :=
  Severity.ofName?_name s

end SpecLint
