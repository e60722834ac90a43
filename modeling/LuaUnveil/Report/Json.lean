import LuaUnveil.Json.Reader
import LuaUnveil.Report.Basic

/-!
# Reports as JSON

One report is written as one object, any other number of them as an array.  The outcome of a
report can be read back: a structure is an object whose fields may stand in any order among fields
that are not known, or an array of exactly its fields in their order.

* `Report.toJson`, `Report.renderJson`: writing.
* `Outcome.ofJson?`, `Outcome.parse?`: reading.
-/

namespace LuaUnveil

/-! ## Writing -/

/-- The figures of a script as an object. -/
def Statistics.toJson (s : Statistics) : Json :=
  .object [
    ("originalLines".toList, .natural s.sourceLines),
    ("deobfuscatedLines".toList, .natural s.resultLines),
    ("variablesRenamed".toList, .natural s.identifiers),
    ("stringsDecoded".toList, .natural s.escapes),
    ("functionsAnalyzed".toList, .natural s.functions),
    ("complexity".toList, .string s.complexity.label),
    ("confidence".toList, .natural s.confidence.toNat)]

/-- A report as an object: its source, and behind it the fields of its outcome. -/
def Report.toJson (report : Report) : Json :=
  .object [
    ("source".toList, .string report.source),
    ("deobfuscatedCode".toList, .string report.outcome.code),
    ("statistics".toList, report.outcome.statistics.toJson),
    ("warnings".toList, .array (report.outcome.warnings.map .string))]

/-- Reports as printed JSON, with a line break at the end. -/
def Report.renderJson : List Report → Text
  | [report] => report.toJson.pretty 0 ++ ['\n']
  | reports => (Json.array (reports.map Report.toJson)).pretty 0 ++ ['\n']

/-! ## Reading -/

namespace Json

/-- The fields of a structure in the order of their names: from an array of exactly that many
items, or from an object in which each name stands exactly once. -/
def structure? (names : List Text) : Json → Option (List Json)
  | array items => if items.length = names.length then some items else none
  | object fields =>
    names.mapM fun name =>
      match fields.filter fun field => field.1 == name with
      | [(_, value)] => some value
      | _ => none
  | _ => none

/-- A natural number up to a limit. -/
def natural? (limit : Nat) : Json → Option Nat
  | natural n => if n ≤ limit then some n else none
  | _ => none

/-- A string. -/
def string? : Json → Option Text
  | string t => some t
  | _ => none

end Json

/-- A class of complexity: its label, or an object with the label as its one field and `null`. -/
def Complexity.ofJson? : Json → Option Complexity
  | .string t => [low, medium, high].find? fun c => c.label == t
  | .object [(t, .null)] => [low, medium, high].find? fun c => c.label == t
  | _ => none

/-- The figures of a script. -/
def Statistics.ofJson? (json : Json) : Option Statistics := do
  let names := ["originalLines", "deobfuscatedLines", "variablesRenamed", "stringsDecoded",
    "functionsAnalyzed", "complexity", "confidence"].map String.toList
  match ← json.structure? names with
  | [source, result, identifiers, escapes, functions, complexity, confidence] =>
    return {
      sourceLines := ← source.natural? maxCount
      resultLines := ← result.natural? maxCount
      identifiers := ← identifiers.natural? maxCount
      escapes := ← escapes.natural? maxCount
      functions := ← functions.natural? maxCount
      complexity := ← Complexity.ofJson? complexity
      confidence := (← confidence.natural? 255).toUInt8 }
  | _ => none

/-- A list of strings. -/
def Json.strings? : Json → Option (List Text)
  | array items => items.mapM string?
  | _ => none

/-- The outcome of a script. -/
def Outcome.ofJson? (json : Json) : Option Outcome := do
  match ← json.structure? (["deobfuscatedCode", "statistics", "warnings"].map String.toList) with
  | [code, statistics, warnings] =>
    return {
      code := ← code.string?
      statistics := ← Statistics.ofJson? statistics
      warnings := ← warnings.strings? }
  | _ => none

/-- Read an outcome from a text. -/
def Outcome.parse? (text : Text) : Option Outcome := (Json.parse? text).bind Outcome.ofJson?

end LuaUnveil
