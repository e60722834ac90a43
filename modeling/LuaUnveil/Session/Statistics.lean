import LuaUnveil.Session.Basic

/-!
# Statistics

What is counted about one script, the class of its complexity, and a score for how much was undone.

* `complexity`: from the number of lines and of renamed identifiers.
* `confidence`: forty, and a weight for each thing that was undone, capped at ninety-five.  The
  sum is kept in 64 bits and stops at their limit.
* `Session.statistics`: the figures of a script, its result and its session.
-/

namespace LuaUnveil

/-- The class of a script by size and by the number of renamed identifiers. -/
inductive Complexity where
  | low | medium | high
  deriving Repr, DecidableEq

namespace Complexity

/-- The word for a class. -/
def label : Complexity → Text
  | low => "Low".toList
  | medium => "Medium".toList
  | high => "High".toList

/-- The place of a class in the order from low to high. -/
def rank : Complexity → Nat
  | low => 0
  | medium => 1
  | high => 2

end Complexity

/-- The class of a script: high above 200 lines or 50 renamed identifiers, medium above 50 lines or
20 renamed identifiers, and low otherwise. -/
def complexity (lineCount identifiers : Nat) : Complexity :=
  if 200 < lineCount ∨ 50 < identifiers then .high
  else if 50 < lineCount ∨ 20 < identifiers then .medium
  else .low

/-! ## The score -/

/-- The largest count. -/
def maxCount : Nat := 0xFFFFFFFFFFFFFFFF

/-- The sum of two counts, or the largest count if the sum is beyond it. -/
def addCounts (m n : Nat) : Nat := min (m + n) maxCount

/-- The product of two counts, or the largest count if the product is beyond it. -/
def mulCounts (m n : Nat) : Nat := min (m * n) maxCount

/-- The score: forty, two for each identifier, three for each escape, five for each function, and
at most ninety-five. -/
def confidence (identifiers escapes functions : Nat) : UInt8 :=
  let weighted :=
    addCounts (addCounts (mulCounts identifiers 2) (mulCounts escapes 3)) (mulCounts functions 5)
  (min (addCounts 40 weighted) 95).toUInt8

/-! ## The figures of a script -/

/-- What is counted about one script. -/
structure Statistics where
  sourceLines : Nat
  resultLines : Nat
  identifiers : Nat
  escapes : Nat
  functions : Nat
  complexity : Complexity
  confidence : UInt8
  deriving Repr, DecidableEq

/-- The number of lines: one more than the number of line breaks. -/
def countLines (text : Text) : Nat := text.count '\n' + 1

/-- The figures for a script, its result, and the session that led from one to the other. -/
def Session.statistics (session : Session) (source result : Text) : Statistics where
  sourceLines := countLines source
  resultLines := countLines result
  identifiers := session.identifiers.size
  escapes := session.escapes.size
  functions := session.functions.size
  complexity := LuaUnveil.complexity (countLines source) session.identifiers.size
  confidence :=
    LuaUnveil.confidence session.identifiers.size session.escapes.size session.functions.size

end LuaUnveil
