import LuaUnveil.Text.Numeral
import LuaUnveil.Text.Scan
import LuaUnveil.Text.Word

/-!
# Shapes of generated names

An obfuscator names variables by machine, and such names have a recognisable shape, over ASCII
letters and digits only.  A text is searched for each shape by a walk of its own, and a find must
stand between two word edges.

* `Shape.read?`: read a name of a shape off the front of a text.
* `Shape.detector`: such a name between two word edges.
* `Shape.all`: the shapes in the order in which their names are collected.
-/

namespace LuaUnveil

/-- The shapes of generated identifiers. -/
inductive Shape where
  /-- A letter and at least six hexadecimal digits: `x9f3a2b`. -/
  | hexRun
  /-- A letter and at least three decimal digits: `a123456`. -/
  | numbered
  /-- One or two letters, an underscore and hexadecimal digits: `ab_1f`. -/
  | shortPrefix
  /-- `var_` and hexadecimal digits. -/
  | varPrefix
  /-- At least three pairs of a letter and a digit, and perhaps one more letter: `k1x5z8l`. -/
  | alternating
  deriving Repr, DecidableEq

namespace Shape

/-- Every shape, in the order in which the names of a text are collected. -/
def all : List Shape := [hexRun, numbered, shortPrefix, varPrefix, alternating]

/-! ## Reading a name -/

/-- A letter and the run of a class of digits behind it, with at least so many of them. -/
def readLetterAndRun (isDigit : Char → Bool) (atLeast : Nat) : Text → Option (Text × Text)
  | [] => none
  | c :: rest => do
    guard c.isAlpha
    let (digits, rest) := leading isDigit rest
    guard (atLeast ≤ digits.length)
    return (c :: digits, rest)

/-- An underscore and the run of hexadecimal digits behind it, with at least one of them. -/
def readHexTail : Text → Option (Text × Text)
  | '_' :: rest => do
    let (digits, rest) := leading isHexDigit rest
    guard (!digits.isEmpty)
    return ('_' :: digits, rest)
  | _ => none

/-- The leading pairs of a letter and a digit, as many as there are. -/
def readPairs : Text → Text × Text
  | c :: d :: rest =>
    if c.isAlpha && d.isDigit then
      let (pairs, rest) := readPairs rest
      (c :: d :: pairs, rest)
    else ([], c :: d :: rest)
  | text => ([], text)

/-- One letter, if there is one. -/
def readOptionalLetter : Text → Text × Text
  | c :: rest => if c.isAlpha then ([c], rest) else ([], c :: rest)
  | [] => ([], [])

/-- The longest start of a text that has the shape, and the text behind it. -/
def read? : Shape → Text → Option (Text × Text)
  | hexRun, text => readLetterAndRun isHexDigit 6 text
  | numbered, text => readLetterAndRun Char.isDigit 3 text
  | shortPrefix, text => do
    let letters := (text.take 2).takeWhile Char.isAlpha
    guard (!letters.isEmpty)
    let (tail, rest) ← readHexTail (text.drop letters.length)
    return (letters ++ tail, rest)
  | varPrefix, text => do
    let rest ← skip? "var".toList text
    let (tail, rest) ← readHexTail rest
    return ("var".toList ++ tail, rest)
  | alternating, text => do
    let (pairs, rest) := readPairs text
    guard (6 ≤ pairs.length)
    let (letter, rest) := readOptionalLetter rest
    return (pairs ++ letter, rest)

/-! ## Searching a text -/

/-- A name of the shape with a word edge at both of its ends. -/
def detector (shape : Shape) : Pattern Unit := fun before text => do
  guard (isWordEdge before text.head?)
  let (name, rest) ← shape.read? text
  guard (isWordEdge name.getLast? rest.head?)
  return ⟨(), name⟩

/-- The names of the shape that a text holds, in order, with repetitions. -/
def namesIn (shape : Shape) (text : Text) : List Text :=
  (finds (pieces shape.detector text)).map (·.covered)

end Shape

/-- The names of a text that look generated: shape after shape, and in the order of the text within
a shape. -/
def generatedNames (text : Text) : List Text := Shape.all.flatMap fun shape => shape.namesIn text

end LuaUnveil
