import LuaUnveil.Text.Numeral
import LuaUnveil.Text.Scan

/-!
# Decimal escapes

An escape is a backslash and up to three decimal digits, as many as there are.  It is decoded when
its value is the code of a printable ASCII character; any other one is refused and stays as it is.
-/

namespace LuaUnveil.DecimalEscape

/-- Whether an escape of the value is decoded: printable ASCII, the space included. -/
def accepts (value : Nat) : Bool := 32 ≤ value && value ≤ 126

/-- A backslash and one to three decimal digits.  The value is the number that they spell. -/
def pattern : Pattern Nat
  | _, '\\' :: rest =>
    let digits := (rest.take 3).takeWhile Char.isDigit
    if digits.isEmpty then none else some ⟨valueOfDigits 10 digits, '\\' :: digits⟩
  | _, _ => none

/-- The text with every accepted escape decoded. -/
def decode (text : Text) : Text :=
  replaceAll pattern (fun f => if accepts f.value then [Char.ofNat f.value] else f.covered) text

/-- The decoded escapes of a text with their characters, in order, with repetitions. -/
def decoded (text : Text) : List (Text × Char) :=
  ((finds (pieces pattern text)).filter fun f => accepts f.value).map fun f =>
    (f.covered, Char.ofNat f.value)

/-- The refused escapes of a text, in order, with repetitions. -/
def refused (text : Text) : List Text :=
  ((finds (pieces pattern text)).filter fun f => !accepts f.value).map (·.covered)

/-- What the user is told about a refused escape. -/
def warning (escape : Text) : Text :=
  "Left numeric escape ".toList ++ escape ++ " undecoded (outside printable ASCII)".toList

end LuaUnveil.DecimalEscape
