import LuaUnveil.Text.Numeral
import LuaUnveil.Text.Scan

/-!
# Hexadecimal escapes

An escape `\xHH` is decoded when it stands for an ASCII letter, an ASCII digit or a space.  Any
other one is refused and stays as it is, so that quotes, backslashes and control characters never
come into being here.
-/

namespace LuaUnveil.HexEscape

/-- Whether an escape for the character is decoded. -/
def accepts (c : Char) : Bool := c.isAlphanum || c == ' '

/-- A backslash, an `x` and two hexadecimal digits.  The value is the character that the escape
stands for. -/
def pattern : Pattern Char
  | _, '\\' :: 'x' :: high :: low :: _ =>
    if isHexDigit high && isHexDigit low then
      some ⟨Char.ofNat (valueOfDigits 16 [high, low]), ['\\', 'x', high, low]⟩
    else none
  | _, _ => none

/-- The text with every accepted escape decoded. -/
def decode (text : Text) : Text :=
  replaceAll pattern (fun f => if accepts f.value then [f.value] else f.covered) text

/-- The refused escapes of a text, in order, with repetitions. -/
def refused (text : Text) : List Text :=
  ((finds (pieces pattern text)).filter fun f => !accepts f.value).map (·.covered)

/-- What the user is told about a refused escape. -/
def warning (escape : Text) : Text :=
  "Left hex escape ".toList ++ escape ++ " undecoded (not a letter, digit or space)".toList

end LuaUnveil.HexEscape
