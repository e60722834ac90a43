import LuaUnveil.Text.Blank

/-!
# Numerals

Decimal and hexadecimal digits of ASCII, the value of a run of digits, and the decimal form of a
number.
-/

namespace LuaUnveil

/-- The ASCII hexadecimal digits, in either case. -/
def isHexDigit (c : Char) : Bool :=
  c.isDigit || ('a' ≤ c && c ≤ 'f') || ('A' ≤ c && c ≤ 'F')

/-- The value of a hexadecimal digit, in either case. -/
def hexDigitValue (c : Char) : Nat :=
  if c.isDigit then c.toNat - '0'.toNat
  else if 'a' ≤ c then c.toNat - 'a'.toNat + 10
  else c.toNat - 'A'.toNat + 10

/-- The number that a run of digits stands for in a base. -/
def valueOfDigits (base : Nat) (digits : Text) : Nat :=
  digits.foldl (fun n c => n * base + hexDigitValue c) 0

/-- The decimal form of a number, without leading zeros. -/
def decimal (n : Nat) : Text := Nat.toDigits 10 n

end LuaUnveil
