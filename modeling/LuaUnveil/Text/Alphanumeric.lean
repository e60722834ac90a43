import LuaUnveil.Text.AlphanumericRanges

/-!
# Alphanumeric characters

The class that decides whether a keyword goes on after its last letter.  It differs from the word
class outside ASCII, see `Text/AlphanumericRanges.lean`.
-/

namespace LuaUnveil

/-- Alphabetic or numeric characters.  ASCII is decided directly; the rest is looked up. -/
def isAlphanumeric (c : Char) : Bool :=
  if c.toNat < 0x80 then c.isAlphanum else alphanumericRanges.contains c.toNat

end LuaUnveil
