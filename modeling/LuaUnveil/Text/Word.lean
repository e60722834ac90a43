import LuaUnveil.Text.Blank
import LuaUnveil.Text.WordRanges

/-!
# Words

A word is a maximal run of word characters: letters, marks, decimal digits, connecting punctuation
and join controls, in the Unicode sense.  The renaming passes look at whole words only, and the
other passes ask whether a keyword or a numeral ends at the edge of a word.

* `isWord`: the character class.
* `isWordEdge`: a position is a word edge when exactly one of its two neighbours is a word
  character; the two ends of the text count as no word character.
-/

namespace LuaUnveil

/-- Word characters.  ASCII is decided directly; the rest of Unicode is looked up. -/
def isWord (c : Char) : Bool :=
  if c.toNat < 0x80 then c.isAlphanum || c == '_' else wordRanges.contains c.toNat

/-- Whether the position between two neighbours is a word edge. -/
def isWordEdge (before after : Option Char) : Bool := before.any isWord != after.any isWord

end LuaUnveil
