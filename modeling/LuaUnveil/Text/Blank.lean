import LuaUnveil.Text.Basic

/-!
# Blank characters

Every pass of the program treats blanks by the same rule: a character is blank when it has the
Unicode `White_Space` property.  The class is small and fixed, so it is written out.

* `isBlank`: the class itself.
* `dropBlanks`, `trim`: remove the blanks at the front, or at both ends.
* `collapseBlanks`: each maximal run of blanks becomes one space.
-/

namespace LuaUnveil

/-- The Unicode `White_Space` property: the ASCII controls from tab to carriage return, the space,
and the spaces and separators outside ASCII.  Zero-width characters are not blank. -/
def isBlank (c : Char) : Bool :=
  let n := c.toNat
  (9 ≤ n && n ≤ 13) || n == 0x20 || n == 0x85 || n == 0xA0 || n == 0x1680 ||
    (0x2000 ≤ n && n ≤ 0x200A) || n == 0x2028 || n == 0x2029 || n == 0x202F || n == 0x205F ||
    n == 0x3000

/-- The text without its leading blanks. -/
def dropBlanks (text : Text) : Text := text.dropWhile isBlank

/-- The text without its leading and trailing blanks. -/
def trim (text : Text) : Text := (dropBlanks (dropBlanks text).reverse).reverse

theorem length_dropBlanks_le (text : Text) : (dropBlanks text).length ≤ text.length :=
  (List.dropWhile_suffix isBlank).length_le

/-- Replace each maximal run of blanks by one space. -/
def collapseBlanks : Text → Text
  | [] => []
  | c :: rest =>
    if isBlank c then ' ' :: collapseBlanks (dropBlanks rest) else c :: collapseBlanks rest
termination_by text => text.length
decreasing_by
  · exact Nat.lt_succ_of_le (length_dropBlanks_le rest)
  · simp

end LuaUnveil
