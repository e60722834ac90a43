import LuaUnveil.Text.Scan
import LuaUnveil.Text.Word

/-!
# Empty functions

A named function without parameters and without a body, `function name() end`, is dropped.
-/

namespace LuaUnveil

/-- `function`, a name, empty parentheses and `end` at the end of a word, with blanks between them.
The keyword `function` may end a longer word. -/
def emptyFunction : Pattern Unit := fun _ text => do
  let keyword := "function".toList
  let rest ← skip? keyword text
  let (gap, rest) := leading isBlank rest
  guard (!gap.isEmpty)
  let (name, rest) := leading isWord rest
  guard (!name.isEmpty)
  let (beforeOpen, rest) := leading isBlank rest
  let rest ← skip? ['('] rest
  let (inside, rest) := leading isBlank rest
  let rest ← skip? [')'] rest
  let (beforeEnd, rest) := leading isBlank rest
  let rest ← skip? "end".toList rest
  guard (!rest.head?.any isWord)
  return ⟨(), keyword ++ gap ++ name ++ beforeOpen ++ '(' :: inside ++ ')' :: beforeEnd ++
    "end".toList⟩

/-- The text without its empty functions. -/
def dropEmptyFunctions (text : Text) : Text := replaceAll emptyFunction (fun _ => []) text

end LuaUnveil
