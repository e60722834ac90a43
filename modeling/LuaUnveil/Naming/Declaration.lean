import LuaUnveil.Text.Numeral
import LuaUnveil.Text.Scan

/-!
# Declared function names

A function counts as generated when it is declared, `function`, blanks, name, opening parenthesis,
with a name of a letter and at least four hexadecimal digits.
-/

namespace LuaUnveil

/-- The declaration of a function whose name looks generated.  The value is the name.  The keyword
may end a longer word, so `myfunction a1b2c(` counts too. -/
def generatedDeclaration : Pattern Text := fun _ text => do
  let keyword := "function".toList
  let rest ← skip? keyword text
  let (gap, rest) := leading isBlank rest
  guard (!gap.isEmpty)
  match rest with
  | c :: rest =>
    guard c.isAlpha
    let (digits, rest) := leading isHexDigit rest
    guard (4 ≤ digits.length)
    let (space, rest) := leading isBlank rest
    guard (rest.head? == some '(')
    return ⟨c :: digits, keyword ++ gap ++ c :: digits ++ space ++ ['(']⟩
  | [] => none

/-- The generated names that a text declares as functions, in order, with repetitions. -/
def declaredFunctions (text : Text) : List Text :=
  (finds (pieces generatedDeclaration text)).map (·.value)

end LuaUnveil
