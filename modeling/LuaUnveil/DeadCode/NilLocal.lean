import LuaUnveil.Layout.BlankLines
import LuaUnveil.Text.Alphanumeric
import LuaUnveil.Text.Word

/-!
# Locals that hold nothing

A declaration `local name = nil` says nothing, and is dropped, unless the text behind it goes on
with the expression, as in `nil or 5`, `nil, 3` or `nil .. s`.

* `nilLocal`: where such a declaration stands, and how much of the text behind it goes with it.
* `continuesExpression`: whether the text behind `nil` belongs to the expression.
* `dropNilLocals`: drop the declarations that end at `nil`.
-/

namespace LuaUnveil

/-- The blanks that go with a declaration behind its semicolon: through the last line break if
there is one, and otherwise the spaces and tabs. -/
def blanksBehind (text : Text) : Text :=
  match throughLastBreak (text.takeWhile isBlank) with
  | [] => text.takeWhile fun c => c == ' ' || c == '\t'
  | run => run

/-- `local`, a name, `=` and `nil`, with blanks between them, the keywords as whole words; then all
blanks behind it and, if a semicolon follows, that and the blanks which go with it.  The value is
the text behind the declaration, or none if a semicolon closes it. -/
def nilLocal : Pattern (Option Text) := fun before text => do
  guard (!before.any isWord)
  let keyword := "local".toList
  let rest ← skip? keyword text
  let (gap, rest) := leading isBlank rest
  guard (!gap.isEmpty)
  let (name, rest) := leading isWord rest
  guard (!name.isEmpty)
  let (left, rest) := leading isBlank rest
  let rest ← skip? ['='] rest
  let (right, rest) := leading isBlank rest
  let rest ← skip? "nil".toList rest
  guard (!rest.head?.any isWord)
  let (behind, rest) := leading isBlank rest
  let declaration := keyword ++ gap ++ name ++ left ++ '=' :: right ++ "nil".toList ++ behind
  match rest with
  | ';' :: rest => return ⟨none, declaration ++ ';' :: blanksBehind rest⟩
  | rest => return ⟨some rest, declaration⟩

/-- Whether a text begins with a word that does not go on after its last letter. -/
def startsWithWord (word text : Text) : Bool :=
  match skip? word text with
  | some rest => !rest.head?.any fun c => isAlphanumeric c || c == '_'
  | none => false

/-- Whether the text behind `nil` goes on with the expression: with `or` or `and`, or with a comma,
an operator, an index or a call.  A comment does not. -/
def continuesExpression (text : Text) : Bool :=
  let rest := dropBlanks text
  if (skip? "--".toList rest).isSome then false
  else
    startsWithWord "or".toList rest || startsWithWord "and".toList rest ||
      rest.head?.any fun c => ",.:[(=~<>+-*/%^".toList.contains c

/-- The text without the declarations that end at `nil`.  One that goes on stays as it is. -/
def dropNilLocals (text : Text) : Text :=
  replaceAll nilLocal (fun f => if f.value.any continuesExpression then f.covered else []) text

end LuaUnveil
