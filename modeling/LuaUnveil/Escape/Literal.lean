import LuaUnveil.Text.Scan

/-!
# Neighbouring string literals

Two quoted texts joined by `..` are one quoted text.  The pattern begins at any double quote, the
closing one of a literal included: it takes the text up to the next quote, the joining operator
with blanks around it, and a second quoted text.
-/

namespace LuaUnveil

/-- The text up to the next double quote, and the text behind that quote. -/
def upToQuote (text : Text) : Option (Text × Text) :=
  match leading (· != '"') text with
  | (content, _ :: rest) => some (content, rest)
  | (_, []) => none

/-- Two quoted texts with `..` between them.  The value is the two contents put together. -/
def joinedLiterals : Pattern Text
  | _, '"' :: text => do
    let (first, rest) ← upToQuote text
    let (before, rest) := leading isBlank rest
    let rest ← skip? "..".toList rest
    let (after, rest) := leading isBlank rest
    match rest with
    | '"' :: rest =>
      let (second, _) ← upToQuote rest
      return ⟨first ++ second,
        '"' :: first ++ '"' :: before ++ "..".toList ++ after ++ '"' :: second ++ ['"']⟩
    | _ => none
  | _, _ => none

/-- Merge neighbouring literals, from left to right.  A merged literal takes part in no further
merge, so a chain of three is merged only in part. -/
def foldLiterals (text : Text) : Text :=
  replaceAll joinedLiterals (fun f => '"' :: f.value ++ ['"']) text

end LuaUnveil
