import LuaUnveil.Toml.Moment
import LuaUnveil.Toml.Number
import LuaUnveil.Toml.Value

/-!
# Words of TOML

A value without quotes is one word: it reaches to the next mark of the grammar, over the blanks
inside it.  What kind of value it is shows in what follows its first digits, and only then is it
checked as a value of that kind.

* `Toml.splitWord`: cut a word off the front of a text.
* `Toml.ofWord?`: the value of a word.
-/

namespace LuaUnveil.Toml

/-- Whether a character is a space or a tab. -/
def isGap (c : Char) : Bool := c == ' ' || c == '\t'

/-- Whether a character ends a word: a mark of the grammar or a line break. -/
def endsWord (c : Char) : Bool := "=,[]\x7b\x7d#\r\n".toList.contains c

/-- The word at the front of a text, and the text behind it and its blanks. -/
def splitWord (text : Text) : Text × Text :=
  let (run, rest) := leading (fun c => !endsWord c) text
  ((run.reverse.dropWhile isGap).reverse, rest)

/-- A number or a moment, given the sign of the word and what stands behind the sign. -/
def ofDigits? (word : Text) (sign : Option Char) (body : Text) : Option Toml :=
  let behind := body.dropWhile Char.isDigit
  match behind.head? with
  | none => (decimal? sign body).map number
  | some c =>
    if c = '-' ∨ c = ':' then if isMoment word then some moment else none
    else if behind.contains ' ' then none
    else if behind.any fun c => c == '.' || c == 'e' || c == 'E' then
      (float? sign.isSome body).map number
    else if c = '_' then (decimal? sign body).map number
    else none

/-- The base and the digits of an integer in a base other than ten. -/
def splitBase? : Text → Option (Nat × Text)
  | '0' :: mark :: digits => (baseOf? mark).map fun base => (base, digits)
  | _ => none

/-- The value of a word. -/
def ofWord? (word : Text) : Option Toml :=
  let (sign, body) := splitSign word
  if word = "true".toList then some (bool true)
  else if word = "false".toList then some (bool false)
  else if body = "inf".toList ∨ body = "nan".toList then some (number true)
  else
    match splitBase? body with
    | some (base, digits) => if sign.isNone then (based? base digits).map number else none
    | none => ofDigits? word sign body

end LuaUnveil.Toml
