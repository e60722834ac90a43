import LuaUnveil.Text.Numeral
import LuaUnveil.Toml.Value

/-!
# Strings of TOML

Four kinds: basic strings with escapes and literal strings without, each on one line or over
several lines between triple quotes.

* `Toml.basicBody`, `Toml.literalBody`: on one line, behind the opening quote.
* `Toml.basicLines`, `Toml.literalLines`: over several lines, behind the opening quotes.
* `Toml.quoted?`: any of the four.
-/

namespace LuaUnveil.Toml

/-- Whether a character may stand for itself in a string or a comment on one line: no control
character but the tab. -/
def isPlain (c : Char) : Bool := c == '\t' || (0x20 ≤ c.toNat && c.toNat != 0x7F)

/-! ## Escapes -/

/-- The character with a code, if there is one: no half of a surrogate pair, and not too large. -/
def scalar? (n : Nat) : Option Char :=
  if n < 0xD800 ∨ (0xDFFF < n ∧ n < 0x110000) then some (Char.ofNat n) else none

/-- The character of exactly `n` hexadecimal digits, and the text behind them. -/
def hexEscape? (n : Nat) (text : Text) : Option (Char × Text) :=
  let digits := text.take n
  if digits.length = n ∧ digits.all isHexDigit then
    (scalar? (valueOfDigits 16 digits)).map fun c => (c, text.drop n)
  else none

/-- The character of an escape behind its backslash, and the text behind the escape. -/
def escape? : Text → Option (Char × Text)
  | 'b' :: rest => some ('\x08', rest)
  | 't' :: rest => some ('\t', rest)
  | 'n' :: rest => some ('\n', rest)
  | 'f' :: rest => some ('\x0c', rest)
  | 'r' :: rest => some ('\r', rest)
  | 'e' :: rest => some ('\x1b', rest)
  | '"' :: rest => some ('"', rest)
  | '\\' :: rest => some ('\\', rest)
  | 'x' :: rest => hexEscape? 2 rest
  | 'u' :: rest => hexEscape? 4 rest
  | 'U' :: rest => hexEscape? 8 rest
  | _ => none

/-! ## On one line -/

/-- A basic string behind its opening quote, up to `n` characters long. -/
def basicBody : Nat → Text → Option (Text × Text)
  | 0, _ => none
  | _, [] => none
  | _, '"' :: rest => some ([], rest)
  | n + 1, '\\' :: text => do
    let (c, rest) ← escape? text
    let (content, rest) ← basicBody n rest
    return (c :: content, rest)
  | n + 1, c :: rest => do
    guard (isPlain c)
    let (content, rest) ← basicBody n rest
    return (c :: content, rest)

/-- A literal string behind its opening quote. -/
def literalBody (text : Text) : Option (Text × Text) :=
  match leading (fun c => isPlain c && c != '\x27') text with
  | (content, '\x27' :: rest) => some (content, rest)
  | _ => none

/-! ## Over several lines -/

/-- The text behind one line break. -/
def skipBreak? : Text → Option Text
  | '\n' :: rest => some rest
  | '\r' :: '\n' :: rest => some rest
  | _ => none

/-- The text without a line break directly at its front. -/
def dropFirstBreak (text : Text) : Text := (skipBreak? text).getD text

/-- The text without the blanks and line breaks at its front. -/
def dropBreaks : Text → Text
  | ' ' :: rest => dropBreaks rest
  | '\t' :: rest => dropBreaks rest
  | '\n' :: rest => dropBreaks rest
  | '\r' :: '\n' :: rest => dropBreaks rest
  | text => text

/-- The text behind a backslash at the end of a line: behind the blanks and line breaks there, of
which one line break at least. -/
def skipLineEnd? (text : Text) : Option Text :=
  (skipBreak? (text.dropWhile fun c => c == ' ' || c == '\t')).map dropBreaks

/-- The end of a string of several lines, at its closing quotes: three of them, and up to two more
that still belong to the string. -/
def closing? (quote : Char) (text : Text) : Option (Text × Text) :=
  let (quotes, rest) := leading (· == quote) text
  if 3 ≤ quotes.length then
    let kept := min (quotes.length - 3) 2
    some (List.replicate kept quote, List.replicate (quotes.length - 3 - kept) quote ++ rest)
  else none

/-- A basic string of several lines behind its opening quotes, up to `n` characters long. -/
def basicLines : Nat → Text → Option (Text × Text)
  | 0, _ => none
  | _, [] => none
  | n + 1, '\\' :: text =>
    match skipLineEnd? text with
    | some rest => basicLines n rest
    | none => do
      let (c, rest) ← escape? text
      let (content, rest) ← basicLines n rest
      return (c :: content, rest)
  | n + 1, c :: rest =>
    match closing? '"' (c :: rest) with
    | some found => some found
    | none =>
      match skipBreak? (c :: rest) with
      | some rest => (basicLines n rest).map fun (content, rest) => ('\n' :: content, rest)
      | none => do
        guard (isPlain c)
        let (content, rest) ← basicLines n rest
        return (c :: content, rest)

/-- A literal string of several lines behind its opening quotes, up to `n` characters long. -/
def literalLines : Nat → Text → Option (Text × Text)
  | 0, _ => none
  | _, [] => none
  | n + 1, c :: rest =>
    match closing? '\x27' (c :: rest) with
    | some found => some found
    | none =>
      match skipBreak? (c :: rest) with
      | some rest => (literalLines n rest).map fun (content, rest) => ('\n' :: content, rest)
      | none => do
        guard (isPlain c)
        let (content, rest) ← literalLines n rest
        return (c :: content, rest)

/-- A string of any kind, and the text behind it. -/
def quoted? : Text → Option (Text × Text)
  | '"' :: '"' :: '"' :: text => basicLines (text.length + 1) (dropFirstBreak text)
  | '\x27' :: '\x27' :: '\x27' :: text => literalLines (text.length + 1) (dropFirstBreak text)
  | '"' :: text => basicBody (text.length + 1) text
  | '\x27' :: text => literalBody text
  | _ => none

end LuaUnveil.Toml
