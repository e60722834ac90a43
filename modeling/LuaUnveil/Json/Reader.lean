import LuaUnveil.Json.Value

/-!
# Reading JSON

A strict reader: one value with nothing but white space around it.  Numbers and strings that the
program has no use for are still checked for their form.

* `Json.stringParts`, `Json.spell`: a string, and the text that it spells.
* `Json.number`: a number.
* `Json.value`: a value, of a nesting up to a given depth.
* `Json.parse?`: a whole text.
-/

namespace LuaUnveil.Json

/-- The white space of JSON. -/
def isSpace (c : Char) : Bool := c == ' ' || c == '\t' || c == '\n' || c == '\r'

/-- The text without its leading white space. -/
def skipSpace (text : Text) : Text := text.dropWhile isSpace

/-! ## Strings -/

/-- The value of four hexadecimal digits. -/
def hexUnit? (a b c d : Char) : Option Nat :=
  if [a, b, c, d].all isHexDigit then some (valueOfDigits 16 [a, b, c, d]) else none

/-- Whether a unit is the first half of a surrogate pair. -/
def isHighHalf (unit : Nat) : Bool := 0xD800 ≤ unit && unit < 0xDC00

/-- Whether a unit is the second half of a surrogate pair. -/
def isLowHalf (unit : Nat) : Bool := 0xDC00 ≤ unit && unit < 0xE000

/-- The character of a surrogate pair. -/
def pairChar (high low : Nat) : Char :=
  Char.ofNat (0x10000 + (high - 0xD800) * 0x400 + (low - 0xDC00))

/-- The character of an escape with one letter. -/
def shortEscape? : Char → Option Char
  | '"' => some '"'
  | '\\' => some '\\'
  | '/' => some '/'
  | 'b' => some '\x08'
  | 'f' => some '\x0c'
  | 'n' => some '\n'
  | 'r' => some '\r'
  | 't' => some '\t'
  | _ => none

/-- What stands in a string: a character, or the unit that a `\\u` escape names. -/
inductive Part where
  | char (c : Char)
  | unit (n : Nat)
  deriving Repr, DecidableEq

/-- The parts of a string behind its opening quote, and the text behind the closing quote.  The
control characters below the space must be escaped. -/
def stringParts : Text → Option (List Part × Text)
  | [] => none
  | '"' :: rest => some ([], rest)
  | '\\' :: 'u' :: a :: b :: c :: d :: rest => do
    let unit ← hexUnit? a b c d
    let (parts, rest) ← stringParts rest
    return (.unit unit :: parts, rest)
  | '\\' :: e :: rest => do
    let c ← shortEscape? e
    let (parts, rest) ← stringParts rest
    return (.char c :: parts, rest)
  | c :: rest => do
    guard (0x20 ≤ c.toNat && c != '\\')
    let (parts, rest) ← stringParts rest
    return (.char c :: parts, rest)

/-- The text that parts spell.  Two halves of a surrogate pair are one character, and a half that
stands alone spells nothing. -/
def spell : List Part → Option Text
  | [] => some []
  | .char c :: later => (spell later).map (c :: ·)
  | .unit high :: .unit low :: later =>
    if isHighHalf high && isLowHalf low then (spell later).map (pairChar high low :: ·)
    else if isHighHalf high || isLowHalf high then none
    else (spell (.unit low :: later)).map (Char.ofNat high :: ·)
  | .unit n :: later =>
    if isHighHalf n || isLowHalf n then none else (spell later).map (Char.ofNat n :: ·)

/-- A string behind its opening quote: the text that it spells, if it spells one, and the text
behind the closing quote. -/
def stringBody (text : Text) : Option (Option Text × Text) :=
  (stringParts text).map fun (parts, rest) => (spell parts, rest)

/-! ## Numbers -/

/-- The digits behind a sign, a point or an exponent mark: at least one. -/
def digits? (text : Text) : Option (Text × Text) :=
  match leading Char.isDigit text with
  | ([], _) => none
  | (digits, rest) => some (digits, rest)

/-- The text behind a fraction, if there is one; none if the point has no digits behind it. -/
def skipFraction? : Text → Option Text
  | '.' :: rest => (digits? rest).map (·.2)
  | text => some text

/-- The text behind an exponent, if there is one; none if its mark has no digits behind it. -/
def skipExponent? : Text → Option Text
  | [] => some []
  | c :: rest =>
    if c = 'e' ∨ c = 'E' then
      match rest with
      | '+' :: rest => (digits? rest).map (·.2)
      | '-' :: rest => (digits? rest).map (·.2)
      | rest => (digits? rest).map (·.2)
    else some (c :: rest)

/-- The whole part of a number: one zero, or digits that do not begin with zero. -/
def wholePart? (text : Text) : Option (Text × Text) := do
  let (digits, rest) ← digits? text
  if digits.head? = some '0' ∧ 1 < digits.length then none else some (digits, rest)

/-- A number.  It is a natural when it has no sign, no fraction and no exponent. -/
def number : Text → Option (Json × Text)
  | '-' :: text => do
    let (_, rest) ← wholePart? text
    let rest ← skipFraction? rest
    let rest ← skipExponent? rest
    return (other, rest)
  | text => do
    let (whole, rest) ← wholePart? text
    if rest.head?.any fun c => c == '.' || c == 'e' || c == 'E' then
      let rest ← skipFraction? rest
      let rest ← skipExponent? rest
      return (other, rest)
    else return (natural (valueOfDigits 10 whole), rest)

/-! ## Values -/

/-- The items of an array from its first item on, through the closing bracket. -/
def items (value : Text → Option (Json × Text)) : Nat → Text → Option (List Json × Text)
  | 0, _ => none
  | n + 1, text => do
    let (item, rest) ← value text
    match skipSpace rest with
    | ']' :: rest => return ([item], rest)
    | ',' :: rest =>
      let (later, rest) ← items value n rest
      return (item :: later, rest)
    | _ => none

/-- The fields of an object from its first field on, through the closing brace.  A field has no
name if its name is a string without content. -/
def fields (value : Text → Option (Json × Text)) :
    Nat → Text → Option (List (Option Text × Json) × Text)
  | 0, _ => none
  | n + 1, text =>
    match skipSpace text with
    | '"' :: text => do
      let (name, rest) ← stringBody text
      let rest ← skip? [':'] (skipSpace rest)
      let (item, rest) ← value rest
      match skipSpace rest with
      | '\x7d' :: rest => return ([(name, item)], rest)
      | ',' :: rest =>
        let (later, rest) ← fields value n rest
        return ((name, item) :: later, rest)
      | _ => none
    | _ => none

/-- An object of fields, provided that all of them have names. -/
def ofFields (fields : List (Option Text × Json)) : Json :=
  match fields.mapM fun field => field.1.map fun name => (name, field.2) with
  | some named => object named
  | none => other

/-- A value, with arrays and objects nested up to a depth, and the text behind it. -/
def value : Nat → Text → Option (Json × Text)
  | 0, _ => none
  | depth + 1, text =>
    match skipSpace text with
    | '"' :: text => do
      let (content, rest) ← stringBody text
      match content with
      | some t => return (string t, rest)
      | none => return (other, rest)
    | '[' :: text =>
      match skipSpace text with
      | ']' :: rest => some (array [], rest)
      | text => (items (value depth) text.length text).map fun (found, rest) => (array found, rest)
    | '\x7b' :: text =>
      match skipSpace text with
      | '\x7d' :: rest => some (object [], rest)
      | text =>
        (fields (value depth) text.length text).map fun (found, rest) => (ofFields found, rest)
    | 'n' :: 'u' :: 'l' :: 'l' :: rest => some (null, rest)
    | 't' :: 'r' :: 'u' :: 'e' :: rest => some (bool true, rest)
    | 'f' :: 'a' :: 'l' :: 's' :: 'e' :: rest => some (bool false, rest)
    | text => number text

/-- Read a text that holds one value and nothing else.  No value is nested more deeply than its
text is long, so the length is depth enough. -/
def parse? (text : Text) : Option Json := do
  let (found, rest) ← value (text.length + 1) text
  if (skipSpace rest).isEmpty then some found else none

end LuaUnveil.Json
