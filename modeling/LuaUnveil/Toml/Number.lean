import LuaUnveil.Text.Numeral

/-!
# Numbers of TOML

A number has an outline, and it may have a value.  The outline of an integer leaves room for digits
that are none of its base; such an integer, or one that is too large, has no value.

* `Toml.underscoresFit`: where underscores may stand.
* `Toml.decimal?`, `Toml.based?`: integers.
* `Toml.float?`: floating-point numbers.

Each answers with nothing if the outline is wrong, and else says whether there is a value.
-/

namespace LuaUnveil.Toml

/-! ## Underscores -/

/-- Whether every underscore stands between two digits, given the character in front of the text. -/
def underscoresFit (isDigit : Char → Bool) : Option Char → Text → Bool
  | _, [] => true
  | before, c :: rest =>
    (c != '_' || (before.any isDigit && rest.head?.any isDigit)) &&
      underscoresFit isDigit (some c) rest

/-- The character that underscores see in front of a number: a sign is as good as a digit. -/
def inFront (signed : Bool) : Option Char := if signed then some '0' else none

/-- The text without its underscores. -/
def dropUnderscores (text : Text) : Text := text.filter (· != '_')

/-! ## Integers -/

/-- Whether an integer fits into 128 bits, with or without a sign. -/
def fitsInteger (n : Int) : Bool := -Int.pow 2 127 ≤ n && n < Int.pow 2 128

/-- A sign, if there is one, and the text behind it. -/
def splitSign : Text → Option Char × Text
  | '-' :: rest => (some '-', rest)
  | '+' :: rest => (some '+', rest)
  | text => (none, text)

/-- A decimal integer behind its sign.  It has no needless zero in front.  Next to an underscore any
hexadecimal digit passes, but only decimal digits make a value. -/
def decimal? (sign : Option Char) (text : Text) : Option Bool :=
  if text.isEmpty ∨ (text.head? = some '0' ∧ 1 < text.length) then none
  else if underscoresFit isHexDigit (inFront sign.isSome) text then
    let digits := dropUnderscores text
    let n : Int := valueOfDigits 10 digits
    some (digits.all Char.isDigit && fitsInteger (if sign = some '-' then -n else n))
  else none

/-- The base that a mark behind a zero stands for. -/
def baseOf? : Char → Option Nat
  | 'x' => some 16
  | 'o' => some 8
  | 'b' => some 2
  | _ => none

/-- Whether a character is a digit of a base up to sixteen. -/
def isDigitOf (base : Nat) (c : Char) : Bool := isHexDigit c && hexDigitValue c < base

/-- An integer in a base, behind the mark of its base.  Without any digit it has no value. -/
def based? (base : Nat) (text : Text) : Option Bool :=
  if text.all (fun c => c == '_' || isDigitOf base c) && underscoresFit isHexDigit none text then
    let digits := dropUnderscores text
    some (!digits.isEmpty && fitsInteger (valueOfDigits base digits))
  else none

/-! ## Floating-point numbers -/

/-- Digits with underscores at the front of a text, at least one digit, and the text behind them. -/
def digitRun? (text : Text) : Option (Text × Text) :=
  let (run, rest) := leading (fun c => c.isDigit || c == '_') text
  if (dropUnderscores run).isEmpty then none else some (dropUnderscores run, rest)

/-- The whole part: digits without a needless zero in front. -/
def wholeRun? (text : Text) : Option (Text × Text) := do
  let (digits, rest) ← digitRun? text
  if text.head? = some '0' ∧ 1 < digits.length then none else some (digits, rest)

/-- The digits of a fraction, none if there is no fraction, and the text behind it. -/
def fraction? : Text → Option (Text × Text)
  | '.' :: rest => digitRun? rest
  | text => some ([], text)

/-- An exponent, zero if there is none, and the text behind it. -/
def exponent? : Text → Option (Int × Text)
  | [] => some (0, [])
  | c :: rest =>
    if c = 'e' ∨ c = 'E' then do
      let (sign, rest) := splitSign rest
      let (digits, rest) ← digitRun? rest
      let n : Int := valueOfDigits 10 digits
      return (if sign = some '-' then -n else n, rest)
    else some (0, c :: rest)

/-- Whether `digits · 10 ^ exponent` rounds to a finite number of double precision: it lies below
the midpoint between the largest finite number and the next power of two. -/
def inDoubleRange (digits : Text) (exponent : Int) : Bool :=
  let significant := digits.dropWhile (· == '0')
  if significant.isEmpty then true
  else
    let magnitude := significant.length + exponent
    if magnitude < 309 then true
    else if 310 < magnitude then false
    else
      let n := valueOfDigits 10 significant
      let limit := Nat.pow 2 1024 - Nat.pow 2 970
      if 0 ≤ exponent then n * Nat.pow 10 exponent.toNat < limit
      else n < limit * Nat.pow 10 (-exponent).toNat

/-- A floating-point number behind its sign: digits, a fraction, an exponent, and nothing else. -/
def float? (signed : Bool) (text : Text) : Option Bool := do
  let (whole, rest) ← wholeRun? text
  let (fraction, rest) ← fraction? rest
  let (exponent, rest) ← exponent? rest
  if rest.isEmpty && underscoresFit Char.isDigit (inFront signed) text then
    some (inDoubleRange (whole ++ fraction) (exponent - fraction.length))
  else none

end LuaUnveil.Toml
