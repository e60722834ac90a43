import LuaUnveil.Text.Numeral

/-!
# Dates and times of TOML

A moment is a date, a time of day, or a date with a time and an optional offset from universal
time.  The parts are checked against the calendar and the clock.

* `Toml.skipDate?`, `Toml.skipTime?`: one date or time at the front of a text.
* `Toml.isMoment`: whether a whole text is a moment.
-/

namespace LuaUnveil.Toml

/-- The value of exactly `n` digits at the front of a text, and the text behind them. -/
def fixedDigits? (n : Nat) (text : Text) : Option (Nat × Text) :=
  let digits := text.take n
  if digits.length = n ∧ digits.all Char.isDigit then some (valueOfDigits 10 digits, text.drop n)
  else none

/-- The number of days of a month. -/
def daysOfMonth (year month : Nat) : Nat :=
  if month = 2 then
    if year % 4 = 0 ∧ (year % 100 ≠ 0 ∨ year % 400 = 0) then 29 else 28
  else if month = 4 ∨ month = 6 ∨ month = 9 ∨ month = 11 then 30
  else 31

/-- The text behind a date. -/
def skipDate? (text : Text) : Option Text := do
  let (year, rest) ← fixedDigits? 4 text
  let rest ← skip? ['-'] rest
  let (month, rest) ← fixedDigits? 2 rest
  let rest ← skip? ['-'] rest
  let (day, rest) ← fixedDigits? 2 rest
  if 1 ≤ month ∧ month ≤ 12 ∧ 1 ≤ day ∧ day ≤ daysOfMonth year month then some rest else none

/-- The text behind the fraction of a second, if there is one. -/
def skipSecondFraction? : Text → Option Text
  | '.' :: rest =>
    match leading Char.isDigit rest with
    | ([], _) => none
    | (_, rest) => some rest
  | text => some text

/-- The text behind a time of day.  The seconds may be left out. -/
def skipTime? (text : Text) : Option Text := do
  let (hour, rest) ← fixedDigits? 2 text
  let rest ← skip? [':'] rest
  let (minute, rest) ← fixedDigits? 2 rest
  guard (hour ≤ 23 && minute ≤ 59)
  match rest with
  | ':' :: rest =>
    let (second, rest) ← fixedDigits? 2 rest
    guard (second ≤ 60)
    skipSecondFraction? rest
  | rest => some rest

/-- Whether a text is an offset from universal time, or empty. -/
def isOffset : Text → Bool
  | [] => true
  | ['Z'] => true
  | ['z'] => true
  | sign :: rest =>
    (sign == '+' || sign == '-') &&
      match skipTime? rest with
      | some [] => rest.length == 5
      | _ => false

/-- Whether a text is a date, a time of day, or a date with a time and an optional offset. -/
def isMoment (text : Text) : Bool :=
  match skipDate? text with
  | some [] => true
  | some (mark :: rest) =>
    (mark == 'T' || mark == 't' || mark == ' ') && (skipTime? rest).any isOffset
  | none => skipTime? text == some []

end LuaUnveil.Toml
