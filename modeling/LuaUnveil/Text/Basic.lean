/-!
# Texts

A text is a list of characters, and is read from its front.

* `skip?`: read a given text off the front.
* `leading`: read the leading run of a class of characters off the front.
-/

namespace LuaUnveil

/-- The text of a script or a report, as a sequence of Unicode scalar values. -/
abbrev Text := List Char

/-- The text behind a given start, if the text has that start. -/
def skip? : Text → Text → Option Text
  | [], text => some text
  | _ :: _, [] => none
  | s :: start, c :: text => if s = c then skip? start text else none

theorem skip?_eq_some_iff {start text rest : Text} :
    skip? start text = some rest ↔ text = start ++ rest := by
  induction start generalizing text with
  | nil => simp [skip?, eq_comm]
  | cons s start ih =>
    cases text with
    | nil => simp [skip?]
    | cons c text =>
      by_cases h : s = c
      · simp [skip?, h, ih]
      · simp [skip?, h, Ne.symm h]

theorem length_skip?_le {start text rest : Text} (h : skip? start text = some rest) :
    rest.length ≤ text.length := by
  simp [skip?_eq_some_iff.mp h]

/-- The leading run of the characters of a class, and the text behind that run. -/
def leading (p : Char → Bool) (text : Text) : Text × Text := (text.takeWhile p, text.dropWhile p)

end LuaUnveil
