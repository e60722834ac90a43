import LuaUnveil.Text.Blank

/-!
# Scanning a text for a pattern

Most passes have one shape: walk over the text from left to right, and wherever a pattern is found
put something in its place; the walk goes on right behind what was found, so finds never overlap.

* `Pattern`: looks at the text from a position on, and at the character before that position.
* `pieces`: the text cut into plain characters and finds.
* `replaceAll`: put a replacement in the place of every find.
-/

namespace LuaUnveil

/-- What a pattern found at a position: the text it covers, and what was read off it. -/
structure Found (α : Type) where
  value : α
  covered : Text
  deriving Repr, DecidableEq

/-- A pattern is asked at a position.  It is given the character before the position, if there is
one, and the text from the position on.  The text that a find covers begins at the position. -/
abbrev Pattern (α : Type) := Option Char → Text → Option (Found α)

/-- A text cut up by a pattern. -/
inductive Piece (α : Type) where
  /-- A character that no find covers. -/
  | plain (c : Char)
  /-- A find. -/
  | found (f : Found α)
  deriving Repr, DecidableEq

variable {α : Type}

/-- Cut a text into plain characters and finds, from a position on.  The character before the
position is given, and the number of characters that the last find still covers; those are passed
over. -/
def piecesFrom (pattern : Pattern α) : Nat → Option Char → Text → List (Piece α)
  | _, _, [] => []
  | covered + 1, _, c :: rest => piecesFrom pattern covered (some c) rest
  | 0, before, c :: rest =>
    match pattern before (c :: rest) with
    | some f => .found f :: piecesFrom pattern (f.covered.length - 1) (some c) rest
    | none => .plain c :: piecesFrom pattern 0 (some c) rest

/-- Cut a text into plain characters and finds.  The first position at which the pattern succeeds
is taken, and the search goes on right behind what was found. -/
def pieces (pattern : Pattern α) (text : Text) : List (Piece α) := piecesFrom pattern 0 none text

/-- The finds among the pieces, in order. -/
def finds (ps : List (Piece α)) : List (Found α) :=
  ps.filterMap fun
    | .plain _ => none
    | .found f => some f

/-- Put the pieces together again, with a text in the place of each find. -/
def assemble (replacement : Found α → Text) (ps : List (Piece α)) : Text :=
  ps.flatMap fun
    | .plain c => [c]
    | .found f => replacement f

/-- Put a replacement in the place of every find of a pattern. -/
def replaceAll (pattern : Pattern α) (replacement : Found α → Text) (text : Text) : Text :=
  assemble replacement (pieces pattern text)

end LuaUnveil
