import LuaUnveil.Layout.BlankLines

/-!
# Line structure

The script is first laid out on one line.  Lines then end after `;` and `{`, on both sides of `}`,
and after a comma, unless the comma is the last thing before a closing `}` or `]`.  Every line is
indented by the number of open braces.

* `breakLines`: put the line breaks in.
* `indentLines`: indent line by line.
* `formatCode`: the whole layout.
-/

namespace LuaUnveil

/-! ## Line breaks -/

/-- Break the line after `;` and `{` and on both sides of `}`. -/
def breakAtMarks (text : Text) : Text :=
  text.flatMap fun c =>
    if c = ';' ∨ c = '{' then [c, '\n'] else if c = '}' then ['\n', c, '\n'] else [c]

/-- Whether the first nonblank character of a text closes a list. -/
def closesList (text : Text) : Bool :=
  (dropBlanks text).head?.any fun c => c == '}' || c == ']'

/-- Break the line after every comma that does not stand before the end of a list. -/
def breakAtCommas : Text → Text
  | [] => []
  | c :: rest =>
    if c = ',' ∧ !closesList rest then c :: '\n' :: breakAtCommas rest else c :: breakAtCommas rest

/-- All line breaks of the layout. -/
def breakLines (text : Text) : Text := breakAtCommas (breakAtMarks text)

/-! ## Indentation -/

/-- The lines of a text: the parts between its line breaks. -/
def lines (text : Text) : List Text := text.splitOn '\n'

/-- One line break between each two lines. -/
def joinLines (ls : List Text) : Text := ['\n'].intercalate ls

/-- The depth at which a line itself stands: a line with a closing brace stands one level out. -/
def ownDepth (depth : Nat) (line : Text) : Nat := if line.contains '}' then depth - 1 else depth

/-- The depth for the lines behind a line. -/
def depthBehind (depth : Nat) (line : Text) : Nat :=
  ownDepth depth line + if line.contains '{' then 1 else 0

/-- Trim each line and indent it by two spaces for each level of depth.  Blank lines become empty
and leave the depth as it is. -/
def indentLines (depth : Nat) : List Text → List Text
  | [] => []
  | line :: rest =>
    let content := trim line
    if content.isEmpty then [] :: indentLines depth rest
    else (List.replicate (2 * ownDepth depth content) ' ' ++ content) ::
      indentLines (depthBehind depth content) rest

/-- Lay a script out: one line, then the line breaks, then the indentation, then no more than one
blank line in a row. -/
def formatCode (text : Text) : Text :=
  squeezeBlankLines (joinLines (indentLines 0 (lines (breakLines (collapseBlanks text)))))

end LuaUnveil
