import LuaUnveil.Text.Scan

/-!
# Runs of blank lines

Three or more line breaks with nothing but blanks between them are cut down to two.
-/

namespace LuaUnveil

/-- The part of a text up to and with its last line break; empty if there is none. -/
def throughLastBreak (text : Text) : Text := (text.reverse.dropWhile (· != '\n')).reverse

/-- A run of blanks from one line break to its last one, with at least three line breaks. -/
def blankLineRun : Pattern Unit
  | _, '\n' :: rest =>
    let run := throughLastBreak ('\n' :: rest.takeWhile isBlank)
    if 3 ≤ run.count '\n' then some ⟨(), run⟩ else none
  | _, _ => none

/-- Cut every run of three or more line breaks down to two.  The blanks behind the last line break
of the run stay. -/
def squeezeBlankLines (text : Text) : Text := replaceAll blankLineRun (fun _ => ['\n', '\n']) text

end LuaUnveil
