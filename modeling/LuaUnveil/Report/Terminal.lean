import LuaUnveil.Report.Basic

/-!
# Reports for a terminal

The code between dividers, and the figures below it.  Emphasis is put on by control sequences, and
only if colours are wanted.

* `Emphasis`: the kinds of emphasis with their codes, and `Emphasis.paint`.
* `Report.renderTerminal`: the whole output.
-/

namespace LuaUnveil

/-- The kinds of emphasis. -/
inductive Emphasis where
  | blue | bold | boldUnderline | boldYellow | green | yellow | red | cyan
  deriving Repr, DecidableEq

namespace Emphasis

/-- The code of a kind of emphasis. -/
def code : Emphasis → Text
  | blue => "34".toList
  | bold => "1".toList
  | boldUnderline => "1;4".toList
  | boldYellow => "1;33".toList
  | green => "32".toList
  | yellow => "33".toList
  | red => "31".toList
  | cyan => "36".toList

/-- A text with emphasis, if colours are wanted. -/
def paint (emphasis : Emphasis) (colours : Bool) (text : Text) : Text :=
  if colours then
    "\x1b[".toList ++ emphasis.code ++ 'm' :: text ++ "\x1b[0m".toList
  else text

end Emphasis

/-- The colour of a class of complexity. -/
def Complexity.emphasis : Complexity → Emphasis
  | low => .green
  | medium => .yellow
  | high => .red

/-- The lines of one report. -/
def Report.terminalLines (colours : Bool) (report : Report) : List Text :=
  let s := report.outcome.statistics
  let divider := Emphasis.blue.paint colours (List.replicate 60 '=')
  [divider,
    Emphasis.bold.paint colours "Source:".toList ++ ' ' :: report.source,
    divider,
    report.outcome.code, [],
    Emphasis.boldUnderline.paint colours "Statistics".toList,
    "  Lines:             ".toList ++ decimal s.sourceLines ++ " -> ".toList ++
      decimal s.resultLines,
    "  Variables renamed: ".toList ++ decimal s.identifiers,
    "  Strings decoded:   ".toList ++ decimal s.escapes,
    "  Functions renamed: ".toList ++ decimal s.functions,
    "  Complexity:        ".toList ++ s.complexity.emphasis.paint colours s.complexity.label,
    "  Confidence:        ".toList ++
      Emphasis.bold.paint colours (decimal s.confidence.toNat ++ ['%'])] ++
  report.outcome.warnings.map (fun warning =>
    "  ".toList ++ Emphasis.boldYellow.paint colours "warning:".toList ++ ' ' :: warning) ++
  [[]]

/-- Reports one below the other. -/
def Report.renderTerminal (colours : Bool) (reports : List Report) : Text :=
  unlines (reports.flatMap (Report.terminalLines colours))

end LuaUnveil
