import LuaUnveil.Session.Outcome

/-!
# Reports

A report is the outcome of one script together with where the script came from.  It can be written
in three formats.
-/

namespace LuaUnveil

/-- The outcome of a script, and where the script came from. -/
structure Report where
  source : Text
  outcome : Outcome
  deriving Repr, DecidableEq

/-- The formats in which reports are written. -/
inductive ReportFormat where
  | json | markdown | terminal
  deriving Repr, DecidableEq

namespace ReportFormat

/-- Every format. -/
def all : List ReportFormat := [json, markdown, terminal]

/-- The name of a format, on the command line and in settings. -/
def name : ReportFormat → Text
  | json => "json".toList
  | markdown => "markdown".toList
  | terminal => "terminal".toList

/-- The format of a name. -/
def ofName? (name : Text) : Option ReportFormat := all.find? fun format => format.name == name

end ReportFormat

/-- Lines of text, each ended by a line break. -/
def unlines (ls : List Text) : Text := ls.flatMap (· ++ ['\n'])

end LuaUnveil
