import LuaUnveil.Report.Json
import LuaUnveil.Report.Markdown
import LuaUnveil.Report.Terminal

/-!
# Writing reports

The written form of a list of reports in each format.  Colours matter for the terminal only.
-/

namespace LuaUnveil

/-- The written form of reports. -/
def Report.render (format : ReportFormat) (colours : Bool) (reports : List Report) : Text :=
  match format with
  | .json => Report.renderJson reports
  | .markdown => Report.renderMarkdown reports
  | .terminal => Report.renderTerminal colours reports

end LuaUnveil
