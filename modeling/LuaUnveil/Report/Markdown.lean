import LuaUnveil.Report.Basic

/-!
# Reports as Markdown

A title, and for each report a section with a table of figures, the warnings if there are any, and
the code.
-/

namespace LuaUnveil

/-- One row of the table of figures. -/
def metricRow (metric : String) (value : Text) : Text :=
  "| ".toList ++ metric.toList ++ " | ".toList ++ value ++ " |".toList

/-- The lines of the section of one report. -/
def Report.markdownLines (report : Report) : List Text :=
  let s := report.outcome.statistics
  let warnings := report.outcome.warnings
  ["## ".toList ++ report.source, [],
    "| Metric | Value |".toList, "|--------|-------|".toList,
    metricRow "Original Lines" (decimal s.sourceLines),
    metricRow "Deobfuscated Lines" (decimal s.resultLines),
    metricRow "Variables Renamed" (decimal s.identifiers),
    metricRow "Strings Decoded" (decimal s.escapes),
    metricRow "Functions Renamed" (decimal s.functions),
    metricRow "Complexity" s.complexity.label,
    metricRow "Confidence" (decimal s.confidence.toNat ++ ['%']), []] ++
  (if warnings.isEmpty then []
    else ["### Warnings".toList, []] ++ warnings.map ("- ".toList ++ ·) ++ [[]]) ++
  ["```lua".toList, report.outcome.code, "```".toList, []]

/-- Reports as one Markdown document. -/
def Report.renderMarkdown (reports : List Report) : Text :=
  unlines (["# Deobfuscation Report".toList, []] ++ reports.flatMap Report.markdownLines)

end LuaUnveil
