import LuaUnveil.Proofs.JsonReading
import LuaUnveil.Report.Json

/-!
# Reading reports back

What is written about scripts as JSON can be read back as their outcomes.

**Structures.**  A structure is written as an object, and read by asking for its fields by name.
`Json.structure?_object`: where no name is repeated, each name gives the value that was written
under it, whatever other fields there are.

**Reports.**  `Outcome.ofJson?_toJson` puts this together for one report, and
`Report.printable_toJson` says that nothing in a report is lost when it is printed.  Counts are
read up to 64 bits, and `Statistics.InRange` says that they are no larger.
-/

namespace LuaUnveil

/-! ## Structures -/

namespace Json

/-- A field is the only one with its name. -/
lemma filter_name_eq {fields : List (Text × Json)} (hnodup : (fields.map Prod.fst).Nodup)
    {field : Text × Json} (hmem : field ∈ fields) :
    (fields.filter fun other => other.1 == field.1) = [field] := by
  induction fields with
  | nil => cases hmem
  | cons first fields ih =>
      rw [List.map_cons, List.nodup_cons] at hnodup
      rcases List.mem_cons.mp hmem with rfl | hmem
      · have hnone : (fields.filter fun other => other.1 == field.1) = [] := by
          refine List.filter_eq_nil_iff.mpr fun other hother heq => hnodup.1 ?_
          exact List.mem_map.mpr ⟨other, hother, by simpa using heq⟩
        simp [hnone]
      · have hne : first.1 ≠ field.1 := fun heq =>
          hnodup.1 (List.mem_map.mpr ⟨field, hmem, heq.symm⟩)
        simp [hne, ih hnodup.2 hmem]

/-- **Fields are found by their names**, in the order in which they are asked for. -/
theorem structure?_object (fields chosen : List (Text × Json))
    (hnodup : (fields.map Prod.fst).Nodup) (hchosen : chosen ⊆ fields) :
    (object fields).structure? (chosen.map Prod.fst) = some (chosen.map Prod.snd) := by
  rw [structure?]
  induction chosen with
  | nil => rfl
  | cons field chosen ih =>
      obtain ⟨hfield, hchosen⟩ := List.cons_subset.mp hchosen
      rw [List.map_cons, List.mapM_cons, ih hchosen, filter_name_eq hnodup hfield]
      rfl

/-- A list of strings is read item by item. -/
lemma strings?_map_string (texts : List Text) :
    (array (texts.map string)).strings? = some texts := by
  rw [strings?]
  induction texts with
  | nil => rfl
  | cons t texts ih => rw [List.map_cons, List.mapM_cons, ih]; rfl

lemma natural?_natural {limit n : Nat} (h : n ≤ limit) : (natural n).natural? limit = some n :=
  if_pos h

end Json

/-! ## One report -/

lemma Complexity.ofJson?_label (c : Complexity) :
    Complexity.ofJson? (.string c.label) = some c := by
  cases c <;> decide

/-- Whether all counts are numbers of 64 bits. -/
structure Statistics.InRange (s : Statistics) : Prop where
  sourceLines : s.sourceLines ≤ maxCount
  resultLines : s.resultLines ≤ maxCount
  identifiers : s.identifiers ≤ maxCount
  escapes : s.escapes ≤ maxCount
  functions : s.functions ≤ maxCount

/-- Figures are read back. -/
lemma Statistics.ofJson?_toJson {s : Statistics} (hs : s.InRange) :
    Statistics.ofJson? s.toJson = some s := by
  have hfields : s.toJson.structure? (["originalLines", "deobfuscatedLines", "variablesRenamed",
      "stringsDecoded", "functionsAnalyzed", "complexity", "confidence"].map String.toList)
        = some [.natural s.sourceLines, .natural s.resultLines, .natural s.identifiers,
            .natural s.escapes, .natural s.functions, .string s.complexity.label,
            .natural s.confidence.toNat] := by
    refine Json.structure?_object _ _ ?_ (List.Subset.refl _)
    simp only [List.map_cons, List.map_nil]
    decide
  have hconfidence : s.confidence.toNat ≤ 255 := Nat.le_of_lt_succ s.confidence.toNat_lt
  rw [Statistics.ofJson?, hfields]
  simp [Json.natural?_natural hs.sourceLines, Json.natural?_natural hs.resultLines,
    Json.natural?_natural hs.identifiers, Json.natural?_natural hs.escapes,
    Json.natural?_natural hs.functions, Complexity.ofJson?_label,
    Json.natural?_natural hconfidence]

/-- **The outcome of a report is read back**, and the source in front of it is passed over. -/
theorem Outcome.ofJson?_toJson {report : Report} (h : report.outcome.statistics.InRange) :
    Outcome.ofJson? report.toJson = some report.outcome := by
  have hfields : report.toJson.structure?
      (["deobfuscatedCode", "statistics", "warnings"].map String.toList)
        = some [.string report.outcome.code, report.outcome.statistics.toJson,
            .array (report.outcome.warnings.map .string)] := by
    refine Json.structure?_object _ [_, _, _] ?_ (List.subset_cons_self _ _)
    simp only [List.map_cons, List.map_nil]
    decide
  rw [Outcome.ofJson?, hfields]
  simp [Json.string?, Statistics.ofJson?_toJson h, Json.strings?_map_string]

lemma Statistics.printable_toJson (s : Statistics) : s.toJson.Printable := by
  refine .object ?_
  simp only [List.forall_mem_cons]
  exact ⟨.natural _, .natural _, .natural _, .natural _, .natural _, .string _, .natural _,
    fun _ h => by cases h⟩

lemma Report.printable_toJson (report : Report) : report.toJson.Printable := by
  refine .object ?_
  simp only [List.forall_mem_cons]
  refine ⟨.string _, .string _, Statistics.printable_toJson _, .array ?_, fun _ h => by cases h⟩
  intro item hitem
  obtain ⟨t, -, rfl⟩ := List.mem_map.mp hitem
  exact .string t

/-! ## Any number of reports -/

/-- Every item of a written array is read back as the outcome of its report. -/
lemma Outcome.map_ofJson?_toJson {reports : List Report}
    (h : ∀ report ∈ reports, report.outcome.statistics.InRange) :
    (reports.map Report.toJson).map Outcome.ofJson?
      = reports.map fun report => some report.outcome := by
  rw [List.map_map]
  exact List.map_congr_left fun report hreport => Outcome.ofJson?_toJson (h report hreport)

/-- **Reports read back.**  For reports with any texts in them and any counts of 64 bits: what is
written for one report is read as its outcome, and what is written for none or for several is one
array, in which each item is read as the outcome of the report in its place. -/
theorem renderJson_reads_back (reports : List Report)
    (hrange : ∀ report ∈ reports, report.outcome.statistics.InRange) :
    (∀ report, reports = [report] →
      Outcome.parse? (Report.renderJson reports) = some report.outcome) ∧
    (reports.length ≠ 1 → ∃ items,
      Json.parse? (Report.renderJson reports) = some (.array items) ∧
        items.map Outcome.ofJson? = reports.map fun report => some report.outcome) := by
  constructor
  · rintro report rfl
    have hread : Json.parse? (Report.renderJson [report]) = some report.toJson :=
      Json.parse?_pretty report.printable_toJson
    rw [Outcome.parse?, hread, Option.bind_some]
    exact Outcome.ofJson?_toJson (hrange report List.mem_cons_self)
  · intro hlength
    have hrender : Report.renderJson reports
        = (Json.array (reports.map Report.toJson)).pretty 0 ++ ['\n'] := by
      rw [Report.renderJson]
      rintro report rfl
      exact hlength rfl
    refine ⟨reports.map Report.toJson, ?_, Outcome.map_ofJson?_toJson hrange⟩
    rw [hrender]
    refine Json.parse?_pretty (.array fun item hitem => ?_)
    obtain ⟨report, -, rfl⟩ := List.mem_map.mp hitem
    exact report.printable_toJson

/-- A report of what is hardest to write: quotes, backslashes, control characters, characters beyond
the sixteen bits of one unit, and the largest counts. -/
def awkwardReport : Report where
  source := ['"', '\\', '\x00', '\x1f', '\x7f', '/']
  outcome :=
    { code := ['\n', '\r', '\t', '\x08', '\x0c', 'u', '\\', 'u', Char.ofNat 0x10FFFF]
      statistics :=
        { sourceLines := maxCount, resultLines := 0, identifiers := maxCount, escapes := 1
          functions := 10, complexity := .high, confidence := 255 }
      warnings := [[], ['\u2028'], ['"']] }

theorem renderJson_reads_back_awkward :
    Outcome.parse? (Report.renderJson [awkwardReport]) = some awkwardReport.outcome ∧
      (∃ items, Json.parse? (Report.renderJson [awkwardReport, awkwardReport])
          = some (.array items) ∧
        items.map Outcome.ofJson?
          = [some awkwardReport.outcome, some awkwardReport.outcome]) := by
  have hrange : awkwardReport.outcome.statistics.InRange := by
    constructor <;> decide
  have hone := renderJson_reads_back [awkwardReport] (by simpa using hrange)
  have htwo := renderJson_reads_back [awkwardReport, awkwardReport] (by simpa using hrange)
  exact ⟨hone.1 awkwardReport rfl, htwo.2 (by decide)⟩

end LuaUnveil
