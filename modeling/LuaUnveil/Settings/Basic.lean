import LuaUnveil.Report.Basic
import LuaUnveil.Toml.Reader

/-!
# Settings

A settings file has up to three sections with one setting each.  Unknown sections are refused;
unknown settings in a section are ignored.  A section is a table, or an array whose first item is
its one setting, or a moment, which stands for a section without its setting.

* `Settings`: what a file says, section by section.
* `Settings.parse?`: read a file.
* `Settings.options`, `Settings.mergedOptions`: the options that follow.
* `settingsTemplate`: the file that a user starts with.
-/

namespace LuaUnveil

/-- What a settings file says.  A section is `none` if the file does not have it. -/
structure Settings where
  /-- Section `simplify`: whether to simplify until nothing changes. -/
  simplify : Option Bool := none
  /-- Section `warnings`: whether to report the escapes that are not decoded. -/
  warnings : Option Bool := none
  /-- Section `output`: the format to write reports in, if the section names one. -/
  output : Option (Option ReportFormat) := none
  deriving Repr, DecidableEq

namespace Settings

/-! ## What follows from settings -/

/-- The options that the settings ask for. -/
def options (settings : Settings) : Options where
  simplifyFully := settings.simplify.getD false
  reportUndecoded := settings.warnings.getD false

/-- The format that the settings ask for. -/
def format (settings : Settings) : Option ReportFormat := settings.output.join

/-- The options of the settings, with what the command line switches on. -/
def mergedOptions (settings : Settings) (simplifyFully reportUndecoded : Bool) : Options where
  simplifyFully := settings.options.simplifyFully || simplifyFully
  reportUndecoded := settings.options.reportUndecoded || reportUndecoded

/-! ## Reading -/

/-- The one setting of a section, if the section has it.  No answer means that the section cannot
be read. -/
def settingOf? (name : Text) : Toml → Option (Option Toml)
  | .table _ fields =>
    if Toml.allFieldsReadable (fields.filter (·.1 != name)) then some (fields.lookup name) else none
  | .array items => some items.head?
  | .tables items => some (items.head?.map (.table .header))
  | .moment => some none
  | _ => none

/-- A section whose setting is a switch, off by default. -/
def switch? (name : Text) (body : Toml) : Option Bool := do
  match ← settingOf? name body with
  | none => some false
  | some (.bool b) => some b
  | some _ => none

/-- A format: its name, or a table with the name as its one field and nothing in it. -/
def format? : Toml → Option ReportFormat
  | .string t => ReportFormat.ofName? t
  | .table _ [(t, .table _ [])] => ReportFormat.ofName? t
  | .table _ [(t, .array [])] => ReportFormat.ofName? t
  | _ => none

/-- The section for the format of reports. -/
def outputSection? (body : Toml) : Option (Option ReportFormat) := do
  match ← settingOf? "default_format".toList body with
  | none => some none
  | some value => (format? value).map some

/-- Read one section into the settings. -/
def readSection? (settings : Settings) (field : Text × Toml) : Option Settings :=
  if field.1 = "simplify".toList then
    (switch? "fixed_point".toList field.2).map fun b => { settings with simplify := some b }
  else if field.1 = "warnings".toList then
    (switch? "report_undecoded".toList field.2).map fun b => { settings with warnings := some b }
  else if field.1 = "output".toList then
    (outputSection? field.2).map fun format => { settings with output := some format }
  else none

/-- Read a settings file. -/
def parse? (text : Text) : Option Settings := do
  (← Toml.parse? text).foldlM readSection? {}

end Settings

/-! ## The file -/

/-- The name of a settings file. -/
def settingsFileName : Text := ".luadeob.toml".toList

/-- The settings file that a user starts with. -/
def settingsTemplate : Text := unlines ([
  "# luadeob configuration",
  "",
  "[simplify]",
  "# Rerun the expression identities until nothing changes.",
  "fixed_point = false",
  "",
  "[warnings]",
  "# List escape sequences the decoder refused to decode.",
  "report_undecoded = false",
  "",
  "[output]",
  "# terminal | json | markdown",
  "default_format = \"terminal\""].map String.toList)

end LuaUnveil
