import LuaUnveil.Command.Example
import LuaUnveil.Report.Render
import LuaUnveil.Settings.Discovery

/-!
# Running the deobfuscator

The command that deobfuscates scripts: it loads settings and scripts, rejects a script without
code, runs the passes over each script on its own, and writes one report for each.

* `loadScripts`: the scripts with their labels, in order.
* `deobfuscateAll`: one report for each script.
* `RunRequest.run`: the command.
-/

namespace LuaUnveil

variable {m : Type → Type} [Monad m]

/-- Where scripts come from. -/
inductive ScriptSource where
  | files (paths : List Text)
  | bundled (name : Text)
  | standardInput
  deriving Repr, DecidableEq

/-- A script with the label under which it is reported. -/
structure Script where
  label : Text
  text : Text
  deriving Repr, DecidableEq

/-- What the user asks for. -/
structure RunRequest where
  source : ScriptSource
  format : Option ReportFormat := none
  output : Option Text := none
  settings : Option Text := none
  simplifyFully : Bool := false
  reportUndecoded : Bool := false
  deriving Repr, DecidableEq

/-- Load the scripts of files, in order; the first file that cannot be read is a failure. -/
def loadFiles (host : Host m) : List Text → m (Except Failure (List Script))
  | [] => return .ok []
  | path :: later => do
    match ← host.read path with
    | .error fault => return .error (.file (some path) fault)
    | .ok text =>
      match ← loadFiles host later with
      | .error failure => return .error failure
      | .ok scripts => return .ok (⟨path, text⟩ :: scripts)

/-- Load scripts from where they come from. -/
def loadScripts (host : Host m) : ScriptSource → m (Except Failure (List Script))
  | .files paths => loadFiles host paths
  | .bundled name =>
    return match Example.find? name with
      | some e => .ok [⟨"example:".toList ++ e.name, e.source⟩]
      | none => .error (.unknownExample name)
  | .standardInput => do
    match ← host.input with
    | .error fault => return .error (.file none fault)
    | .ok text => return .ok [⟨"<stdin>".toList, text⟩]

/-- Deobfuscate each script on its own.  If any of them holds nothing but blanks, the first one
that does is a failure and no script is looked at. -/
def deobfuscateAll [SearchEngine] (options : Options) (scripts : List Script) :
    Except Failure (List Report) :=
  match scripts.find? fun script => (trim script.text).isEmpty with
  | some script => .error (.invalidInput (script.label ++ " contains no code".toList))
  | none => .ok (scripts.map fun script => ⟨script.label, deobfuscate options script.text⟩)

namespace RunRequest

/-- The settings for a request: from the file that it names, or else from the nearest one.  Where
the working directory is not known, the default settings. -/
def loadSettings (request : RunRequest) (host : Host m) : m (Except Failure Settings) := do
  match request.settings with
  | some path => LuaUnveil.loadSettings host path
  | none =>
    match ← host.workDir with
    | .ok directory => return .ok (← discoverSettings host directory)
    | .error _ => return .ok {}

/-- The format of a request: its own, or else that of the settings, or else for a terminal. -/
def formatWith (request : RunRequest) (settings : Settings) : ReportFormat :=
  (request.format.or settings.format).getD .terminal

/-- What a request reports about scripts under settings. -/
def report [SearchEngine] (request : RunRequest) (colours : Bool) (settings : Settings)
    (scripts : List Script) : Except Failure Text :=
  let options := settings.mergedOptions request.simplifyFully request.reportUndecoded
  (deobfuscateAll options scripts).map (Report.render (request.formatWith settings) colours)

/-- Run a request.  The report is written to the file that the request names, or else is the
answer, for the standard output. -/
def run [SearchEngine] (request : RunRequest) (host : Host m) (colours : Bool) :
    m (Except Failure Text) := do
  match ← request.loadSettings host with
  | .error failure => return .error failure
  | .ok settings =>
    match ← loadScripts host request.source with
    | .error failure => return .error failure
    | .ok scripts =>
      match request.report colours settings scripts, request.output with
      | .error failure, _ => return .error failure
      | .ok text, none => return .ok text
      | .ok text, some path =>
        match ← host.write path text with
        | .error fault => return .error (.file (some path) fault)
        | .ok () => return .ok []

end RunRequest

end LuaUnveil
