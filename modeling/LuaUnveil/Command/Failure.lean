import LuaUnveil.File.Fault
import LuaUnveil.Settings.Basic

/-!
# Failures of commands

Deobfuscating never fails; what can fail is reading scripts and settings, and writing reports.  A
failure keeps its cause, and its wording is made in one place.
-/

namespace LuaUnveil

/-- Why a command failed. -/
inductive Failure where
  /-- A file could not be read or written; there is no path for the standard input. -/
  | file (path : Option Text) (fault : FileFault)
  /-- Settings could not be read or understood. -/
  | settings (problem : Text) (path : Option Text)
  /-- No bundled script has the name. -/
  | unknownExample (name : Text)
  /-- A script was rejected before any pass. -/
  | invalidInput (problem : Text)
  /-- A report could not be written. -/
  | output (problem : Text)
  /-- There is a settings file already. -/
  | settingsExist
  deriving Repr, DecidableEq

namespace Failure

/-- The wording of a failure. -/
def message : Failure → Text
  | file none fault => "I/O error: ".toList ++ fault.message
  | file (some path) fault => "I/O error: ".toList ++ path ++ ": ".toList ++ fault.message
  | settings problem _ => "Configuration error: ".toList ++ problem
  | unknownExample name => "Unknown example '".toList ++ name ++ "'".toList
  | invalidInput problem => "Invalid input: ".toList ++ problem
  | output problem => "Output error: ".toList ++ problem
  | settingsExist => "Configuration file already exists. Use --force to overwrite.".toList

/-- The file that a failure is about. -/
def path? : Failure → Option Text
  | file path _ => path
  | settings _ path => path
  | _ => none

/-- What lies behind a failure, if that is known apart from the failure itself. -/
def cause? : Failure → Option Text
  | file _ fault => some fault.message
  | _ => none

/-- What a user is shown: the failure, and what lies behind it. -/
def display (failure : Failure) : Text :=
  "Error: ".toList ++ failure.message ++ ['\n'] ++
    match failure.cause? with
    | some cause => "\nCaused by:\n    ".toList ++ cause ++ ['\n']
    | none => []

/-- Settings that could not be read. -/
def unreadableSettings (path : Text) (fault : FileFault) : Failure :=
  settings ("Failed to read ".toList ++ path ++ ": ".toList ++ fault.message) (some path)

/-- Settings that could not be understood. -/
def malformedSettings (path : Text) : Failure :=
  settings ("Failed to parse ".toList ++ settingsFileName ++ ": not a valid settings file".toList)
    (some path)

end Failure

end LuaUnveil
