import LuaUnveil.Command.Failure
import LuaUnveil.File.Host

/-!
# Finding settings

Settings are loaded from a file that the user names, or else from the nearest directory that has a
settings file which can be read and understood: the working directory and up to nine directories
above it.

* `loadSettings`: from a file; it is a failure if the file is missing or malformed.
* `discoverSettings`: from the nearest directory; a file that is missing or malformed is passed by.
-/

namespace LuaUnveil

variable {m : Type → Type} [Monad m]

/-- Load settings from a file that the user names. -/
def loadSettings (host : Host m) (path : Text) : m (Except Failure Settings) := do
  match ← host.read path with
  | .error fault => return .error (.unreadableSettings path fault)
  | .ok text =>
    match Settings.parse? text with
    | some settings => return .ok settings
    | none => return .error (.malformedSettings path)

/-- The first settings file among some directories that can be read and understood. -/
def firstSettings (host : Host m) : List Text → m (Option Settings)
  | [] => return none
  | directory :: later => do
    match ← host.read (Path.join directory settingsFileName) with
    | .error _ => firstSettings host later
    | .ok text =>
      match Settings.parse? text with
      | some settings => return some settings
      | none => firstSettings host later

/-- The number of directories that are looked at. -/
def searchDepth : Nat := 10

/-- The settings of the nearest directory, from a start directory upwards; the default settings if
there are none. -/
def discoverSettings (host : Host m) (start : Text) : m Settings := do
  return (← firstSettings host (Path.ancestors start searchDepth)).getD {}

end LuaUnveil
