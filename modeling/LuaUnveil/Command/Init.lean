import LuaUnveil.Command.Failure
import LuaUnveil.File.Host

/-!
# Starting a settings file

The command that writes the first settings file.  A file that exists is overwritten only if the
user insists.
-/

namespace LuaUnveil

variable {m : Type → Type} [Monad m]

/-- Write the settings file that a user starts with. -/
def writeSettings (host : Host m) (path : Text) (force : Bool) : m (Except Failure Unit) := do
  if (← host.has path) && !force then
    return .error .settingsExist
  else
    match ← host.write path settingsTemplate with
    | .error fault => return .error (.file (some path) fault)
    | .ok () => return .ok ()

end LuaUnveil
