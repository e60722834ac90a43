import LuaUnveil.Command.Init
import LuaUnveil.Command.Line

/-!
# The program

A run of the program, from its arguments to its exit: what is printed where, and the exit code.

* `coloursWanted`: whether output has colours.
* `Program.run`: the program on any host.
-/

namespace LuaUnveil

variable {m : Type → Type} [Monad m]

/-- How a run of the program ends. -/
structure Exit where
  code : Nat
  output : Text := []
  errors : Text := []
  deriving Repr, DecidableEq

namespace Program

/-- Whether a variable of the environment is set and switched on. -/
def isOn (value : Option Text) : Bool := value.any (· != ['0'])

/-- Whether output has colours: always if they are forced, never if they are forbidden, and
otherwise on a terminal, unless they are switched off. -/
def coloursWanted (environment : String → Option Text) (onTerminal : Bool) : Bool :=
  if isOn (environment "CLICOLOR_FORCE") then true
  else if (environment "NO_COLOR").isSome then false
  else onTerminal && (environment "CLICOLOR").all (· != ['0'])

/-- The version line. -/
def versionLine : Text := unlines ["luadeob 0.3.0".toList]

/-- The usage of the program. -/
def usage : Text := unlines ([
  "Heuristic deobfuscator for escape-encoded Lua scripts",
  "",
  "Usage: luadeob <COMMAND>",
  "",
  "Commands:",
  "  run       Deobfuscate scripts (reads stdin when no file or example is given)",
  "  examples  List the bundled sample scripts",
  "  init      Write a default .luadeob.toml in the current directory",
  "  help      Print this message or the help of the given subcommand(s)",
  "",
  "Options:",
  "  -h, --help     Print help",
  "  -V, --version  Print version"].map String.toList)

/-- How the program ends on a command line that asks for no command. -/
def endOnUsage : UsageError → Exit
  | .help => { code := 0, output := usage }
  | .version => { code := 0, output := versionLine }
  | _ => { code := 2, errors := usage }

/-- How the program ends on a command. -/
def endOn : Except Failure Text → Exit
  | .ok text => { code := 0, output := text }
  | .error failure => { code := 1, errors := failure.display }

/-- What the program prints when it has written a settings file. -/
def settingsWritten : Text :=
  unlines ["Created ".toList ++ settingsFileName ++ " configuration file".toList]

/-- Carry a command out. -/
def execute [SearchEngine] (host : Host m) (colours : Bool) : Command → m Exit
  | .run arguments => do return endOn (← arguments.request.run host colours)
  | .examples => return endOn (.ok (Example.renderList colours))
  | .init force => do
    return endOn ((← writeSettings host settingsFileName force).map fun () => settingsWritten)

/-- Run the program. -/
def run [SearchEngine] (host : Host m) (environment : String → Option Text) (onTerminal : Bool)
    (arguments : List Text) : m Exit :=
  match Command.ofArguments (environment "LUADEOB_CONFIG") arguments with
  | .error error => return endOnUsage error
  | .ok command => execute host (coloursWanted environment onTerminal) command

end Program

end LuaUnveil
