import LuaUnveil.Report.Basic

/-!
# Switches of the command line

The switches that the commands know, how they are spelled, and what a command accepts.

* `Switch`: the switches, with their long and short spellings.
* `Switch.acceptsValue`: which values a switch takes.
* `CommandForm`: the switches of a command, and whether it takes files.
-/

namespace LuaUnveil

/-- The switches of all commands. -/
inductive Switch where
  | bundled | format | output | settings | simplifyFully | reportUndecoded | verbose | force
  | help | version
  deriving Repr, DecidableEq

namespace Switch

/-- The long spelling, behind two dashes. -/
def long : Switch → Text
  | bundled => "example".toList
  | format => "format".toList
  | output => "output".toList
  | settings => "config".toList
  | simplifyFully => "fixed-point".toList
  | reportUndecoded => "report-warnings".toList
  | verbose => "verbose".toList
  | force => "force".toList
  | help => "help".toList
  | version => "version".toList

/-- The short spelling, behind one dash. -/
def short? : Switch → Option Char
  | format => some 'f'
  | output => some 'o'
  | verbose => some 'v'
  | help => some 'h'
  | version => some 'V'
  | _ => none

/-- Whether a value follows the switch. -/
def takesValue : Switch → Bool
  | bundled | format | output | settings => true
  | _ => false

/-- Whether the switch takes a value: a format must be known, a path must not be empty, and the
name of an example is looked up later. -/
def acceptsValue : Switch → Text → Bool
  | format, value => (ReportFormat.ofName? value).isSome
  | output, value => !value.isEmpty
  | settings, value => !value.isEmpty
  | _, _ => true

end Switch

/-- What a command accepts. -/
structure CommandForm where
  switches : List Switch
  takesFiles : Bool := false
  deriving Repr, DecidableEq

namespace CommandForm

/-- Deobfuscate scripts. -/
def run : CommandForm where
  switches := [
    .bundled, .format, .output, .settings, .simplifyFully, .reportUndecoded, .verbose, .help]
  takesFiles := true

/-- List the bundled examples. -/
def examples : CommandForm where
  switches := [.help]

/-- Write a settings file. -/
def init : CommandForm where
  switches := [.force, .help]

/-- The program itself, in front of a command. -/
def top : CommandForm where
  switches := [.help, .version]

/-- The switch of a long spelling. -/
def ofLong? (form : CommandForm) (name : Text) : Option Switch :=
  form.switches.find? fun s => s.long == name

/-- The switch of a short spelling. -/
def ofShort? (form : CommandForm) (c : Char) : Option Switch :=
  form.switches.find? fun s => s.short? == some c

end CommandForm

end LuaUnveil
